import MiniCodeAgent.Proofs.LedgerFraming

/-!
# The chain of a log

`read` accepts a list of rows if each one verifies at its place and names the
signature of the row before it: that is `Chain`, which the loop of `read`
decides. A row `append` writes is the next one of the chain it found, so a file
that ended its last line reads back with the payload added to it. A file that did not
reads back as nothing: the two rows in one line are no JSON.
-/

namespace MiniCodeAgent.ConversationLedger

variable {F : Type} [Json.PyFloat F] (env : LedgerEnv)

/-- The row is one the key holder signed for this log, place and predecessor. -/
structure Verified (logName : String) (row : Dict (Json F)) (sequence : Int)
    (previousHmac : String) (payload : Dict (Json F)) : Prop where
  version : pyInt ((Json.obj row).getD "schema_version" (.int 0)) = .ok logSchemaVersion
  bound : ((Json.obj row).getD "log_name" .null).pyEq (.str logName) = true
  sequence : rowSequence row = .ok sequence
  body : rowBody row = .ok (previousHmac, payload)
  hmac : rowHmac row = .ok (hmacOf env
    (authenticated logName ((Json.obj row).getD "sequence" .null) previousHmac payload))

theorem compareDigest_hex {a b : String} (hb : isHex b = true) :
    compareDigest a b = .ok true ↔ a = b := by
  unfold compareDigest
  split
  · rw [Except.ok.injEq, beq_iff_eq]
  · next h =>
      constructor
      · exact fun h => nomatch h
      · intro hab
        rw [hab, isAscii_of_isHex hb] at h
        exact absurd rfl h

variable {env}

theorem verifyEnvelope_ok {row : Dict (Json F)} {logName : String} {expected : Option Int}
    {u : Unit} : verifyEnvelope env row logName expected = .ok u ↔
      ∃ sequence previousHmac payload,
        Verified env logName row sequence previousHmac payload ∧
          ∀ e, expected = some e → e = sequence := by
  have hhex : ∀ a : Dict (Json F), isHex (hmacOf env a) = true :=
    fun a => env.digests.hmacSha256_hex _ _
  have hany : ∀ {sequence : Int}, ¬ (expected.any (fun e => decide (e ≠ sequence))) = true ↔
      ∀ e, expected = some e → e = sequence := by
    intro sequence
    cases expected with
    | none => simp
    | some e => simp
  unfold verifyEnvelope
  simp only [except_bind_ok, raiseIf_ok]
  constructor
  · intro h
    obtain ⟨version, hversion, _, htwo, _, hname, sequence, hsequence, _, hexpected, body, hbody,
      recorded, hrecorded, same, hsame, hmatch⟩ := h
    rw [Decidable.not_not] at htwo hname
    rw [Bool.not_eq_false] at hmatch
    rw [hmatch, compareDigest_hex (hhex _)] at hsame
    rw [htwo] at hversion
    rw [hsame] at hrecorded
    exact ⟨sequence, body.1, body.2, ⟨hversion, hname, hsequence, hbody, hrecorded⟩,
      hany.1 hexpected⟩
  · intro h
    obtain ⟨sequence, previousHmac, payload, hv, hexpected⟩ := h
    refine ⟨_, hv.version, (), not_not.2 rfl, (), not_not.2 hv.bound, _, hv.sequence, (),
      hany.2 hexpected, (previousHmac, payload), hv.body, _, hv.hmac, true, ?_, Bool.noConfusion⟩
    exact (compareDigest_hex (hhex _)).2 rfl

variable (env)

/-- The rows are a chain of the log from a place on, and carry the payloads. -/
inductive Chain (logName : String) :
    Int → String → List (Dict (Json F)) → List (Dict (Json F)) → Prop where
  | nil (sequence : Int) (previousHmac : String) : Chain logName sequence previousHmac [] []
  | cons {sequence : Int} {previousHmac tag : String} {row payload : Dict (Json F)}
      {rows payloads : List (Dict (Json F))}
      (verified : Verified env logName row sequence previousHmac payload)
      (hmac : rowHmac row = .ok tag) (rest : Chain logName (sequence + 1) tag rows payloads) :
      Chain logName sequence previousHmac (row :: rows) (payload :: payloads)

variable {env} {logName : String}

theorem Verified.unique {row : Dict (Json F)} {s s' : Int} {p p' : String}
    {payload payload' : Dict (Json F)} (h : Verified env logName row s p payload)
    (h' : Verified env logName row s' p' payload') : s = s' ∧ p = p' ∧ payload = payload' := by
  have hs := h.sequence.symm.trans h'.sequence
  have hb := h.body.symm.trans h'.body
  cases hs
  cases hb
  exact ⟨rfl, rfl, rfl⟩

theorem readRows_ok {path : String} {sequence : Int} {previousHmac : String}
    {rows payloads : List (Dict (Json F))} :
    readRows env path logName sequence previousHmac rows = .ok payloads ↔
      Chain env logName sequence previousHmac rows payloads := by
  induction rows generalizing sequence previousHmac payloads with
  | nil =>
      rw [readRows]
      constructor
      · intro h
        cases h
        exact .nil sequence previousHmac
      · intro h
        cases h
        rfl
  | cons row rows ih =>
      rw [readRows]
      simp only [except_bind_ok, raiseIf_ok]
      constructor
      · intro h
        obtain ⟨_, hverify, body, hbody, _, hprevious, tag, htag, rest, hrest, h⟩ := h
        cases h
        obtain ⟨s, p, payload, hv, hs⟩ := verifyEnvelope_ok.1 hverify
        rw [Decidable.not_not] at hprevious
        have hp := hv.body.symm.trans hbody
        cases hp
        rw [← hs sequence rfl, show p = previousHmac from hprevious] at hv
        exact .cons hv htag (ih.1 hrest)
      · intro h
        cases h with
        | cons hv htag hrest =>
            refine ⟨(), verifyEnvelope_ok.2 ⟨_, _, _, hv, fun e he => ?_⟩, _, hv.body, (),
              by simp, _, htag, _, ih.2 hrest, rfl⟩
            exact (Option.some.inj he).symm

theorem read_ok {path : String} {file : LogFile} {payloads : List (Dict (Json F))} :
    read env path logName file = .ok payloads ↔
      ∃ rows, readRawRows file = .ok rows ∧ Chain env logName 0 "" rows payloads := by
  rw [read, except_bind_ok]
  constructor
  · rintro ⟨rows, hrows, h⟩
    exact ⟨rows, hrows, readRows_ok.1 h⟩
  · rintro ⟨rows, hrows, h⟩
    exact ⟨rows, hrows, readRows_ok.2 h⟩

/-! ## The next row -/

/-- The signature the next row of a chain names. -/
def lastHmac (previousHmac : String) : List (Dict (Json F)) → String
  | [] => previousHmac
  | row :: rows => lastHmac ((rowHmac row).toOption.getD previousHmac) rows

omit [Json.PyFloat F] in
theorem lastHmac_of_getLast {row : Dict (Json F)} {tag : String} (htag : rowHmac row = .ok tag)
    (previousHmac : String) {rows : List (Dict (Json F))} (hlast : rows.getLast? = some row) :
    lastHmac previousHmac rows = tag := by
  induction rows generalizing previousHmac with
  | nil => cases hlast
  | cons first rows ih =>
      rw [lastHmac]
      cases rows with
      | nil =>
          rw [show first = row from Option.some.inj hlast, lastHmac, htag]
          rfl
      | cons second rows =>
          rw [List.getLast?_cons_cons] at hlast
          exact ih _ hlast

theorem Chain.snoc {sequence : Int} {previousHmac : String}
    {rows payloads : List (Dict (Json F))}
    (h : Chain env logName sequence previousHmac rows payloads) {row payload : Dict (Json F)}
    (hrow : Verified env logName row (sequence + rows.length) (lastHmac previousHmac rows) payload) :
    Chain env logName sequence previousHmac (rows ++ [row]) (payloads ++ [payload]) := by
  induction h with
  | nil sequence previousHmac =>
      rw [List.length_nil, Nat.cast_zero, add_zero] at hrow
      exact .cons hrow hrow.hmac (.nil _ _)
  | @cons sequence previousHmac tag first payload' rows payloads hv htag hrest ih =>
      refine .cons hv htag (ih ?_)
      rw [lastHmac, htag] at hrow
      have hplace : sequence + ((first :: rows).length : Int) = sequence + 1 + (rows.length : Int) := by
        rw [List.length_cons]
        omega
      rw [hplace] at hrow
      exact hrow

theorem Chain.last {sequence : Int} {previousHmac : String}
    {rows payloads : List (Dict (Json F))}
    (h : Chain env logName sequence previousHmac rows payloads) {row : Dict (Json F)}
    (hlast : rows.getLast? = some row) :
    ∃ p payload, Verified env logName row (sequence + rows.length - 1) p payload := by
  induction h with
  | nil sequence previousHmac => cases hlast
  | @cons sequence previousHmac tag first payload rows payloads hv htag hrest ih =>
      rw [List.length_cons]
      cases rows with
      | nil =>
          cases hlast
          exact ⟨_, _, by
            rw [List.length_nil, zero_add, Nat.cast_one, add_sub_cancel_right]
            exact hv⟩
      | cons second rows =>
          rw [List.getLast?_cons_cons] at hlast
          obtain ⟨p, payload', hv'⟩ := ih hlast
          refine ⟨p, payload', ?_⟩
          have hplace : sequence + (((second :: rows).length + 1 : Nat) : Int) - 1 =
              sequence + 1 + ((second :: rows).length : Int) - 1 := by omega
          rw [hplace]
          exact hv'

theorem Chain.length_eq {sequence : Int} {previousHmac : String}
    {rows payloads : List (Dict (Json F))}
    (h : Chain env logName sequence previousHmac rows payloads) :
    rows.length = payloads.length := by
  induction h with
  | nil => rfl
  | cons _ _ _ ih => rw [List.length_cons, List.length_cons, ih]

/-- What `append` writes behind a chain. -/
theorem nextEnvelope_of_chain {file : LogFile} {rows payloads : List (Dict (Json F))}
    (hrows : readRawRows file = .ok rows) (h : Chain env logName 0 "" rows payloads)
    (payload : Dict (Json F)) {row : Dict (Json F)} :
    nextEnvelope env logName payload file = .ok row ↔
      env.key.size ≠ 0 ∧ row = envelope env logName rows.length (lastHmac "" rows) payload := by
  have hnext : ∀ next : Option (Dict (Json F)) → Except PyExc (Dict (Json F)),
      next none = .ok (envelope env logName 0 "" payload) →
      (∀ last, next (some last) = do
        verifyEnvelope env last logName none
        let lastSequence ← rowSequence last
        let lastHmac ← rowHmac last
        return envelope env logName (lastSequence + 1) lastHmac payload) →
      (readLastRawRow file >>= next) =
        .ok (envelope env logName rows.length (lastHmac "" rows) payload) := by
    intro next hnone hsome
    rw [readLastRawRow_of_rows hrows, except_ok_bind]
    rcases List.eq_nil_or_concat rows with rfl | ⟨before, last, rfl⟩
    · exact hnone
    · rw [List.concat_eq_append] at h ⊢
      have hlast : (before ++ [last]).getLast? = some last := List.getLast?_concat
      obtain ⟨p, payload', hv⟩ := h.last hlast
      have hverify : verifyEnvelope env last logName none = .ok () :=
        verifyEnvelope_ok.2 ⟨_, _, _, hv, fun e he => by cases he⟩
      rw [hlast, hsome, hverify, except_ok_bind, hv.sequence, except_ok_bind, hv.hmac,
        except_ok_bind, lastHmac_of_getLast hv.hmac "" hlast, zero_add, sub_add_cancel]
      rfl
  rw [nextEnvelope, except_bind_ok]
  constructor
  · rintro ⟨_, hkey, h⟩
    have hrow := Except.ok.inj ((hnext _ rfl fun _ => rfl).symm.trans h)
    exact ⟨raiseIf_ok.1 hkey, hrow.symm⟩
  · rintro ⟨hkey, rfl⟩
    exact ⟨(), raiseIf_ok.2 hkey, hnext _ rfl fun _ => rfl⟩

/-! ## Envelopes read back -/

omit [Json.PyFloat F] in
theorem authenticated_wf {payload : Dict (Json F)} (h : (Json.obj payload).WF)
    {sequence : Json F} (hsequence : sequence.WF) (logName previousHmac : String) :
    (Json.obj (authenticated logName sequence previousHmac payload)).WF := by
  have hkeys : ["schema_version", "log_name", "sequence", "previous_hmac", "payload"].Nodup := by
    decide
  refine Json.wf_obj.2 ⟨hkeys, ?_⟩
  intro kv hkv
  simp only [authenticated, List.mem_cons, List.not_mem_nil, or_false] at hkv
  rcases hkv with rfl | rfl | rfl | rfl | rfl
  · simp
  · simp
  · exact hsequence
  · simp
  · exact h

theorem envelope_wf {payload : Dict (Json F)} (h : (Json.obj payload).WF) (logName : String)
    (sequence : Int) (previousHmac : String) :
    (Json.obj (envelope env logName sequence previousHmac payload)).WF := by
  have hsequence : (Json.int sequence : Json F).WF := by simp
  have hsigned := Json.wf_obj.1 (authenticated_wf h hsequence logName previousHmac)
  have hkeys : ["schema_version", "log_name", "sequence", "previous_hmac", "payload",
      "hmac_sha256"].Nodup := by decide
  refine Json.wf_obj.2 ⟨hkeys, ?_⟩
  intro kv hkv
  rcases List.mem_append.1 hkv with hkv | hkv
  · exact hsigned.2 kv hkv
  · rw [List.mem_singleton.1 hkv]
    simp

/-- The signature does not see the order of the payload's items. -/
theorem canonicalJson_sorted (logName : String) (sequence : Json F) (previousHmac : String)
    (payload : Dict (Json F)) :
    canonicalJson (.obj (authenticated logName sequence previousHmac (sorted payload))) =
      canonicalJson (.obj (authenticated logName sequence previousHmac payload)) := by
  have hpayload : (Json.obj (sorted payload)).sortKeys = (Json.obj payload).sortKeys := by
    rw [← sortKeys_obj, Json.sortKeys_sortKeys]
  rw [canonicalJson, canonicalJson, Json.canonical, Json.canonical, Json.sortKeys, Json.sortKeys,
    Json.sortMembers_eq_map, Json.sortMembers_eq_map, authenticated, authenticated]
  simp only [List.map_cons, List.map_nil, hpayload]

theorem hmacOf_sorted (logName : String) (sequence : Json F) (previousHmac : String)
    (payload : Dict (Json F)) :
    hmacOf env (authenticated logName sequence previousHmac (sorted payload)) =
      hmacOf env (authenticated logName sequence previousHmac payload) := by
  rw [hmacOf, canonicalJson_sorted, hmacOf]

theorem get?_envelope {payload : Dict (Json F)} (h : (Json.obj payload).WF) (logName : String)
    (sequence : Int) (previousHmac key : String) :
    Dict.get? (sorted (envelope env logName sequence previousHmac payload)) key =
      (Dict.get? (envelope env logName sequence previousHmac payload) key).map Json.sortKeys :=
  Json.get?_sortKeys (envelope_wf h logName sequence previousHmac) key

theorem sequence_envelope {payload : Dict (Json F)} (h : (Json.obj payload).WF)
    (sequence : Int) (previousHmac : String) :
    (Json.obj (sorted (envelope env logName sequence previousHmac payload))).getD "sequence" .null =
      .int sequence := by
  rw [Json.getD, Json.get?_obj, get?_envelope h]
  rfl

theorem verified_envelope {payload : Dict (Json F)} (h : (Json.obj payload).WF) {sequence : Int}
    (hsequence : 0 ≤ sequence) (previousHmac : String) :
    Verified env logName (sorted (envelope env logName sequence previousHmac payload)) sequence
      previousHmac (sorted payload) := by
  have hget := @get?_envelope _ _ env _ h logName sequence previousHmac
  have hversion : Dict.get? (sorted (envelope env logName sequence previousHmac payload))
      "schema_version" = some (.int logSchemaVersion) := by rw [hget]; rfl
  have hname : Dict.get? (sorted (envelope env logName sequence previousHmac payload))
      "log_name" = some (.str logName) := by rw [hget]; rfl
  have hplace : Dict.get? (sorted (envelope env logName sequence previousHmac payload))
      "sequence" = some (.int sequence) := by rw [hget]; rfl
  have hprevious : Dict.get? (sorted (envelope env logName sequence previousHmac payload))
      "previous_hmac" = some (.str previousHmac) := by rw [hget]; rfl
  have hpayload : Dict.get? (sorted (envelope env logName sequence previousHmac payload))
      "payload" = some (.obj (sorted payload)) := by rw [hget]; rfl
  have hhmac : Dict.get? (sorted (envelope env logName sequence previousHmac payload))
      "hmac_sha256" = some (.str (hmacOf env
        (authenticated logName (.int sequence) previousHmac payload))) := by rw [hget]; rfl
  refine ⟨?_, ?_, ?_, ?_, ?_⟩
  · rw [Json.getD, Json.get?_obj, hversion]
    rfl
  · rw [Json.getD, Json.get?_obj, hname]
    exact (Json.pyEq_str_right _ _).2 rfl
  · rw [rowSequence, hplace]
    exact if_neg (not_lt.2 hsequence)
  · rw [rowBody, hprevious, hpayload]
  · have hlength : (hmacOf env
        (authenticated logName (.int sequence) previousHmac payload)).length = 64 :=
      env.hmac_length _
    rw [rowHmac, hhmac, Json.getD, Json.get?_obj, hplace]
    show (if _ then _ else _) = _
    rw [if_neg (not_not.2 hlength)]
    exact congrArg Except.ok (hmacOf_sorted logName _ previousHmac payload).symm

end MiniCodeAgent.ConversationLedger

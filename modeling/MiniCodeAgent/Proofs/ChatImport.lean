import MiniCodeAgent.Proofs.ChatFile
import MiniCodeAgent.Proofs.Checkpoints
import MiniCodeAgent.Proofs.StateLeaves
import Mathlib.Data.List.Chain
import Mathlib.Data.List.DropRight

/-!
# An import keeps the chat

A message is addressed by its host's id when that id is new, and by its place
otherwise. The two forms part behind the conversation, and a place occurs once, so
no address is given twice and no checkpoint finds one event twice among its sources
(`Imported`). The loop never closes a checkpoint without opening the next one behind
it, so what the checkpoints have for sources is the events up to the last summary.

An event is known by the digest of its address, so the claim on the ids rests on
there being no collision among the chat's own addresses. A collision of two
checkpoints is no failure: the ledger takes the second one for the first.
-/

namespace MemoryCore

open MiniCodeAgent Json

variable {F : Type}

/-! ## What an import is given -/

/-- The keys of every dictionary the caller passes are distinct. -/
def ChatInput.WF : ChatInput F → Prop
  | .text _ => True
  | .mapping value => (Json.obj value).WF
  | .records values => ∀ value ∈ values, value.WF

theorem objectRecords_wf {values : List (Json F)} (hwf : ∀ value ∈ values, value.WF)
    {parsed : List (Dict (Json F))} (h : objectRecords values = .ok parsed) :
    ∀ record ∈ parsed, (Json.obj record).WF := by
  intro record hrecord
  obtain ⟨item, hitem, h⟩ := except_mapM_mem_result h hrecord
  have hmem := hwf item.1 (List.fst_mem_of_mem_zipIdx hitem)
  split at h
  · next value hvalue =>
      cases h
      rwa [hvalue] at hmem
  · cases h

theorem recordsFromMapping_wf {value : Dict (Json F)} (hwf : (Json.obj value).WF)
    {parsed : List (Dict (Json F))} (h : recordsFromMapping value = .ok parsed) :
    ∀ record ∈ parsed, (Json.obj record).WF := by
  have hget : ∀ {key : String} {found : Json F}, value.get? key = some found → found.WF :=
    fun hfound => (wf_obj.1 hwf).2 _ (Dict.mem_of_get? hfound)
  unfold recordsFromMapping at h
  split at h
  · next candidate hcandidate =>
      obtain ⟨key, -, hkey⟩ := List.exists_of_findSome?_eq_some hcandidate
      have hvalues : ∀ item ∈ candidate, item.WF := by
        split at hkey
        · next found hfound =>
            cases hkey
            exact wf_arr.1 (hget hfound)
        · cases hkey
      obtain ⟨records, hrecords, h⟩ := except_bind_ok.1 h
      have hall := objectRecords_wf hvalues hrecords
      split at h
      · next metadata hmetadata =>
          cases h
          intro record hrecord
          rcases List.mem_cons.1 hrecord with heq | hrest
          · rw [heq]
            refine wf_obj.2 ⟨List.nodup_singleton _, fun kv hkv => ?_⟩
            rw [List.mem_singleton.1 hkv]
            exact hget hmetadata
          · exact hall record hrest
      · cases h
        exact hall
  · cases h
    intro record hrecord
    rwa [List.mem_singleton.1 hrecord]

theorem parseRecords_wf [PyFloat F] {records : ChatInput F} (hwf : records.WF) {maxInputBytes : Int}
    {parsed : List (Dict (Json F))} {sourceFormat : String}
    (h : parseRecords records maxInputBytes = .ok (parsed, sourceFormat)) :
    ∀ record ∈ parsed, (Json.obj record).WF := by
  unfold parseRecords at h
  cases records with
  | text text =>
      dsimp only at h
      split at h
      · cases h
      · split at h
        · cases h
          exact fun record hrecord => absurd hrecord List.not_mem_nil
        · split at h
          · next values hvalues =>
              obtain ⟨_, hrecords, h⟩ := except_bind_ok.1 h
              cases h
              exact objectRecords_wf (wf_arr.1 (loads_wf hvalues)) hrecords
          · next value hvalue =>
              obtain ⟨_, hrecords, h⟩ := except_bind_ok.1 h
              cases h
              exact recordsFromMapping_wf (loads_wf hvalue) hrecords
          · obtain ⟨found, hfound, h⟩ := except_bind_ok.1 h
            cases h
            intro record hrecord
            obtain ⟨line, hline, hmem⟩ := List.mem_flatten.1 hrecord
            obtain ⟨numbered, -, hparse⟩ := except_mapM_mem_result hfound hline
            unfold parseLine at hparse
            split at hparse
            · cases hparse
              cases hmem
            · dsimp only at hparse
              split at hparse
              · cases hparse
              · next value hvalue =>
                  cases hparse
                  rw [List.mem_singleton.1 hmem]
                  exact loads_wf hvalue
              · cases hparse
  | mapping value =>
      obtain ⟨_, hrecords, h⟩ := except_bind_ok.1 h
      cases h
      exact recordsFromMapping_wf hwf hrecords
  | records values =>
      obtain ⟨_, hrecords, h⟩ := except_bind_ok.1 h
      cases h
      exact objectRecords_wf hwf hrecords

/-- The chat's own variables. -/
def chatVariables (metadata : Dict (Json F)) : Option (Dict (Json F)) :=
  match metadata.get? "variables" with
  | some (.obj values) => some values
  | _ => none

/-- The leaves of one object of variables. -/
def variableLeaves (maxDepth : Int) (values : Dict (Json F)) : List (String × Json F) :=
  (stateLeaves maxDepth (.obj values)).toOption.getD []

/-- The objects of variables that are gone through, in order: of the chat and of each message. -/
def allVariables (metadata : Dict (Json F)) (messages : List (Dict (Json F))) :
    List (Dict (Json F)) :=
  (chatVariables metadata).toList ++ messages.filterMap activeMessageVariables

def allLeaves (maxDepth : Int) (metadata : Dict (Json F)) (messages : List (Dict (Json F))) :
    List (String × Json F) :=
  (allVariables metadata messages).flatMap (variableLeaves maxDepth)

/-- How many of the leaves become candidates. -/
def countKept [PyFloat F] (env : ImportEnv F) (leaves : List (String × Json F)) : Nat :=
  leaves.countP fun leaf => !secretLeaf env leaf

/-- The limits, as the code checks them. -/
structure WithinLimits [PyFloat F] (env : ImportEnv F) (limits : ImportLimits)
    (metadata : Dict (Json F)) (messages : List (Dict (Json F))) : Prop where
  texts : ∀ record ∈ messages, ∃ mes, (record.get? "mes").getD (.str "") = .str mes ∧
    (mes.length : Int) ≤ limits.maxMessageChars
  depth : ∀ values ∈ allVariables metadata messages,
    ∃ leaves, stateLeaves limits.maxStateDepth (.obj values) = .ok leaves
  /-- At every leaf there is room for one more candidate. -/
  candidates : ∀ before leaf after,
    allLeaves limits.maxStateDepth metadata messages = before ++ leaf :: after →
      (countKept env before : Int) < limits.maxStateCandidates

/-! ## Addresses -/

section Addresses

variable (env : ImportEnv F) (conversationId : String)

/-- The address that a host's id gives. -/
def hostForm (digest : String) : String := "chat:" ++ conversationId ++ ":host-message:" ++ digest

/-- What a message may be addressed by: its host's id, or its place. -/
def chatRefs (messages : List (Dict (Json F))) : Set String :=
  {ref | ∃ i record, messages[i]? = some record ∧
    (ref = sourceRefOf env.repr env.digests record (extraOf record) conversationId i ∨
      ref = positionalRef conversationId i)}

variable {env conversationId}

theorem sourceRefOf_cases (record extra : Dict (Json F)) (index : Nat) :
    (∃ digest, sourceRefOf env.repr env.digests record extra conversationId index =
      hostForm conversationId digest) ∨
    sourceRefOf env.repr env.digests record extra conversationId index =
      positionalRef conversationId index := by
  unfold sourceRefOf
  split
  · exact Or.inl ⟨_, rfl⟩
  · exact Or.inr rfl

theorem hostForm_ne_positionalRef (digest : String) (index : Nat) :
    hostForm conversationId digest ≠ positionalRef conversationId index := by
  intro h
  have hlist := congrArg String.toList h
  simp only [hostForm, positionalRef, String.toList_append, List.append_assoc,
    List.append_cancel_left_eq] at hlist
  simp at hlist

theorem positionalRef_injective {i j : Nat}
    (h : positionalRef conversationId i = positionalRef conversationId j) : i = j := by
  have hlist := congrArg String.toList h
  simp only [positionalRef, String.toList_append, String.toList_ofList,
    List.append_cancel_left_eq] at hlist
  have hloads : ∀ n : Nat, (loads (String.ofList (dumpInt n)) : Option (Json Unit)) =
      some (.int n) := by
    intro n
    have hback : loads (dumps .compact (.int n : Json Unit)) = some (.int n) :=
      loads_dumps Style.compact_ok (.int n)
    rwa [dumps, dump] at hback
  have hsame := hloads i
  rw [hlist, hloads j] at hsame
  injection hsame with hsame
  injection hsame with hsame
  omega

theorem addressed_filled {ref : String} (h : (∃ digest, ref = hostForm conversationId digest) ∨
    ∃ i, ref = positionalRef conversationId i) : pyStrip ref ≠ "" := by
  refine pyStrip_ne_empty (c := 'c') ?_ (by decide)
  rcases h with ⟨digest, rfl⟩ | ⟨i, rfl⟩
  · simp [hostForm]
  · simp [positionalRef]

end Addresses

/-! ## One event -/

section Event

variable [PyFloat F] (env : ImportEnv F) (conversationId : String)

/-- The event of a message under an address. -/
def messageEvent (sourceRef mes : String) (record : Dict (Json F)) (index : Nat) :
    ConversationEvent F where
  eventId := eventIdOf F env.digests "sillytavern" sourceRef
  hostId := "sillytavern"
  conversationId := conversationId
  sourceRef := sourceRef
  sourceSha256 := digestJson env.digests (.obj record)
  sequence := .int index
  role := roleFor env.repr record (extraOf record)
  content := mes
  participantId := .str (fieldText env.repr record "name" (.str ""))
  createdAt := .str (fieldText env.repr record "send_date" (.str ""))
  metadataJson := canonical (.obj (messageMetadata env.digests record (extraOf record)))

variable {env conversationId}

theorem roleFor_mem (record extra : Dict (Json F)) :
    roleFor env.repr record extra ∈ conversationRoles := by
  unfold roleFor
  split_ifs <;> decide

theorem digest_filled {digests : Digests} (hlength : ∀ data, (digests.sha256 data).length = 64)
    (data : ByteArray) : pyStrip (digests.sha256 data) ≠ "" := by
  have hne : (digests.sha256 data).toList ≠ [] := by
    intro h
    have := hlength data
    rw [← String.length_toList, h] at this
    cases this
  obtain ⟨c, hc⟩ := List.exists_mem_of_ne_nil _ hne
  exact pyStrip_ne_empty hc
    (pyIsSpace_of_isHexDigit (List.all_eq_true.1 (digests.sha256_hex data) c hc))

omit [PyFloat F] in
theorem extraOf_wf {record : Dict (Json F)} (hwf : (Json.obj record).WF) :
    (Json.obj (extraOf record)).WF := by
  unfold extraOf
  split
  · next extra hextra => exact (wf_obj.1 hwf).2 _ (Dict.mem_of_get? hextra)
  · exact wf_obj.2 ⟨List.nodup_nil, fun kv hkv => absurd hkv List.not_mem_nil⟩

omit [PyFloat F] in
theorem getD_wf {record : Dict (Json F)} (hwf : (Json.obj record).WF) (key : String) :
    ((record.get? key).getD .null).WF := by
  cases hget : record.get? key with
  | none => exact .null
  | some value => exact (wf_obj.1 hwf).2 _ (Dict.mem_of_get? hget)

theorem messageMetadata_wf {record : Dict (Json F)} (hwf : (Json.obj record).WF) :
    (Json.obj (messageMetadata env.digests record (extraOf record))).WF := by
  have hkeys : Dict.keys (messageMetadata env.digests record (extraOf record)) =
      ["is_system", "is_user", "swipe_id", "swipe_count", "swipe_sha256", "type"] := rfl
  refine wf_obj.2 ⟨by rw [hkeys]; decide, ?_⟩
  simp only [messageMetadata, List.forall_mem_cons]
  refine ⟨.bool _, .bool _, getD_wf hwf _, .int _, ?_, getD_wf (extraOf_wf hwf) _, ?_⟩
  · refine wf_arr.2 fun x hx => ?_
    obtain ⟨digest, -, rfl⟩ := List.mem_map.1 hx
    exact .str digest
  · exact fun kv hkv => absurd hkv List.not_mem_nil

omit [PyFloat F] in
theorem requireText_filled {name text : String} (h : pyStrip text ≠ "") :
    ConversationEvent.requireText name (.str text : Json F) = .ok text := by
  show (do raiseIf (pyStrip text = "") _; return text : Except PyExc String) = .ok text
  rw [raiseIf, if_neg h, except_ok_bind]
  rfl

omit [PyFloat F] in
theorem keys_asdict (event : ConversationEvent F) :
    event.asdict.keys = ConversationEvent.fieldNames := rfl

/-- An event that is built from its own fields passes the checks. -/
theorem ofFields_asdict {event : ConversationEvent F} (hid : pyStrip event.eventId ≠ "")
    (hhost : pyStrip event.hostId ≠ "") (hconversation : pyStrip event.conversationId ≠ "")
    (href : pyStrip event.sourceRef ≠ "") (hsource : pyStrip event.sourceSha256 ≠ "")
    (hdigest : ConversationEvent.requireDigest event.sourceSha256 = .ok ())
    (hplace : ConversationEvent.requirePlace event.sequence = .ok ())
    (hrole : event.role ∈ conversationRoles) {metadata : Dict (Json F)}
    (hmetadata : loads event.metadataJson = some (.obj metadata)) (repr : Json F → String) :
    ConversationEvent.ofFields repr event.asdict = .ok event := by
  have hknown : ¬ ∃ name ∈ event.asdict.keys, name ∉ ConversationEvent.fieldNames := by
    rw [keys_asdict]
    exact fun ⟨_, hname, hnot⟩ => hnot hname
  have hrequired : ¬ ∃ name ∈ ConversationEvent.requiredNames,
      (event.asdict.get? name).isNone = true := by
    intro ⟨name, hname, hnone⟩
    rw [Option.isNone_iff_eq_none, Dict.get?_eq_none_iff, keys_asdict] at hnone
    exact hnone (List.mem_of_mem_take hname)
  have hroleOk : ConversationEvent.requireRole repr (.str event.role : Json F) =
      .ok event.role := by
    show (do raiseIf (event.role ∉ conversationRoles) _
             return event.role : Except PyExc String) = _
    rw [raiseIf, if_neg (not_not.2 hrole), except_ok_bind]
    rfl
  have hmetadataOk : ConversationEvent.requireMetadata (.str event.metadataJson : Json F) =
      .ok event.metadataJson := by
    unfold ConversationEvent.requireMetadata
    dsimp only
    rw [hmetadata]
  unfold ConversationEvent.ofFields
  rw [raiseIf, if_neg hknown, raiseIf, if_neg hrequired, except_ok_bind, except_ok_bind]
  simp only [ConversationEvent.asdict, Dict.get?_cons, String.reduceEq, ↓reduceIte,
    Option.getD_some]
  rw [requireText_filled hid, requireText_filled hhost, requireText_filled hconversation,
    requireText_filled href, requireText_filled hsource]
  simp only [except_ok_bind]
  rw [hdigest, hplace, hroleOk, hmetadataOk]
  rfl

theorem createEvent_message (hlength : ∀ data, (env.digests.sha256 data).length = 64)
    (hconversation : pyStrip conversationId ≠ "") {sourceRef : String}
    (href : pyStrip sourceRef ≠ "") {record : Dict (Json F)} (hwf : (Json.obj record).WF)
    (mes : String) (index : Nat) :
    createEvent env "sillytavern" conversationId sourceRef index
      (roleFor env.repr record (extraOf record)) mes (fieldText env.repr record "name" (.str ""))
      (fieldText env.repr record "send_date" (.str ""))
      (messageMetadata env.digests record (extraOf record)) (.obj record) =
    .ok (messageEvent env conversationId sourceRef mes record index) := by
  have hfields : createEvent env "sillytavern" conversationId sourceRef index
      (roleFor env.repr record (extraOf record)) mes (fieldText env.repr record "name" (.str ""))
      (fieldText env.repr record "send_date" (.str ""))
      (messageMetadata env.digests record (extraOf record)) (.obj record) =
    ConversationEvent.ofFields env.repr
      (messageEvent env conversationId sourceRef mes record index).asdict := rfl
  have hhost : pyStrip "sillytavern" ≠ "" := pyStrip_ne_empty (c := 's') (by simp) (by decide)
  have hid : pyStrip (eventIdOf F env.digests "sillytavern" sourceRef) ≠ "" :=
    digest_filled hlength _
  have hsource : pyStrip (digestJson env.digests (.obj record)) ≠ "" := digest_filled hlength _
  have hdigest : ConversationEvent.requireDigest (digestJson env.digests (.obj record)) = .ok () := by
    rw [ConversationEvent.requireDigest, raiseIf_ok, not_or, Ne, not_not]
    exact ⟨hlength _, by rw [digestJson, env.digests.sha256_hex]; exact Bool.noConfusion⟩
  have hplace : ConversationEvent.requirePlace (.int index : Json F) = .ok () := by
    show raiseIf (((index : Int) : Rat) < 0) _ = .ok ()
    rw [raiseIf_ok]
    exact not_lt.2 (by exact_mod_cast Nat.zero_le index)
  obtain ⟨metadata, hmetadata⟩ : ∃ metadata : Dict (Json F),
      loads (messageEvent env conversationId sourceRef mes record index).metadataJson =
        some (.obj metadata) := by
    generalize hvalue : messageMetadata env.digests record (extraOf record) = value
    have hback : loads (canonical (.obj value)) = some (Json.obj value).sortKeys :=
      loads_canonical (hvalue ▸ messageMetadata_wf hwf)
    rw [messageEvent, hvalue, hback, sortKeys]
    exact ⟨_, rfl⟩
  rw [hfields]
  exact @ofFields_asdict _ _ (messageEvent env conversationId sourceRef mes record index) hid hhost
    hconversation href hsource hdigest hplace (roleFor_mem record _) metadata hmetadata env.repr

end Event

/-! ## One checkpoint -/

/-- What is stripped of its spaces is not blank unless it is empty. -/
theorem pyStrip_stripped {text : String} (h : pyStrip text ≠ "") : pyStrip (pyStrip text) ≠ "" := by
  generalize hkept : ((text.toList.dropWhile pyIsSpace).reverse).dropWhile pyIsSpace = kept
  have hstrip : pyStrip text = String.ofList kept.reverse := by rw [pyStrip, hkept]
  cases kept with
  | nil => exact absurd hstrip h
  | cons c rest =>
      have hhead := List.head_dropWhile_not pyIsSpace
        (l := (text.toList.dropWhile pyIsSpace).reverse) (by rw [hkept]; simp)
      simp only [hkept, List.head_cons] at hhead
      exact pyStrip_ne_empty (c := c) (by rw [hstrip]; simp) hhead

/-- An event under its digest, as a checkpoint refers to it. -/
def revision (event : ConversationEvent F) : String × String := (event.eventId, event.sourceSha256)

theorem postInit_ok {fields : CheckpointFields} (hid : pyStrip fields.checkpointId ≠ "")
    (hconversation : pyStrip fields.conversationId ≠ "") (hsummary : pyStrip fields.summary ≠ "")
    (hsources : fields.sourceEventRevisions ≠ [])
    (hunique : (fields.sourceEventRevisions.map Prod.fst).Nodup) : fields.postInit = .ok () := by
  have hcard : (fields.sourceEventRevisions.map Prod.fst).toFinset.card =
      fields.sourceEventRevisions.length := by
    rw [List.toFinset_card_of_nodup hunique, List.length_map]
  unfold CheckpointFields.postInit
  rw [raiseIf, if_neg hid, except_ok_bind, raiseIf, if_neg hconversation, except_ok_bind, raiseIf,
    if_neg hsummary, except_ok_bind, raiseIf, if_neg hsources, except_ok_bind, raiseIf,
    if_neg (not_not.2 hcard)]

variable (F) in
/-- What the id of a checkpoint is the digest of. -/
def checkpointPayload (fields : CheckpointFields) : Json F :=
  .obj [("conversation_id", .str fields.conversationId), ("summary", .str fields.summary),
    ("source_event_revisions", .arr (fields.sourceEventRevisions.map fun r =>
      .arr [.str r.1, .str r.2])),
    ("parent_checkpoint_id", jsonOptText fields.parentCheckpointId),
    ("producer", .str fields.producer), ("created_at", .str fields.createdAt)]

section Checkpoint

variable [PyFloat F] {env : ImportEnv F} {conversationId : String}

/-- The checkpoint of a summary of the events. -/
structure Closes (env : ImportEnv F) (conversationId summary : String)
    (events : List (ConversationEvent F)) (parent : Option String)
    (checkpoint : MemoryCheckpoint) : Prop where
  id : checkpoint.checkpointId =
    digestJson env.digests (checkpointPayload F checkpoint.toCheckpointFields)
  conversation : checkpoint.conversationId = conversationId
  summary : checkpoint.summary = pyStrip summary
  sources : checkpoint.sourceEventRevisions = events.map revision
  parent : checkpoint.parentCheckpointId = parent

theorem create_closes (hlength : ∀ data, (env.digests.sha256 data).length = 64)
    (hconversation : pyStrip conversationId ≠ "") {summary : String}
    (hsummary : pyStrip summary ≠ "") {events : List (ConversationEvent F)} (hne : events ≠ [])
    (hsame : ∀ event ∈ events, event.conversationId = conversationId)
    (hids : (events.map (·.eventId)).Nodup) (parent : Option String) (producer createdAt : String) :
    ∃ checkpoint,
      MemoryCheckpoint.create env.digests summary events parent producer createdAt =
        .ok checkpoint ∧ Closes env conversationId summary events parent checkpoint := by
  obtain ⟨first, rest, rfl⟩ := List.exists_cons_of_ne_nil hne
  have hfirst : first.conversationId = conversationId := hsame first List.mem_cons_self
  have hcard : ((first :: rest).map (·.conversationId)).toFinset.card = 1 := by
    have hset : ((first :: rest).map (·.conversationId)).toFinset = {conversationId} := by
      ext other
      simp only [List.mem_toFinset, List.mem_map, Finset.mem_singleton]
      constructor
      · rintro ⟨event, hevent, rfl⟩
        exact hsame event hevent
      · rintro rfl
        exact ⟨first, List.mem_cons_self, hfirst⟩
    rw [hset, Finset.card_singleton]
  generalize hfields : (⟨digestJson env.digests (checkpointPayload F ⟨"", first.conversationId,
    pyStrip summary, (first :: rest).map revision, parent, producer, createdAt⟩),
    first.conversationId, pyStrip summary, (first :: rest).map revision, parent, producer,
    createdAt⟩ : CheckpointFields) = fields
  have hunique : (((first :: rest).map revision).map Prod.fst).Nodup := by
    rw [List.map_map]
    exact hids
  have hchecked : fields.postInit = .ok () := by
    subst hfields
    exact postInit_ok (digest_filled hlength _) (by rw [hfirst]; exact hconversation)
      (pyStrip_stripped hsummary) (List.cons_ne_nil _ _) hunique
  refine ⟨⟨fields, hchecked⟩, ?_, ?_⟩
  · unfold MemoryCheckpoint.create
    dsimp only
    rw [raiseIf, if_neg (not_not.2 hcard), except_ok_bind]
    subst hfields
    split
    · rfl
    · next exc hraised => exact absurd (hraised.symm.trans hchecked) (by simp)
  · subst hfields
    exact ⟨rfl, hfirst, rfl, rfl, rfl⟩

end Checkpoint

/-! ## The chain -/

section Chain

variable [PyFloat F] {env : ImportEnv F} {conversationId : String}

/-- The checkpoints follow each other, and their sources are the first so many events. -/
structure Partitions (env : ImportEnv F) (n : Nat) (events : List (ConversationEvent F))
    (checkpoints : List MemoryCheckpoint) : Prop where
  root : ∀ first ∈ checkpoints.head?, first.parentCheckpointId = none
  chained : checkpoints.IsChain fun before after =>
    after.parentCheckpointId = some before.checkpointId
  covered : checkpoints.flatMap (·.sourceEventRevisions) = (events.take n).map revision
  ids : ∀ checkpoint ∈ checkpoints, checkpoint.checkpointId =
    digestJson env.digests (checkpointPayload F checkpoint.toCheckpointFields)

variable {n : Nat} {events : List (ConversationEvent F)} {checkpoints : List MemoryCheckpoint}

theorem Partitions.event (h : Partitions env n events checkpoints) (hn : n ≤ events.length)
    (event : ConversationEvent F) : Partitions env n (events ++ [event]) checkpoints where
  root := h.root
  chained := h.chained
  covered := by rw [List.take_append_of_le_length hn, h.covered]
  ids := h.ids

/-- A summary closes the events that are open. -/
theorem Partitions.close (h : Partitions env n events checkpoints) {summary : String}
    {checkpoint : MemoryCheckpoint}
    (hcloses : Closes env conversationId summary (events.drop n)
      (checkpoints.getLast?.map (·.checkpointId)) checkpoint) :
    Partitions env events.length events (checkpoints ++ [checkpoint]) where
  root := by
    intro first hfirst
    cases checkpoints with
    | nil =>
        cases hfirst
        exact hcloses.parent
    | cons other rest => exact h.root first hfirst
  chained := by
    refine List.isChain_append.2 ⟨h.chained, List.isChain_singleton _, ?_⟩
    intro last hlast next hnext
    cases hnext
    rw [hcloses.parent, Option.mem_def.1 hlast]
    rfl
  covered := by
    rw [List.flatMap_append, h.covered, List.flatMap_singleton, hcloses.sources, ← List.map_append,
      List.take_append_drop, List.take_length]
  ids := by
    intro found hfound
    rcases List.mem_append.1 hfound with hold | hnew
    · exact h.ids found hold
    · rw [List.mem_singleton.1 hnew]
      exact hcloses.id

/-- A checkpoint refers to one event at least. -/
theorem sources_ne_nil (checkpoint : MemoryCheckpoint) : checkpoint.sourceEventRevisions ≠ [] := by
  have hchecked := checkpoint.checked
  unfold CheckpointFields.postInit at hchecked
  obtain ⟨_, -, hchecked⟩ := except_bind_ok.1 hchecked
  obtain ⟨_, -, hchecked⟩ := except_bind_ok.1 hchecked
  obtain ⟨_, -, hchecked⟩ := except_bind_ok.1 hchecked
  obtain ⟨_, hsources, -⟩ := except_bind_ok.1 hchecked
  exact raiseIf_ok.1 hsources

/-- Without a collision of what they are digests of, the ids of the checkpoints differ. -/
theorem Partitions.ids_nodup (h : Partitions env n events checkpoints)
    (hevents : (events.map (·.eventId)).Nodup)
    (hinj : Set.InjOn (digestJson env.digests)
      {payload | ∃ checkpoint ∈ checkpoints,
        payload = checkpointPayload F checkpoint.toCheckpointFields}) :
    (checkpoints.map (·.checkpointId)).Nodup := by
  have hsources : (checkpoints.flatMap (·.sourceEventRevisions)).Nodup := by
    rw [h.covered]
    refine List.Nodup.of_map Prod.fst ?_
    rw [List.map_map]
    exact hevents.sublist (List.Sublist.map _ (List.take_sublist _ _))
  have hapart := (List.nodup_flatMap.1 hsources).2
  refine List.pairwise_map.2 (hapart.imp_of_mem ?_)
  intro a b ha hb hdisjoint hsame
  rw [h.ids a ha, h.ids b hb] at hsame
  have hpayload := hinj ⟨a, ha, rfl⟩ ⟨b, hb, rfl⟩ hsame
  have hequal : a.sourceEventRevisions = b.sourceEventRevisions := by
    simp only [checkpointPayload, Json.obj.injEq, List.cons.injEq, Prod.mk.injEq, Json.arr.injEq,
      true_and] at hpayload
    have hlists := hpayload.2.2.1
    refine List.map_injective_iff.2 ?_ hlists
    intro r r' hr
    simp only [Json.arr.injEq, List.cons.injEq, Json.str.injEq, and_true] at hr
    exact Prod.ext hr.1 hr.2
  obtain ⟨entry, hentry⟩ := List.exists_mem_of_ne_nil _ (sources_ne_nil a)
  refine hdisjoint hentry ?_
  show entry ∈ b.sourceEventRevisions
  rwa [← hequal]

/-- The ledger is at the last of the checkpoints. -/
structure Tracks (conversationId : String) (checkpoints : List MemoryCheckpoint)
    (ledger : CheckpointLedger) : Prop where
  keys : ∀ id found, ledger.checkpoints.get? id = some found →
    found.checkpointId = id ∧ found.conversationId = conversationId
  active : ledger.active.map (·.checkpointId) = checkpoints.getLast?.map (·.checkpointId)
  empty : checkpoints = [] → ledger.checkpoints = []

theorem Tracks.admits {ledger : CheckpointLedger} (h : Tracks conversationId checkpoints ledger)
    {checkpoint : MemoryCheckpoint} (hconversation : checkpoint.conversationId = conversationId)
    (hparent : checkpoint.parentCheckpointId = ledger.active.map (·.checkpointId)) :
    ledger.admits checkpoint = .ok () := by
  unfold CheckpointLedger.admits
  rw [hparent]
  cases hactive : ledger.active with
  | none =>
      have hlast : checkpoints = [] := by
        have htracked := h.active
        rw [hactive, Option.map_none, eq_comm, Option.map_eq_none_iff] at htracked
        exact List.getLast?_eq_none_iff.1 htracked
      rw [Option.map_none, raiseIf, if_neg (fun hfull => hfull.1 (h.empty hlast))]
  | some parent =>
      have hfound : ledger.checkpoints.get? (ledger.activeId.getD "") = some parent := hactive
      obtain ⟨hid, hsame⟩ := h.keys _ _ hfound
      dsimp only [Option.map_some]
      rw [hid, hfound]
      dsimp only
      rw [raiseIf, if_neg (not_not.2 (hsame.trans hconversation.symm))]

theorem Tracks.append {ledger : CheckpointLedger} (h : Tracks conversationId checkpoints ledger)
    {checkpoint : MemoryCheckpoint} (hconversation : checkpoint.conversationId = conversationId)
    (hparent : checkpoint.parentCheckpointId = ledger.active.map (·.checkpointId)) :
    ∃ next, ledger.append checkpoint = .ok next ∧
      Tracks conversationId (checkpoints ++ [checkpoint]) next := by
  have hlast : (checkpoints ++ [checkpoint]).getLast?.map (·.checkpointId) =
      some checkpoint.checkpointId := by rw [List.getLast?_concat, Option.map_some]
  have hfull : checkpoints ++ [checkpoint] ≠ [] := by simp
  unfold CheckpointLedger.append
  by_cases hknown : (ledger.checkpoints.get? checkpoint.checkpointId).isSome = true
  · rw [if_pos hknown]
    obtain ⟨found, hfound⟩ := Option.isSome_iff_exists.1 hknown
    refine ⟨_, rfl, h.keys, ?_, fun hempty => absurd hempty hfull⟩
    show (ledger.checkpoints.get? checkpoint.checkpointId).map (·.checkpointId) = _
    rw [hlast, hfound, Option.map_some, (h.keys _ _ hfound).1]
  · rw [if_neg hknown, h.admits hconversation hparent, except_ok_bind]
    refine ⟨_, rfl, ?_, ?_, fun hempty => absurd hempty hfull⟩
    · intro id found hfound
      dsimp only at hfound
      rw [Dict.get?_set] at hfound
      by_cases hid : checkpoint.checkpointId = id
      · rw [if_pos hid] at hfound
        cases hfound
        exact ⟨hid, hconversation⟩
      · rw [if_neg hid] at hfound
        exact h.keys id found hfound
    · show ((ledger.checkpoints.set checkpoint.checkpointId checkpoint).get?
        checkpoint.checkpointId).map (·.checkpointId) = _
      rw [hlast, Dict.get?_set, if_pos rfl, Option.map_some]

end Chain

/-! ## The variables -/

section Variables

variable [PyFloat F] {env : ImportEnv F}

/-- The loop over the leaves has room at each of them. -/
theorem takeLeaves_returns {C : Type} {excess : PyExc} {maxCandidates : Int}
    {candidate : String → String → C} {target : List C} {leaves : List (String × Json F)}
    (hroom : ∀ before leaf after, leaves = before ++ leaf :: after →
      ((target.length + countKept env before : Nat) : Int) < maxCandidates) :
    ∃ result, takeLeaves env excess maxCandidates candidate target leaves = .ok result ∧
      result.1.length = target.length + countKept env leaves := by
  have hreturns : ∀ (rest : List (String × Json F)) (progress : List C × Nat),
      (∀ before leaf after, rest = before ++ leaf :: after →
        ((progress.1.length + countKept env before : Nat) : Int) < maxCandidates) →
      ∃ result, rest.foldlM (fun progress leaf =>
        if (progress.1.length : Int) ≥ maxCandidates then .error excess
        else if env.containsSecret (leaf.1 ++ "=" ++ canonical leaf.2) then
          .ok (progress.1, progress.2 + 1)
        else .ok (progress.1 ++ [candidate leaf.1 (canonical leaf.2)], progress.2)) progress =
          (.ok result : Except PyExc (List C × Nat)) := by
    intro rest
    induction rest with
    | nil => exact fun progress _ => ⟨progress, rfl⟩
    | cons leaf rest ih =>
        intro progress hrest
        have hnow := hrest [] leaf rest rfl
        have hcount : ∀ before : List (String × Json F), countKept env (leaf :: before) =
            countKept env before + if secretLeaf env leaf = true then 0 else 1 := by
          intro before
          rw [countKept, List.countP_cons]
          cases secretLeaf env leaf <;> rfl
        rw [List.foldlM_cons, if_neg (by simp [countKept] at hnow; omega)]
        by_cases hsecret : secretLeaf env leaf = true
        · rw [if_pos (by rwa [secretLeaf] at hsecret), except_ok_bind]
          refine ih _ fun before other after hsplit => ?_
          have hlater := hrest (leaf :: before) other after (by rw [hsplit]; rfl)
          rw [hcount, if_pos hsecret] at hlater
          exact hlater
        · rw [if_neg (by rwa [secretLeaf] at hsecret), except_ok_bind]
          refine ih _ fun before other after hsplit => ?_
          have hlater := hrest (leaf :: before) other after (by rw [hsplit]; rfl)
          rw [hcount, if_neg hsecret] at hlater
          rw [List.length_append, List.length_singleton]
          omega
  obtain ⟨result, hresult⟩ := hreturns leaves (target, 0) hroom
  refine ⟨result, hresult, ?_⟩
  have htaken := (takeLeaves_taken hresult).candidates
  rw [htaken, List.length_append, List.length_map, countKept, List.countP_eq_length_filter]

/-- Behind the leaves that were gone through before, those of one more object fit. -/
theorem appendStateCandidates_returns {seen : List (String × Json F)} {maxCandidates maxDepth : Int}
    {values : Dict (Json F)} (hdepth : ∃ leaves, stateLeaves maxDepth (.obj values) = .ok leaves)
    (hroom : ∀ before leaf after, seen ++ variableLeaves maxDepth values = before ++ leaf :: after →
      (countKept env before : Int) < maxCandidates)
    {target : List StateCandidate} (htarget : target.length = countKept env seen)
    (sourceRef sourceSha256 scope : String) :
    ∃ candidates skipped, appendStateCandidates env target values sourceRef sourceSha256 scope
        maxCandidates maxDepth = .ok (candidates, skipped) ∧
      candidates.length = countKept env (seen ++ variableLeaves maxDepth values) := by
  obtain ⟨leaves, hleaves⟩ := hdepth
  have hvalues : variableLeaves maxDepth values = leaves := by
    rw [variableLeaves, hleaves]
    rfl
  rw [hvalues] at hroom ⊢
  have hsum : ∀ more, countKept env (seen ++ more) = target.length + countKept env more := by
    intro more
    rw [countKept, List.countP_append, htarget]
    rfl
  obtain ⟨result, hresult, hlength⟩ : ∃ result,
      takeLeaves env (valueError "SillyTavern state exceeds the candidate limit") maxCandidates
        (fun pointer valueJson => (⟨sourceRef, sourceSha256, scope, pointer, valueJson,
          "tavern_helper_variables", "none"⟩ : StateCandidate)) target leaves = .ok result ∧
      result.1.length = target.length + countKept env leaves := by
    refine takeLeaves_returns fun before leaf after hsplit => ?_
    rw [← hsum]
    exact hroom _ leaf after (by rw [hsplit, List.append_assoc])
  refine ⟨result.1, result.2, ?_, by rw [hlength, hsum]⟩
  unfold appendStateCandidates
  rw [hleaves, except_ok_bind, hresult]

omit [PyFloat F] in
theorem allLeaves_append (maxDepth : Int) (metadata : Dict (Json F))
    (done more : List (Dict (Json F))) :
    allLeaves maxDepth metadata (done ++ more) = allLeaves maxDepth metadata done ++
      (more.filterMap activeMessageVariables).flatMap (variableLeaves maxDepth) := by
  rw [allLeaves, allVariables, List.filterMap_append, ← List.append_assoc, List.flatMap_append]
  rfl

variable {limits : ImportLimits} {metadata : Dict (Json F)} {messages : List (Dict (Json F))}

theorem WithinLimits.room (h : WithinLimits env limits metadata messages)
    {done more : List (Dict (Json F))} (hmessages : messages = done ++ more) :
    ∀ before leaf after, allLeaves limits.maxStateDepth metadata done = before ++ leaf :: after →
      (countKept env before : Int) < limits.maxStateCandidates := by
  intro before leaf after hsplit
  have hall := allLeaves_append limits.maxStateDepth metadata done more
  rw [hsplit, List.append_assoc, List.cons_append, ← hmessages] at hall
  exact h.candidates before leaf _ hall

theorem chatVariables_eq_some {values : Dict (Json F)} :
    chatVariables metadata = some values ↔ metadata.get? "variables" = some (.obj values) := by
  unfold chatVariables
  split
  · next found hfound => rw [hfound, Option.some.injEq, Option.some.injEq, Json.obj.injEq]
  · next hnone => exact ⟨nofun, fun h => absurd h (hnone values)⟩

theorem importMetadata_some (conversationId : String) {values : Dict (Json F)}
    (h : chatVariables metadata = some values) :
    importMetadata env limits conversationId metadata =
      appendStateCandidates env [] values ("chat:" ++ conversationId ++ ":metadata")
        (digestJson env.digests (.obj metadata)) "conversation" limits.maxStateCandidates
        limits.maxStateDepth := by
  rw [importMetadata, chatVariables_eq_some.1 h]

theorem importMetadata_none (conversationId : String) (h : chatVariables metadata = none) :
    importMetadata env limits conversationId metadata = .ok ([], 0) := by
  have hnone : ∀ values, metadata.get? "variables" ≠ some (.obj values) := by
    intro values hvalues
    rw [chatVariables_eq_some.2 hvalues] at h
    cases h
  unfold importMetadata
  split
  · next values hvalues => exact absurd hvalues (hnone values)
  · rfl

theorem importMetadata_returns (h : WithinLimits env limits metadata messages)
    (conversationId : String) :
    ∃ candidates skipped, importMetadata env limits conversationId metadata =
        .ok (candidates, skipped) ∧
      candidates.length = countKept env (allLeaves limits.maxStateDepth metadata []) := by
  have hvariables : allLeaves limits.maxStateDepth metadata [] =
      (chatVariables metadata).toList.flatMap (variableLeaves limits.maxStateDepth) := by
    rw [allLeaves, allVariables, List.filterMap_nil, List.append_nil]
  have hroom := h.room (List.nil_append messages).symm
  cases hchat : chatVariables metadata with
  | none =>
      rw [hvariables, hchat]
      exact ⟨[], 0, importMetadata_none conversationId hchat, rfl⟩
  | some values =>
      have hleaves : allLeaves limits.maxStateDepth metadata [] =
          [] ++ variableLeaves limits.maxStateDepth values := by
        rw [hvariables, hchat, Option.toList_some, List.flatMap_singleton, List.nil_append]
      rw [hleaves] at hroom ⊢
      have hmem : values ∈ allVariables metadata messages :=
        List.mem_append_left _ (by rw [hchat, Option.toList_some]; exact List.mem_singleton_self _)
      rw [importMetadata_some conversationId hchat]
      exact appendStateCandidates_returns (h.depth values hmem) hroom rfl _ _ _

/-- The variables of the next message fit. -/
theorem addVariables_returns {done rest : List (Dict (Json F))} {record : Dict (Json F)}
    (h : WithinLimits env limits metadata messages) (hmessages : messages = done ++ record :: rest)
    (event : ConversationEvent F) {progress : ImportProgress F}
    (hcount : progress.stateCandidates.length =
      countKept env (allLeaves limits.maxStateDepth metadata done)) :
    ∃ candidates skipped, addVariables env limits record event progress =
        .ok { progress with stateCandidates := candidates, secretValuesSkipped := skipped } ∧
      candidates.length =
        countKept env (allLeaves limits.maxStateDepth metadata (done ++ [record])) := by
  unfold addVariables
  cases hactive : activeMessageVariables record with
  | none =>
      refine ⟨progress.stateCandidates, progress.secretValuesSkipped, rfl, ?_⟩
      rw [hcount, allLeaves_append, List.filterMap_cons_none hactive, List.filterMap_nil,
        List.flatMap_nil, List.append_nil]
  | some values =>
      have hleaves : allLeaves limits.maxStateDepth metadata (done ++ [record]) =
          allLeaves limits.maxStateDepth metadata done ++
            variableLeaves limits.maxStateDepth values := by
        rw [allLeaves_append, List.filterMap_cons_some hactive, List.filterMap_nil,
          List.flatMap_singleton]
      have hroom := h.room (show messages = (done ++ [record]) ++ rest by rw [hmessages]; simp)
      rw [hleaves] at hroom
      have hmem : values ∈ allVariables metadata messages := by
        rw [hmessages]
        exact List.mem_append_right _ (List.mem_filterMap.2 ⟨record, by simp, hactive⟩)
      obtain ⟨candidates, skipped, hreturns, hlength⟩ := appendStateCandidates_returns
        (h.depth values hmem) hroom hcount event.sourceRef event.sourceSha256 "message"
      refine ⟨candidates, progress.secretValuesSkipped + skipped, ?_, by rw [hlength, hleaves]⟩
      dsimp only
      rw [hreturns, except_ok_bind]
      rfl

end Variables

/-! ## The loop -/

/-- The summary the host keeps in a message. -/
def embeddedSummary (record : Dict (Json F)) : Option String :=
  match (extraOf record).get? "memory" with
  | some (.str summary) => if pyStrip summary = "" then none else some summary
  | _ => none

/-- How many messages there are up to the last one with a summary. -/
def lastSummarized (messages : List (Dict (Json F))) : Nat :=
  (messages.rdropWhile fun record => (embeddedSummary record).isNone).length

theorem lastSummarized_append (done : List (Dict (Json F))) (record : Dict (Json F)) :
    lastSummarized (done ++ [record]) =
      if (embeddedSummary record).isNone then lastSummarized done else done.length + 1 := by
  rw [lastSummarized, List.rdropWhile_concat]
  by_cases hnone : (embeddedSummary record).isNone = true
  · rw [if_pos hnone, if_pos hnone, lastSummarized]
  · rw [if_neg hnone, if_neg hnone, List.length_append, List.length_singleton]

theorem lastSummarized_le (messages : List (Dict (Json F))) :
    lastSummarized messages ≤ messages.length :=
  (List.rdropWhile_prefix _ _).length_le

section Loop

variable [PyFloat F] {env : ImportEnv F} {limits : ImportLimits} {metadata : Dict (Json F)}
  {conversationId : String}

/-- One event for each message, in order, each under an address of the message's. -/
structure OneEach (env : ImportEnv F) (conversationId : String) (messages : List (Dict (Json F)))
    (events : List (ConversationEvent F)) : Prop where
  length : events.length = messages.length
  event : ∀ i record, messages[i]? = some record → ∃ ref mes,
    events[i]? = some (messageEvent env conversationId ref mes record i) ∧
    (record.get? "mes").getD (.str "") = .str mes ∧
    (ref = sourceRefOf env.repr env.digests record (extraOf record) conversationId i ∨
      ref = positionalRef conversationId i)
  distinct : (events.map (·.eventId)).Nodup

/-- An event's address is one of those that its message may have. -/
theorem OneEach.ref {messages : List (Dict (Json F))} {events : List (ConversationEvent F)}
    (h : OneEach env conversationId messages events) {event : ConversationEvent F}
    (hevent : event ∈ events) : ∃ i record, messages[i]? = some record ∧
      event.conversationId = conversationId ∧
      event.eventId = eventIdOf F env.digests "sillytavern" event.sourceRef ∧
      (event.sourceRef = sourceRefOf env.repr env.digests record (extraOf record) conversationId i ∨
        event.sourceRef = positionalRef conversationId i) := by
  obtain ⟨i, hi⟩ := List.getElem?_of_mem hevent
  have hlt : i < messages.length := by
    rw [← h.length]
    exact (List.getElem?_eq_some_iff.1 hi).1
  obtain ⟨ref, mes, hfound, -, href⟩ := h.event i _ (List.getElem?_eq_getElem hlt)
  rw [hi, Option.some_inj] at hfound
  rw [hfound]
  exact ⟨i, _, List.getElem?_eq_getElem hlt, rfl, rfl, href⟩

/-- The place of the next message has not been an address yet. -/
theorem OneEach.fresh {done : List (Dict (Json F))} {events : List (ConversationEvent F)}
    (h : OneEach env conversationId done events) :
    positionalRef conversationId done.length ∉ events.map (·.sourceRef) := by
  intro hmem
  obtain ⟨event, hevent, hsame⟩ := List.mem_map.1 hmem
  obtain ⟨i, record, hrecord, -, -, href⟩ := h.ref hevent
  have hlt : i < done.length := (List.getElem?_eq_some_iff.1 hrecord).1
  have hplace : event.sourceRef ≠ positionalRef conversationId i := by
    rw [hsame]
    intro hindex
    have := positionalRef_injective hindex
    omega
  rcases href with hhost | hpos
  · rcases sourceRefOf_cases record (extraOf record) i with hform | hform
    · obtain ⟨digest, hdigest⟩ := hform
      rw [hsame, hdigest] at hhost
      exact hostForm_ne_positionalRef digest _ hhost.symm
    · exact hplace (hhost.trans hform)
  · exact hplace hpos

theorem OneEach.append {done : List (Dict (Json F))} {events : List (ConversationEvent F)}
    (h : OneEach env conversationId done events) {record : Dict (Json F)} {ref mes : String}
    (hmes : (record.get? "mes").getD (.str "") = .str mes)
    (href : ref = sourceRefOf env.repr env.digests record (extraOf record) conversationId
      done.length ∨ ref = positionalRef conversationId done.length)
    (hfresh : ref ∉ events.map (·.sourceRef))
    (hinj : Set.InjOn (eventIdOf F env.digests "sillytavern")
      (chatRefs env conversationId (done ++ [record]))) :
    OneEach env conversationId (done ++ [record])
      (events ++ [messageEvent env conversationId ref mes record done.length]) where
  length := by rw [List.length_append, List.length_append, h.length]; rfl
  event := by
    intro i other hother
    by_cases hi : i < done.length
    · rw [List.getElem?_append_left hi] at hother
      obtain ⟨ref', mes', hfound, hrest⟩ := h.event i other hother
      exact ⟨ref', mes', by rw [List.getElem?_append_left (by rw [h.length]; exact hi), hfound],
        hrest⟩
    · have hlt := (List.getElem?_eq_some_iff.1 hother).1
      rw [List.length_append, List.length_singleton] at hlt
      obtain rfl : i = done.length := by omega
      rw [List.getElem?_concat_length, Option.some_inj] at hother
      subst hother
      exact ⟨ref, mes, by rw [← h.length, List.getElem?_concat_length], hmes, href⟩
  distinct := by
    rw [List.map_append, List.map_singleton, List.nodup_append]
    refine ⟨h.distinct, List.nodup_singleton _, ?_⟩
    intro id hid id' hid' hsame
    obtain ⟨event, hevent, rfl⟩ := List.mem_map.1 hid
    rw [List.mem_singleton.1 hid'] at hsame
    obtain ⟨i, other, hother, -, hdigest, hform⟩ := h.ref hevent
    rw [hdigest] at hsame
    have hlt := (List.getElem?_eq_some_iff.1 hother).1
    have hold : event.sourceRef ∈ chatRefs env conversationId (done ++ [record]) :=
      ⟨i, other, by rw [List.getElem?_append_left hlt, hother], hform⟩
    have hnew : ref ∈ chatRefs env conversationId (done ++ [record]) :=
      ⟨done.length, record, List.getElem?_concat_length, href⟩
    exact hfresh (List.mem_map.2 ⟨event, hevent, hinj hold hnew hsame⟩)

theorem addSummary_none {record : Dict (Json F)} (h : embeddedSummary record = none)
    (createdAt : String) (progress : ImportProgress F) :
    addSummary env (extraOf record) createdAt progress = .ok progress := by
  unfold addSummary
  unfold embeddedSummary at h
  split
  · next summary hsummary =>
      rw [hsummary] at h
      dsimp only at h
      split at h
      · next hblank => rw [if_pos hblank]
      · cases h
  · rfl

/-- A summary makes a checkpoint of the events that are open, and the ledger takes it. -/
theorem addSummary_closes (hlength : ∀ data, (env.digests.sha256 data).length = 64)
    (hconversation : pyStrip conversationId ≠ "") {record : Dict (Json F)} {summary : String}
    (hsummary : embeddedSummary record = some summary) (createdAt : String)
    {progress : ImportProgress F}
    (hopen : progress.checkpointStart < progress.events.length)
    (hsame : ∀ event ∈ progress.events, event.conversationId = conversationId)
    (hids : (progress.events.map (·.eventId)).Nodup)
    (htracks : Tracks conversationId progress.checkpoints progress.ledger) :
    ∃ checkpoint ledger, addSummary env (extraOf record) createdAt progress = .ok { progress with
        ledger := ledger
        checkpoints := progress.checkpoints ++ [checkpoint]
        checkpointStart := progress.events.length } ∧
      Closes env conversationId summary (progress.events.drop progress.checkpointStart)
        (progress.checkpoints.getLast?.map (·.checkpointId)) checkpoint ∧
      Tracks conversationId (progress.checkpoints ++ [checkpoint]) ledger := by
  obtain ⟨hmemory, hfilled⟩ : (extraOf record).get? "memory" = some (.str summary) ∧
      pyStrip summary ≠ "" := by
    unfold embeddedSummary at hsummary
    split at hsummary
    · next found hfound =>
        split at hsummary
        · cases hsummary
        · next hfilled =>
            cases hsummary
            exact ⟨hfound, hfilled⟩
    · cases hsummary
  have hne : progress.events.drop progress.checkpointStart ≠ [] := by
    rw [Ne, List.drop_eq_nil_iff]
    omega
  obtain ⟨checkpoint, hcreate, hcloses⟩ := create_closes hlength hconversation hfilled hne
    (fun event hevent => hsame event (List.mem_of_mem_drop hevent))
    (hids.sublist ((List.drop_sublist _ _).map _)) (progress.ledger.active.map (·.checkpointId))
    "sillytavern:summarize" createdAt
  obtain ⟨ledger, happend, htracks'⟩ := htracks.append hcloses.conversation hcloses.parent
  refine ⟨checkpoint, ledger, ?_, htracks.active ▸ hcloses, htracks'⟩
  unfold addSummary
  rw [hmemory]
  dsimp only
  rw [if_neg hfilled, hcreate, except_ok_bind, happend, except_ok_bind]
  rfl

/-- What has been made of the messages that are done. -/
structure Imported (env : ImportEnv F) (limits : ImportLimits) (metadata : Dict (Json F))
    (conversationId : String) (done : List (Dict (Json F))) (progress : ImportProgress F) : Prop where
  events : OneEach env conversationId done progress.events
  refs : progress.sourceRefs = progress.events.map (·.sourceRef)
  start : progress.checkpointStart = lastSummarized done
  partitions : Partitions env (lastSummarized done) progress.events progress.checkpoints
  tracks : Tracks conversationId progress.checkpoints progress.ledger
  summaries : progress.checkpoints.map (·.summary) =
    (done.filterMap embeddedSummary).map pyStrip
  candidates : progress.stateCandidates.length =
    countKept env (allLeaves limits.maxStateDepth metadata done)

theorem importMessage_imported (hlength : ∀ data, (env.digests.sha256 data).length = 64)
    (hconversation : pyStrip conversationId ≠ "") {messages : List (Dict (Json F))}
    (hlimits : WithinLimits env limits metadata messages)
    (hwf : ∀ record ∈ messages, (Json.obj record).WF)
    (hinj : Set.InjOn (eventIdOf F env.digests "sillytavern")
      (chatRefs env conversationId messages))
    {done rest : List (Dict (Json F))} {record : Dict (Json F)}
    (hmessages : messages = done ++ record :: rest) {progress : ImportProgress F}
    (h : Imported env limits metadata conversationId done progress) :
    ∃ progress', importMessage env limits conversationId progress (record, done.length) =
        .ok progress' ∧
      Imported env limits metadata conversationId (done ++ [record]) progress' := by
  have hmem : record ∈ messages := by rw [hmessages]; simp
  obtain ⟨mes, hmes, hchars⟩ := hlimits.texts record hmem
  have hcheck : checkMessage limits record done.length = .ok mes := by
    unfold checkMessage
    rw [hmes]
    dsimp only
    rw [raiseIf, if_neg (by omega), except_ok_bind]
    rfl
  obtain ⟨ref, hchosen, href, hfresh⟩ : ∃ ref,
      (if decide (sourceRefOf env.repr env.digests record (extraOf record) conversationId
          done.length ∈ progress.sourceRefs) = true then positionalRef conversationId done.length
        else sourceRefOf env.repr env.digests record (extraOf record) conversationId
          done.length) = ref ∧
      (ref = sourceRefOf env.repr env.digests record (extraOf record) conversationId done.length ∨
        ref = positionalRef conversationId done.length) ∧
      ref ∉ progress.events.map (·.sourceRef) := by
    rw [h.refs]
    by_cases hrepeated : sourceRefOf env.repr env.digests record (extraOf record) conversationId
        done.length ∈ progress.events.map (·.sourceRef)
    · rw [if_pos (decide_eq_true hrepeated)]
      exact ⟨_, rfl, Or.inr rfl, h.events.fresh⟩
    · rw [if_neg (by rw [decide_eq_true_eq]; exact hrepeated)]
      exact ⟨_, rfl, Or.inl rfl, hrepeated⟩
  have hfilled : pyStrip ref ≠ "" := by
    rcases href with hhost | hplace
    · rcases sourceRefOf_cases record (extraOf record) done.length with hform | hform
      · obtain ⟨digest, hdigest⟩ := hform
        exact addressed_filled (Or.inl ⟨digest, hhost.trans hdigest⟩)
      · exact addressed_filled (Or.inr ⟨_, hhost.trans hform⟩)
    · exact addressed_filled (Or.inr ⟨_, hplace⟩)
  have hcreate := createEvent_message hlength hconversation hfilled (hwf record hmem) mes
    done.length
  have hsub : chatRefs env conversationId (done ++ [record]) ⊆
      chatRefs env conversationId messages := by
    intro other hother
    obtain ⟨i, found, hfound, hform⟩ := hother
    have hwhole : messages = (done ++ [record]) ++ rest := by rw [hmessages]; simp
    refine ⟨i, found, ?_, hform⟩
    rw [hwhole, List.getElem?_append_left (List.getElem?_eq_some_iff.1 hfound).1, hfound]
  have hevents := h.events.append hmes href hfresh (hinj.mono hsub)
  have hlast : (messageEvent env conversationId ref mes record done.length).sourceRef = ref := rfl
  generalize messageEvent env conversationId ref mes record done.length = event at *
  unfold importMessage
  dsimp only
  rw [hcheck, except_ok_bind, hchosen, hcreate, except_ok_bind]
  generalize hwarnings : (if decide (sourceRefOf env.repr env.digests record (extraOf record)
    conversationId done.length ∈ progress.sourceRefs) = true then _ else progress.warnings) =
      warnings
  -- the loop's variables once the event is there
  generalize hopened : ({ progress with
    warnings := warnings
    sourceRefs := progress.sourceRefs ++ [ref]
    events := progress.events ++ [event] } : ImportProgress F) = opened
  have hcount : opened.stateCandidates.length =
      countKept env (allLeaves limits.maxStateDepth metadata done) := by
    rw [← hopened]
    exact h.candidates
  obtain ⟨candidates, skipped, hvariables, hcandidates⟩ :=
    addVariables_returns hlimits hmessages event hcount
  rw [hvariables, except_ok_bind]
  have hle : lastSummarized done ≤ progress.events.length := by
    rw [h.events.length]
    exact lastSummarized_le done
  have hrefs : opened.sourceRefs = opened.events.map (·.sourceRef) := by
    rw [← hopened]
    dsimp only
    rw [List.map_append, List.map_singleton, ← h.refs, hlast]
  have hpartitions : Partitions env (lastSummarized done) opened.events opened.checkpoints := by
    rw [← hopened]
    exact h.partitions.event hle event
  have hopenedEvents : opened.events = progress.events ++ [event] := by rw [← hopened]
  rw [← hopenedEvents] at hevents
  have hstart : opened.checkpointStart = lastSummarized done := by
    rw [← hopened]
    exact h.start
  have htracks : Tracks conversationId opened.checkpoints opened.ledger := by
    rw [← hopened]
    exact h.tracks
  have hsummaries : opened.checkpoints.map (·.summary) =
      (done.filterMap embeddedSummary).map pyStrip := by
    rw [← hopened]
    exact h.summaries
  clear hopened
  cases hsummary : embeddedSummary record with
  | none =>
      have hstay : lastSummarized (done ++ [record]) = lastSummarized done := by
        rw [lastSummarized_append, hsummary]
        rfl
      refine ⟨_, addSummary_none hsummary _ _, hevents, hrefs, hstart.trans hstay.symm,
        hstay ▸ hpartitions, htracks, ?_, hcandidates⟩
      rw [List.filterMap_append, List.filterMap_cons_none hsummary, List.filterMap_nil,
        List.append_nil]
      exact hsummaries
  | some summary =>
      have hmove : lastSummarized (done ++ [record]) = opened.events.length := by
        rw [lastSummarized_append, hsummary, hopenedEvents, List.length_append, h.events.length]
        rfl
      have hopen : opened.checkpointStart < opened.events.length := by
        rw [hstart, hopenedEvents, List.length_append, List.length_singleton]
        omega
      have hsame : ∀ other ∈ opened.events, other.conversationId = conversationId := by
        intro other hother
        obtain ⟨_, _, -, hconv, -⟩ := hevents.ref hother
        exact hconv
      obtain ⟨checkpoint, ledger, hreturns, hcloses, htracks'⟩ := @addSummary_closes _ _ env
        conversationId hlength hconversation record summary hsummary
        (fieldText env.repr record "send_date" (.str ""))
        { opened with stateCandidates := candidates, secretValuesSkipped := skipped }
        hopen hsame hevents.distinct htracks
      dsimp only at hcloses
      rw [hstart] at hcloses
      refine ⟨_, hreturns, hevents, hrefs, hmove.symm, hmove ▸ hpartitions.close hcloses, htracks',
        ?_, hcandidates⟩
      rw [List.filterMap_append, List.filterMap_cons_some hsummary, List.filterMap_nil,
        List.map_append, List.map_append, List.map_singleton, List.map_singleton, hcloses.summary,
        hsummaries]

theorem importMessages_imported (hlength : ∀ data, (env.digests.sha256 data).length = 64)
    (hconversation : pyStrip conversationId ≠ "") {messages : List (Dict (Json F))}
    (hlimits : WithinLimits env limits metadata messages)
    (hwf : ∀ record ∈ messages, (Json.obj record).WF)
    (hinj : Set.InjOn (eventIdOf F env.digests "sillytavern")
      (chatRefs env conversationId messages))
    {done rest : List (Dict (Json F))} (hmessages : messages = done ++ rest)
    {progress : ImportProgress F}
    (h : Imported env limits metadata conversationId done progress) :
    ∃ progress', (rest.zipIdx done.length).foldlM (importMessage env limits conversationId)
        progress = .ok progress' ∧
      Imported env limits metadata conversationId messages progress' := by
  induction rest generalizing done progress with
  | nil =>
      rw [List.append_nil] at hmessages
      exact ⟨progress, rfl, hmessages ▸ h⟩
  | cons record rest ih =>
      obtain ⟨next, hnext, hdone⟩ := importMessage_imported hlength hconversation hlimits hwf hinj
        hmessages h
      obtain ⟨progress', hrest, himported⟩ := ih (by rw [hmessages]; simp) hdone
      rw [List.length_append, List.length_singleton] at hrest
      refine ⟨progress', ?_, himported⟩
      rw [List.zipIdx_cons, List.foldlM_cons, hnext, except_ok_bind, hrest]

theorem scopeAddress_ok {level namespaceName key : String} (hlevel : pyStrip level ≠ "")
    (hnamespace : pyStrip namespaceName ≠ "") (hkey : pyStrip key ≠ "") :
    ScopeAddress.create level namespaceName key = .ok ⟨level, namespaceName, key⟩ := by
  unfold ScopeAddress.create requireNotBlank
  rw [raiseIf, if_neg hlevel, raiseIf, if_neg hnamespace, raiseIf, if_neg hkey]
  rfl

theorem importScopes_ok {namespaceName characterId : String} (hnamespace : pyStrip namespaceName ≠ "")
    (hconversation : pyStrip conversationId ≠ "") (hcharacter : pyStrip characterId ≠ "")
    (userId : String) :
    ∃ scopes, importScopes namespaceName conversationId characterId userId = .ok scopes := by
  have hglobal : mapSillytavernScope "global" namespaceName conversationId characterId userId =
      .ok ⟨"global", namespaceName, namespaceName⟩ :=
    scopeAddress_ok (pyStrip_ne_empty (c := 'g') (by simp) (by decide)) hnamespace hnamespace
  have hagent : mapSillytavernScope "character" namespaceName conversationId characterId userId =
      .ok ⟨"agent", namespaceName, characterId⟩ := by
    show (do raiseIf (pyStrip characterId = "") _
             ScopeAddress.create "agent" namespaceName characterId) = _
    rw [raiseIf, if_neg hcharacter, except_ok_bind]
    exact scopeAddress_ok (pyStrip_ne_empty (c := 'a') (by simp) (by decide)) hnamespace hcharacter
  have hchat : mapSillytavernScope "chat" namespaceName conversationId characterId userId =
      .ok ⟨"conversation", namespaceName, conversationId⟩ :=
    scopeAddress_ok (pyStrip_ne_empty (c := 'c') (by simp) (by decide)) hnamespace hconversation
  have hall : ∀ scope ∈ ["global", "character", "chat"], ∃ address, mapSillytavernScope scope
      namespaceName conversationId characterId userId = .ok address := by
    simp only [List.forall_mem_cons]
    exact ⟨⟨_, hglobal⟩, ⟨_, hagent⟩, ⟨_, hchat⟩, fun _ hscope => absurd hscope List.not_mem_nil⟩
  unfold importScopes
  by_cases huser : pyStrip userId = ""
  · rw [if_pos huser]
    exact except_mapM_returns hall
  · rw [if_neg huser]
    have hown : mapSillytavernScope "user" namespaceName conversationId characterId userId =
        .ok ⟨"user", namespaceName, userId⟩ := by
      show (do raiseIf (pyStrip userId = "") _
               ScopeAddress.create "user" namespaceName userId) = _
      rw [raiseIf, if_neg huser, except_ok_bind]
      exact scopeAddress_ok (pyStrip_ne_empty (c := 'u') (by simp) (by decide)) hnamespace huser
    refine except_mapM_returns (List.forall_mem_cons.2 ⟨⟨_, hglobal⟩,
      List.forall_mem_cons.2 ⟨⟨_, hown⟩, ?_⟩⟩)
    exact (List.forall_mem_cons.1 hall).2

/-- What an import is to make of the messages. -/
structure Faithful (env : ImportEnv F) (conversationId : String) (messages : List (Dict (Json F)))
    (result : SillyTavernImport F) : Prop where
  events : OneEach env conversationId messages result.events
  partitions : Partitions env (lastSummarized messages) result.events result.checkpoints
  sources : ∀ checkpoint ∈ result.checkpoints, checkpoint.sourceEventRevisions ≠ []
  summaries : result.checkpoints.map (·.summary) =
    (messages.filterMap embeddedSummary).map pyStrip
  distinct : Set.InjOn (digestJson env.digests)
      {payload | ∃ checkpoint ∈ result.checkpoints,
        payload = checkpointPayload F checkpoint.toCheckpointFields} →
    (result.checkpoints.map (·.checkpointId)).Nodup

/-- A chat that is parsed and within the limits is imported, whatever is repeated in it. -/
theorem importSillytavernChat_faithful (hlength : ∀ data, (env.digests.sha256 data).length = 64)
    {records : ChatInput F} (hrecords : records.WF) {parsed : List (Dict (Json F))}
    {sourceFormat : String}
    (hparse : parseRecords records limits.maxInputBytes = .ok (parsed, sourceFormat))
    (hcount : (parsed.length : Int) ≤ limits.maxMessages + 1)
    (hlimits : WithinLimits env limits (splitHeader parsed).1 (splitHeader parsed).2)
    (hinj : Set.InjOn (eventIdOf F env.digests "sillytavern")
      (chatRefs env conversationId (splitHeader parsed).2))
    {characterId namespaceName : String} (hconversation : pyStrip conversationId ≠ "")
    (hcharacter : pyStrip characterId ≠ "") (hnamespace : pyStrip namespaceName ≠ "")
    (userId : String) :
    ∃ result, importSillytavernChat env limits records conversationId characterId userId
        namespaceName = .ok result ∧
      Faithful env conversationId (splitHeader parsed).2 result := by
  have hwf : ∀ record ∈ (splitHeader parsed).2, (Json.obj record).WF := by
    intro record hrecord
    refine parseRecords_wf hrecords hparse record ?_
    unfold splitHeader at hrecord
    split at hrecord
    · split at hrecord
      · split at hrecord
        · exact List.mem_cons_of_mem _ hrecord
        · exact List.mem_cons_of_mem _ hrecord
      · exact hrecord
    · cases hrecord
  obtain ⟨candidates, skipped, hmetadata, hcandidates⟩ :=
    importMetadata_returns hlimits conversationId
  have hstart : Imported env limits (splitHeader parsed).1 conversationId []
      ⟨[], [], .empty, 0, [], [], candidates, skipped⟩ := {
    events := ⟨rfl, fun i record hrecord => by simp at hrecord, List.nodup_nil⟩
    refs := rfl
    start := rfl
    partitions := ⟨fun _ hfirst => (by cases hfirst), List.isChain_nil, rfl,
      fun _ hmem => absurd hmem List.not_mem_nil⟩
    tracks := ⟨fun _ _ hfound => (by cases hfound), rfl, fun _ => rfl⟩
    summaries := rfl
    candidates := hcandidates }
  obtain ⟨progress, hloop, himported⟩ := importMessages_imported hlength hconversation hlimits hwf
    hinj (List.nil_append _).symm hstart
  obtain ⟨scopes, hscopes⟩ := importScopes_ok hnamespace hconversation hcharacter userId
  unfold importSillytavernChat
  rw [hparse, except_ok_bind]
  dsimp only
  rw [raiseIf, if_neg (by omega), except_ok_bind, hmetadata, except_ok_bind]
  dsimp only
  rw [List.length_nil] at hloop
  rw [hloop, except_ok_bind, hscopes, except_ok_bind]
  exact ⟨_, rfl, himported.events, himported.partitions, fun checkpoint _ => sources_ne_nil checkpoint,
    himported.summaries, himported.partitions.ids_nodup himported.events.distinct⟩

end Loop

/-! ## A message that is there twice -/

namespace RepeatedId

/-- The third byte from the end, so often as a digest has digits: the last letter of an address. -/
def lastLetter (data : ByteArray) : String :=
  String.ofList (List.replicate 64 (hexDigit ((data.data.toList.reverse[2]?.getD 15).toNat % 16)))

theorem isHex_lastLetter (data : ByteArray) : isHex (lastLetter data) = true := by
  have hdigit : ∀ n, n < 16 → isHexDigit (hexDigit n) = true := by decide
  rw [isHex, lastLetter, String.toList_ofList, List.all_eq_true]
  intro c hc
  rw [List.eq_of_mem_replicate hc]
  exact hdigit _ (Nat.mod_lt _ (by decide))

theorem length_lastLetter (data : ByteArray) : (lastLetter data).length = 64 := by
  rw [lastLetter, String.length_ofList, List.length_replicate]

def env : ImportEnv Unit where
  digests := { zeroDigests with sha256 := lastLetter, sha256_hex := isHex_lastLetter }
  repr _ := "[]"
  containsSecret _ := false

def limits : ImportLimits := ⟨1000, 2, 100, 5, 3⟩

def header : Dict (Json Unit) := [("chat_metadata", .obj [("variables", .obj [("hp", .int 7)])])]

def message : Dict (Json Unit) :=
  [("mes", .str "hi"), ("id", .str "7"), ("extra", .obj [("memory", .str "greeted")])]

/-- What either message is called by its host. -/
def hostRef : String := hostForm "c" "ffffffffffffffffffffffff"

/-- The addresses are the one that both messages have and their two places. -/
theorem refs_injOn : Set.InjOn (eventIdOf Unit env.digests "sillytavern")
    (chatRefs env "c" [message, message]) := by
  have hfirst : sourceRefOf env.repr env.digests message (extraOf message) "c" 0 = hostRef := by
    decide +kernel
  have hsecond : sourceRefOf env.repr env.digests message (extraOf message) "c" 1 = hostRef := by
    decide +kernel
  have hdistinct : ([hostRef, positionalRef "c" 0, positionalRef "c" 1].map
      (eventIdOf Unit env.digests "sillytavern")).Nodup := by decide +kernel
  have hrefs : ∀ ref ∈ chatRefs env "c" [message, message],
      ref ∈ [hostRef, positionalRef "c" 0, positionalRef "c" 1] := by
    intro ref href
    obtain ⟨i, record, hrecord, hform⟩ := href
    have hmessage : record = message := by
      simpa using List.mem_of_getElem? hrecord
    have hi : i < 2 := (List.getElem?_eq_some_iff.1 hrecord).1
    rw [hmessage] at hform
    obtain rfl | rfl : i = 0 ∨ i = 1 := by omega
    · rw [hfirst] at hform
      rcases hform with h | h <;> simp [h]
    · rw [hsecond] at hform
      rcases hform with h | h <;> simp [h]
  exact fun ref href ref' href' hsame =>
    List.inj_on_of_nodup_map hdistinct (hrefs ref href) (hrefs ref' href') hsame

def chatValues : Dict (Json Unit) := [("hp", .int 7)]

theorem within : WithinLimits env limits [("variables", .obj chatValues)] [message, message] where
  texts := by
    intro record hrecord
    have hmessage : record = message := by simpa using hrecord
    rw [hmessage]
    exact ⟨"hi", rfl, by decide⟩
  depth := by
    have hall : allVariables [("variables", .obj chatValues)] [message, message] =
        [chatValues] := by
      simp [allVariables, chatVariables, activeMessageVariables, message]
    rw [hall]
    intro values hvalues
    rw [List.mem_singleton.1 hvalues]
    exact ⟨_, rfl⟩
  candidates := by
    have hall : allLeaves 3 [("variables", .obj chatValues)] [message, message] =
        [("/hp", .int 7)] := by
      simp [allLeaves, allVariables, chatVariables, activeMessageVariables, message]
      rfl
    intro before leaf after hsplit
    rw [show limits.maxStateDepth = 3 from rfl, hall] at hsplit
    have hbefore : before = [] := by
      cases before with
      | nil => rfl
      | cons other before => simp at hsplit
    rw [hbefore]
    decide

theorem importSillytavernChat_faithful_sample : ∃ result,
    importSillytavernChat env limits (.records [.obj header, .obj message, .obj message]) "c"
      "seraphina" "" "sillytavern" = .ok result ∧
    Faithful env "c" [message, message] result := by
  have hconversation : pyStrip "c" ≠ "" := pyStrip_ne_empty (c := 'c') (by simp) (by decide)
  have hcharacter : pyStrip "seraphina" ≠ "" := pyStrip_ne_empty (c := 'a') (by simp) (by decide)
  have hnamespace : pyStrip "sillytavern" ≠ "" := pyStrip_ne_empty (c := 'y') (by simp) (by decide)
  have hparse : parseRecords (.records [.obj header, .obj message, .obj message]) 1000 =
      .ok ([header, message, message], "records") := rfl
  have hsplit : splitHeader [header, message, message] =
      ([("variables", .obj chatValues)], [message, message]) := by
    simp [splitHeader, header, chatValues]
  have hrecords : (ChatInput.records [.obj header, .obj message, .obj message]).WF := by
    intro value hvalue
    have hcases : value = .obj header ∨ value = .obj message := by simpa using hvalue
    rcases hcases with rfl | rfl
    · simp [header, wf_obj, Dict.keys]
    · simp [message, wf_obj, Dict.keys]
  have hfaithful := @importSillytavernChat_faithful Unit _ env limits "c" length_lastLetter _
    hrecords _ _ hparse (by decide) (by rw [hsplit]; exact within) (by rw [hsplit]; exact refs_injOn)
    "seraphina" "sillytavern" hconversation hcharacter hnamespace ""
  rwa [hsplit] at hfaithful

end RepeatedId

end MemoryCore

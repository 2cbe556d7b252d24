import MiniCodeAgent.Context

/-!
# A compacted context is well paired

A paired history is a sequence of blocks: a message and the answers to its calls,
one for each. The blocks are what compaction works on, so everything it returns
is made of a required prefix, perhaps a summary, and blocks it has cut; and a
block that is cut keeps the first calls of its message and exactly their answers.

Nothing here depends on how much fits. The sizes decide which blocks stay, and the
returned list is measured once more before it is returned.
-/

namespace MiniCodeAgent

variable {F : Type} (repr : Json F → String)

def callIds (message : BaseMessage F) : List String := message.toolCalls.map (callId repr)

/-- One answer for each call, and no other. Only a model's message has calls. -/
structure Answered (message : BaseMessage F) (answers : List (BaseMessage F)) : Prop where
  type_ne : message.type ≠ .tool
  calls : message.type ≠ .ai → message.toolCalls = []
  tools : ∀ answer ∈ answers, answer.type = .tool ∧ answer.toolCalls = []
  distinct : (callIds repr message).Nodup
  answers : (answers.map (·.toolCallId)).Perm (callIds repr message)

def PairedBlock (block : List (BaseMessage F)) : Prop :=
  ∃ message answers, block = message :: answers ∧ Answered repr message answers

/-- Every call is answered before the next message, and every answer has its call. -/
def Paired (messages : List (BaseMessage F)) : Prop :=
  ∃ blocks : List (List (BaseMessage F)),
    messages = blocks.flatten ∧ ∀ block ∈ blocks, PairedBlock repr block

variable {repr}

theorem pairedBlock_singleton {message : BaseMessage F} (htype : message.type ≠ .tool)
    (hcalls : message.toolCalls = []) : PairedBlock repr [message] := by
  have hids : callIds repr message = [] := by rw [callIds, hcalls, List.map_nil]
  refine ⟨message, [], rfl, htype, fun _ => hcalls, fun _ h => absurd h List.not_mem_nil, ?_, ?_⟩
  · rw [hids]
    exact List.nodup_nil
  · rw [hids]
    exact List.Perm.nil

/-- A message without calls has no answers. -/
theorem Answered.eq_nil {message : BaseMessage F} {answers : List (BaseMessage F)}
    (h : Answered repr message answers) (hcalls : message.toolCalls = []) : answers = [] := by
  have hperm := h.answers
  rw [callIds, hcalls, List.map_nil, List.perm_nil, List.map_eq_nil_iff] at hperm
  exact hperm

/-- A message and the tool messages behind it, if it has calls. This much of a
block is what the work on blocks rests on. -/
def WholeBlock (block : List (BaseMessage F)) : Prop :=
  ∃ message answers, block = message :: answers ∧ message.type ≠ .tool ∧
    (message.type ≠ .ai → message.toolCalls = []) ∧
    (∀ answer ∈ answers, answer.type = .tool ∧ answer.toolCalls = []) ∧
    (message.toolCalls = [] → answers = [])

theorem PairedBlock.whole {block : List (BaseMessage F)} (h : PairedBlock repr block) :
    WholeBlock block := by
  obtain ⟨message, answers, rfl, hanswered⟩ := h
  exact ⟨message, answers, rfl, hanswered.type_ne, hanswered.calls, hanswered.tools,
    hanswered.eq_nil⟩

theorem Paired.append {xs ys : List (BaseMessage F)} (hx : Paired repr xs) (hy : Paired repr ys) :
    Paired repr (xs ++ ys) := by
  obtain ⟨bx, rfl, hbx⟩ := hx
  obtain ⟨byy, rfl, hby⟩ := hy
  refine ⟨bx ++ byy, List.flatten_append.symm, fun block hblock => ?_⟩
  rcases List.mem_append.1 hblock with h | h
  · exact hbx block h
  · exact hby block h

theorem Paired.singleton {message : BaseMessage F} (htype : message.type ≠ .tool)
    (hcalls : message.toolCalls = []) : Paired repr [message] :=
  ⟨[[message]], rfl, List.forall_mem_singleton.2 (pairedBlock_singleton htype hcalls)⟩

theorem paired_of_plain {messages : List (BaseMessage F)}
    (h : ∀ m ∈ messages, m.type ≠ .tool ∧ m.toolCalls = []) : Paired repr messages := by
  induction messages with
  | nil => exact ⟨[], rfl, fun _ hb => absurd hb List.not_mem_nil⟩
  | cons m messages ih =>
      obtain ⟨htype, hcalls⟩ := h m List.mem_cons_self
      exact (Paired.singleton htype hcalls).append (ih fun m hm => h m (List.mem_cons_of_mem _ hm))

/-! ## Blocks -/

theorem foldl_answers {last : List (BaseMessage F)} {blocks : List (List (BaseMessage F))}
    {answers : List (BaseMessage F)} (htools : ∀ answer ∈ answers, answer.type = .tool) :
    answers.foldl addToBlocks (blocks ++ [last]) = blocks ++ [last ++ answers] := by
  induction answers generalizing last with
  | nil => rw [List.append_nil, List.foldl_nil]
  | cons answer answers ih =>
      have hadd : addToBlocks (blocks ++ [last]) answer = blocks ++ [last ++ [answer]] := by
        simp [addToBlocks, htools answer List.mem_cons_self]
      rw [List.foldl_cons, hadd, ih fun a ha => htools a (List.mem_cons_of_mem _ ha),
        List.append_assoc, List.singleton_append]

theorem foldl_wholeBlock {blocks : List (List (BaseMessage F))} {block : List (BaseMessage F)}
    (h : WholeBlock block) : block.foldl addToBlocks blocks = blocks ++ [block] := by
  obtain ⟨message, answers, rfl, htype, -, htools, -⟩ := h
  have hadd : addToBlocks blocks message = blocks ++ [[message]] := by
    unfold addToBlocks
    split
    · rw [if_neg htype]
    · next hnone =>
        rw [List.getLast?_eq_none_iff] at hnone
        rw [hnone, List.nil_append]
  rw [List.foldl_cons, hadd, foldl_answers fun a ha => (htools a ha).1]
  rfl

/-- The blocks of a history are the whole ones it is made of. -/
theorem messageBlocks_flatten {blocks : List (List (BaseMessage F))}
    (h : ∀ block ∈ blocks, WholeBlock block) : messageBlocks blocks.flatten = blocks := by
  have go : ∀ acc : List (List (BaseMessage F)),
      blocks.flatten.foldl addToBlocks acc = acc ++ blocks := by
    induction blocks with
    | nil => intro acc; rw [List.append_nil]; rfl
    | cons block blocks ih =>
        intro acc
        rw [List.flatten_cons, List.foldl_append, foldl_wholeBlock (h block List.mem_cons_self),
          ih fun b hb => h b (List.mem_cons_of_mem _ hb), List.append_assoc,
          List.singleton_append]
  exact go []

/-! ## Cutting a block -/

variable [Json.PyFloat F]

@[simp] theorem compactMessage_type (c a : Nat) (message : BaseMessage F) :
    (compactMessage repr c a message).type = message.type := rfl

@[simp] theorem compactMessage_toolCallId (c a : Nat) (message : BaseMessage F) :
    (compactMessage repr c a message).toolCallId = message.toolCallId := rfl

omit [Json.PyFloat F] in
theorem callId_compactCall (limit : Nat) (call : Dict (Json F)) :
    callId repr (compactCall limit call) = callId repr call := by
  rw [callId, callId, compactCall, Dict.get?_set, if_neg (by decide)]

theorem callIds_compactMessage (c a : Nat) (message : BaseMessage F) :
    callIds repr (compactMessage repr c a message) =
      (callIds repr message).take maxToolCallsPerMessage := by
  simp only [callIds, compactMessage, List.map_map, ← List.map_take]
  exact List.map_congr_left fun call _ => callId_compactCall a call

theorem compactMessage_toolCalls_nil {c a : Nat} {message : BaseMessage F}
    (h : message.toolCalls = []) : (compactMessage repr c a message).toolCalls = [] := by
  simp [compactMessage, h]

theorem filter_mem_take {α : Type} [DecidableEq α] {l : List α} (h : l.Nodup) (n : Nat) :
    l.filter (fun x => x ∈ l.take n) = l.take n := by
  have hnd := h
  rw [← List.take_append_drop n l, List.nodup_append] at hnd
  have hin : (l.take n).filter (fun x => x ∈ l.take n) = l.take n :=
    List.filter_eq_self.2 fun x hx => by simpa using hx
  have hout : (l.drop n).filter (fun x => x ∈ l.take n) = [] :=
    List.filter_eq_nil_iff.2 fun x hx hmem => hnd.2.2 x (by simpa using hmem) x hx rfl
  calc l.filter (fun x => x ∈ l.take n)
      = (l.take n ++ l.drop n).filter (fun x => x ∈ l.take n) := by rw [List.take_append_drop]
    _ = l.take n := by rw [List.filter_append, hin, hout, List.append_nil]

/-- The first calls of a message stay with exactly their answers. -/
theorem Answered.keepCalls {message : BaseMessage F} {answers : List (BaseMessage F)}
    (h : Answered repr message answers) (c a : Nat) :
    Answered repr (compactMessage repr c a message)
      ((answers.filter fun answer => answer.type ≠ .tool || answer.toolCallId ∈
        (callIds repr message).take maxToolCallsPerMessage).map (compactMessage repr c a)) where
  type_ne := h.type_ne
  calls hne := compactMessage_toolCalls_nil (h.calls hne)
  tools answer hanswer := by
    obtain ⟨original, horiginal, rfl⟩ := List.mem_map.1 hanswer
    obtain ⟨htype, hcalls⟩ := h.tools original (List.mem_filter.1 horiginal).1
    exact ⟨htype, compactMessage_toolCalls_nil hcalls⟩
  distinct := by
    rw [callIds_compactMessage]
    exact (List.take_sublist _ _).nodup h.distinct
  answers := by
    have hids : ((answers.filter fun answer => answer.type ≠ .tool || answer.toolCallId ∈
        (callIds repr message).take maxToolCallsPerMessage).map (compactMessage repr c a)).map
          (·.toolCallId) =
        (answers.map (·.toolCallId)).filter fun id =>
          id ∈ (callIds repr message).take maxToolCallsPerMessage := by
      rw [List.map_map, List.filter_map]
      congr 1
      refine List.filter_congr fun answer hanswer => ?_
      simp [(h.tools answer hanswer).1]
    rw [hids, callIds_compactMessage]
    have hperm := h.answers.filter fun id =>
      id ∈ (callIds repr message).take maxToolCallsPerMessage
    rw [filter_mem_take h.distinct] at hperm
    exact hperm

theorem pairedBlock_cut {block : List (BaseMessage F)} (h : PairedBlock repr block) (c a : Nat) :
    PairedBlock repr ((keepCalls repr block).map (compactMessage repr c a)) := by
  obtain ⟨message, answers, rfl, hanswered⟩ := h
  unfold keepCalls
  split
  · next heq => cases heq
  · next request rest heq =>
      cases heq
      split
      · refine ⟨_, _, List.map_cons .., ?_⟩
        have hkeep := hanswered.keepCalls c a
        rw [callIds, ← List.map_take] at hkeep
        exact hkeep
      · next hasks =>
          have hcalls : message.toolCalls = [] := by
            by_cases htype : message.type = .ai
            · simpa [asksForTools, htype] using hasks
            · exact hanswered.calls htype
          rw [hanswered.eq_nil hcalls]
          exact pairedBlock_singleton hanswered.type_ne (compactMessage_toolCalls_nil hcalls)

omit [Json.PyFloat F] in
theorem mem_of_mem_keepCalls {block : List (BaseMessage F)} {m : BaseMessage F}
    (h : m ∈ keepCalls repr block) : m ∈ block := by
  unfold keepCalls at h
  split at h
  · exact h
  · split at h
    · rcases List.mem_cons.1 h with rfl | h
      · exact List.mem_cons_self
      · exact List.mem_cons_of_mem _ (List.mem_filter.1 h).1
    · exact h

variable (repr)

/-- What stands for a block in the result. -/
def CutOf (block cut : List (BaseMessage F)) : Prop :=
  cut ≠ [] ∧ ∃ budget, cut = compactBlock repr block budget

variable {repr}

theorem CutOf.eq {block cut : List (BaseMessage F)} (h : CutOf repr block cut) :
    ∃ c a, cut = (keepCalls repr block).map (compactMessage repr c a) := by
  obtain ⟨hne, budget, rfl⟩ := h
  unfold compactBlock at hne ⊢
  dsimp only at hne ⊢
  split at hne
  · exact absurd rfl hne
  · next hbudget =>
      rw [if_neg hbudget]
      split at hne
      · next hfits =>
          rw [if_pos hfits]
          exact ⟨_, _, rfl⟩
      · next hfits =>
          rw [if_neg hfits]
          split at hne
          · next hsmall =>
              rw [if_pos hsmall]
              exact ⟨_, _, rfl⟩
          · exact absurd rfl hne

theorem CutOf.paired {block cut : List (BaseMessage F)} (h : CutOf repr block cut)
    (hblock : PairedBlock repr block) : PairedBlock repr cut := by
  obtain ⟨c, a, rfl⟩ := h.eq
  exact pairedBlock_cut hblock c a

/-! ## Which blocks stay -/

variable (repr)

/-- The chosen blocks are the newest ones, cut, in their order. -/
def Chosen (blocks chosen : List (List (BaseMessage F))) : Prop :=
  ∃ later, later <:+ blocks ∧ List.Forall₂ (CutOf repr) later chosen

variable {repr}

theorem Chosen.block {blocks chosen : List (List (BaseMessage F))} {cut : List (BaseMessage F)}
    (h : Chosen repr blocks chosen) (hcut : cut ∈ chosen) :
    ∃ block ∈ blocks, CutOf repr block cut := by
  obtain ⟨later, hsuffix, hall⟩ := h
  have hlater : ∃ block ∈ later, CutOf repr block cut := by
    clear hsuffix
    induction hall with
    | nil => cases hcut
    | cons hfirst _ ih =>
        rcases List.mem_cons.1 hcut with rfl | hcut
        · exact ⟨_, List.mem_cons_self, hfirst⟩
        · obtain ⟨block, hblock, h⟩ := ih hcut
          exact ⟨block, List.mem_cons_of_mem _ hblock, h⟩
  obtain ⟨block, hblock, h⟩ := hlater
  exact ⟨block, hsuffix.mem hblock, h⟩

theorem Chosen.tail {blocks chosen : List (List (BaseMessage F))} {cut : List (BaseMessage F)}
    (h : Chosen repr blocks (cut :: chosen)) : Chosen repr blocks chosen := by
  obtain ⟨later, hsuffix, hcut⟩ := h
  obtain ⟨block, rest, -, hrest, rfl⟩ := List.forall₂_cons_right_iff.1 hcut
  exact ⟨rest, (List.suffix_cons block rest).trans hsuffix, hrest⟩

theorem chosen_dropOldest {required : List (BaseMessage F)} {maxChars : Int}
    {blocks chosen : List (List (BaseMessage F))} (h : Chosen repr blocks chosen) :
    Chosen repr blocks (dropOldest repr required maxChars chosen) := by
  induction chosen with
  | nil => exact h
  | cons cut chosen ih =>
      rw [dropOldest]
      split
      · exact ih h.tail
      · exact h

/-- The loop meets the blocks from the newest on; `later` are those it has taken. -/
theorem chosen_chooseBlocks {budget : Int} {earlier later chosen : List (List (BaseMessage F))}
    {used : Int} (h : List.Forall₂ (CutOf repr) later chosen) :
    Chosen repr (earlier.reverse ++ later) (chooseBlocks repr budget earlier chosen used) := by
  have hstop : ∀ earlier : List (List (BaseMessage F)),
      Chosen repr (earlier.reverse ++ later) chosen :=
    fun earlier => ⟨later, List.suffix_append _ _, h⟩
  induction earlier generalizing later chosen used with
  | nil => exact hstop []
  | cons block earlier ih =>
      rw [chooseBlocks]
      dsimp only
      split
      · exact hstop _
      · split
        · exact hstop _
        · next hne =>
            split
            · exact hstop _
            · rw [List.reverse_cons, List.append_assoc, List.singleton_append]
              have hcut : CutOf repr block (compactBlock repr block (budget - used)) :=
                ⟨by simpa using hne, _, rfl⟩
              exact ih (List.Forall₂.cons hcut h) fun e => ⟨_, List.suffix_append _ _,
                List.Forall₂.cons hcut h⟩

theorem chosen_newest (budget : Int) (blocks : List (List (BaseMessage F))) :
    Chosen repr blocks (chooseBlocks repr budget blocks.reverse [] 0) := by
  have h : Chosen repr (blocks.reverse.reverse ++ []) (chooseBlocks repr budget blocks.reverse [] 0) :=
    chosen_chooseBlocks .nil
  rw [List.reverse_reverse, List.append_nil] at h
  exact h

theorem Chosen.suffix {blocks blocks' chosen : List (List (BaseMessage F))}
    (h : Chosen repr blocks chosen) (hs : blocks <:+ blocks') : Chosen repr blocks' chosen := by
  obtain ⟨later, hsuffix, hcut⟩ := h
  exact ⟨later, hsuffix.trans hs, hcut⟩

theorem Chosen.paired {blocks chosen : List (List (BaseMessage F))} (h : Chosen repr blocks chosen)
    (hblocks : ∀ block ∈ blocks, PairedBlock repr block) :
    ∀ cut ∈ chosen, PairedBlock repr cut := by
  intro cut hcut
  obtain ⟨block, hblock, hcutof⟩ := h.block hcut
  exact hcutof.paired (hblocks block hblock)

/-- A chosen message is one of the history, cut. -/
theorem Chosen.mem {blocks chosen : List (List (BaseMessage F))} (h : Chosen repr blocks chosen)
    {m : BaseMessage F} (hm : m ∈ chosen.flatten) :
    ∃ original ∈ blocks.flatten, ∃ c a, m = compactMessage repr c a original := by
  obtain ⟨cut, hcut, hm⟩ := List.mem_flatten.1 hm
  obtain ⟨block, hblock, hcutof⟩ := h.block hcut
  obtain ⟨c, a, rfl⟩ := hcutof.eq
  obtain ⟨original, horiginal, rfl⟩ := List.mem_map.1 hm
  exact ⟨original, List.mem_flatten.2 ⟨block, hblock, mem_of_mem_keepCalls horiginal⟩, c, a, rfl⟩

/-! ## The required prefix -/

omit [Json.PyFloat F] in
/-- A paired history that opens with the system message goes on in blocks. -/
theorem Paired.opens {system : BaseMessage F} {rest : List (BaseMessage F)}
    (h : Paired repr (system :: rest)) (htype : system.type = .system) :
    system.toolCalls = [] ∧
      ∃ blocks : List (List (BaseMessage F)), rest = blocks.flatten ∧ ∀ block ∈ blocks, PairedBlock repr block := by
  obtain ⟨blocks, heq, hblocks⟩ := h
  cases blocks with
  | nil => cases heq
  | cons block blocks =>
      obtain ⟨message, answers, rfl, hanswered⟩ := hblocks block List.mem_cons_self
      rw [List.flatten_cons, List.cons_append] at heq
      injection heq with hsystem hrest
      subst hsystem
      have hcalls := hanswered.calls (by simp [htype])
      rw [hanswered.eq_nil hcalls, List.nil_append] at hrest
      exact ⟨hcalls, blocks, hrest, fun b hb => hblocks b (List.mem_cons_of_mem _ hb)⟩

omit [Json.PyFloat F] in
/-- The first human message is a block of its own, so what stands behind it is
made of whole blocks. -/
theorem dropWhile_flatten {blocks : List (List (BaseMessage F))}
    (h : ∀ block ∈ blocks, WholeBlock block) {human : BaseMessage F}
    {rest : List (BaseMessage F)}
    (heq : blocks.flatten.dropWhile (fun message => message.type ≠ .human) = human :: rest) :
    human.type = .human ∧ human.toolCalls = [] ∧
      ∃ later, later <:+ blocks ∧ rest = later.flatten := by
  induction blocks with
  | nil => cases heq
  | cons block blocks ih =>
      obtain ⟨message, answers, rfl, -, hcallsOf, htools, hnone⟩ := h block List.mem_cons_self
      by_cases htype : message.type = .human
      · have hcalls := hcallsOf (by simp [htype])
        rw [hnone hcalls, List.flatten_cons, List.singleton_append,
          List.dropWhile_cons_of_neg (by simp [htype])] at heq
        injection heq with hhuman hrest
        subst hhuman
        rw [hnone hcalls]
        exact ⟨htype, hcalls, blocks, List.suffix_cons _ _, hrest.symm⟩
      · have hpass : ∀ m ∈ message :: answers, decide (m.type ≠ .human) = true := by
          intro m hm
          rcases List.mem_cons.1 hm with rfl | hm
          · simpa using htype
          · simp [(htools m hm).1]
        rw [List.flatten_cons, List.dropWhile_append_of_pos hpass] at heq
        obtain ⟨hhuman, hcalls, later, hsuffix, hrest⟩ :=
          ih (fun b hb => h b (List.mem_cons_of_mem _ hb)) heq
        exact ⟨hhuman, hcalls, later, hsuffix.trans (List.suffix_cons _ _), hrest⟩

theorem requiredPrefix_ok (system : BaseMessage F) {blocks : List (List (BaseMessage F))}
    (hblocks : ∀ block ∈ blocks, WholeBlock block) (maxChars : Int) (preserveFirstHuman : Bool) :
    (∃ later, later <:+ blocks ∧
      (requiredPrefix repr (system :: blocks.flatten) maxChars preserveFirstHuman).2 =
        later.flatten) ∧
    ∃ humans, (requiredPrefix repr (system :: blocks.flatten) maxChars preserveFirstHuman).1 =
        system :: humans ∧ ∀ m ∈ humans, m.type = .human ∧ m.toolCalls = [] := by
  have hall : ∃ later, later <:+ blocks ∧ blocks.flatten = later.flatten :=
    ⟨blocks, List.suffix_refl _, rfl⟩
  have hnone : ∃ humans, [system] = system :: humans ∧
      ∀ m ∈ humans, m.type = .human ∧ m.toolCalls = [] :=
    ⟨[], rfl, fun m hm => absurd hm List.not_mem_nil⟩
  unfold requiredPrefix
  split
  · split
    · next human rest heq =>
        obtain ⟨htype, hcalls, hlater⟩ := dropWhile_flatten hblocks heq
        refine ⟨hlater, _, rfl, fun m hm => ?_⟩
        rw [List.mem_singleton.1 hm]
        exact ⟨htype, compactMessage_toolCalls_nil hcalls⟩
    · exact ⟨hall, hnone⟩
  · exact ⟨hall, hnone⟩

/-! ## The result -/

variable (repr) in
/-- What a call that returned has returned: the history, or the required prefix,
perhaps a summary, and the newest blocks. -/
inductive Compacted (required : List (BaseMessage F)) (blocks : List (List (BaseMessage F)))
    (messages : List (BaseMessage F)) : List (BaseMessage F) → Prop
  | whole : Compacted required blocks messages messages
  | fits {chosen : List (List (BaseMessage F))} (h : Chosen repr blocks chosen) :
      Compacted required blocks messages (required ++ chosen.flatten)
  | summary (text : String) {chosen : List (List (BaseMessage F))}
      (h : Chosen repr blocks chosen) :
      Compacted required blocks messages (required ++ [humanMessage text] ++ chosen.flatten)

theorem summarized_ok {required omitted : List (BaseMessage F)}
    {blocks chosen : List (List (BaseMessage F))} {maxChars reserve : Int}
    {messages result : List (BaseMessage F)} (hchosen : Chosen repr blocks chosen)
    (h : summarized repr required omitted chosen maxChars reserve = .ok result) :
    Compacted repr required blocks messages result ∧ messagesSize repr result ≤ maxChars := by
  have hkept : Chosen repr blocks (dropOldest repr (required ++ [humanMessage
      (truncateText (summarizeMessages repr omitted) reserve.toNat)]) maxChars chosen) :=
    chosen_dropOldest hchosen
  unfold summarized at h
  dsimp only at h
  split at h
  · obtain ⟨_, -, h⟩ := except_bind_ok.1 h
    obtain ⟨_, hsize, h⟩ := except_bind_ok.1 h
    cases h
    have hnone : Chosen repr blocks [] := ⟨[], List.nil_suffix, .nil⟩
    refine ⟨?_, not_lt.1 (raiseIf_ok.1 hsize)⟩
    rw [← List.append_nil (required ++ _)]
    exact .summary _ hnone
  · next hsize =>
      cases h
      exact ⟨.summary _ hkept, not_lt.1 hsize⟩

theorem compactMessages_ok {messages result : List (BaseMessage F)} {maxChars : Int}
    {preserveFirstHuman : Bool}
    (h : compactMessages repr messages maxChars preserveFirstHuman = .ok result) :
    Compacted repr (requiredPrefix repr messages maxChars preserveFirstHuman).1
      (messageBlocks (requiredPrefix repr messages maxChars preserveFirstHuman).2) messages
      result ∧ messagesSize repr result ≤ maxChars := by
  unfold compactMessages at h
  obtain ⟨_, -, h⟩ := except_bind_ok.1 h
  split at h
  · next hsize =>
      cases h
      exact ⟨.whole, hsize⟩
  · obtain ⟨_, -, h⟩ := except_bind_ok.1 h
    dsimp only at h
    split at h
    · next hfits =>
        cases h
        exact ⟨.fits (chosen_newest _ _), hfits.2⟩
    · exact summarized_ok (chosen_newest _ _) h

theorem Compacted.suffix {required messages result : List (BaseMessage F)}
    {blocks blocks' : List (List (BaseMessage F))}
    (h : Compacted repr required blocks messages result) (hs : blocks <:+ blocks') :
    Compacted repr required blocks' messages result := by
  cases h with
  | whole => exact .whole
  | fits hchosen => exact .fits (hchosen.suffix hs)
  | summary text hchosen => exact .summary text (hchosen.suffix hs)

/-- A history of whole blocks behind a system message keeps that message, and
what it keeps of the blocks are cuts of the newest. -/
theorem compactMessages_whole {system : BaseMessage F} {blocks : List (List (BaseMessage F))}
    (hblocks : ∀ block ∈ blocks, WholeBlock block) {maxChars : Int} {preserveFirstHuman : Bool}
    {result : List (BaseMessage F)}
    (h : compactMessages repr (system :: blocks.flatten) maxChars preserveFirstHuman =
      .ok result) :
    ∃ humans later, (∀ m ∈ humans, m.type = .human ∧ m.toolCalls = []) ∧ later <:+ blocks ∧
      (requiredPrefix repr (system :: blocks.flatten) maxChars preserveFirstHuman).1 =
        system :: humans ∧
      Compacted repr (system :: humans) later (system :: blocks.flatten) result ∧
      messagesSize repr result ≤ maxChars := by
  obtain ⟨⟨later, hlater, hbody⟩, humans, hrequired, hhumans⟩ :=
    requiredPrefix_ok system hblocks maxChars preserveFirstHuman
  obtain ⟨hshape, hsize⟩ := compactMessages_ok h
  rw [hbody, messageBlocks_flatten fun b hb => hblocks b (hlater.mem hb), hrequired] at hshape
  exact ⟨humans, later, hhumans, hlater, hrequired, hshape, hsize⟩

theorem Compacted.paired {required messages result : List (BaseMessage F)}
    {blocks : List (List (BaseMessage F))} (h : Compacted repr required blocks messages result)
    (hmessages : Paired repr messages) (hrequired : Paired repr required)
    (hblocks : ∀ block ∈ blocks, PairedBlock repr block) : Paired repr result := by
  cases h with
  | whole => exact hmessages
  | fits hchosen => exact hrequired.append ⟨_, rfl, hchosen.paired hblocks⟩
  | summary text hchosen =>
      have hsummary : Paired repr [humanMessage text] := Paired.singleton (by simp [humanMessage]) rfl
      exact (hrequired.append hsummary).append ⟨_, rfl, hchosen.paired hblocks⟩

variable (repr) in
/-- No message of the result speaks with the system's authority but a system
message of the history, whole or cut. -/
def KeepsAuthority (messages result : List (BaseMessage F)) : Prop :=
  ∀ m ∈ result, m.type = .system → ∃ original ∈ messages, original.type = .system ∧
    (m = original ∨ ∃ c a, m = compactMessage repr c a original)

theorem Compacted.keepsAuthority {required messages result : List (BaseMessage F)}
    {blocks : List (List (BaseMessage F))} (h : Compacted repr required blocks messages result)
    (hrequired : KeepsAuthority repr messages required)
    (hblocks : ∀ m ∈ blocks.flatten, m ∈ messages) : KeepsAuthority repr messages result := by
  have hcut : ∀ chosen, Chosen repr blocks chosen →
      KeepsAuthority repr messages chosen.flatten := by
    intro chosen hchosen m hm htype
    obtain ⟨original, horiginal, c, a, rfl⟩ := hchosen.mem hm
    exact ⟨original, hblocks original horiginal, htype, Or.inr ⟨c, a, rfl⟩⟩
  intro m hm htype
  cases h with
  | whole => exact ⟨m, hm, htype, Or.inl rfl⟩
  | fits hchosen =>
      rcases List.mem_append.1 hm with hm | hm
      · exact hrequired m hm htype
      · exact hcut _ hchosen m hm htype
  | summary text hchosen =>
      rcases List.mem_append.1 hm with hm | hm
      · rcases List.mem_append.1 hm with hm | hm
        · exact hrequired m hm htype
        · rw [List.mem_singleton.1 hm] at htype
          cases htype
      · exact hcut _ hchosen m hm htype

variable (repr) in
/-- What a call that returned promises. -/
structure SoundCompaction (messages : List (BaseMessage F)) (maxChars : Int)
    (preserveFirstHuman : Bool) (result : List (BaseMessage F)) : Prop where
  size : messagesSize repr result ≤ maxChars
  shape : Compacted repr (requiredPrefix repr messages maxChars preserveFirstHuman).1
    (messageBlocks messages) messages result
  paired : Paired repr result
  authority : KeepsAuthority repr messages result

theorem compactMessages_sound (system : BaseMessage F) (rest : List (BaseMessage F))
    (htype : system.type = .system) (hpaired : Paired repr (system :: rest)) (maxChars : Int)
    (preserveFirstHuman : Bool) (result : List (BaseMessage F))
    (h : compactMessages repr (system :: rest) maxChars preserveFirstHuman = .ok result) :
    SoundCompaction repr (system :: rest) maxChars preserveFirstHuman result := by
  obtain ⟨hcalls, blocks, rfl, hblocks⟩ := hpaired.opens htype
  obtain ⟨humans, later, hhumans, hlater, hrequired, hshape, hsize⟩ :=
    compactMessages_whole (fun b hb => (hblocks b hb).whole) h
  have hsystem : PairedBlock repr [system] := pairedBlock_singleton (by simp [htype]) hcalls
  have hall : messageBlocks (system :: blocks.flatten) = [system] :: blocks :=
    messageBlocks_flatten (List.forall_mem_cons.2
      ⟨hsystem.whole, fun b hb => (hblocks b hb).whole⟩)
  refine ⟨hsize, ?_, ?_, ?_⟩
  · rw [hall, hrequired]
    exact hshape.suffix (hlater.trans (List.suffix_cons _ _))
  · have hrequiredPaired : Paired repr (system :: humans) :=
      (Paired.singleton (by simp [htype]) hcalls).append
        (paired_of_plain fun m hm => ⟨by simp [(hhumans m hm).1], (hhumans m hm).2⟩)
    exact hshape.paired hpaired hrequiredPaired fun b hb => hblocks b (hlater.mem hb)
  · have hrequiredAuthority : KeepsAuthority repr (system :: blocks.flatten)
        (system :: humans) := by
      intro m hm hsystem
      rcases List.mem_cons.1 hm with rfl | hm
      · exact ⟨m, List.mem_cons_self, htype, Or.inl rfl⟩
      · rw [(hhumans m hm).1] at hsystem
        cases hsystem
    refine hshape.keepsAuthority hrequiredAuthority fun m hm => ?_
    obtain ⟨block, hblock, hin⟩ := List.mem_flatten.1 hm
    exact List.mem_cons_of_mem _ (List.mem_flatten.2 ⟨block, hlater.mem hblock, hin⟩)

def sampleSystem : BaseMessage Unit := ⟨.system, .str "rules", [], "", []⟩
def sampleRequest : BaseMessage Unit := ⟨.ai, .str "", [[("id", .str "1")]], "", []⟩
def sampleAnswer : BaseMessage Unit := ⟨.tool, .str "done", [], "1", []⟩

theorem paired_sample :
    Paired (fun _ => "") [sampleSystem, sampleRequest, sampleAnswer] := by
  refine ⟨[[sampleSystem], [sampleRequest, sampleAnswer]], rfl, ?_⟩
  have hsystem : PairedBlock (fun _ => "") [sampleSystem] :=
    pairedBlock_singleton (by decide) rfl
  have hrequest : PairedBlock (fun _ => "") [sampleRequest, sampleAnswer] :=
    ⟨_, _, rfl, by decide, fun h => absurd rfl h, List.forall_mem_singleton.2 ⟨rfl, rfl⟩,
      List.nodup_singleton _, List.Perm.refl _⟩
  exact List.forall_mem_cons.2 ⟨hsystem, List.forall_mem_singleton.2 hrequest⟩

theorem compactMessages_sound_sample :
    SoundCompaction (fun _ => "") [sampleSystem, sampleRequest, sampleAnswer] 250 true
      [sampleSystem, sampleRequest, sampleAnswer] := by
  refine compactMessages_sound _ _ rfl paired_sample _ _ _ ?_
  have hfits : messagesSize (fun _ => "") [sampleSystem, sampleRequest, sampleAnswer] ≤ 250 := by
    decide +kernel
  rw [compactMessages, if_pos hfits]
  rfl

end MiniCodeAgent

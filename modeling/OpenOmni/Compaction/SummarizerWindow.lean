import OpenOmni.Compaction.SpeculateRun

/-! The window of a summarizer call, at a cut and ahead of one. -/
namespace OpenOmni
namespace Compaction

open Message

/-- A part as it is passed: a completed tool's output may be its marker. -/
inductive PartElided : Part → Part → Prop
  | same (part : Part) : PartElided part part
  | output (base : PartBase) (callID tool : String) (input : PlainObject) (output title : String)
      (metadata : PlainObject) (start stop : ℚ) :
      PartElided (.tool base callID tool (.completed input (elisionMarker output) title metadata start stop))
        (.tool base callID tool (.completed input output title metadata start stop))

structure MessageElided (passed original : WithParts) : Prop where
  info : passed.info = original.info
  parts : List.Forall₂ PartElided passed.parts original.parts

/-- The messages passed: the whole prefix, or a suffix of what no user said with outputs elided. -/
def WholeOrSuffix (leading passed : List WithParts) : Prop :=
  passed = leading ∨
    ∃ kept, kept <:+ leading.filter (fun message => !isUser message) ∧ List.Forall₂ MessageElided passed kept

/-- The call's messages, its anchor and its reserve are within the window. -/
def CallFits (call : SummarizerCall) (contextWindowTokens : ℚ) : Prop :=
  ((estimateMessagesTokens call.messages + anchorTokens call.previousAnchor + call.budget.maxOutputTokens : ℕ) : ℚ) ≤
    contextWindowTokens

lemma partElided_elidePart (part : Part) : PartElided (elidePart part) part := by
  unfold elidePart
  split
  · split_ifs
    · exact .same _
    · exact .output ..
  · exact .same _

lemma messageElided_elideMessage (message : WithParts) : MessageElided (elideMessage message) message := by
  refine ⟨rfl, ?_⟩
  change List.Forall₂ PartElided (message.parts.map elidePart) message.parts
  rw [List.forall₂_map_left_iff]
  exact List.forall₂_same.mpr fun part _ => partElided_elidePart part

lemma prepareSummarizerInput_messages (leading : List WithParts) (contextWindowTokens : ℚ)
    (previousAnchor : Option String) :
    WholeOrSuffix leading (prepareSummarizerInput leading contextWindowTokens previousAnchor).messages := by
  unfold prepareSummarizerInput
  dsimp only
  split_ifs with hwhole
  · exact .inl rfl
  · right
    generalize halfWindow contextWindowTokens - anchorTokens previousAnchor = messageBudget
    generalize weightedChars _ = suffixChars
    obtain ⟨dropped, hdropped⟩ := boundedSuffix_suffix messageBudget suffixChars
      ((leading.filter fun message => !isUser message).map elideMessage)
    refine ⟨(leading.filter fun message => !isUser message).drop dropped.length, List.drop_suffix _ _, ?_⟩
    have hkept : boundedSuffix messageBudget suffixChars
        ((leading.filter fun message => !isUser message).map elideMessage) =
        ((leading.filter fun message => !isUser message).drop dropped.length).map elideMessage := by
      rw [List.map_drop, ← hdropped, List.drop_left, hdropped]
    rw [hkept, List.forall₂_map_left_iff]
    exact List.forall₂_same.mpr fun message _ => messageElided_elideMessage message

section Calls
variable [PlainCoding]

/-- Compaction calls the summarizer on a prefix: at a cut, or by a preparation. -/
inductive Calls (contextWindowTokens : ℚ) : List WithParts → SummarizerCall → Prop
  | cut {cutSpan leading : List WithParts} {precomputed : Option String} {call : SummarizerCall} :
      summarizerCall cutSpan leading precomputed contextWindowTokens = some call →
      Calls contextWindowTokens leading call
  | speculative {s : CompactionSession} {messages : List WithParts} {p : Preparation} :
      s.planned messages contextWindowTokens = some p → Calls contextWindowTokens p.plan.summarizerInput p.call

lemma Calls.prepared {contextWindowTokens : ℚ} {leading : List WithParts} {call : SummarizerCall}
    (h : Calls contextWindowTokens leading call) :
    call.messages = (prepareSummarizerInput leading contextWindowTokens call.previousAnchor).messages ∧
      call.budget = (prepareSummarizerInput leading contextWindowTokens call.previousAnchor).budget ∧
      call.messages ≠ [] := by
  cases h with
  | cut h =>
    unfold summarizerCall at h
    dsimp only at h
    split_ifs at h with hcall
    cases h
    exact ⟨rfl, rfl, hcall.2.2⟩
  | @speculative s messages p h =>
    unfold CompactionSession.planned at h
    obtain ⟨plan, -, h⟩ := Option.bind_eq_some_iff.mp h
    obtain ⟨firstKept, -, h⟩ := Option.bind_eq_some_iff.mp h
    dsimp only at h
    split_ifs at h with hcall
    cases h
    exact ⟨rfl, rfl, hcall.2⟩

/-- A call fits its window, with the whole prefix or a suffix of it, exactly when the previous
anchor and the reserved output alone do. -/
theorem summarizer_call_fits_iff {contextWindowTokens : ℚ} {leading : List WithParts} {call : SummarizerCall}
    (h : Calls contextWindowTokens leading call) :
    (CallFits call contextWindowTokens ∧ WholeOrSuffix leading call.messages) ↔
      ((anchorTokens call.previousAnchor + maxOutputTokens contextWindowTokens : ℕ) : ℚ) ≤ contextWindowTokens := by
  obtain ⟨hmessages, hbudget, hne⟩ := h.prepared
  have hwhole : WholeOrSuffix leading call.messages := by
    rw [hmessages]
    exact prepareSummarizerInput_messages leading contextWindowTokens call.previousAnchor
  have hfits := fits_iff (hmessages ▸ hne)
  rw [← hfits, and_iff_left hwhole, CallFits, Fits, ← hmessages, ← hbudget]

end Calls

section Sample

attribute [local instance] textCoding

def wideAnchor : WithParts where
  info := .user ⟨"u1", "s", 0, "agent", "p", "m", none, none, none⟩
  parts := [.text ⟨"part", "s", "u1"⟩ "twenty chars of text" none
    (some [("compactionAnchor", .bool true), ("anchorBody", .str "twenty chars of text")])]

def silent : WithParts where
  info := .assistant
    { id := "a1", sessionID := "s", created := 0, parentID := "u1", modelID := "m", providerID := "p", agent := "agent"
      tokens := ⟨0, 0, 0, 0, 0⟩ }
  parts := [.reasoning ⟨"part", "s", "a1"⟩ "thinking" none ⟨0, none⟩ none]

def silentCall (contextWindowTokens : ℚ) : SummarizerCall :=
  ⟨[silent], some "twenty chars of text", ⟨4, 4, contextWindowTokens⟩⟩

theorem summarizer_call_exceeds_window : ¬ ∀ (contextWindowTokens : ℚ) (leading : List WithParts) (call : SummarizerCall),
    Calls contextWindowTokens leading call → CallFits call contextWindowTokens ∧ WholeOrSuffix leading call.messages := by
  intro hall
  have hcall : summarizerCall [wideAnchor, silent] [wideAnchor, silent] none 8 = some (silentCall 8) := by
    decide +kernel
  have hwide : ¬ CallFits (silentCall 8) 8 := by
    unfold CallFits
    decide
  exact hwide (hall 8 _ _ (.cut hcall)).1

theorem summarizer_call_fits_iff_wider :
    CallFits (silentCall 9) 9 ∧ WholeOrSuffix [wideAnchor, silent] (silentCall 9).messages := by
  have hcall : summarizerCall [wideAnchor, silent] [wideAnchor, silent] none 9 = some (silentCall 9) := by
    decide +kernel
  exact (summarizer_call_fits_iff (.cut hcall)).mpr (by decide +kernel)

end Sample

end Compaction
end OpenOmni

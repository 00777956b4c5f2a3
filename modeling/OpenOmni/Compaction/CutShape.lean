import OpenOmni.Compaction.Cut
import OpenOmni.Compaction.TimeMarkers

/-! The exits of a compaction: what each returns of the history it was given. -/
namespace OpenOmni
namespace Compaction
open List
open Option (bind_eq_some_iff map_eq_some_iff map_some toList_some)

open Message

lemma reducePart_chars (options : ToolOutputElision) (part : Part) :
    ((contentText (reducePart options part).1).toList.map Utf16.length).sum + (reducePart options part).2 =
      ((contentText part).toList.map Utf16.length).sum := by
  unfold reducePart
  split
  · next base callID tool input output title metadata start stop =>
    dsimp only
    split_ifs with h
    · rfl
    · rw [not_or] at h
      simp only [contentText, toList_some, map_cons, map_nil, sum_cons, sum_nil]
      omega
  · rfl

lemma contentChars_eq (weigh : String → ℕ) (parts : List Part) :
    contentChars weigh parts = (parts.map fun part => ((contentText part).toList.map weigh).sum).sum := by
  induction parts with
  | nil => rfl
  | cons part parts ih =>
    unfold contentChars at ih ⊢
    rw [map_cons, sum_cons, ← ih, filterMap_cons]
    cases contentText part <;> simp

lemma reduceMessage_chars (options : ToolOutputElision) (message : WithParts) :
    messageContentChars (reduceMessage options message).1 + (reduceMessage options message).2 =
      messageContentChars message := by
  unfold reduceMessage
  split_ifs
  · rfl
  · dsimp only [messageContentChars]
    rw [contentChars_eq, contentChars_eq]
    induction message.parts with
    | nil => rfl
    | cons part parts ih =>
      have hpart := reducePart_chars options part
      simp only [map_cons, sum_cons]
      omega

lemma reduceMessage_info (options : ToolOutputElision) (message : WithParts) :
    (reduceMessage options message).1.info = message.info := by
  unfold reduceMessage
  split_ifs <;> rfl

lemma isUser_of_info {m n : WithParts} (h : m.info = n.info) : isUser m = isUser n := by
  rw [isUser, isUser, h]

variable {messages working : List WithParts}

lemma estimateContentChars_append (a b : List WithParts) :
    estimateContentChars (a ++ b) = estimateContentChars a + estimateContentChars b := by
  rw [estimateContentChars, map_append, sum_append]
  rfl

lemma elideToolOutputs_chars (messages : List WithParts) (protect : ℕ) (options : ToolOutputElision) :
    estimateContentChars (elideToolOutputs messages protect options).1 + (elideToolOutputs messages protect options).2 =
      estimateContentChars messages := by
  unfold elideToolOutputs
  dsimp only
  rw [estimateContentChars_append, map_map, map_map]
  conv_rhs => rw [← take_append_drop (messages.length - protect) messages, estimateContentChars_append]
  generalize messages.drop (messages.length - protect) = kept
  induction messages.take (messages.length - protect) with
  | nil => simp [estimateContentChars]
  | cons message rest ih =>
    have hmessage := reduceMessage_chars options message
    simp only [estimateContentChars, map_cons, sum_cons, Function.comp] at ih ⊢
    omega

lemma marked_reduceMessage (options : ToolOutputElision) {message : WithParts} (h : Marked message) :
    Marked (reduceMessage options message).1 := by
  have htagged : ∀ part, timeTagged (reducePart options part).1 = timeTagged part := by
    intro part
    unfold reducePart
    split
    · dsimp only
      split_ifs <;> rfl
    · rfl
  have hmarker : ∀ part, isTimeCarriageMarkerPart (reducePart options part).1 = isTimeCarriageMarkerPart part := by
    intro part
    unfold reducePart
    split
    · dsimp only
      split_ifs <;> rfl
    · rfl
  unfold reduceMessage
  split_ifs with huser
  · exact h
  refine ⟨?_, ?_, fun hcontra => absurd hcontra huser⟩
  · intro part hpart htag
    dsimp only at hpart
    rw [map_map] at hpart
    obtain ⟨original, horiginal, rfl⟩ := mem_map.mp hpart
    exact (hmarker original).trans (h.closed original horiginal ((htagged original).symm.trans htag))
  · dsimp only
    rw [map_map, countP_map]
    refine le_trans (le_of_eq (countP_congr fun part _ => ?_)) h.once
    exact iff_of_eq (congrArg (· = true) (htagged part))

/-- A history and its working copy: the same but for the outputs before the protected messages. -/
structure Elided (messages working : List WithParts) (protect : ℕ) : Prop where
  infos : working.map (·.info) = messages.map (·.info)
  users : ∀ (i : ℕ) (m : WithParts), messages[i]? = some m → isUser m → working[i]? = some m
  kept : working.drop (messages.length - protect) = messages.drop (messages.length - protect)
  marked : (∀ m ∈ messages, Marked m) → ∀ m ∈ working, Marked m

lemma elided_refl (messages : List WithParts) (protect : ℕ) : Elided messages messages protect :=
  ⟨rfl, fun _ _ h _ => h, rfl, fun h => h⟩

lemma elided_elideToolOutputs (messages : List WithParts) (protect : ℕ) (options : ToolOutputElision) :
    Elided messages (elideToolOutputs messages protect options).1 protect := by
  have hlen : (((messages.take (messages.length - protect)).map (reduceMessage options)).map Prod.fst).length =
      messages.length - protect := by
    rw [length_map, length_map, length_take]
    omega
  refine ⟨?_, ?_, ?_, ?_⟩
  · change ((((messages.take _).map (reduceMessage options)).map Prod.fst) ++ messages.drop _).map _ = _
    conv_rhs => rw [← take_append_drop (messages.length - protect) messages]
    rw [map_append, map_append, map_map, map_map]
    congr 1
    exact map_congr_left fun m _ => reduceMessage_info options m
  · intro i m hm huser
    change ((((messages.take _).map (reduceMessage options)).map Prod.fst) ++ messages.drop _)[i]? = _
    by_cases hi : i < messages.length - protect
    · rw [getElem?_append_left (by rw [hlen]; exact hi), getElem?_map, getElem?_map,
        getElem?_take_of_lt hi, hm, map_some, map_some, reduceMessage, if_pos huser]
    · rw [getElem?_append_right (by rw [hlen]; omega), hlen, getElem?_drop]
      rw [← hm]
      congr 1
      omega
  · change ((((messages.take _).map (reduceMessage options)).map Prod.fst) ++ messages.drop _).drop _ = _
    rw [drop_append_of_le_length (by rw [hlen]), drop_eq_nil_of_le (by rw [hlen]), nil_append]
  · intro h m hm
    rcases mem_append.mp hm with hm | hm
    · obtain ⟨_, hpair, rfl⟩ := mem_map.mp hm
      obtain ⟨original, horiginal, rfl⟩ := mem_map.mp hpair
      exact marked_reduceMessage options (h original (mem_of_mem_take horiginal))
    · exact h m (mem_of_mem_drop hm)

lemma Elided.length {protect : ℕ} (h : Elided messages working protect) : working.length = messages.length := by
  have hlen := congrArg List.length h.infos
  rwa [length_map, length_map] at hlen

lemma snapToUserBoundary_spec {n k : ℕ} (h : snapToUserBoundary messages n = some k) :
    k ≤ n ∧ (messages[k]?).any isUser := by
  induction n with
  | zero =>
    unfold snapToUserBoundary at h
    split_ifs at h with huser
    cases h
    exact ⟨le_rfl, huser⟩
  | succ n ih =>
    unfold snapToUserBoundary at h
    split_ifs at h with huser
    · cases h
      exact ⟨le_rfl, huser⟩
    · obtain ⟨hle, hboundary⟩ := ih h
      exact ⟨Nat.le_succ_of_le hle, hboundary⟩

lemma keepNewest_spec (budgetChars : ℚ) (older kept : List WithParts) (total : ℕ) :
    ∃ front, front.reverse <+: older ∧ keepNewest budgetChars older kept total = front ++ kept ∧
      (kept = [] → older ≠ [] → front ≠ []) := by
  induction older generalizing kept total with
  | nil => exact ⟨[], nil_prefix, rfl, fun _ h => absurd rfl h⟩
  | cons candidate older ih =>
    rw [keepNewest]
    split_ifs with hfull
    · exact ⟨[], nil_prefix, rfl, fun hnil => absurd hnil hfull.1⟩
    · obtain ⟨front, hfront, heq, -⟩ := ih (candidate :: kept) (total + messageContentChars candidate)
      refine ⟨front ++ [candidate], ?_, ?_, fun _ _ => append_ne_nil_of_right_ne_nil _ (cons_ne_nil _ _)⟩
      · rw [reverse_append]
        exact cons_prefix_cons.mpr ⟨rfl, hfront⟩
      · rw [heq, append_assoc]
        rfl

def spokenUsers (span : List WithParts) : List WithParts :=
  span.filter fun message => isUser message && !isAnchorMessage message

lemma selectPreservedUsers_spec (span : List WithParts) (budgetChars : ℚ) :
    selectPreservedUsers span budgetChars <:+ spokenUsers span ∧
      (selectPreservedUsers span budgetChars).getLast? = (spokenUsers span).getLast? := by
  obtain ⟨front, hfront, heq, hne⟩ := keepNewest_spec budgetChars (spokenUsers span).reverse [] 0
  rw [append_nil] at heq
  have hsel : selectPreservedUsers span budgetChars = front := heq
  rw [hsel]
  have hsuffix := reverse_suffix.mpr hfront
  rw [reverse_reverse, reverse_reverse] at hsuffix
  refine ⟨hsuffix, ?_⟩
  by_cases hspoken : spokenUsers span = []
  · rw [hspoken] at hsuffix
    rw [hspoken, suffix_nil.mp hsuffix]
  · have hfront := hne rfl (reverse_ne_nil_iff.mpr hspoken)
    obtain ⟨dropped, hdropped⟩ := hsuffix
    rw [← hdropped, getLast?_append_of_ne_nil _ hfront]

/-- A preserved user as it is kept: stamped where it carries speech. -/
inductive Stamped (message : WithParts) : WithParts → Prop
  | plain : carriesUserSpeech message = false → Stamped message message
  | stamped {id : String} {out : WithParts} :
      carriesUserSpeech message = true → stampTimeMarker message id = some out → Stamped message out

lemma stampUsers_spec {ids : ℕ → String} {used used' : ℕ} {users out : List WithParts}
    (h : stampUsers ids used users = some (out, used')) : List.Forall₂ Stamped users out := by
  induction users generalizing used out used' with
  | nil =>
    obtain ⟨rfl, -⟩ := Prod.mk.inj (Option.some.inj h)
    exact .nil
  | cons message rest ih =>
    rw [stampUsers] at h
    split_ifs at h with hspeech
    · obtain ⟨stamped, hstamp, h⟩ := bind_eq_some_iff.mp h
      obtain ⟨⟨stampedRest, usedRest⟩, hrest, h⟩ := bind_eq_some_iff.mp h
      obtain ⟨rfl, -⟩ := Prod.mk.inj (Option.some.inj h)
      exact .cons (.stamped hspeech hstamp) (ih hrest)
    · obtain ⟨⟨stampedRest, usedRest⟩, hrest, h⟩ := bind_eq_some_iff.mp h
      obtain ⟨rfl, -⟩ := Prod.mk.inj (Option.some.inj h)
      exact .cons (.plain (Bool.not_eq_true _ ▸ hspeech)) (ih hrest)

/-- An anchored cut at a boundary: an anchor, the newest users stamped, and the rest as it is. -/
structure AnchoredAt (working : List WithParts) (boundary : ℕ) (out : List WithParts) : Prop where
  shape : ∃ anchors preserved stamped : List WithParts,
    out = anchors ++ (stamped ++ working.drop boundary) ∧ anchors ++ stamped ≠ [] ∧ anchors.length ≤ 1 ∧
      (∀ m ∈ anchors, isUser m ∧ isAnchorMessage m ∧ ∀ part ∈ m.parts, timeTagged part = false) ∧
      preserved <:+ spokenUsers (working.take boundary) ∧
      preserved.getLast? = (spokenUsers (working.take boundary)).getLast? ∧
      List.Forall₂ Stamped preserved stamped
  smaller : estimateContentChars out < estimateContentChars working

variable {env : CutEnv} {firstRemoved : WithParts} {attempt : AnchoredCutAttempt} {cut : Cut} {cutoff : Option ℕ}
  {elidedChars naturalCutoff : ℕ} {r : CompactionResult} {outcome : Option CandidateOutcome}
  {options : CompactionOptions} {candidate : Option CompactionCandidate}

lemma attemptAnchoredCut_spec {offset boundary : ℕ} {summaryPrefix : List WithParts} {precomputed : Option String}
    {preserveBudget window : ℚ}
    (h : attemptAnchoredCut env offset (working.take boundary) summaryPrefix (working.drop boundary) precomputed working
      firstRemoved preserveBudget window = some attempt) (hcut : attempt.cut = some cut) :
    AnchoredAt working boundary cut.messages := by
  unfold attemptAnchoredCut at h
  obtain ⟨⟨text, summarizerError⟩, -, h⟩ := bind_eq_some_iff.mp h
  obtain ⟨hsuffix, hnewest⟩ := selectPreservedUsers_spec (working.take boundary) preserveBudget
  dsimp only at h
  generalize selectPreservedUsers (working.take boundary) preserveBudget = preserved at h hsuffix hnewest
  split_ifs at h with hnone
  · cases h
    cases hcut
  obtain ⟨⟨stamped, used⟩, hstamp, h⟩ := bind_eq_some_iff.mp h
  dsimp only at h
  split_ifs at h with hsize
  · cases h
    cases hcut
  cases h
  cases hcut
  have hforall := stampUsers_spec hstamp
  refine ⟨⟨_, preserved, stamped, rfl, ?_, ?_, ?_, hsuffix, hnewest, hforall⟩, Nat.not_le.mp hsize⟩
  · cases text with
    | some body => simp
    | none =>
      have hpreserved : preserved ≠ [] := fun hnil => hnone ⟨rfl, hnil⟩
      simp only [Option.toList_none, map_nil, nil_append]
      rintro rfl
      exact hpreserved (List.forall₂_nil_right_iff.mp hforall)
  · cases text <;> simp
  · intro m hm
    cases text with
    | none => simp at hm
    | some body =>
      simp only [toList_some, map_cons, map_nil, mem_singleton] at hm
      subst hm
      refine ⟨rfl, rfl, fun part hpart => ?_⟩
      obtain rfl := mem_singleton.mp hpart
      rfl

/-- What is left to do on a history after its outputs were elided. -/
structure Reduced (messages : List WithParts) (protect : ℕ) (reduction : ReducedHistory) : Prop where
  elided : Elided messages reduction.working protect
  chars : estimateContentChars reduction.working + reduction.elidedChars = estimateContentChars messages
  completed : ∀ r, reduction.completed = some r → r = reducedResult reduction.working ∧ 0 < reduction.elidedChars

lemma reduced_reduceHistoryBeforeCut (messages : List WithParts) (options : CompactionOptions) (protect : ℕ)
    (measured : Option ℚ) : Reduced messages protect (reduceHistoryBeforeCut messages options protect measured) := by
  have hsame : Reduced messages protect ⟨messages, 0, none⟩ :=
    ⟨elided_refl messages protect, rfl, fun _ hr => by cases hr⟩
  unfold reduceHistoryBeforeCut
  cases options.elideToolOutputs with
  | none => exact hsame
  | some elision =>
    have helided := elided_elideToolOutputs messages protect elision
    have hchars := elideToolOutputs_chars messages protect elision
    dsimp only
    split_ifs with hzero
    · exact hsame
    · have hpos := Nat.pos_of_ne_zero hzero
      cases measured.map (· - thresholdTokens options) with
      | none => exact ⟨helided, hchars, fun r hr => ⟨(Option.some.inj hr).symm, hpos⟩⟩
      | some overage =>
        dsimp only
        split_ifs
        · exact ⟨helided, hchars, fun r hr => by cases hr⟩
        · exact ⟨helided, hchars, fun r hr => ⟨(Option.some.inj hr).symm, hpos⟩⟩

lemma finishUnavailableCut_spec (h : finishUnavailableCut cutoff working elidedChars = some r)
    (hr : r.compacted = true) : r = reducedResult working ∧ 0 < elidedChars := by
  unfold finishUnavailableCut at h
  split at h
  · split_ifs at h with hpos
    · exact ⟨(Option.some.inj h).symm, hpos⟩
    · cases h
      cases hr
  · split_ifs at h with hpos
    · exact ⟨(Option.some.inj h).symm, hpos⟩
    · cases h
      cases hr
  · cases h

lemma finishUnavailableCut_none (h : finishUnavailableCut cutoff working elidedChars = none) :
    ∃ k, cutoff = some (k + 1) := by
  unfold finishUnavailableCut at h
  split at h
  · split_ifs at h
  · split_ifs at h
  · exact ⟨_, rfl⟩

/-- A plain cut: without a summarizer, or when it failed, at the last user boundary behind the front. -/
def PlainCut (working : List WithParts) (options : CompactionOptions) (r : CompactionResult) : Prop :=
  (options.onSummarize = false ∨ r.summarizerFailed = true) ∧
    ∃ k, snapToUserBoundary working (working.length - protectedCount options) = some (k + 1) ∧
      r.messages = working.drop (k + 1)

/-- An anchored cut: with a summarizer that did not fail, or one whose failure has no boundary. -/
def AnchoredCut (working : List WithParts) (options : CompactionOptions) (candidate : Option CompactionCandidate)
    (r : CompactionResult) : Prop :=
  options.onSummarize = true ∧
    (r.summarizerFailed = true →
      ∀ k, snapToUserBoundary working (working.length - protectedCount options) ≠ some (k + 1)) ∧
    ∃ boundary, AnchoredAt working boundary r.messages ∧
      (boundary = working.length - protectedCount options ∨
        ∃ c, candidate = some c ∧ boundary = c.prefixIds.length)

lemma finishFallbackCut_spec (h : finishFallbackCut attempt outcome working naturalCutoff = some r) :
    r.summarizerFailed = true ∧
      ∃ k, snapToUserBoundary working naturalCutoff = some (k + 1) ∧ r.messages = working.drop (k + 1) := by
  unfold finishFallbackCut at h
  split_ifs at h
  cases hsnap : snapToUserBoundary working naturalCutoff with
  | none =>
    rw [hsnap] at h
    cases h
  | some cutoff =>
    rw [hsnap] at h
    cases cutoff with
    | zero => cases h
    | succ k =>
      cases h
      exact ⟨rfl, k, rfl, rfl⟩

lemma finishFallbackCut_none (h : finishFallbackCut attempt outcome working naturalCutoff = none)
    (hfail : attempt.summarizerError.isSome = true) (k : ℕ) :
    snapToUserBoundary working naturalCutoff ≠ some (k + 1) := by
  intro hsnap
  unfold finishFallbackCut at h
  rw [if_neg (Option.isSome_iff_ne_none.mp hfail), hsnap] at h
  cases h

variable [PlainCoding]

lemma chooseAnchoredCut_spec {original : List WithParts} {cutoff : ℕ}
    (h : chooseAnchoredCut env working original cutoff firstRemoved options candidate = some (attempt, outcome))
    (hcut : attempt.cut = some cut) : ∃ boundary, AnchoredAt working boundary cut.messages ∧
      (boundary = cutoff ∨ ∃ c, candidate = some c ∧ boundary = c.prefixIds.length) := by
  unfold chooseAnchoredCut at h
  dsimp only at h
  cases candidate with
  | none =>
    obtain ⟨a, ha, heq⟩ := map_eq_some_iff.mp h
    obtain rfl := (Prod.mk.inj heq).1
    exact ⟨cutoff, attemptAnchoredCut_spec ha hcut, .inl rfl⟩
  | some candidate =>
    dsimp only at h
    split_ifs at h
    · obtain ⟨promoted, hpromoted, h⟩ := bind_eq_some_iff.mp h
      split_ifs at h
      · obtain ⟨rfl, -⟩ := Prod.mk.inj (Option.some.inj h)
        exact ⟨_, attemptAnchoredCut_spec hpromoted hcut, .inr ⟨candidate, rfl, rfl⟩⟩
      · obtain ⟨a, ha, heq⟩ := map_eq_some_iff.mp h
        obtain rfl := (Prod.mk.inj heq).1
        exact ⟨cutoff, attemptAnchoredCut_spec ha hcut, .inl rfl⟩
    · obtain ⟨a, ha, heq⟩ := map_eq_some_iff.mp h
      obtain rfl := (Prod.mk.inj heq).1
      exact ⟨cutoff, attemptAnchoredCut_spec ha hcut, .inl rfl⟩

omit [PlainCoding] in
lemma finishAnchoredCut_spec (hr : (finishAnchoredCut attempt outcome messages working elidedChars).compacted = true) :
    (finishAnchoredCut attempt outcome messages working elidedChars).summarizerFailed = attempt.summarizerError.isSome ∧
      (((finishAnchoredCut attempt outcome messages working elidedChars).messages = working ∧ 0 < elidedChars) ∨
        ∃ cut, attempt.cut = some cut ∧
          (finishAnchoredCut attempt outcome messages working elidedChars).messages = cut.messages) := by
  cases hcut : attempt.cut with
  | none =>
    by_cases hpos : 0 < elidedChars
    · simp [finishAnchoredCut, hcut, hpos]
    · simp [finishAnchoredCut, hcut, hpos] at hr
  | some cut => simp [finishAnchoredCut, hcut]

lemma cutWorking_spec
    (h : cutWorking env messages working elidedChars (protectedCount options) options candidate = some r)
    (hr : r.compacted = true) (hne : working ≠ []) :
    (r.messages = working ∧ 0 < elidedChars) ∨ PlainCut working options r ∨
      AnchoredCut working options candidate r := by
  unfold cutWorking at h
  dsimp only at h
  generalize hcutoff : (if options.onSummarize = true then some (working.length - protectedCount options)
    else snapToUserBoundary working (working.length - protectedCount options)) = cutoff at h
  cases hfinish : finishUnavailableCut cutoff working elidedChars with
  | some result =>
    rw [hfinish] at h
    cases h
    obtain ⟨rfl, hpos⟩ := finishUnavailableCut_spec hfinish hr
    exact .inl ⟨rfl, hpos⟩
  | none =>
    rw [hfinish] at h
    obtain ⟨k, rfl⟩ := finishUnavailableCut_none hfinish
    cases hsummarize : options.onSummarize with
    | false =>
      rw [hsummarize] at h hcutoff
      cases h
      exact .inr (.inl ⟨.inl hsummarize, k, hcutoff, rfl⟩)
    | true =>
      rw [hsummarize, if_pos rfl] at hcutoff
      obtain ⟨firstRemoved, rest, rfl⟩ := exists_cons_of_ne_nil hne
      rw [hsummarize] at h
      obtain ⟨⟨attempt, outcome⟩, hchoose, h⟩ := bind_eq_some_iff.mp h
      cases h
      cases hfallback : finishFallbackCut attempt outcome (firstRemoved :: rest)
          ((firstRemoved :: rest).length - protectedCount options) with
      | some result =>
        obtain ⟨hfailed, k, hsnap, hmessages⟩ := finishFallbackCut_spec hfallback
        exact .inr (.inl ⟨.inr hfailed, k, hsnap, hmessages⟩)
      | none =>
        rw [hfallback] at hr
        obtain ⟨hfailed, hmessages | ⟨cut, hcut, hmessages⟩⟩ := finishAnchoredCut_spec hr
        · exact .inl hmessages
        · obtain ⟨boundary, hanchored, hboundary⟩ := chooseAnchoredCut_spec hchoose hcut
          refine .inr (.inr ⟨hsummarize, fun hfail => finishFallbackCut_none hfallback (hfailed ▸ hfail), boundary, ?_, ?_⟩)
          · exact hmessages ▸ hanchored
          · rw [Option.some.inj hcutoff]
            exact hboundary

lemma compactUnbracketed_exits {measured : Option ℚ}
    (h : compactUnbracketed env messages options measured candidate = some r) (hr : r.compacted = true) :
    protectedCount options < messages.length ∧ ∃ working, Elided messages working (protectedCount options) ∧
      estimateContentChars working ≤ estimateContentChars messages ∧
      ((r.messages = working ∧ estimateContentChars working < estimateContentChars messages) ∨
        PlainCut working options r ∨ AnchoredCut working options candidate r) := by
  unfold compactUnbracketed at h
  dsimp only at h
  split_ifs at h with hshort
  · cases h
    cases hr
  refine ⟨Nat.not_le.mp hshort, ?_⟩
  have hreduced := reduced_reduceHistoryBeforeCut messages options (protectedCount options) measured
  generalize reduceHistoryBeforeCut messages options (protectedCount options) measured = reduction at h hreduced
  have hchars := hreduced.chars
  refine ⟨reduction.working, hreduced.elided, by omega, ?_⟩
  cases hdone : reduction.completed with
  | some result =>
    rw [hdone] at h
    cases h
    obtain ⟨rfl, hpos⟩ := hreduced.completed _ hdone
    exact .inl ⟨rfl, by omega⟩
  | none =>
    rw [hdone] at h
    have hne : reduction.working ≠ [] := by
      have hlen := hreduced.elided.length
      rintro hnil
      rw [hnil] at hlen
      change 0 = _ at hlen
      omega
    rcases cutWorking_spec h hr hne with ⟨hmessages, hpos⟩ | hcut
    · exact .inl ⟨hmessages, by omega⟩
    · exact .inr hcut

end Compaction
end OpenOmni

import OpenOmni.Compaction.CutShape
import OpenOmni.Compaction.SpeculateRun
import OpenOmni.Lib.Paired

/-! Compactions one after another: the histories they leave, and the progress each makes. -/
namespace OpenOmni
namespace Compaction
open List

open Message

def StartsWithUser (messages : List WithParts) : Prop := (messages.head?).any isUser = true

variable {messages working : List WithParts}

lemma startsWithUser_iff : StartsWithUser messages ↔ ∃ m rest, messages = m :: rest ∧ isUser m = true := by
  cases messages with
  | nil | cons m rest => simp [StartsWithUser]

lemma startsWithUser_append {more : List WithParts} (h : StartsWithUser messages) : StartsWithUser (messages ++ more) := by
  obtain ⟨m, rest, rfl, huser⟩ := startsWithUser_iff.mp h
  exact startsWithUser_iff.mpr ⟨m, rest ++ more, rfl, huser⟩

lemma Elided.startsWithUser {protect : ℕ} (h : Elided messages working protect) (huser : StartsWithUser messages) :
    StartsWithUser working := by
  obtain ⟨m, rest, rfl, hm⟩ := startsWithUser_iff.mp huser
  have hhead := h.users 0 m rfl hm
  rw [StartsWithUser, head?_eq_getElem?, hhead]
  exact hm

variable {k boundary : ℕ} {out : List WithParts}

lemma startsWithUser_drop (h : (messages[k]?).any isUser = true) : StartsWithUser (messages.drop k) := by
  rwa [StartsWithUser, head?_drop]

lemma Stamped.info {message out : WithParts} (h : Stamped message out) : out.info = message.info := by
  cases h with
  | plain => rfl
  | stamped _ hstamp =>
    obtain ⟨text, -, rfl⟩ := Option.map_eq_some_iff.mp hstamp
    rfl

lemma mem_spokenUsers {span : List WithParts} {m : WithParts} (h : m ∈ spokenUsers span) :
    m ∈ span ∧ isUser m = true ∧ isAnchorMessage m = false := by
  obtain ⟨hmem, hspoken⟩ := mem_filter.mp h
  simp only [Bool.and_eq_true, Bool.not_eq_true'] at hspoken
  exact ⟨hmem, hspoken⟩

lemma AnchoredAt.startsWithUser (h : AnchoredAt working boundary out) : StartsWithUser out := by
  obtain ⟨anchors, preserved, stamped, rfl, hne, -, hanchors, hsuffix, -, hstamped⟩ := h.shape
  rw [startsWithUser_iff]
  cases anchors with
  | cons anchor rest => exact ⟨anchor, _, rfl, (hanchors anchor mem_cons_self).1⟩
  | nil =>
    cases hstamped with
    | nil => exact absurd rfl hne
    | @cons m out users outs hm hrest =>
      have huser := (mem_spokenUsers (hsuffix.subset mem_cons_self)).2.1
      exact ⟨out, _, rfl, (isUser_of_info hm.info).trans huser⟩

lemma AnchoredAt.marked (h : AnchoredAt working boundary out) (hmarked : ∀ m ∈ working, Marked m) :
    ∀ m ∈ out, Marked m := by
  obtain ⟨anchors, preserved, stamped, rfl, -, -, hanchors, hsuffix, -, hstamped⟩ := h.shape
  intro m hm
  rcases mem_append.mp hm with hm | hm
  · obtain ⟨-, hanchor, htags⟩ := hanchors m hm
    refine ⟨fun part hpart htag => ?_, ?_, fun _ hnot => ?_⟩
    · rw [htags part hpart] at htag
      cases htag
    · rw [countP_eq_zero.mpr fun part hpart => by simp [htags part hpart]]
      exact Nat.zero_le 1
    · rw [hanchor] at hnot
      cases hnot
  rcases mem_append.mp hm with hm | hm
  · obtain ⟨original, horiginal, hstamp⟩ := List.exists_left_of_forall₂ hstamped hm
    obtain ⟨hmem, huser, hnot⟩ := mem_spokenUsers (hsuffix.subset horiginal)
    have horig := hmarked original (mem_of_mem_take hmem)
    cases hstamp with
    | plain => exact horig
    | stamped _ hout => exact marked_stampTimeMarker horig (horig.dated huser hnot) hout
  · exact hmarked m (mem_of_mem_drop hm)

lemma suffix_drop {n : ℕ} (h : k ≤ n) : messages.drop n <:+ messages.drop k := by
  have hdrop : messages.drop n = (messages.drop k).drop (n - k) := by
    rw [drop_drop]
    congr 1
    omega
  rw [hdrop]
  exact drop_suffix _ _

section Cuts

variable [PlainCoding]

/-- A candidate that a session prepared with the cut's own protection, from no longer a list. -/
def PreparedFor (options : CompactionOptions) (messages : List WithParts) (c : CompactionCandidate) : Prop :=
  ∃ (s : CompactionSession) (earlier : List WithParts) (window : ℚ) (p : Preparation) (summary : String),
    s.protectRecentMessages = options.protectRecentMessages.getD DEFAULT_PROTECT_RECENT ∧
      earlier.length ≤ messages.length ∧ s.planned earlier window = some p ∧
      CompactionSession.candidateOf p summary = some c

variable {options : CompactionOptions} {env : CutEnv} {measured : Option ℚ} {candidate : Option CompactionCandidate}
  {r : CompactionResult}

lemma PreparedFor.boundary_le {c : CompactionCandidate} (h : PreparedFor options messages c) :
    c.prefixIds.length + protectedCount options ≤ messages.length := by
  obtain ⟨s, earlier, window, p, summary, hprotect, hlen, hplanned, hmade⟩ := h
  have hids : c.prefixIds = p.plan.prefixIds := by
    unfold CompactionSession.candidateOf at hmade
    split_ifs at hmade
    exact congrArg CompactionCandidate.prefixIds (Option.some.inj hmade).symm
  unfold CompactionSession.planned at hplanned
  obtain ⟨plan, hplan, hplanned⟩ := Option.bind_eq_some_iff.mp hplanned
  obtain ⟨firstKept, hfirst, hplanned⟩ := Option.bind_eq_some_iff.mp hplanned
  dsimp only at hplanned
  split_ifs at hplanned
  cases hplanned
  have hlt := (List.getElem?_eq_some_iff.mp hfirst).1
  rw [hids]
  unfold planAnchoredCut at hplan
  dsimp only at hplan
  split_ifs at hplan with hshort hcutoff
  cases hplan
  dsimp only at hlt ⊢
  rw [length_map, length_take] at hlt ⊢
  rw [protectedCount, ← hprotect]
  -- a cut that keeps its first message protects at least one
  omega

/-- A history as compactions leave it, with what is recorded between them. -/
inductive Compactions (start : List WithParts) : List WithParts → Prop
  | start : Compactions start start
  | compact {messages : List WithParts} {env : CutEnv} {options : CompactionOptions} {measured : Option ℚ}
      {candidate : Option CompactionCandidate} {r : CompactionResult} :
      Compactions start messages → compactUnbracketed env messages options measured candidate = some r →
      r.compacted = true → Compactions start r.messages
  | recorded {messages more : List WithParts} :
      Compactions start messages → (∀ m ∈ more, Marked m) → Compactions start (messages ++ more)

lemma compacted_keeps (h : compactUnbracketed env messages options measured candidate = some r)
    (hr : r.compacted = true) (huser : StartsWithUser messages) :
    StartsWithUser r.messages ∧ ((∀ m ∈ messages, Marked m) → ∀ m ∈ r.messages, Marked m) := by
  obtain ⟨-, working, helided, -, hexit⟩ := compactUnbracketed_exits h hr
  rcases hexit with ⟨hmessages, -⟩ | ⟨-, k, hsnap, hmessages⟩ | ⟨-, -, boundary, hanchored, -⟩
  · rw [hmessages]
    exact ⟨helided.startsWithUser huser, helided.marked⟩
  · rw [hmessages]
    refine ⟨startsWithUser_drop (snapToUserBoundary_spec hsnap).2, fun hmarked m hm => ?_⟩
    exact helided.marked hmarked m (mem_of_mem_drop hm)
  · exact ⟨hanchored.startsWithUser, fun hmarked => hanchored.marked (helided.marked hmarked)⟩

lemma Compactions.keeps {start : List WithParts} (h : Compactions start messages) (huser : StartsWithUser start) :
    StartsWithUser messages ∧ ((∀ m ∈ start, Marked m) → ∀ m ∈ messages, Marked m) := by
  induction h with
  | start => exact ⟨huser, fun h => h⟩
  | compact _ hcompact hr ih =>
    obtain ⟨hhead, hmarks⟩ := compacted_keeps hcompact hr ih.1
    exact ⟨hhead, fun hstart => hmarks (ih.2 hstart)⟩
  | recorded _ hmore ih =>
    refine ⟨startsWithUser_append ih.1, fun hstart m hm => ?_⟩
    rcases mem_append.mp hm with hm | hm
    · exact ih.2 hstart m hm
    · exact hmore m hm

lemma compacted_protects (h : compactUnbracketed env messages options measured candidate = some r)
    (hr : r.compacted = true) (hcandidate : ∀ c, candidate = some c → PreparedFor options messages c) :
    messages.drop (messages.length - protectedCount options) <:+ r.messages := by
  obtain ⟨-, working, helided, -, hexit⟩ := compactUnbracketed_exits h hr
  have hlen := helided.length
  rw [← helided.kept]
  rcases hexit with ⟨hmessages, -⟩ | ⟨-, k, hsnap, hmessages⟩ | ⟨-, -, boundary, hanchored, hboundary⟩
  · rw [hmessages]
    exact drop_suffix _ _
  · have hle := (snapToUserBoundary_spec hsnap).1
    rw [hmessages]
    exact suffix_drop (by omega)
  · obtain ⟨anchors, preserved, stamped, heq, -⟩ := hanchored.shape
    have hle : boundary ≤ messages.length - protectedCount options := by
      rcases hboundary with rfl | ⟨c, hc, rfl⟩
      · omega
      · have hprepared := (hcandidate c hc).boundary_le
        omega
    rw [heq]
    exact (suffix_drop hle).trans ((suffix_append _ _).trans (suffix_append _ _))

/-- What the exits of a compaction share: the result starts with a user, ends with the protected
messages, is smaller, and an anchored one keeps the newest users in their order, each with one
marker however many compactions came before. -/
theorem compaction_cut_valid {start : List WithParts} {env : CutEnv} {options : CompactionOptions} {measured : Option ℚ}
    {candidate : Option CompactionCandidate} {r : CompactionResult} (hhistory : Compactions start messages)
    (huser : StartsWithUser start) (h : compactUnbracketed env messages options measured candidate = some r)
    (hr : r.compacted = true) :
    StartsWithUser r.messages ∧
    ((∀ c, candidate = some c → PreparedFor options messages c) →
      messages.drop (messages.length - protectedCount options) <:+ r.messages) ∧
    ((∀ m ∈ start, Marked m) → ∀ m ∈ r.messages, Marked m) ∧
    ∃ working, Elided messages working (protectedCount options) ∧
      ((r.messages = working ∧ estimateContentChars r.messages < estimateContentChars messages) ∨
        (PlainCut working options r ∧ r.messages.length < messages.length) ∨
        (AnchoredCut working options candidate r ∧
          estimateContentChars r.messages < estimateContentChars messages)) := by
  obtain ⟨hhead, hmarks⟩ := hhistory.keeps huser
  obtain ⟨hhead', hmarks'⟩ := compacted_keeps h hr hhead
  refine ⟨hhead', compacted_protects h hr, fun hstart => hmarks' (hmarks hstart), ?_⟩
  obtain ⟨hshort, working, helided, hchars, hexit⟩ := compactUnbracketed_exits h hr
  refine ⟨working, helided, ?_⟩
  have hlen := helided.length
  rcases hexit with ⟨hmessages, hsmaller⟩ | hplain | hanchored
  · exact .inl ⟨hmessages, hmessages ▸ hsmaller⟩
  · refine .inr (.inl ⟨hplain, ?_⟩)
    obtain ⟨-, k, -, hmessages⟩ := hplain
    rw [hmessages, length_drop]
    omega
  · obtain ⟨boundary, hat, _⟩ := hanchored.2.2
    exact .inr (.inr ⟨hanchored, hat.smaller.trans_le hchars⟩)

end Cuts

namespace CutSample

attribute [local instance] textCoding

def injected (id : String) : WithParts where
  info := .user ⟨id, "s", 0, "agent", "p", "m", none, none, none⟩
  parts := [.text ⟨"part", "s", id⟩ "Go on" none (some [("policyInjected", .bool true)])]

def replied (id : String) (length : ℕ) : WithParts where
  info := .assistant
    { id, sessionID := "s", created := 0, parentID := "u", modelID := "m", providerID := "p", agent := "agent"
      tokens := ⟨0, 0, 0, 0, 0⟩ }
  parts := [.text ⟨"part", "s", id⟩ (.ofList (List.replicate length 'x')) none none]

def longer : List WithParts := [injected "u1", replied "a1" 30, injected "u2", replied "a2" 1]

def history : List WithParts := longer.take 3

def options : CompactionOptions := ⟨1000, none, some 2, true, none, none⟩

def env : CutEnv := ⟨fun n => String.ofList (List.replicate n 'i'), 0, fun _ => .text "Done"⟩

def candidate : Option CompactionCandidate :=
  ((CompactionSession.create 2).planned longer 1000).bind fun p => CompactionSession.candidateOf p "Done"

/-- A candidate of the longer list stands for the shorter one, and cuts a protected message away. -/
theorem promoted_cut_unprotects : ¬ ∀ (env : CutEnv) (options : CompactionOptions) (measured : Option ℚ)
    (messages earlier : List WithParts) (s : CompactionSession) (window : ℚ) (p : Preparation) (summary : String)
    (c : CompactionCandidate) (r : CompactionResult), StartsWithUser messages →
    s.protectRecentMessages = options.protectRecentMessages.getD DEFAULT_PROTECT_RECENT →
    s.planned earlier window = some p → CompactionSession.candidateOf p summary = some c →
    compactUnbracketed env messages options measured (some c) = some r → r.compacted = true →
    messages.drop (messages.length - protectedCount options) <:+ r.messages := by
  intro hall
  obtain ⟨c, hc⟩ := Option.isSome_iff_exists.mp (by decide +kernel : candidate.isSome = true)
  have hfields : (candidate.map fun c => (c.prefixIds, c.firstKeptId, c.compactionAnchorId, c.anchorBody)) =
      some (["u1", "a1"], "u2", none, "Done") := by
    decide +kernel
  rw [hc, Option.map_some, Option.some_inj] at hfields
  obtain ⟨p, hp, hmade⟩ := Option.bind_eq_some_iff.mp hc
  -- the fingerprints are those of the same messages: neither is evaluated
  have hprint := candidateOf_print hp hmade
  obtain ⟨ids, print, kept, anchor, body⟩ := c
  cases hfields
  have hstands : (history.findIdx? (·.info.id = "u2") = some 2 && latestCompactionAnchorId history = none &&
      ["u1", "a1"].zipIdx.all fun e => (history[e.2]?).map (·.info.id) = some e.1) = true := by
    decide
  have hvalid : isWarmCandidateValid ⟨["u1", "a1"], print, "u2", none, "Done"⟩ history = true := by
    unfold isWarmCandidateValid
    rw [Bool.and_eq_true, decide_eq_true_eq]
    exact ⟨hstands, hprint⟩
  have hcount : protectedCount options = 2 := by decide
  have hresult : (compactUnbracketed env history options none (some ⟨["u1", "a1"], print, "u2", none, "Done"⟩)).any
      (fun r => r.compacted && !decide (history.drop 1 <:+ r.messages)) = true := by
    have hreduced : reduceHistoryBeforeCut history options 2 none = ⟨history, 0, none⟩ := rfl
    unfold compactUnbracketed
    rw [hcount]
    simp only [hreduced]
    rw [if_neg (by decide)]
    unfold cutWorking chooseAnchoredCut
    simp only [hvalid, if_true]
    decide
  have hstarts : StartsWithUser history := by
    unfold StartsWithUser
    decide
  obtain ⟨r, hr, hbad⟩ := (Option.any_eq_true _ _).mp hresult
  simp only [Bool.and_eq_true, Bool.not_eq_true', decide_eq_false_iff_not] at hbad
  have hprotected := hall env options none history longer (.create 2) 1000 p "Done" _ r hstarts rfl hp hmade hr hbad.1
  rw [hcount] at hprotected
  exact hbad.2 hprotected

theorem compaction_cut_valid_summarised : ∃ r, compactUnbracketed env longer options none none = some r ∧
    r.compacted = true ∧ StartsWithUser r.messages ∧ longer.drop 2 <:+ r.messages := by
  have hresult : (compactUnbracketed env longer options none none).any (·.compacted) = true := by decide +kernel
  have hstarts : StartsWithUser longer := by
    unfold StartsWithUser
    decide
  have hprotects : longer.length - protectedCount options = 2 := by decide
  obtain ⟨r, hr, hcompacted⟩ := (Option.any_eq_true _ _).mp hresult
  obtain ⟨huser, hprotected, -⟩ := compaction_cut_valid .start hstarts hr hcompacted
  rw [hprotects] at hprotected
  exact ⟨r, hr, hcompacted, huser, hprotected nofun⟩

end CutSample
end Compaction
end OpenOmni

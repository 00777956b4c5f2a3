import OpenOmni.Fold.Message
import OpenOmni.Lib.Utf16

/-! What a span of messages weighs, and the input of a summarizer call bounded by it. -/
namespace OpenOmni
namespace Compaction
open Message PlainValue

def ESTIMATED_CHARS_PER_TOKEN : ℕ := 4

/-- `/[A-Za-z0-9+/=_-]/` -/
def base64Char (c : Char) : Bool := c.isAlphanum || c ∈ ['+', '/', '=', '_', '-']

/-- The characters in the runs of `BASE64_RUN_RE`, `run` of them read so far. -/
def base64Chars : ℕ → List Char → ℕ
  | run, [] => if 512 ≤ run then run else 0
  | run, c :: text =>
    if base64Char c then base64Chars (run + 1) text
    else (if 512 ≤ run then run else 0) + base64Chars 0 text

def weightedTextChars (text : String) : ℕ := Utf16.length text + base64Chars 0 text.toList * 3

def contentText : Part → Option String
  | .text _ text _ _ => some text
  | .tool _ _ _ (.completed _ output _ _ _ _) => some output
  | _ => none

def contentChars (weigh : String → ℕ) (parts : List Part) : ℕ :=
  ((parts.filterMap contentText).map weigh).sum

def messageContentChars (message : WithParts) : ℕ := contentChars Utf16.length message.parts

def estimateContentChars (span : List WithParts) : ℕ := (span.map messageContentChars).sum

def weightedMessageChars (message : WithParts) : ℕ := contentChars weightedTextChars message.parts

/-- `Math.ceil(chars / ESTIMATED_CHARS_PER_TOKEN)` -/
def tokensOf (chars : ℕ) : ℕ := (chars + (ESTIMATED_CHARS_PER_TOKEN - 1)) / ESTIMATED_CHARS_PER_TOKEN

def weightedChars (messages : List WithParts) : ℕ := (messages.map weightedMessageChars).sum

def estimateMessagesTokens (messages : List WithParts) : ℕ := tokensOf (weightedChars messages)

def isUser (message : WithParts) : Bool :=
  match message.info with
  | .user _ => true
  | .assistant _ => false

structure SummarizationBudget where
  maxInputTokens : ℕ
  maxOutputTokens : ℕ
  contextWindowTokens : ℚ
  deriving DecidableEq

def elisionMarker (output : String) : String :=
  s!"[tool output elided for summarization: {Utf16.length output} chars]"

/-- A completed tool output gives way to its marker where that is shorter. -/
def elidePart : Part → Part
  | .tool base callID tool (.completed input output title metadata start stop) =>
    if Utf16.length output ≤ Utf16.length (elisionMarker output) then
      .tool base callID tool (.completed input output title metadata start stop)
    else .tool base callID tool (.completed input (elisionMarker output) title metadata start stop)
  | part => part

def elideMessage (message : WithParts) : WithParts := { message with parts := message.parts.map elidePart }

/-- The loop drops from the front until the rest, of `suffixChars`, is within the budget. -/
def boundedSuffix (messageBudget : ℕ) : ℕ → List WithParts → List WithParts
  | _, [] => []
  | suffixChars, message :: rest =>
    if messageBudget < tokensOf suffixChars then
      boundedSuffix messageBudget (suffixChars - weightedMessageChars message) rest
    else message :: rest

def halfWindow (contextWindowTokens : ℚ) : ℕ := ⌊contextWindowTokens / 2⌋.toNat

def maxOutputTokens (contextWindowTokens : ℚ) : ℕ := min 32768 (halfWindow contextWindowTokens)

def anchorTokens (previousAnchor : Option String) : ℕ := tokensOf (weightedTextChars (previousAnchor.getD ""))

structure SummarizerInput where
  messages : List WithParts
  budget : SummarizationBudget

def prepareSummarizerInput (leading : List WithParts) (contextWindowTokens : ℚ) (previousAnchor : Option String) :
    SummarizerInput :=
  let budget : SummarizationBudget :=
    ⟨halfWindow contextWindowTokens, maxOutputTokens contextWindowTokens, contextWindowTokens⟩
  let anchor := anchorTokens previousAnchor
  if ((estimateMessagesTokens leading + anchor + budget.maxOutputTokens : ℕ) : ℚ) ≤ contextWindowTokens then
    ⟨leading, budget⟩
  else
    let messageBudget := halfWindow contextWindowTokens - anchor
    let elided := (leading.filter fun message => !isUser message).map elideMessage
    ⟨boundedSuffix messageBudget (weightedChars elided) elided, budget⟩

/-- The messages fit in the window beside the previous anchor and the reserved output. -/
def Fits (input : SummarizerInput) (contextWindowTokens : ℚ) (previousAnchor : Option String) : Prop :=
  ((estimateMessagesTokens input.messages + anchorTokens previousAnchor + input.budget.maxOutputTokens : ℕ) : ℚ) ≤
    contextWindowTokens

lemma weightedChars_cons (message : WithParts) (rest : List WithParts) :
    weightedChars (message :: rest) = weightedMessageChars message + weightedChars rest := rfl

lemma boundedSuffix_suffix (messageBudget suffixChars : ℕ) (messages : List WithParts) :
    boundedSuffix messageBudget suffixChars messages <:+ messages := by
  induction messages generalizing suffixChars with
  | nil => exact List.suffix_refl _
  | cons message rest ih =>
    rw [boundedSuffix]
    split_ifs
    · exact (ih _).trans (List.suffix_cons _ _)
    · exact List.suffix_refl _

lemma boundedSuffix_within (messageBudget : ℕ) (messages : List WithParts)
    (hne : boundedSuffix messageBudget (weightedChars messages) messages ≠ []) :
    estimateMessagesTokens (boundedSuffix messageBudget (weightedChars messages) messages) ≤ messageBudget := by
  induction messages with
  | nil => exact absurd rfl hne
  | cons message rest ih =>
    rw [boundedSuffix] at hne ⊢
    by_cases h : messageBudget < tokensOf (weightedChars (message :: rest))
    · have hrest : weightedChars (message :: rest) - weightedMessageChars message = weightedChars rest := by
        rw [weightedChars_cons]
        omega
      rw [if_pos h, hrest] at hne ⊢
      exact ih hne
    · rw [if_neg h]
      exact Nat.not_lt.mp h

lemma two_mul_halfWindow {contextWindowTokens : ℚ} (h : 0 ≤ contextWindowTokens) :
    ((2 * halfWindow contextWindowTokens : ℕ) : ℚ) ≤ contextWindowTokens := by
  have hfloor : 0 ≤ ⌊contextWindowTokens / 2⌋ := Int.floor_nonneg.mpr (by linarith)
  have hcast : ((halfWindow contextWindowTokens : ℕ) : ℚ) = (⌊contextWindowTokens / 2⌋ : ℤ) := by
    rw [halfWindow, ← Int.cast_natCast, Int.toNat_of_nonneg hfloor]
  have hle := Int.floor_le (contextWindowTokens / 2)
  push_cast
  rw [hcast]
  linarith

lemma fits_iff {leading : List WithParts} {contextWindowTokens : ℚ} {previousAnchor : Option String}
    (hne : (prepareSummarizerInput leading contextWindowTokens previousAnchor).messages ≠ []) :
    Fits (prepareSummarizerInput leading contextWindowTokens previousAnchor) contextWindowTokens previousAnchor ↔
      ((anchorTokens previousAnchor + maxOutputTokens contextWindowTokens : ℕ) : ℚ) ≤ contextWindowTokens := by
  unfold prepareSummarizerInput at hne ⊢
  dsimp only at hne ⊢
  split_ifs at hne ⊢ with hwhole
  · refine ⟨fun _ => ?_, fun _ => hwhole⟩
    refine le_trans ?_ hwhole
    exact_mod_cast (by omega : _ ≤ _)
  · have hwithin := boundedSuffix_within _ _ hne
    constructor
    · intro h
      refine le_trans ?_ h
      exact_mod_cast (by simp only; omega : _ ≤ _)
    · intro h
      have hnonneg : 0 ≤ contextWindowTokens := le_trans (Nat.cast_nonneg _) h
      have hhalf := two_mul_halfWindow hnonneg
      have hout : maxOutputTokens contextWindowTokens ≤ halfWindow contextWindowTokens := Nat.min_le_right _ _
      by_cases hanchor : anchorTokens previousAnchor ≤ halfWindow contextWindowTokens
      · refine le_trans ?_ hhalf
        exact_mod_cast (by simp only; omega : _ ≤ _)
      · -- no budget is left: what is kept weighs nothing
        refine le_trans ?_ h
        exact_mod_cast (by simp only; omega : _ ≤ _)

/-- `part.metadata?.[key] === true` -/
def flagged (key : String) (metadata : Option PlainObject) : Bool :=
  (metadata.bind (·.lookup key)) = some (.bool true)

def isAnchorPart : Part → Bool
  | .text _ _ _ metadata => flagged "compactionAnchor" metadata
  | _ => false

def anchorPart (message : WithParts) : Option Part :=
  if isUser message then message.parts.find? isAnchorPart else none

def isAnchorMessage (message : WithParts) : Bool := (anchorPart message).isSome

def latestCompactionAnchorId (span : List WithParts) : Option String :=
  (span.reverse.find? isAnchorMessage).map (·.info.id)

def anchorBodyOf : Part → Option String
  | .text _ text _ metadata =>
    match metadata.bind (·.lookup "anchorBody") with
    | some (.str body) => some body
    | _ => some text
  | _ => none

def latestAnchorBody (span : List WithParts) : Option String :=
  (span.reverse.findSome? anchorPart).bind anchorBodyOf

def summarizable (message : WithParts) : Bool := !isUser message && !isAnchorMessage message

def canonicalState : Tool.State → PlainValue
  | .completed input _ title metadata start stop =>
    Tool.State.toPlain (.completed input "[tool output]" title metadata start stop)
  | state => state.toPlain

def canonicalPartContent : Part → PlainValue
  | .text _ text _ metadata =>
    record [("type", some (.str "text")), ("text", some (.str text)), ("metadata", metadata.map .obj)]
  | .reasoning _ text signature _ metadata =>
    record [("type", some (.str "reasoning")), ("text", some (.str text)), ("signature", signature.map .str),
      ("metadata", metadata.map .obj)]
  | .stepStart _ => record [("type", some (.str "step-start"))]
  | .stepFinish _ reason tokens =>
    record [("type", some (.str "step-finish")), ("reason", some (.str reason)), ("tokens", some (Tokens.toPlain tokens))]
  | .tool _ callID tool state =>
    record [("type", some (.str "tool")), ("callID", some (.str callID)), ("tool", some (.str tool)),
      ("state", some (canonicalState state))]

def roleOf (message : WithParts) : String := if isUser message then "user" else "assistant"

def canonicalMessage (message : WithParts) : PlainValue :=
  record [("role", some (.str (roleOf message))), ("parts", some (.arr (message.parts.map canonicalPartContent)))]

def canonicalMessages (messages : List WithParts) : PlainValue := .arr (messages.map canonicalMessage)

/-- One step of the hash: `hash ^= unit; hash = Math.imul(hash, 16_777_619)`. -/
def hashUnit (hash : UInt32) (unit : ℕ) : UInt32 := (hash ^^^ UInt32.ofNat unit) * 16777619

/-- `(hash >>> 0).toString(16).padStart(8, "0")` -/
def hexDigits (hash : UInt32) : String :=
  let digits := Nat.toDigits 16 hash.toNat
  .ofList (List.replicate (8 - digits.length) '0' ++ digits)

variable [PlainCoding]

def canonicalPrefixFingerprint (messages : List WithParts) : String :=
  let canonical := PlainCoding.jsonText (canonicalMessages messages)
  hexDigits ((Utf16.codeUnits canonical).foldl hashUnit 2166136261)

structure AnchoredPlan where
  prefixIds : List String
  prefixFingerprint : String
  previousAnchor : Option String
  summarizerInput : List WithParts

/-- A summary sees the original leading messages; what is preserved is decided apart. -/
def planAnchoredCut (messages : List WithParts) (protectRecentMessages : ℤ) : Option AnchoredPlan :=
  if (messages.length : ℤ) ≤ protectRecentMessages then none
  else
    let cutoff := (messages.length : ℤ) - protectRecentMessages
    if cutoff ≤ 0 then none
    else
      let toRemove := messages.take cutoff.toNat
      if toRemove.any summarizable then
        some {
          prefixIds := toRemove.map (·.info.id)
          prefixFingerprint := canonicalPrefixFingerprint toRemove
          previousAnchor := latestAnchorBody toRemove
          summarizerInput := toRemove }
      else none

structure CompactionCandidate where
  prefixIds : List String
  prefixFingerprint : String
  firstKeptId : String
  compactionAnchorId : Option String
  anchorBody : String

def isWarmCandidateValid (candidate : CompactionCandidate) (messages : List WithParts) : Bool :=
  messages.findIdx? (·.info.id = candidate.firstKeptId) = some candidate.prefixIds.length &&
    latestCompactionAnchorId messages = candidate.compactionAnchorId &&
    candidate.prefixIds.zipIdx.all (fun e => (messages[e.2]?).map (·.info.id) = some e.1) &&
    canonicalPrefixFingerprint (messages.take candidate.prefixIds.length) = candidate.prefixFingerprint

end Compaction
end OpenOmni

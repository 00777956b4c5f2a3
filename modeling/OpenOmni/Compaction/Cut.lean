import OpenOmni.Compaction.Summary

/-! A compaction: tool outputs elided first, then a cut — anchored, promoted from a candidate, or
plain at a user boundary. -/
namespace OpenOmni
namespace Compaction

open Message

structure ToolOutputElision where
  minOutputChars : ℤ
  keepHeadChars : ℤ

/-- `output.slice(0, keepHeadChars)`; a negative count is taken from the end. -/
def sliceHead (output : String) (keepHeadChars : ℤ) : String :=
  if 0 ≤ keepHeadChars then Utf16.take keepHeadChars.toNat output
  else Utf16.take ((Utf16.length output : ℤ) + keepHeadChars).toNat output

def elidedOutput (output : String) (keepHeadChars : ℤ) (callID : String) : String :=
  s!"[output elided by compaction: {Utf16.length output} chars; recall: {callID}]\n" ++ sliceHead output keepHeadChars

def reducePart (options : ToolOutputElision) : Part → Part × ℕ
  | .tool base callID tool (.completed input output title metadata start stop) =>
    let replacement := elidedOutput output options.keepHeadChars callID
    if (Utf16.length output : ℤ) ≤ options.minOutputChars ∨ Utf16.length output ≤ Utf16.length replacement then
      (.tool base callID tool (.completed input output title metadata start stop), 0)
    else
      (.tool base callID tool (.completed input replacement title metadata start stop),
        Utf16.length output - Utf16.length replacement)
  | part => (part, 0)

def reduceMessage (options : ToolOutputElision) (message : WithParts) : WithParts × ℕ :=
  if isUser message then (message, 0)
  else
    let reduced := message.parts.map (reducePart options)
    ({ message with parts := reduced.map Prod.fst }, (reduced.map Prod.snd).sum)

/-- The messages before the protected ones, reduced, and the characters saved. -/
def elideToolOutputs (messages : List WithParts) (protectRecentMessages : ℕ) (options : ToolOutputElision) :
    List WithParts × ℕ :=
  let cutoff := messages.length - protectRecentMessages
  let reduced := (messages.take cutoff).map (reduceMessage options)
  (reduced.map Prod.fst ++ messages.drop cutoff, (reduced.map Prod.snd).sum)

structure CompactionYield where
  savedTokens : ℚ
  tokensBefore : ℚ

structure CompactionOptions where
  contextWindowTokens : ℚ
  reserveTokens : Option ℚ
  protectRecentMessages : Option ℤ
  onSummarize : Bool
  preserveUserMessageChars : Option ℚ
  elideToolOutputs : Option ToolOutputElision

def DEFAULT_PROTECT_RECENT : ℤ := 6
def DEFAULT_PRESERVE_USER_CHARS : ℚ := 80000

/-- The recent messages that a compaction keeps; even a zero-tail strategy keeps one. -/
def protectedCount (options : CompactionOptions) : ℕ :=
  (max 1 (options.protectRecentMessages.getD DEFAULT_PROTECT_RECENT)).toNat

def baseThresholdRatioForWindow (window : ℚ) : ℚ :=
  if window ≤ 16000 then 45 / 100
  else if window ≤ 32000 then 1 / 2
  else if window ≤ 64000 then 55 / 100
  else if window ≤ 128000 then 6 / 10
  else if window ≤ 512000 then 7 / 10
  else 8 / 10

/-- `resolveThresholdTokens(options)`, with no previous yield. -/
def thresholdTokens (options : CompactionOptions) : ℚ :=
  let window := max 0 options.contextWindowTokens
  let thresholdRatio := min (85 / 100) (max (4 / 10) (baseThresholdRatioForWindow window))
  let reserve := min window (max (max 0 (options.reserveTokens.getD 0)) (min (window * (4 / 100)) 49152))
  max 0 (min (window * thresholdRatio) (window - reserve))

inductive CandidateOutcome
  | promoted
  | discarded

inductive CompactionOutcome
  | cut
  | reduced
  | nothingReclaimed
  | noUserBoundary

structure CompactionResult where
  messages : List WithParts
  compacted : Bool
  removedCount : ℤ
  summarizerFailed : Bool
  candidate : Option CandidateOutcome
  blocked : Bool
  outcome : CompactionOutcome

def reducedResult (working : List WithParts) : CompactionResult := ⟨working, true, 0, false, none, false, .reduced⟩

/-- The working history, the characters elided, and the result where elision covers the overage. -/
structure ReducedHistory where
  working : List WithParts
  elidedChars : ℕ
  completed : Option CompactionResult

def reduceHistoryBeforeCut (messages : List WithParts) (options : CompactionOptions) (protectRecent : ℕ)
    (measuredContextTokens : Option ℚ) : ReducedHistory :=
  match options.elideToolOutputs with
  | none => ⟨messages, 0, none⟩
  | some elision =>
    let (working, elidedChars) := elideToolOutputs messages protectRecent elision
    if elidedChars = 0 then ⟨messages, 0, none⟩
    else
      match measuredContextTokens.map (· - thresholdTokens options) with
      | some overage =>
        if (elidedChars : ℚ) / ESTIMATED_CHARS_PER_TOKEN < overage then ⟨working, elidedChars, none⟩
        else ⟨working, elidedChars, some (reducedResult working)⟩
      | none => ⟨working, elidedChars, some (reducedResult working)⟩

def snapToUserBoundary (messages : List WithParts) : ℕ → Option ℕ
  | 0 => if (messages[0]?).any isUser then some 0 else none
  | index + 1 => if (messages[index + 1]?).any isUser then some (index + 1) else snapToUserBoundary messages index

def finishUnavailableCut (cutoff : Option ℕ) (working : List WithParts) (elidedChars : ℕ) : Option CompactionResult :=
  match cutoff with
  | none =>
    if 0 < elidedChars then some (reducedResult working)
    else some ⟨working, false, 0, false, none, true, .noUserBoundary⟩
  | some 0 =>
    if 0 < elidedChars then some (reducedResult working)
    else some ⟨working, false, 0, false, none, false, .nothingReclaimed⟩
  | some (_ + 1) => none

def finishAnchoredCut (attempt : AnchoredCutAttempt) (candidateOutcome : Option CandidateOutcome)
    (messages working : List WithParts) (elidedChars : ℕ) : CompactionResult :=
  let failed := attempt.summarizerError.isSome
  match attempt.cut with
  | none =>
    if 0 < elidedChars then ⟨working, true, 0, failed, candidateOutcome, false, .reduced⟩
    else ⟨messages, false, 0, failed, candidateOutcome, false, .nothingReclaimed⟩
  | some cut => ⟨cut.messages, true, cut.removedCount, failed, candidateOutcome, false, .cut⟩

/-- A failed summarizer falls back to a plain cut at a user boundary, where there is one. -/
def finishFallbackCut (attempt : AnchoredCutAttempt) (candidateOutcome : Option CandidateOutcome)
    (working : List WithParts) (naturalCutoff : ℕ) : Option CompactionResult :=
  if attempt.summarizerError = none then none
  else
    match snapToUserBoundary working naturalCutoff with
    | none | some 0 => none
    | some (cutoff + 1) =>
      some ⟨working.drop (cutoff + 1), true, cutoff + 1, true, candidateOutcome, false, .cut⟩

variable [PlainCoding]

/-- A candidate that still stands is promoted, unless its cut would not shrink the history. -/
def chooseAnchoredCut (env : CutEnv) (working original : List WithParts) (cutoff : ℕ) (firstRemoved : WithParts)
    (options : CompactionOptions) (candidate : Option CompactionCandidate) :
    Option (AnchoredCutAttempt × Option CandidateOutcome) := do
  let preserveBudget := options.preserveUserMessageChars.getD DEFAULT_PRESERVE_USER_CHARS
  let attempt := fun (offset boundary : ℕ) (anchor : Option String) =>
    attemptAnchoredCut env offset (working.take boundary) (original.take boundary) (working.drop boundary) anchor
      working firstRemoved preserveBudget options.contextWindowTokens
  match candidate with
  | none => (attempt 0 cutoff none).map (·, none)
  | some candidate =>
    if isWarmCandidateValid candidate working then
      let promoted ← attempt 0 candidate.prefixIds.length (some candidate.anchorBody)
      if promoted.cut.isSome then some (promoted, some .promoted)
      else (attempt promoted.used cutoff none).map (·, some .discarded)
    else (attempt 0 cutoff none).map (·, some .discarded)

def cutWorking (env : CutEnv) (messages working : List WithParts) (elidedChars protectRecent : ℕ)
    (options : CompactionOptions) (candidate : Option CompactionCandidate) : Option CompactionResult :=
  let naturalCutoff := working.length - protectRecent
  let cutoff := if options.onSummarize then some naturalCutoff else snapToUserBoundary working naturalCutoff
  match finishUnavailableCut cutoff working elidedChars with
  | some result => some result
  | none =>
    let cutoff := cutoff.getD 0
    match options.onSummarize, working.head? with
    | true, some firstRemoved => do
      let (attempt, candidateOutcome) ← chooseAnchoredCut env working messages cutoff firstRemoved options candidate
      some ((finishFallbackCut attempt candidateOutcome working naturalCutoff).getD
        (finishAnchoredCut attempt candidateOutcome messages working elidedChars))
    | _, _ => some ⟨working.drop cutoff, true, cutoff, false, none, false, .cut⟩

def compactUnbracketed (env : CutEnv) (messages : List WithParts) (options : CompactionOptions)
    (measuredContextTokens : Option ℚ) (candidate : Option CompactionCandidate) : Option CompactionResult :=
  let protectRecent := protectedCount options
  if messages.length ≤ protectRecent then some ⟨messages, false, 0, false, none, false, .nothingReclaimed⟩
  else
    let reduction := reduceHistoryBeforeCut messages options protectRecent measuredContextTokens
    match reduction.completed with
    | some result => some result
    | none => cutWorking env messages reduction.working reduction.elidedChars protectRecent options candidate

end Compaction
end OpenOmni

import OpenOmni.Compaction.Candidate

/-! An anchored cut: the summarizer call, the users preserved beside it with their time markers,
and the anchor message. -/
namespace OpenOmni
namespace Compaction

open Message PlainValue

def civilDate (day : ℤ) : ℤ × ℤ × ℤ :=
  let z := day + 719468
  let era := z / 146097
  let doe := z % 146097
  let yoe := (doe - doe / 1460 + doe / 36524 - doe / 146096) / 365
  let doy := doe - (365 * yoe + yoe / 4 - yoe / 100)
  let mp := (5 * doy + 2) / 153
  let month := if mp < 10 then mp + 3 else mp - 9
  (yoe + era * 400 + if month ≤ 2 then 1 else 0, month, doy - (153 * mp + 2) / 5 + 1)

def padded (width : ℕ) (n : ℕ) : List Char :=
  let digits := Nat.toDigits 10 n
  List.replicate (width - digits.length) '0' ++ digits

/-- `new Date(ms).toISOString().slice(0, 10)`; a time out of range throws. -/
def isoDate (createdMs : ℚ) : Option (List Char) :=
  let ms : ℤ := if 0 ≤ createdMs then ⌊createdMs⌋ else ⌈createdMs⌉
  if 8640000000000000 < ms.natAbs then none
  else
    let (year, month, day) := civilDate (ms / 86400000)
    let years := if 0 ≤ year ∧ year ≤ 9999 then padded 4 year.toNat
      else (if year < 0 then '-' else '+') :: padded 6 year.natAbs
    some ((years ++ '-' :: (padded 2 month.toNat ++ '-' :: padded 2 day.toNat)).take 10)

def renderTimeMarker (createdMs : ℚ) : Option String :=
  (isoDate createdMs).map fun date => .ofList ("[recorded ".toList ++ (date ++ [']']))

/-- `/^\[recorded \d{4}-\d{2}-\d{2}\]$/` -/
def isRecordedLine (text : List Char) : Bool :=
  let shape := "[recorded ".toList.map some ++ [none, none, none, none, some '-', none, none, some '-', none, none, some ']']
  text.length = shape.length && (text.zip shape).all fun e => e.2.elim e.1.isDigit (e.1 = ·)

def isTimeCarriageMarkerPart : Part → Bool
  | .text _ text _ metadata =>
    flagged "timeCarriage" metadata && flagged "policyInjected" metadata && isRecordedLine text.toList
  | _ => false

def carriesUserSpeech (message : WithParts) : Bool :=
  message.parts.any fun
    | .text _ _ _ metadata => !flagged "policyInjected" metadata && !flagged "compactionAnchor" metadata
    | _ => false

def stampTimeMarker (message : WithParts) (id : String) : Option WithParts :=
  (renderTimeMarker message.info.created).map fun text => {
    info := message.info
    parts := .text ⟨id, message.info.sessionID, message.info.id⟩ text none
        (some [("policyInjected", .bool true), ("timeCarriage", .bool true)]) ::
      message.parts.filter fun part => !isTimeCarriageMarkerPart part }

/-- The preserved users, stamped where they carry speech; each stamp takes the next id. -/
def stampUsers (ids : ℕ → String) : ℕ → List WithParts → Option (List WithParts × ℕ)
  | used, [] => some ([], used)
  | used, message :: rest => do
    if carriesUserSpeech message then
      let stamped ← stampTimeMarker message (ids used)
      let (stampedRest, used) ← stampUsers ids (used + 1) rest
      some (stamped :: stampedRest, used)
    else
      let (stampedRest, used) ← stampUsers ids used rest
      some (message :: stampedRest, used)

def ANCHOR_HEADER : String := "[Conversation Summary]\n"

def MARKER_LEGEND : String :=
  "(Messages marked [recorded YYYY-MM-DD] carry the date each message was recorded, in UTC.)"

def renderAnchorText (anchorBody : String) (withMarkerLegend : Bool) : String :=
  ANCHOR_HEADER ++ anchorBody ++ if withMarkerLegend then "\n\n" ++ MARKER_LEGEND else ""

def keptText (message : WithParts) : Part → Option PlainValue
  | .text base text time metadata =>
    if isTimeCarriageMarkerPart (.text base text time metadata) then none
    else some (record [("role", some (.str (roleOf message))), ("text", some (.str text)),
      ("time", some (.num message.info.created)),
      ("policyInjected", if flagged "policyInjected" metadata then some (.bool true) else none)])
  | _ => none

def replacementRecord (stampedUsers keepSpan : List WithParts) : List PlainValue :=
  (stampedUsers ++ keepSpan).flatMap fun message => message.parts.filterMap (keptText message)

def agentOf (message : WithParts) : String :=
  match message.info with
  | .user m => m.agent
  | .assistant m => m.agent

def buildAnchorMessage (anchorBody sessionID agent : String) (keptWindow : List PlainValue) (withMarkerLegend : Bool)
    (now : ℚ) (id partId : String) : WithParts :=
  let render := renderAnchorText anchorBody withMarkerLegend
  { info := .user
      { id, sessionID, created := now, agent, providerID := "", modelID := "", system := some render }
    parts := [.text ⟨partId, sessionID, id⟩ render none
      (some [("compactionAnchor", .bool true), ("anchorBody", .str anchorBody), ("keptWindow", .arr keptWindow)])] }

/-- Newest first under the budget, the newest unconditionally; `kept` is in the original order. -/
def keepNewest (budgetChars : ℚ) : List WithParts → List WithParts → ℕ → List WithParts
  | [], kept, _ => kept
  | candidate :: older, kept, total =>
    let size := messageContentChars candidate
    if kept ≠ [] ∧ budgetChars < ((total + size : ℕ) : ℚ) then kept
    else keepNewest budgetChars older (candidate :: kept) (total + size)

def selectPreservedUsers (span : List WithParts) (budgetChars : ℚ) : List WithParts :=
  keepNewest budgetChars (span.filter fun message => isUser message && !isAnchorMessage message).reverse [] 0

structure SummarizerCall where
  messages : List WithParts
  previousAnchor : Option String
  budget : SummarizationBudget
  deriving DecidableEq

inductive SummaryAnswer
  | text (summary : String)
  | failed (message : String)
  | interrupted

def summarizerCall (cutSpan summaryPrefix : List WithParts) (precomputed : Option String)
    (contextWindowTokens : ℚ) : Option SummarizerCall :=
  let previousAnchor := latestAnchorBody cutSpan
  let input := prepareSummarizerInput summaryPrefix contextWindowTokens previousAnchor
  if precomputed = none ∧ cutSpan.any summarizable ∧ input.messages ≠ [] then
    some ⟨input.messages, previousAnchor, input.budget⟩
  else none

/-- What the outside gives a compaction: fresh ids, the time and the summarizer. -/
structure CutEnv where
  ids : ℕ → String
  now : ℚ
  onSummarize : SummarizerCall → SummaryAnswer

structure Cut where
  messages : List WithParts
  removedCount : ℤ

structure AnchoredCutAttempt where
  cut : Option Cut
  summarizerError : Option String
  used : ℕ

/-- The anchor's text and the summarizer's error; `none` is an interrupt. -/
def anchorText (env : CutEnv) (cutSpan summaryPrefix : List WithParts) (precomputed : Option String)
    (contextWindowTokens : ℚ) : Option (Option String × Option String) :=
  let previousAnchor := latestAnchorBody cutSpan
  match summarizerCall cutSpan summaryPrefix precomputed contextWindowTokens with
  | none => some (precomputed.or previousAnchor, none)
  | some call =>
    match env.onSummarize call with
    | .text summary => some (if Utf16.trim summary ≠ "" then some summary else previousAnchor, none)
    | .failed message => some (previousAnchor, some message)
    | .interrupted => none

/-- `none` where the attempt does not return: an interrupt, or a date that throws. -/
def attemptAnchoredCut (env : CutEnv) (offset : ℕ) (cutSpan summaryPrefix keepSpan : List WithParts)
    (precomputed : Option String) (working : List WithParts) (firstRemoved : WithParts) (preserveBudget : ℚ)
    (contextWindowTokens : ℚ) : Option AnchoredCutAttempt := do
  let (text, summarizerError) ← anchorText env cutSpan summaryPrefix precomputed contextWindowTokens
  let preservedUsers := selectPreservedUsers cutSpan preserveBudget
  if text = none ∧ preservedUsers = [] then
    some ⟨none, summarizerError, offset⟩
  else
    let (stampedUsers, used) ← stampUsers env.ids offset preservedUsers
    let keptWindow := replacementRecord stampedUsers keepSpan
    let stampedAny := stampedUsers.any fun message => message.parts.any isTimeCarriageMarkerPart
    let anchorMessages := text.toList.map fun body =>
      buildAnchorMessage body firstRemoved.info.sessionID (agentOf firstRemoved) keptWindow stampedAny env.now
        (env.ids used) (env.ids (used + 1))
    let compacted := anchorMessages ++ (stampedUsers ++ keepSpan)
    if estimateContentChars working ≤ estimateContentChars compacted then
      some ⟨none, summarizerError, used + 2 * anchorMessages.length⟩
    else
      some ⟨some ⟨compacted, (cutSpan.length : ℤ) - preservedUsers.length⟩, summarizerError, used + 2 * anchorMessages.length⟩

end Compaction
end OpenOmni

import Mathlib

/-! The translation of an outbound payload into physical sends, and the loop that runs them one by one. -/
namespace OpenOmni
namespace Translate

inductive Part where
  | text (text : String)
  | code (text : String) (lang : Option String)
  | image (ref : String) (name caption : Option String)
  | file (ref name : String) (mime caption : Option String)
deriving DecidableEq

/-- A letter as `Outbound.parts` reads it, or one reaction. -/
inductive Payload where
  | message (parts : List Part)
  | react (messageId emoji : String) (replaces : Option String)

def captionLine (caption : Option String) : String := (caption.map ("\n" ++ ·)).getD ""

def partText : Part → String
  | .text text => text
  | .code text lang => "```" ++ lang.getD "" ++ "\n" ++ text ++ "\n```"
  | .image ref name caption => "[image" ++ (name.map (": " ++ ·)).getD "" ++ "] " ++ ref ++ captionLine caption
  | .file ref name _ caption => "[file: " ++ name ++ "] " ++ ref ++ captionLine caption

/-- `Outbound.text` of a message. -/
def messageText (parts : List Part) : String := "\n\n".intercalate (parts.map partText)

/-- An `Error` a send can throw: its class where the custody asks for it, its code and its text. -/
structure SendError where
  deliveryNotSent : Bool
  code : Option String
  text : String
deriving DecidableEq

/-- The class `DeliveryNotSent` with its operation and cause. -/
def SendError.notSent (operation cause : String) : SendError := ⟨true, none, operation ++ ": " ++ cause⟩

/-- `isNotSent`: physical evidence that the platform never received the message. -/
def isNotSent (isRejected : SendError → Bool) (error : SendError) : Bool :=
  error.deliveryNotSent || isRejected error ||
    match error.code with
    | some code => code ∈ ["ECONNREFUSED", "ENOTFOUND", "EAI_AGAIN", "ConnectionRefused"]
    | none => false

structure MediaLimits where
  imageBytes : ℕ
  fileBytes : ℕ
  captionLength : ℕ

/-- `LETTER_MEDIA_BYTES`. -/
def letterMediaBytes : ℕ := 64 * 1024 * 1024

/-- What a surface brings to a delivery: its dialect, its limits, its rejections, and what the composition
root resolves a media reference to (the number of its bytes). -/
structure Surface where
  renderMarkdown : String → String
  messageLimit : Option ℕ
  chunkMarkdown : String → ℕ → Except SendError (List String)
  media : Option MediaLimits
  resolve : Option (Part → Except String ℕ)
  reacts : Bool
  isRejected : SendError → Bool

inductive Step where
  | text (chunk : String)
  | media (part : Part) (bytes : ℕ)

def Step.isMedia : Step → Bool
  | .media _ _ => true
  | .text _ => false

def textLength (s : String) : ℕ := (s.toList.map fun c => if c.toNat < 0x10000 then 1 else 2).sum

def textSteps (surface : Surface) (parts : List Part) : Except SendError (List Step) :=
  if parts.length = 0 then .ok []
  else
    let rendered := surface.renderMarkdown (messageText parts)
    match surface.messageLimit with
    | none => .ok [.text rendered]
    | some limit => (surface.chunkMarkdown rendered limit).map (·.map .text)

/-- The caption of a media part and whether the part is an image; `none` for the parts that are text. -/
def mediaPart : Part → Option (Bool × Option String)
  | .image _ _ caption => some (true, caption)
  | .file _ _ _ caption => some (false, caption)
  | _ => none

/-- The fold of `plan` over the parts. -/
structure Planned where
  steps : List Step
  pending : List Part
  totalBytes : ℕ

/-- One part of the fold: text waits to be joined with its neighbours; a media part closes the text before
it and passes the limits, all before anything is sent. -/
def planPart (surface : Surface) (planned : Planned) (part : Part) : Except SendError Planned :=
  match mediaPart part, surface.media, surface.resolve with
  | some (image, caption), some limits, some resolve => do
    let text ← textSteps surface planned.pending
    let bytes ← match resolve part with
      | .ok bytes => pure bytes
      | .error cause => throw (.notSent "media.resolve" cause)
    let limit := if image then limits.imageBytes else limits.fileBytes
    if limit < bytes then
      throw (.notSent "media.limit" (toString bytes ++ " bytes exceeds the " ++
        (if image then "image" else "file") ++ " limit " ++ toString limit))
    match caption with
    | some caption =>
      if limits.captionLength < textLength caption then
        throw (.notSent "media.caption" (toString (textLength caption) ++ " characters exceeds the caption limit " ++
          toString limits.captionLength))
    | none => pure ()
    let totalBytes := planned.totalBytes + bytes
    if letterMediaBytes < totalBytes then
      throw (.notSent "media.limit" (toString totalBytes ++ " bytes exceeds the letter limit " ++
        toString letterMediaBytes))
    return ⟨planned.steps ++ text ++ [.media part bytes], [], totalBytes⟩
  | _, _, _ => .ok { planned with pending := planned.pending ++ [part] }

/-- `plan`: every media reference resolves before the first send. -/
def plan (surface : Surface) (parts : List Part) : Except SendError (List Step) := do
  let planned ← parts.foldlM (planPart surface) ⟨[], [], 0⟩
  let text ← textSteps surface planned.pending
  return planned.steps ++ text

inductive PartialReason where
  | missingReceipt | sendFailed
deriving DecidableEq

def PartialReason.text : PartialReason → String
  | .missingReceipt => "missing_receipt"
  | .sendFailed => "send_failed"

/-- `PartialDeliveryError`. -/
structure PartialDelivery where
  acceptedChunks : List (ℕ × String)
  attemptedChunks : ℕ
  totalChunks : ℕ
  reason : PartialReason
deriving DecidableEq

/-- What a delivery can throw; `value` is anything that is not an `Error`. -/
inductive Thrown where
  | error (error : SendError)
  | partialDelivery (error : PartialDelivery)
  | value (text : String)
deriving DecidableEq

/-- What one physical send came to: accepted, with the platform's id or without one, or thrown. -/
inductive StepOutcome where
  | ack (externalMessageId : Option String)
  | threw (thrown : Thrown)
deriving DecidableEq

structure DeliveryOutcome where
  accepted : Bool
  externalMessageId : Option String

/-- The variables of `runSteps` between two steps. -/
structure StepsState where
  acceptedChunks : List (ℕ × String)
  acknowledged : ℕ
  attempted : ℕ
  lastMessageId : Option String

def StepsState.start : StepsState := ⟨[], 0, 0, none⟩

def runStep (total : ℕ) (state : StepsState) (step : Step) : StepOutcome → Except Thrown StepsState
  | .threw thrown =>
    let attempted := state.attempted + 1
    if 1 < attempted then .error (.partialDelivery ⟨state.acceptedChunks, attempted, total, .sendFailed⟩)
    else .error thrown
  | .ack externalMessageId =>
    let attempted := state.attempted + 1
    let acknowledged :=
      if externalMessageId.isSome || step.isMedia then state.acknowledged + 1 else state.acknowledged
    match externalMessageId with
    | some id => .ok ⟨state.acceptedChunks ++ [(attempted, id)], acknowledged, attempted, some id⟩
    | none => .ok { state with acknowledged := acknowledged, attempted := attempted }

/-- What `runSteps` comes to behind its loop. -/
def stepsOutcome (total : ℕ) (state : StepsState) : Except Thrown DeliveryOutcome :=
  if 0 < state.acknowledged ∧ state.acknowledged ≠ total then
    .error (.partialDelivery ⟨state.acceptedChunks, state.attempted, total, .missingReceipt⟩)
  else match state.lastMessageId with
    | none => .ok ⟨state.acknowledged = total, none⟩
    | some id => .ok ⟨true, some id⟩

variable {total : ℕ} {state : StepsState} {step : Step} {thrown : Thrown}

theorem runStep_threw (h : 0 < state.attempted) : runStep total state step (.threw thrown) =
      .error (.partialDelivery ⟨state.acceptedChunks, state.attempted + 1, total, .sendFailed⟩) := by
  have hlater : 1 < state.attempted + 1 := by omega
  simp [runStep, hlater]

lemma runStep_threw_first (h : state.attempted = 0) : runStep total state step (.threw thrown) = .error thrown := by
  simp [runStep, h]

lemma runStep_ack (total : ℕ) (state : StepsState) (step : Step) (externalMessageId : Option String) :
    ∃ next, runStep total state step (.ack externalMessageId) = .ok next ∧
      next.attempted = state.attempted + 1 := by
  cases externalMessageId with
  | some id | none => exact ⟨_, rfl, rfl⟩

theorem stepsOutcome_ne_error (error : SendError) : stepsOutcome total state ≠ .error (.error error) := by
  unfold stepsOutcome
  split
  · simp
  · split <;> simp

end Translate
end OpenOmni

import OpenOmni.Compaction.Summary

/-! The speculative session: one preparation at a time summarises ahead of the cut. Its
completion runs in a fiber of its own, after the session may have moved on. -/
namespace OpenOmni
namespace Compaction

open Message

def MAX_PREPARE_FAILURES : ℕ := 2

/-- How far a preparation's fiber has come: forked, in its summarizer call, past its outcome with
the flag still to drop, or done. -/
inductive Stage
  | forked
  | summarizing
  | settling
  | done
  deriving DecidableEq

/-- A preparation, with what it took from the session and the messages when it began. -/
structure Preparation where
  generation : ℕ
  messages : List WithParts
  plan : AnchoredPlan
  call : SummarizerCall
  firstKeptId : String
  stage : Stage

structure CompactionSession where
  protectRecentMessages : ℤ
  candidate : Option CompactionCandidate
  inFlight : Bool
  failureStreak : ℕ
  generation : ℕ
  preparation : Option ℕ
  preparations : List Preparation

namespace CompactionSession

def create (protectRecentMessages : ℤ) : CompactionSession := ⟨protectRecentMessages, none, false, 0, 0, none, []⟩

variable [PlainCoding]

/-- What a preparation of `messages` would summarise, when there is a cut to plan. -/
def planned (s : CompactionSession) (messages : List WithParts) (contextWindowTokens : ℚ) : Option Preparation := do
  let plan ← planAnchoredCut messages s.protectRecentMessages
  let firstKept ← messages[plan.prefixIds.length]?
  let input := prepareSummarizerInput plan.summarizerInput contextWindowTokens plan.previousAnchor
  if plan.summarizerInput ≠ [] ∧ input.messages ≠ [] then
    some {
      generation := s.generation
      messages
      plan
      call := ⟨input.messages, plan.previousAnchor, input.budget⟩
      firstKeptId := firstKept.info.id
      stage := .forked }
  else none

def dropStale (s : CompactionSession) (messages : List WithParts) : CompactionSession :=
  match s.candidate with
  | some candidate => if isWarmCandidateValid candidate messages then s else { s with candidate := none }
  | none => s

/-- `prepare` up to its fork. -/
def prepare (s : CompactionSession) (messages : List WithParts) (contextTokens prepareTokens contextWindowTokens : ℚ) :
    CompactionSession :=
  if MAX_PREPARE_FAILURES ≤ s.failureStreak then s
  else
    let s := s.dropStale messages
    if s.inFlight ∨ s.candidate.isSome ∨ contextTokens < prepareTokens then s
    else
      match s.planned messages contextWindowTokens with
      | none => s
      | some preparation => { s with
          inFlight := true
          preparation := some s.preparations.length
          preparations := s.preparations ++ [preparation] }

def moveTo (s : CompactionSession) (i : ℕ) (stage : Stage) : CompactionSession :=
  { s with preparations := s.preparations.modify i fun p => { p with stage } }

omit [PlainCoding] in
def candidateOf (p : Preparation) (summary : String) : Option CompactionCandidate :=
  if Utf16.trim summary = "" then none
  else some {
    prefixIds := p.plan.prefixIds
    prefixFingerprint := p.plan.prefixFingerprint
    firstKeptId := p.firstKeptId
    compactionAnchorId := latestCompactionAnchorId p.messages
    anchorBody := summary }

def onSuccess (s : CompactionSession) (p : Preparation) (summary : String) : CompactionSession :=
  if p.generation ≠ s.generation then s
  else { s with failureStreak := 0, candidate := candidateOf p summary }

def onFailure (s : CompactionSession) (p : Preparation) : CompactionSession :=
  if p.generation ≠ s.generation then s
  else { s with candidate := none, failureStreak := s.failureStreak + 1 }

def ensuring (s : CompactionSession) (p : Preparation) : CompactionSession :=
  if p.generation = s.generation then { s with inFlight := false } else s

def consume (s : CompactionSession) : CompactionSession := { s with candidate := none }

/-- `abort` up to its interrupt of the fiber, which ends in steps of its own. -/
def abort (s : CompactionSession) : CompactionSession :=
  { s with generation := s.generation + 1, candidate := none, inFlight := false }

def disable (s : CompactionSession) : CompactionSession := { s with failureStreak := MAX_PREPARE_FAILURES }.abort

end CompactionSession

inductive SessionLabel
  | prepare (messages : List WithParts) (contextTokens prepareTokens contextWindowTokens : ℚ)
  | consume
  | disable
  | abort
  /-- `settleAbort` grants one turn before its abort. -/
  | settle
  | enter (i : ℕ)
  | succeed (i : ℕ) (summary : String)
  | fail (i : ℕ)
  | interrupt (i : ℕ)
  | finalize (i : ℕ)

namespace CompactionSession

variable [PlainCoding]

def turnOf (s : CompactionSession) (i : ℕ) (stage : Stage) (turn : Preparation → CompactionSession) :
    Option CompactionSession :=
  (s.preparations[i]?).bind fun p => if p.stage = stage then some (turn p) else none

def step (s : CompactionSession) : SessionLabel → Option CompactionSession
  | .prepare messages contextTokens prepareTokens contextWindowTokens =>
    some (s.prepare messages contextTokens prepareTokens contextWindowTokens)
  | .consume => some s.consume
  | .disable => some s.disable
  | .abort => some s.abort
  | .settle => some s
  | .enter i => s.turnOf i .forked fun _ => s.moveTo i .summarizing
  | .succeed i summary => s.turnOf i .summarizing fun p => (s.onSuccess p summary).moveTo i .settling
  | .fail i => s.turnOf i .summarizing fun p => (s.onFailure p).moveTo i .settling
  | .interrupt i =>
    -- a fiber that never ran leaves no finalizer
    (s.turnOf i .forked fun _ => s.moveTo i .done).or (s.turnOf i .summarizing fun _ => s.moveTo i .settling)
  | .finalize i => s.turnOf i .settling fun p => (s.ensuring p).moveTo i .done

end CompactionSession
end Compaction
end OpenOmni

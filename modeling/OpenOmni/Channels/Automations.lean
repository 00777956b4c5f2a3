import Mathlib

/-! Matching an input against the automations: in one pass with a pure judge, and record by record with one that has
effects. -/
namespace OpenOmni
namespace Automations

inductive Trigger where
  | schedule (cron tz : String)
  | message (surface event : String)
  | webhook (secretRef : String)
  | github (event : String)
  | onDemand

structure Conditions where
  channels : Option (List String) := none
  users : Option (List String) := none
  threads : Option (List String) := none
  contains : Option (List String) := none
  excludes : Option (List String) := none
  regex : Option (List String) := none
  includeBots : Option Bool := none
  dm : Option Bool := none
  mentionOnly : Option Bool := none

inductive GroupBy where
  | thread | channel | author

structure Grouping where
  windowSeconds : ℕ
  «by» : GroupBy

inductive Kind where
  | prompt | action

/-- `Ingress.Automation`. -/
structure Automation where
  id : String
  enabled : Bool
  triggers : List Trigger
  conditions : Option Conditions := none
  runWhen : Option String := none
  grouping : Option Grouping := none
  target : String
  kind : Kind := .action
  instructions : Option String := none
  maxRunsPerDay : Option ℕ := none

structure Author where
  externalId : String
  isBot : Bool

/-- `Ingress.Input`. -/
structure Input where
  eventId : String
  surface : String
  event : String
  secretRef : Option String := none
  githubEvent : Option String := none
  channelId : Option String := none
  threadId : Option String := none
  author : Author
  dm : Bool
  mentionsBot : Bool
  body : String
  receivedAt : ℚ

inductive Answer where
  | yes | no | unknown
deriving DecidableEq

def Answer.text : Answer → String
  | .yes => "yes"
  | .no => "no"
  | .unknown => "unknown"

structure Verdict where
  verdict : Answer
  reason : String

inductive Disposition where
  | matched | filtered | refused | deduped | grouped | superseded
deriving DecidableEq

/-- A ledger row of stage `automation`. -/
structure Row where
  traceId : String
  time : ℚ
  surface : String
  decision : Disposition
  «by» : String
  reason : String
  factsUsed : List String
  factsDigest : String
  runWhen : Option Verdict

/-- `TriggerContext`. -/
structure Context where
  automationId : String
  trigger : Trigger
  conditions : Conditions
  runWhen : Option Verdict
  latest : Option (String × Option String × Option String × Author)
  messages : List (String × String × ℚ)

inductive Route where
  | prompt (target : String) (origin : Input) (automation : Option (String × Option String × Bool))
  | action (target handlerRef : String) (body : Context) (automation : Option (String × Option String × Bool))

structure PendingGroup where
  automationId : String
  key : String
  openedAt : ℚ
  windowSeconds : ℕ
  trigger : Trigger
  inputs : List Input
  runWhen : Option Verdict

structure MatchDecision where
  route : Option Route
  rows : List Row
  pending : List PendingGroup

structure MatchPorts where
  now : ℚ
  conversation : Option String := none
  pending : List PendingGroup := []
  seen : Bool := false
  matchedToday : String → ℕ := fun _ => 0

abbrev Judge := String → Input → Verdict

/-- The expressions of the engine, and the digest of an input's JSON text. -/
structure Engine where
  test : String → String → Bool
  digest : Input → String

def scheduleTickChannel (cron : String) : String := "cron:" ++ cron

def triggerMatches (input : Input) : Trigger → Bool
  | .message surface event => surface = input.surface && event = input.event
  | .webhook secretRef => input.event = "webhook" && some secretRef = input.secretRef
  | .github event => input.event = "github" && some event = input.githubEvent
  | .schedule cron _ => input.event = "schedule" && input.channelId = some (scheduleTickChannel cron)
  | .onDemand => false

/-- `includes` of a text. -/
def includes (text part : String) : Bool := decide (part.toList <:+: text.toList)

structure Check where
  fact : String
  present : Bool
  passed : Bool

def checks (engine : Engine) (c : Conditions) (input : Input) : List Check :=
  [⟨"includeBots", c.includeBots.isSome, c.includeBots ≠ some false || !input.author.isBot⟩,
    ⟨"channels", c.channels.isSome, c.channels.all fun ids => input.channelId.any (· ∈ ids)⟩,
    ⟨"users", c.users.isSome, c.users.all (input.author.externalId ∈ ·)⟩,
    ⟨"threads", c.threads.isSome, c.threads.all fun ids => input.threadId.any (· ∈ ids)⟩,
    ⟨"contains", c.contains.isSome, c.contains.all (·.any (includes input.body))⟩,
    ⟨"excludes", c.excludes.isSome, c.excludes.all (·.all fun text => !includes input.body text)⟩,
    ⟨"regex", c.regex.isSome, c.regex.all (·.any fun pattern => engine.test pattern input.body)⟩,
    ⟨"dm", c.dm.isSome, c.dm.all (· = input.dm)⟩,
    ⟨"mentionOnly", c.mentionOnly.isSome, c.mentionOnly.all fun only => !only || input.mentionsBot⟩]

def firstFailed : List Check → List String × Option String
  | [] => ([], none)
  | check :: rest =>
    let used := if check.present then [check.fact] else []
    if check.passed then (used ++ (firstFailed rest).1, (firstFailed rest).2) else (used, some check.fact)

def conditionMatches (engine : Engine) (conditions : Conditions) (input : Input) : List String × Option String :=
  firstFailed (checks engine conditions input)

inductive Candidate where
  | skip
  | filtered (reason : String) (factsUsed : List String) (runWhen : Option Verdict)
  | «match» (trigger : Trigger) (factsUsed : List String) (runWhen : Option Verdict)

section Model
variable (engine : Engine) (input : Input)

def candidate (record : Automation) (judge : Option Judge) (superseded : Bool) : Candidate :=
  if !record.enabled then .skip
  else match record.triggers.find? (triggerMatches input) with
    | none => .skip
    | some trigger =>
      match conditionMatches engine (record.conditions.getD {}) input with
      | (factsUsed, some reason) => .filtered reason factsUsed none
      | (factsUsed, none) =>
        match record.runWhen, superseded with
        | none, _ | _, true => .match trigger factsUsed none
        | some question, false =>
          let verdict := judge.map (· question input)
          if verdict.map (·.verdict) = some .yes then .match trigger factsUsed verdict
          else .filtered "runWhen" (factsUsed ++ ["runWhen"]) (some (verdict.getD ⟨.unknown, "judge_unavailable"⟩))

def groupKey : GroupBy → String
  | .thread => (input.threadId.or input.channelId).getD input.surface
  | .channel => input.channelId.getD input.surface
  | .author => input.author.externalId

def context (record : Automation) (trigger : Trigger) (inputs : List Input) (runWhen : Option Verdict) : Context where
  automationId := record.id
  trigger := trigger
  conditions := record.conditions.getD {}
  runWhen := runWhen
  latest := inputs.getLast?.map fun latest => (latest.surface, latest.channelId, latest.threadId, latest.author)
  messages := inputs.map fun entry => (entry.eventId, entry.body, entry.receivedAt)

def ledger (now : ℚ) (id : String) (decision : Disposition) (reason : String) (factsUsed : List String)
    (runWhen : Option Verdict) : Row :=
  ⟨input.eventId, now, input.surface, decision, "automation/" ++ id, reason, factsUsed, engine.digest input, runWhen⟩

/-- The group of a record that an input joins or opens: its inputs, whether it is held, and the groups behind it. -/
def collectGroup (record : Automation) (trigger : Trigger) («at» : ℚ) (pending : List PendingGroup)
    (verdict : Option Verdict) : List Input × Bool × List PendingGroup :=
  match record.grouping with
  | none | some ⟨0, _⟩ => ([input], false, pending)
  | some grouping =>
    let key := groupKey input grouping.«by»
    let isOpen := fun item : PendingGroup => decide (item.automationId = record.id ∧ item.key = key ∧
      item.inputs.length < 64 ∧ «at» - item.openedAt < item.windowSeconds * 1000)
    let previous := pending.find? isOpen
    let inputs := (previous.map (·.inputs)).getD [] ++ [input]
    (inputs, true, pending.eraseP isOpen ++
      [⟨record.id, key, (previous.map (·.openedAt)).getD «at», grouping.windowSeconds, trigger, inputs, verdict⟩])

def limitReached (record : Automation) (ports : MatchPorts) : Bool :=
  record.maxRunsPerDay.any (· ≤ ports.matchedToday record.id)

def routeOf (record : Automation) (trigger : Trigger) (inputs : List Input) (runWhen : Option Verdict) : Route :=
  let automation := some (record.id, record.instructions, decide (record.target = "new"))
  match record.kind with
  | .prompt => .prompt record.target input automation
  | .action => .action record.target ("automation/" ++ record.id) (context record trigger inputs runWhen) automation

variable (ports : MatchPorts) (judge : Option Judge)

/-- One turn of the loop; nothing where the record is skipped, and whether the record decided. -/
def consider (route : Option Route) (pending : List PendingGroup) (record : Automation) : Option (MatchDecision × Bool) :=
  match candidate engine input record judge route.isSome with
  | .skip => none
  | .filtered reason factsUsed runWhen =>
    some (⟨route, [ledger engine input ports.now record.id .filtered reason factsUsed runWhen], pending⟩, false)
  | .match trigger factsUsed runWhen =>
    if route.isSome then some (⟨route, [ledger engine input ports.now record.id .superseded
      (if ports.conversation = none then "earlier_match" else "conversation") factsUsed runWhen], pending⟩, true)
    else if limitReached record ports then some (⟨route, [ledger engine input ports.now record.id .refused "limit"
      (factsUsed ++ ["limits.maxRunsPerDay"]) runWhen], pending⟩, true)
    else match collectGroup input record trigger ports.now pending runWhen with
      | (_, true, pending) =>
        some (⟨route, [ledger engine input ports.now record.id .grouped "grouped" factsUsed runWhen], pending⟩, true)
      | (inputs, false, pending) => some (⟨some (routeOf input record trigger inputs runWhen),
        [ledger engine input ports.now record.id .matched "matched" factsUsed runWhen], pending⟩, true)

/-- The loop over the records; a record that does not decide leaves at most its row. -/
def matchFrom (decision : MatchDecision) : List Automation → MatchDecision
  | [] => decision
  | record :: records =>
    match consider engine input ports judge decision.route decision.pending record with
    | none => matchFrom decision records
    | some (next, false) => matchFrom next records
    | some (next, true) => next

def «match» (records : List Automation) : MatchDecision :=
  if ports.seen then ⟨none, [], ports.pending⟩
  else matchFrom engine input ports judge ⟨ports.conversation.map (.prompt · input none), [], ports.pending⟩ records

section Effects
variable {m : Type → Type} [Monad m]

/-- The match of one record; its question is asked where nothing else filters it. -/
def judgeOne (ask : Option (String → Input → m Answer)) (record : Automation) : m MatchDecision :=
  let next := «match» engine input ports none [record]
  match record.runWhen, ask with
  | some question, some ask =>
    if next.rows.any (·.reason = "runWhen") then do
      let verdict ← ask question input
      return «match» engine input ports (some fun _ _ => ⟨verdict, "judge_" ++ verdict.text⟩) [record]
    else return next
  | _, _ => return next

def judgeFrom (ask : Option (String → Input → m Answer)) (result : MatchDecision) : List Automation → m MatchDecision
  | [] => return result
  | record :: records => do
    let next ← judgeOne engine input ports ask record
    if next.rows.any (·.decision ≠ .filtered) then return next
    else judgeFrom ask (if next.rows = [] then result else next) records

def judgeAndMatch (ask : Option (String → Input → m Answer)) (records : List Automation) : m MatchDecision :=
  judgeFrom engine input ports ask («match» engine input ports none []) records

end Effects

def pureJudge (answer : String → Input → Answer) : Judge := fun question input =>
  ⟨answer question input, "judge_" ++ (answer question input).text⟩

/-- An enabled automation that is triggered, whose conditions match, and that has a question. -/
def Eligible (record : Automation) : Bool :=
  record.enabled && record.triggers.any (triggerMatches input) &&
    (conditionMatches engine (record.conditions.getD {}) input).2.isNone && record.runWhen.isSome

def Decides (record : Automation) : Bool := («match» engine input ports judge [record]).rows.any (·.decision ≠ .filtered)

def upToDeciding (records : List Automation) : List Automation :=
  records.take (records.findIdx (Decides engine input ports judge) + 1)

def asked (records : List Automation) : List Automation :=
  if ports.conversation.isSome || ports.seen then []
  else (upToDeciding engine input ports judge records).filter (Eligible engine input)

end Model

open List

section Refinement
variable {engine : Engine} {input : Input} {ports : MatchPorts} {judge judge' : Option Judge} {route : Option Route}
  {pending : List PendingGroup} {record : Automation} {next : MatchDecision}

lemma consider_cases {decided : Bool} (h : consider engine input ports judge route pending record = some (next, decided)) :
    ∃ row, next.rows = [row] ∧ (row.decision ≠ .filtered ↔ decided = true) ∧
      (decided = false → next.route = route ∧ next.pending = pending) := by
  unfold consider at h
  split at h
  · cases h
  · cases h
    exact ⟨_, rfl, by simp [ledger], fun _ => ⟨rfl, rfl⟩⟩
  · split at h
    · cases h
      exact ⟨_, rfl, by simp [ledger], nofun⟩
    · split at h
      · cases h
        exact ⟨_, rfl, by simp [ledger], nofun⟩
      · split at h
        · cases h
          exact ⟨_, rfl, by simp [ledger], nofun⟩
        · cases h
          exact ⟨_, rfl, by simp [ledger], nofun⟩

def claimed (input : Input) (ports : MatchPorts) : Option Route := ports.conversation.map (.prompt · input none)

lemma match_one (engine : Engine) (judge : Option Judge) (record : Automation) (hseen : ports.seen = false) :
    «match» engine input ports judge [record] =
    ((consider engine input ports judge (claimed input ports) ports.pending record).map Prod.fst).getD
      ⟨claimed input ports, [], ports.pending⟩ := by
  unfold «match»
  rw [if_neg (by rw [hseen]; decide)]
  unfold matchFrom claimed
  cases consider engine input ports judge (ports.conversation.map (.prompt · input none)) ports.pending record with
  | none => rfl
  | some result =>
    obtain ⟨next, decided⟩ := result
    cases decided with
    | false => rfl
    | true => rfl

lemma conditionMatches_reason (engine : Engine) (input : Input) (conditions : Conditions) :
    (conditionMatches engine conditions input).2 ≠ some "runWhen" := by
  have hfact : ∀ l : List Check, "runWhen" ∉ l.map (·.fact) → (firstFailed l).2 ≠ some "runWhen" := by
    intro l hl
    induction l with
    | nil => exact nofun
    | cons check l ih =>
      rw [map_cons, mem_cons, not_or] at hl
      unfold firstFailed
      by_cases hpassed : check.passed = true
      · simpa [hpassed] using ih hl.2
      · simpa [hpassed] using Ne.symm hl.1
  exact hfact _ (by simp [checks])

lemma candidate_congr {superseded : Bool}
    (h : ∀ question, record.runWhen = some question → judge.map (· question input) = judge'.map (· question input)) :
    candidate engine input record judge superseded = candidate engine input record judge' superseded := by
  unfold candidate
  cases hquestion : record.runWhen with
  | none => rfl
  | some question =>
    cases superseded with
    | true => rfl
    | false =>
      dsimp only
      rw [h question hquestion]

/-- An eligible record waits for a judge; of any other the judge says nothing, and its reason is another one. -/
lemma candidate_judge (engine : Engine) (input : Input) (judge : Option Judge) (record : Automation) (superseded : Bool) :
    (Eligible engine input record = true ∧ superseded = false ∧ ∃ facts verdict,
      candidate engine input record none superseded = .filtered "runWhen" facts verdict) ∨
    (Eligible engine input record = false ∨ superseded = true) ∧
      candidate engine input record judge superseded = candidate engine input record none superseded ∧
      ∀ reason facts verdict, candidate engine input record none superseded = .filtered reason facts verdict →
        reason ≠ "runWhen" := by
  have hreason := conditionMatches_reason engine input (record.conditions.getD {})
  unfold candidate Eligible
  cases record.enabled with
  | false => simp
  | true =>
    have hany : record.triggers.any (triggerMatches input) = (record.triggers.find? (triggerMatches input)).isSome := by
      rw [Bool.eq_iff_iff, find?_isSome, any_eq_true]
    rw [hany]
    cases record.triggers.find? (triggerMatches input) with
    | none => simp
    | some trigger =>
      cases hmatches : conditionMatches engine (record.conditions.getD {}) input with
      | mk facts failed =>
        rw [hmatches] at hreason
        cases failed with
        | some reason =>
          refine .inr ⟨.inl rfl, rfl, ?_⟩
          rintro _ _ _ heq rfl
          exact hreason (congrArg some (Candidate.filtered.inj heq).1)
        | none =>
          cases record.runWhen with
          | none => simp
          | some question =>
            cases superseded with
            | true => simp
            | false => exact .inl ⟨rfl, rfl, _, _, rfl⟩

/-- The question of a record is asked: nothing claims the input, and nothing else filters the record. -/
def Asks (engine : Engine) (input : Input) (ports : MatchPorts) (record : Automation) : Bool :=
  Eligible engine input record && ports.conversation.isNone

lemma match_judge (judge : Option Judge) (hseen : ports.seen = false) (record : Automation) :
    (Asks engine input ports record = true ∧
      («match» engine input ports none [record]).rows.any (·.reason = "runWhen") = true) ∨
    Asks engine input ports record = false ∧
      «match» engine input ports judge [record] = «match» engine input ports none [record] ∧
      («match» engine input ports none [record]).rows.any (·.reason = "runWhen") = false := by
  have hclaimed : (claimed input ports).isSome = ports.conversation.isSome := Option.isSome_map
  rw [match_one _ _ _ hseen, match_one _ _ _ hseen]
  unfold Asks consider
  rw [hclaimed]
  rcases candidate_judge engine input judge record ports.conversation.isSome with
    ⟨heligible, hconversation, facts, verdict, hnone⟩ | ⟨hasks, hsame, hreason⟩
  · refine .inl ⟨by simpa [heligible] using hconversation, ?_⟩
    rw [hnone]
    rfl
  · refine .inr ⟨by rcases hasks with h | h <;> simp_all, by rw [hsame], ?_⟩
    split
    · rfl
    · rename_i reason facts verdict hfiltered
      simpa [ledger] using hreason reason facts verdict hfiltered
    · split
      · have hreasons : (if ports.conversation = none then "earlier_match" else "conversation") ≠ "runWhen" := by
          split_ifs <;> decide
        simpa [ledger] using hreasons
      · split
        · simp [ledger]
        · split <;> simp [ledger]

variable {m : Type → Type} [Monad m] [LawfulMonad m] {ask : String → Input → m Answer} {answer : String → Input → Answer}

def question (ask : String → Input → m Answer) (input : Input) (record : Automation) : m Unit :=
  (fun _ => ()) <$> ask (record.runWhen.getD "") input

/-- One record with the judge that has effects: its question, where it is asked, and the match with the answers. -/
lemma judgeOne_eq (hanswer : ∀ q e, ask q e = (fun _ => answer q e) <$> ask q e) (hseen : ports.seen = false)
    (record : Automation) : judgeOne engine input ports (some ask) record = do
      (if Asks engine input ports record then question ask input record else pure () : m Unit)
      return «match» engine input ports (some (pureJudge answer)) [record] := by
  unfold judgeOne
  rcases match_judge (some (pureJudge answer)) hseen record with
    ⟨hasks, hrow⟩ | ⟨hasks, hsame, hrow⟩
  · have hsome : record.runWhen.isSome = true := by
      simp only [Asks, Eligible, Bool.and_eq_true] at hasks
      exact hasks.1.2
    obtain ⟨q, hquestion⟩ := Option.isSome_iff_exists.mp hsome
    have hheard : ∀ verdict, verdict = answer q input →
        «match» engine input ports (some fun _ _ => ⟨verdict, "judge_" ++ verdict.text⟩) [record] =
          «match» engine input ports (some (pureJudge answer)) [record] := by
      rintro verdict rfl
      rw [match_one _ _ _ hseen, match_one _ _ _ hseen]
      unfold consider
      rw [candidate_congr]
      intro q' hq'
      obtain rfl := Option.some.inj (hquestion.symm.trans hq')
      rfl
    rw [hquestion]
    dsimp only
    rw [if_pos hrow, if_pos hasks, question, hquestion, hanswer]
    simp only [bind_map_left, Option.getD_some, hheard _ rfl]
  · rw [hsame]
    have hquiet : judgeOne engine input ports (some ask) record = pure («match» engine input ports none [record]) := by
      unfold judgeOne
      cases record.runWhen with
      | none => rfl
      | some q => exact if_neg (by rw [hrow]; decide)
    unfold judgeOne at hquiet
    rw [hquiet, if_neg (by rw [hasks]; decide), pure_bind]

end Refinement

section Refinement
variable {engine : Engine} {input : Input} {ports : MatchPorts} {judge : Option Judge} {m : Type → Type} [Monad m]
  {ask : Option (String → Input → m Answer)}

lemma upToDeciding_cons (record : Automation) (records : List Automation) :
    upToDeciding engine input ports judge (record :: records) =
      record :: if Decides engine input ports judge record then [] else upToDeciding engine input ports judge records := by
  unfold upToDeciding
  rw [findIdx_cons]
  cases Decides engine input ports judge record with
  | true => rfl
  | false => rfl

lemma judgeFrom_eq [LawfulMonad m] {effect : Automation → m Unit} (hseen : ports.seen = false)
    (hone : ∀ record, judgeOne engine input ports ask record = do
      effect record
      return «match» engine input ports judge [record])
    (records : List Automation) (rows : List Row) :
    judgeFrom engine input ports ask ⟨claimed input ports, rows, ports.pending⟩ records = do
      forM (upToDeciding engine input ports judge records) effect
      return matchFrom engine input ports judge ⟨claimed input ports, rows, ports.pending⟩ records := by
  induction records generalizing rows with
  | nil =>
    rw [show upToDeciding engine input ports judge [] = [] from rfl, forM_nil, pure_bind]
    rfl
  | cons record records ih =>
    unfold judgeFrom matchFrom
    rw [hone, upToDeciding_cons, forM_cons, bind_assoc, bind_assoc]
    congr 1
    funext _
    rw [pure_bind]
    have hmatch : «match» engine input ports judge [record] = _ := match_one engine judge record hseen
    unfold Decides
    cases hconsider : consider engine input ports judge (claimed input ports) ports.pending record with
    | none =>
      rw [hconsider] at hmatch
      rw [hmatch]
      exact ih rows
    | some result =>
      obtain ⟨next, decided⟩ := result
      rw [hconsider] at hmatch
      obtain ⟨row, hrows, hdecided, hkept⟩ := consider_cases hconsider
      have hany : next.rows.any (·.decision ≠ .filtered) = decided := by
        rw [hrows, Bool.eq_iff_iff, ← hdecided]
        simp
      rw [hmatch, Option.map_some, Option.getD_some, hany, hrows]
      cases decided with
      | true => rw [if_pos rfl, if_pos rfl, forM_nil, pure_bind]
      | false =>
        obtain ⟨hroute, hpending⟩ := hkept rfl
        obtain rfl : next = ⟨claimed input ports, [row], ports.pending⟩ := by
          rw [← hroute, ← hpending, ← hrows]
        exact ih [row]

lemma judgeOne_none (record : Automation) : judgeOne engine input ports (none : Option (String → Input → m Answer)) record =
    return «match» engine input ports none [record] := by
  unfold judgeOne
  cases record.runWhen with
  | none => rfl
  | some q => rfl

lemma judgeFrom_seen [LawfulMonad m] (hseen : ports.seen = true) (result : MatchDecision) (records : List Automation) :
    judgeFrom engine input ports ask result records = return result := by
  have hmatch : ∀ record, «match» engine input ports none [record] = ⟨none, [], ports.pending⟩ := fun _ => if_pos hseen
  have hone : ∀ record, judgeOne engine input ports ask record = return ⟨none, [], ports.pending⟩ := by
    intro record
    unfold judgeOne
    rw [hmatch]
    cases record.runWhen with
    | none => rfl
    | some q =>
      cases ask with
      | none => rfl
      | some ask => rfl
  induction records with
  | nil => rfl
  | cons record records ih =>
    unfold judgeFrom
    rw [hone, pure_bind]
    exact ih

lemma forM_ite [LawfulMonad m] (p : Automation → Bool) (f : Automation → m Unit) (records : List Automation) :
    (forM records fun record => if p record then f record else pure ()) = forM (records.filter p) f := by
  induction records with
  | nil => rfl
  | cons record records ih =>
    rw [forM_cons, ih, filter_cons]
    split_ifs
    · rfl
    · exact pure_bind () _

/-- The judge with effects decides as one pass with the judge that gives its answers, and asks no automation but
those that are enabled, triggered and match, up to the one that decides, in their order and each once. -/
theorem judge_refines_match [LawfulMonad m] (engine : Engine) (input : Input) (ports : MatchPorts) (records : List Automation)
    (ask : String → Input → m Answer) (answer : String → Input → Answer)
    (hanswer : ∀ question event, ask question event = (fun _ => answer question event) <$> ask question event) :
    (judgeAndMatch engine input ports (some ask) records = do
      forM (asked engine input ports (some (pureJudge answer)) records) (question ask input)
      return «match» engine input ports (some (pureJudge answer)) records) ∧
    judgeAndMatch engine input ports (none : Option (String → Input → m Answer)) records =
      return «match» engine input ports none records := by
  unfold judgeAndMatch
  cases hseen : ports.seen with
  | true =>
    rw [judgeFrom_seen hseen, judgeFrom_seen hseen]
    have hmatch : ∀ judge records, «match» engine input ports judge records = ⟨none, [], ports.pending⟩ :=
      fun _ _ => if_pos hseen
    have hasked : asked engine input ports (some (pureJudge answer)) records = [] :=
      if_pos (by rw [hseen, Bool.or_true])
    rw [hmatch, hmatch, hmatch, hasked, forM_nil, pure_bind]
    exact ⟨rfl, rfl⟩
  | false =>
    have hmatch : ∀ judge records, «match» engine input ports judge records =
        matchFrom engine input ports judge ⟨claimed input ports, [], ports.pending⟩ records :=
      fun _ _ => if_neg (by rw [hseen]; decide)
    rw [hmatch, hmatch, hmatch]
    constructor
    · change judgeFrom engine input ports (some ask) ⟨claimed input ports, [], ports.pending⟩ records = _
      rw [judgeFrom_eq hseen (judgeOne_eq hanswer hseen) records [], forM_ite]
      congr 2
      unfold asked Asks
      rw [hseen, Bool.or_false]
      cases ports.conversation with
      | none => simp
      | some conversation => simp
    · change judgeFrom engine input ports none ⟨claimed input ports, [], ports.pending⟩ records = _
      have heffect : ∀ record, judgeOne engine input ports (none : Option (String → Input → m Answer)) record = do
          (fun _ => pure () : Automation → m Unit) record
          return «match» engine input ports none [record] := fun record => by rw [judgeOne_none, pure_bind]
      rw [judgeFrom_eq hseen heffect records []]
      have hquiet : ∀ l : List Automation, (forM l fun _ => (pure () : m Unit)) = pure () := by
        intro l
        induction l with
        | nil => rfl
        | cons _ l ih => rw [forM_cons, pure_bind, ih]
      rw [hquiet, pure_bind]

end Refinement

namespace AutomationSample

def engine : Engine := ⟨fun _ _ => false, fun _ => "digest"⟩

def hello : Input where
  eventId := "e"
  surface := "telegram"
  event := "message"
  author := ⟨"u", false⟩
  dm := true
  mentionsBot := false
  body := "hello"
  receivedAt := 1

def watcher : Automation where
  id := "a"
  enabled := true
  triggers := [.message "telegram" "message"]
  runWhen := some "urgent?"
  target := "session:s"

def logged : String → Input → StateM (List String) Answer := fun question _ => do
  modify (· ++ [question])
  return .yes

theorem judge_refines_match_logged :
    judgeAndMatch engine hello { now := 1 } (some logged) [watcher] = (do
      forM (asked engine hello { now := 1 } (some (pureJudge fun _ _ => .yes)) [watcher]) (question logged hello)
      return «match» engine hello { now := 1 } (some (pureJudge fun _ _ => .yes)) [watcher]) ∧
    judgeAndMatch engine hello { now := 1 } (none : Option (String → Input → StateM (List String) Answer)) [watcher] =
      return «match» engine hello { now := 1 } none [watcher] :=
  judge_refines_match engine hello { now := 1 } [watcher] logged (fun _ _ => .yes) fun _ _ => rfl

/-- The automation that decides is asked itself, with none before it. -/
theorem deciding_asked : ((judgeAndMatch engine hello { now := 1 } (some logged) [watcher]).run []).2 = ["urgent?"] ∧
    Decides engine hello { now := 1 } (some (pureJudge fun _ _ => .yes)) watcher = true := by
  decide

end AutomationSample

end Automations
end OpenOmni

import OpenOmni.Protocol.Policy
import OpenOmni.Protocol.SessionTurn

/-! Message rules and the authenticated facts they are checked against. -/
namespace OpenOmni

open PlainValue SessionTransition

def Role.text : Role → String
  | .resident => "resident"
  | .child => "child"

def Role.members : List Role := [.resident, .child]

inductive TrustTier where
  | owner | coOwner | manager | collaborator | observer | assignedWorker
deriving DecidableEq

def TrustTier.text : TrustTier → String
  | owner => "owner"
  | coOwner => "co_owner"
  | manager => "manager"
  | collaborator => "collaborator"
  | observer => "observer"
  | assignedWorker => "assigned_worker"

def TrustTier.members : List TrustTier := [.owner, .coOwner, .manager, .collaborator, .observer, .assignedWorker]

namespace Gateway

inductive Addressee where
  | bot | owner | ambient
deriving DecidableEq

def Addressee.text : Addressee → String
  | bot => "bot"
  | owner => "owner"
  | ambient => "ambient"

def Addressee.members : List Addressee := [.bot, .owner, .ambient]

inductive TargetKind where
  | session | newSession | actor | origin
deriving DecidableEq

def TargetKind.text : TargetKind → String
  | session => "session"
  | newSession => "new_session"
  | actor => "actor"
  | origin => "origin"

def TargetKind.members : List TargetKind := [.session, .newSession, .actor, .origin]

inductive MessageType where
  | message | interrupt | resume
deriving DecidableEq

def MessageType.text : MessageType → String
  | message => "message"
  | interrupt => "interrupt"
  | resume => "resume"

def MessageType.members : List MessageType := [.message, .interrupt, .resume]

/-- The effect of a message rule: whether it matches where its check passes or where it fails. -/
inductive RuleEffect where
  | allow | deny
deriving DecidableEq

def RuleEffect.text : RuleEffect → String
  | allow => "allow"
  | deny => "deny"

def RuleEffect.members : List RuleEffect := [.allow, .deny]

inductive ExternalCheck where
  | identity | grantTier | egressBudget | eventIdDedupe | replyCorrelation

def ExternalCheck.text : ExternalCheck → String
  | identity => "identity"
  | grantTier => "grant_tier"
  | egressBudget => "egress_budget"
  | eventIdDedupe => "event_id_dedupe"
  | replyCorrelation => "reply_correlation"

def ExternalCheck.members : List ExternalCheck :=
  [.identity, .grantTier, .egressBudget, .eventIdDedupe, .replyCorrelation]

inductive SessionCheck where
  | parentChild
  | fanout (max : ℕ)
  | depth (max : ℕ)
  | deadline
  | type
  | actorSend
  | identity
  | consent
  | replyAuto
deriving DecidableEq

structure RuleTableA where
  id : String
  effect : RuleEffect
  senderTier : Option TrustTier := none
  addressee : Option Addressee := none
  check : ExternalCheck

structure RuleTableB where
  id : String
  effect : RuleEffect
  senderRole : Role
  targetKind : Option TargetKind := none
  targetRole : Option Role := none
  type : Option MessageType := none
  check : SessionCheck

/-- `Gateway.RuleTableA | Gateway.RuleTableB`. -/
inductive Rule where
  | a (rule : RuleTableA)
  | b (rule : RuleTableB)

def RuleTableA.ofPlain (v : PlainValue) : Option RuleTableA := do
  guard (v.strict ["id", "effect", "table", "sender", "senderTier", "addressee", "check"])
  let id ← field v "id" readId
  let effect ← field v "effect" (readEnum RuleEffect.members RuleEffect.text)
  field v "table" (SessionTurn.readLiteral "A")
  field v "sender" (SessionTurn.readLiteral "external")
  let senderTier ← optional (readEnum TrustTier.members TrustTier.text) (v.get? "senderTier")
  let addressee ← optional (readEnum Addressee.members Addressee.text) (v.get? "addressee")
  let check ← field v "check" (readEnum ExternalCheck.members ExternalCheck.text)
  return ⟨id, effect, senderTier, addressee, check⟩

private def plainCheck (v : PlainValue) (check : SessionCheck) : Option SessionCheck :=
  if v.strict ["kind"] then some check else none

private def boundedCheck (v : PlainValue) (check : ℕ → SessionCheck) : Option SessionCheck :=
  if v.strict ["kind", "max"] then (field v "max" asCount).map check else none

def SessionCheck.ofPlain (v : PlainValue) : Option SessionCheck :=
  match (v.get? "kind").bind asStr with
  | some "parent_child" => plainCheck v .parentChild
  | some "fanout" => boundedCheck v .fanout
  | some "depth" => boundedCheck v .depth
  | some "deadline" =>
    if v.strict ["kind", "withinParent"] && v.get? "withinParent" = some (.bool true) then some .deadline else none
  | some "type" => plainCheck v .type
  | some "actor_send" => plainCheck v .actorSend
  | some "identity" => plainCheck v .identity
  | some "consent" => plainCheck v .consent
  | some "reply_auto" => plainCheck v .replyAuto
  | _ => none

def RuleTableB.ofPlain (v : PlainValue) : Option RuleTableB := do
  guard (v.strict ["id", "effect", "table", "sender", "senderRole", "targetKind", "targetRole", "type", "check"])
  let id ← field v "id" readId
  let effect ← field v "effect" (readEnum RuleEffect.members RuleEffect.text)
  field v "table" (SessionTurn.readLiteral "B")
  field v "sender" (SessionTurn.readLiteral "session")
  let senderRole ← field v "senderRole" (readEnum Role.members Role.text)
  let targetKind ← optional (readEnum TargetKind.members TargetKind.text) (v.get? "targetKind")
  let targetRole ← optional (readEnum Role.members Role.text) (v.get? "targetRole")
  let type ← optional (readEnum MessageType.members MessageType.text) (v.get? "type")
  let check ← field v "check" SessionCheck.ofPlain
  return ⟨id, effect, senderRole, targetKind, targetRole, type, check⟩

/-- `z.union([Gateway.RuleTableA, Gateway.RuleTableB])`. -/
def Rule.ofPlain (v : PlainValue) : Option Rule :=
  ((RuleTableA.ofPlain v).map Rule.a).or ((RuleTableB.ofPlain v).map Rule.b)

end Gateway

structure ExternalContext where
  senderTier : Option TrustTier := none
  addressee : Gateway.Addressee
  identity : Bool
  grantTier : Bool
  egressBudget : Bool
  eventIdUnique : Bool
  replyCorrelation : Bool

structure SessionContext where
  senderRole : Role
  targetKind : Gateway.TargetKind
  targetRole : Option Role := none
  type : Gateway.MessageType
  parentChild : Bool
  fanout : ℚ
  depth : ℚ
  withinParentDeadline : Bool
  actorSendAllowed : Option Bool := none
  identityGranted : Option Bool := none
  replyAutoAllowed : Option Bool := none
  consentGranted : Option Bool := none

inductive MessagePolicyContext where
  | external (context : ExternalContext)
  | session (context : SessionContext)

def MessagePolicyContext.toPlain : MessagePolicyContext → PlainValue
  | external c => record [("sender", some (.str "external")), ("senderTier", c.senderTier.map (.str ·.text)),
      ("addressee", some (.str c.addressee.text)), ("identity", some (.bool c.identity)),
      ("grantTier", some (.bool c.grantTier)), ("egressBudget", some (.bool c.egressBudget)),
      ("eventIdUnique", some (.bool c.eventIdUnique)), ("replyCorrelation", some (.bool c.replyCorrelation))]
  | session c => record [("sender", some (.str "session")), ("senderRole", some (.str c.senderRole.text)),
      ("targetKind", some (.str c.targetKind.text)), ("targetRole", c.targetRole.map (.str ·.text)),
      ("type", some (.str c.type.text)), ("parentChild", some (.bool c.parentChild)),
      ("fanout", some (.num c.fanout)), ("depth", some (.num c.depth)),
      ("withinParentDeadline", some (.bool c.withinParentDeadline)),
      ("actorSendAllowed", c.actorSendAllowed.map .bool), ("identityGranted", c.identityGranted.map .bool),
      ("replyAutoAllowed", c.replyAutoAllowed.map .bool), ("consentGranted", c.consentGranted.map .bool)]

def externalCheck (check : Gateway.ExternalCheck) (context : ExternalContext) : Bool :=
  match check with
  | .identity => context.identity
  | .grantTier => context.grantTier
  | .egressBudget => context.egressBudget
  | .eventIdDedupe => context.eventIdUnique
  | .replyCorrelation => context.replyCorrelation

/-- `sessionCheck`; the `type` check is passed before it is asked. -/
def sessionCheck (check : Gateway.SessionCheck) (context : SessionContext) : Bool :=
  match check with
  | .parentChild => context.parentChild
  | .fanout max => decide (context.fanout < max)
  | .depth max => decide (context.depth ≤ max)
  | .deadline => context.withinParentDeadline
  | .type => true
  | .actorSend => context.actorSendAllowed = some true
  | .identity => context.identityGranted = some true
  | .replyAuto => context.replyAutoAllowed = some true
  | .consent => context.consentGranted = some true

def matchesExternal (rule : Gateway.RuleTableA) : MessagePolicyContext → Bool
  | .session _ => false
  | .external context =>
    rule.senderTier.all (some · = context.senderTier) && rule.addressee.all (· = context.addressee) &&
      externalCheck rule.check context == decide (rule.effect = .allow)

def matchesSession (rule : Gateway.RuleTableB) : MessagePolicyContext → Bool
  | .external _ => false
  | .session context =>
    decide (rule.senderRole = context.senderRole) && rule.targetKind.all (· = context.targetKind) &&
      rule.targetRole.all (some · = context.targetRole) && rule.type.all (· = context.type) &&
      (decide (rule.check = .type) || sessionCheck rule.check context == decide (rule.effect = .allow))

def matchesMessage (rule : Gateway.Rule) (context : Option MessagePolicyContext) : Bool :=
  match context with
  | none => false
  | some context =>
    match rule with
    | .a rule => matchesExternal rule context
    | .b rule => matchesSession rule context

end OpenOmni

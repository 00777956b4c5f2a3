import Mathlib.Data.Set.Basic
import OpenOmni.Lib.Dict
import OpenOmni.Lib.Joined
import OpenOmni.Lib.Run

/-! Surface keys: the label a conversation is stored under, and the store of the sessions that own the labels. -/
namespace OpenOmni
open List

inductive ChannelKind where
  | dm | group | channel | chat

def ChannelKind.text : ChannelKind → String
  | .dm => "dm"
  | .group => "group"
  | .channel => "channel"
  | .chat => "chat"

structure ChannelDescriptor where
  surface : String
  «namespace» : String
  kind : ChannelKind
  id : String
  threadId : Option String

structure SurfaceKeyError where
  message : String
deriving DecidableEq

namespace SurfaceKey

/-- `assertWellFormed`: a key must carry its surface before a colon. -/
def assertWellFormed (key : String) : Except SurfaceKeyError String :=
  if ':' ∈ key.toList then .ok key
  else .error ⟨"Invalid surfaceKey format: \"" ++ key ++
    "\". Must include surface type prefix (e.g., \"slack:...\")"⟩

/-- `create`: the parts joined by colons, none of them escaped. -/
def create (parts : List String) : Except SurfaceKeyError String :=
  if parts.length = 0 then .error ⟨"SurfaceKey parts cannot be empty"⟩
  else assertWellFormed (":".intercalate parts)

def threadParts : Option String → List String
  | some threadId => if threadId = "" then [] else ["thread", threadId]
  | none => []

/-- The parts `fromChannel` joins. -/
def channelParts (descriptor : ChannelDescriptor) : List String :=
  [descriptor.surface, descriptor.namespace, descriptor.kind.text, descriptor.id] ++
    threadParts descriptor.threadId

def fromChannel (descriptor : ChannelDescriptor) : Except SurfaceKeyError String :=
  create (channelParts descriptor)

lemma channelParts_ne_nil (descriptor : ChannelDescriptor) : channelParts descriptor ≠ [] := by
  simp [channelParts]

theorem fromChannel_eq (descriptor : ChannelDescriptor) :
    fromChannel descriptor = .ok (":".intercalate (channelParts descriptor)) := by
  have hcolon : ':' ∈ (":".intercalate (channelParts descriptor)).toList := by
    simp [channelParts, String.toList_intercalate]
  have hlength : ¬ (channelParts descriptor).length = 0 := by simp [channelParts]
  unfold fromChannel create assertWellFormed
  rw [if_neg hlength, if_pos hcolon]

end SurfaceKey

/-- The thread a correlation names, and the ids beside it that no key reads are left out. -/
structure ReplyCorrelation where
  threadId : Option String

structure IngressFacts where
  surface : String
  workspaceId : Option String
  channelId : String
  dm : Bool
  reply : Option ReplyCorrelation

def IngressFacts.threadId (facts : IngressFacts) : Option String := facts.reply.bind (·.threadId)

def IngressFacts.descriptor (facts : IngressFacts) : ChannelDescriptor where
  surface := facts.surface
  «namespace» := facts.workspaceId.getD facts.surface
  kind := if facts.dm then .dm else .channel
  id := facts.channelId
  threadId := facts.threadId

def ingressSurfaceKey (facts : IngressFacts) : Except SurfaceKeyError String :=
  SurfaceKey.fromChannel facts.descriptor

/-- Two inbounds of one conversation: one surface, workspace, channel, thread, and both direct or neither. -/
structure SameConversation (f g : IngressFacts) : Prop where
  surface : f.surface = g.surface
  workspace : f.workspaceId.getD f.surface = g.workspaceId.getD g.surface
  dm : f.dm = g.dm
  channel : f.channelId = g.channelId
  thread : f.threadId.filter (· ≠ "") = g.threadId.filter (· ≠ "")

/-- The id parts of a key as the joined text leaves them: every part cut at its own colons. -/
def keyPieces (facts : IngressFacts) : List (List Char) :=
  Joined.pieces ':' ((SurfaceKey.channelParts facts.descriptor).map String.toList)

lemma ingressSurfaceKey_eq_iff (f g : IngressFacts) :
    ingressSurfaceKey f = ingressSurfaceKey g ↔ keyPieces f = keyPieces g := by
  have hne : ∀ facts : IngressFacts, (SurfaceKey.channelParts facts.descriptor).map String.toList ≠ [] := by
    intro facts h
    exact SurfaceKey.channelParts_ne_nil facts.descriptor (map_eq_nil_iff.mp h)
  have hcolon : (":" : String).toList = [':'] := rfl
  simp only [ingressSurfaceKey, SurfaceKey.fromChannel_eq, Except.ok.injEq, keyPieces,
    ← Joined.intercalate_eq_iff ':' (hne f) (hne g)]
  rw [← String.toList_inj, String.toList_intercalate, String.toList_intercalate, hcolon]

/-- No two conversations of the set come apart into the same pieces. -/
def Unambiguous (conversations : Set IngressFacts) : Prop :=
  ∀ f ∈ conversations, ∀ g ∈ conversations, keyPieces f = keyPieces g → SameConversation f g

/-- The rows of `surface_key`: each label under the session that owns it. -/
abbrev SurfaceKeyRows := Dict String String

namespace SurfaceKeys

def lookup (rows : SurfaceKeyRows) (key : String) : Option String := rows.get? key

/-- `claim`: with an expected owner the row changes hands from that owner only; a label without a row is
inserted. The owner after the attempt is answered. -/
def claim (rows : SurfaceKeyRows) (key sessionId : String) (expectedSessionId : Option String) :
    Except SurfaceKeyError (SurfaceKeyRows × String) := do
  let key ← SurfaceKey.assertWellFormed key
  let updated := match expectedSessionId with
    | some expected => if rows.get? key = some expected then rows.set key sessionId else rows
    | none => rows
  match updated.get? key with
  | some owner => return (updated, owner)
  | none => return (updated.set key sessionId, sessionId)

theorem lookup_claim {rows rows' : SurfaceKeyRows} {key sessionId owner : String} {expected : Option String}
    (h : claim rows key sessionId expected = .ok (rows', owner)) (key' : String) :
    lookup rows' key' = lookup rows key' ∨ (key' = key ∧ lookup rows' key' = some sessionId) := by
  have hset : ∀ base : SurfaceKeyRows, (∀ k, base.get? k = rows.get? k ∨ (k = key ∧ base.get? k = some sessionId)) →
      (base.set key sessionId).get? key' = rows.get? key' ∨
        (key' = key ∧ (base.set key sessionId).get? key' = some sessionId) := by
    intro base hbase
    by_cases hk : key' = key
    · subst hk
      exact .inr ⟨rfl, Dict.get?_set_self _ _ _⟩
    · rw [Dict.get?_set_of_ne _ _ hk]
      exact hbase key'
  have hrows : ∀ k, rows.get? k = rows.get? k ∨ (k = key ∧ rows.get? k = some sessionId) := fun _ => .inl rfl
  unfold claim SurfaceKey.assertWellFormed at h
  split at h
  · simp only [bind, Except.bind, pure, Except.pure] at h
    generalize hupdated : (match expected with
      | some expected => if rows.get? key = some expected then rows.set key sessionId else rows
      | none => rows) = updated at h
    have hbase : ∀ k, updated.get? k = rows.get? k ∨ (k = key ∧ updated.get? k = some sessionId) := by
      intro k
      cases expected with
      | none => exact .inl (by rw [← hupdated])
      | some expected =>
        by_cases hown : rows.get? key = some expected
        · simp only [if_pos hown] at hupdated
          subst hupdated
          by_cases hk : k = key
          · subst hk
            exact .inr ⟨rfl, Dict.get?_set_self _ _ _⟩
          · exact .inl (Dict.get?_set_of_ne _ _ hk)
        · exact .inl (by rw [← hupdated]; simp only [if_neg hown])
    cases howner : updated.get? key with
    | some found =>
      simp only [howner, Except.ok.injEq, Prod.mk.injEq] at h
      obtain ⟨rfl, -⟩ := h
      exact hbase key'
    | none =>
      simp only [howner, Except.ok.injEq, Prod.mk.injEq] at h
      obtain ⟨rfl, -⟩ := h
      exact hset updated hbase
  · simp [bind, Except.bind] at h

end SurfaceKeys

end OpenOmni

import OpenOmni.Channels.SurfaceKey

/-! The reply door: which session may answer a conversation, over any run of claims of surface keys. -/
namespace OpenOmni

inductive ChannelIdentity where
  | bot | owner
deriving DecidableEq

def ChannelIdentity.text : ChannelIdentity → String
  | .bot => "bot"
  | .owner => "owner"

variable {key sessionId : String} {trace : List (SurfaceKeyRows × Claimed)} {rows : SurfaceKeyRows}

/-- An inbound of a conversation claims its key for the session it was routed to. -/
structure Claimed where
  facts : IngressFacts
  sessionId : String

/-- `admitExternal` and `claimGrantedDirect` claim without an expected owner. -/
inductive ClaimStep : SurfaceKeyRows → Claimed → SurfaceKeyRows → Prop where
  | claim {rows rows' : SurfaceKeyRows} {facts : IngressFacts} {sessionId key owner : String} :
      ingressSurfaceKey facts = .ok key → SurfaceKeys.claim rows key sessionId none = .ok (rows', owner) →
      ClaimStep rows ⟨facts, sessionId⟩ rows'

def ClaimRun (conversations : Set IngressFacts) (trace : List (SurfaceKeyRows × Claimed)) (rows : SurfaceKeyRows) : Prop :=
  Transition.Run ClaimStep Dict.empty trace rows ∧ ∀ e ∈ trace, e.2.facts ∈ conversations

theorem owner_claimed (run : Transition.Run ClaimStep Dict.empty trace rows)
    (h : SurfaceKeys.lookup rows key = some sessionId) :
    ∃ e ∈ trace, e.2.sessionId = sessionId ∧ ingressSurfaceKey e.2.facts = .ok key := by
  induction run with
  | nil => simp [SurfaceKeys.lookup] at h
  | @snoc trace before after claimed run step ih =>
    cases step with
    | @claim _ _ claimant _ _ hkey hclaim =>
      rcases SurfaceKeys.lookup_claim hclaim key with hkept | ⟨rfl, hown⟩
      · obtain ⟨e, he, hsession, hfacts⟩ := ih (hkept ▸ h)
        exact ⟨e, List.mem_append_left _ he, hsession, hfacts⟩
      · have hsession : claimant = sessionId := by
          rw [hown] at h
          exact Option.some.inj h
        exact ⟨_, List.mem_append_right _ (List.mem_singleton.mpr rfl), hsession, hkey⟩

def BoundTo (trace : List (SurfaceKeyRows × Claimed)) (sessionId : String) (facts : IngressFacts) : Prop :=
  ∃ e ∈ trace, e.2.sessionId = sessionId ∧ SameConversation e.2.facts facts

lemma Unambiguous.reached {conversations : Set IngressFacts} (h : Unambiguous conversations)
    (run : ClaimRun conversations trace rows) {facts : IngressFacts} (hfacts : facts ∈ conversations)
    (hkey : ingressSurfaceKey facts = .ok key) (hlookup : SurfaceKeys.lookup rows key = some sessionId) :
    BoundTo trace sessionId facts := by
  obtain ⟨e, he, hsession, hclaimed⟩ := owner_claimed run.1 hlookup
  have hpieces : keyPieces e.2.facts = keyPieces facts :=
    (ingressSurfaceKey_eq_iff _ _).mp (hclaimed.trans hkey.symm)
  exact ⟨e, he, hsession, h _ (run.2 e he) _ hfacts hpieces⟩

section SurfaceSample

end SurfaceSample

end OpenOmni

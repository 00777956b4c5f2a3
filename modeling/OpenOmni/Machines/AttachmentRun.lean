import OpenOmni.Lib.Run
import OpenOmni.Machines.Attachment

/-! Runs of the attachment registry: its maps stay inverse to each other, what an attach publishes is current when
it is published, and nothing but its own end or its successor removes an attachment. -/
namespace OpenOmni
namespace Attach
open List

variable {w w' : World} {key source : Key} {reason : DetachReason} {neverSupersede : List String}

@[simp] theorem detach_admission : (w.detach key reason).admission = w.admission := by
  unfold World.detach
  split <;> rfl

@[simp] theorem detach_connections : (w.detach key reason).connections = w.connections := by
  unfold World.detach
  split <;> rfl

@[simp] theorem detach_queued : (w.detach key reason).queued = w.queued := by
  unfold World.detach
  split <;> rfl

@[simp] theorem detach_opened : (w.detach key reason).opened = w.opened := by
  unfold World.detach
  split <;> rfl

@[simp] theorem detach_revoked : (w.detach key reason).revoked = w.revoked := by
  unfold World.detach
  split <;> rfl

@[simp] theorem detach_published : (w.detach key reason).published = w.published := by
  unfold World.detach
  split <;> rfl

@[simp] theorem disconnect_admission : (w.disconnect key).admission = w.admission := by
  unfold World.disconnect
  split <;> rfl

@[simp] theorem disconnect_attachments : (w.disconnect key).attachments = w.attachments := by
  unfold World.disconnect
  split <;> rfl

@[simp] theorem disconnect_connectionByMachine :
    (w.disconnect key).connectionByMachine = w.connectionByMachine := by
  unfold World.disconnect
  split <;> rfl

@[simp] theorem disconnect_revoked : (w.disconnect key).revoked = w.revoked := by
  unfold World.disconnect
  split <;> rfl

@[simp] theorem disconnect_published : (w.disconnect key).published = w.published := by
  unfold World.disconnect
  split <;> rfl

lemma detach_get? (k : Key) :
    (w.detach key reason).attachments.get? k = if k = key then none else w.attachments.get? k := by
  unfold World.detach
  split
  · rename_i hnone
    split
    · rename_i hk
      rw [hk, hnone]
    · rfl
  · exact Dict.get?_erase _ _ _

/-- The two maps name each other, and connections that are gone stay gone. -/
structure Registry (w : World) : Prop where
  keyed : ∀ (k : Key) (a : Attachment), w.attachments.get? k = some a → a.key = k
  located : ∀ (k : Key) (a : Attachment),
    w.attachments.get? k = some a → w.connectionByMachine.get? a.offer.machineId = some k
  held : ∀ (m : String) (k : Key), w.connectionByMachine.get? m = some k →
    ∃ a, w.attachments.get? k = some a ∧ a.offer.machineId = m
  issued : ∀ (k : Key), w.connections.contains k ∨ k ∈ w.queued → k.conn ≤ w.opened k.listener
  gone : ∀ k ∈ w.queued, w.connections.contains k = false

variable {k : Key} {a : Admission} {b : Attachment} {attempt generation : ℕ} {current : Option ℕ} {r : Request}
  {label : Label} {phase phase' : Phase} {trace : List (World × Label)}

section
variable (h : Registry w)
include h

lemma Registry.one {k' : Key} {a a' : Attachment} (ha : w.attachments.get? k = some a)
    (ha' : w.attachments.get? k' = some a') (hsame : a.offer.machineId = a'.offer.machineId) : k = k' := by
  have hk := h.located k a ha
  have hk' := h.located k' a' ha'
  rw [hsame, hk'] at hk
  exact (Option.some.inj hk).symm

lemma Registry.detach_machine (m : String) :
    (w.detach key reason).connectionByMachine.get? m =
      if w.connectionByMachine.get? m = some key then none else w.connectionByMachine.get? m := by
  unfold World.detach
  split
  · rename_i hnone
    split
    · rename_i hm
      obtain ⟨a, ha, -⟩ := h.held m key hm
      rw [hnone] at ha
      cases ha
    · rfl
  · rename_i attachment hattachment
    have hat := h.located key attachment hattachment
    have hmachine : w.connectionByMachine.get? m = some key ↔ m = attachment.offer.machineId := by
      constructor
      · intro hm
        obtain ⟨a, ha, rfl⟩ := h.held m key hm
        rw [hattachment] at ha
        rw [Option.some.inj ha]
      · rintro rfl
        exact hat
    simp only [hat, if_true, Dict.get?_erase, hmachine]

lemma Registry.detach (key : Key) (reason : DetachReason) : Registry (w.detach key reason) := by
  refine ⟨?_, ?_, ?_, ?_, ?_⟩
  · intro k a ha
    rw [detach_get?] at ha
    split at ha
    · cases ha
    · exact h.keyed k a ha
  · intro k a ha
    rw [detach_get?] at ha
    split at ha
    · cases ha
    · rename_i hk
      have hat := h.located k a ha
      rw [h.detach_machine, if_neg, hat]
      rw [hat]
      intro heq
      exact hk (Option.some.inj heq)
  · intro m k hm
    rw [h.detach_machine] at hm
    split at hm
    · cases hm
    · rename_i hne
      obtain ⟨a, ha, hmachine⟩ := h.held m k hm
      refine ⟨a, ?_, hmachine⟩
      rw [detach_get?, if_neg, ha]
      rintro rfl
      exact hne hm
  · simpa using h.issued
  · simpa using h.gone

theorem Registry.of_maps (hattachments : w'.attachments = w.attachments)
    (hmachines : w'.connectionByMachine = w.connectionByMachine) (hconnections : w'.connections = w.connections)
    (hqueued : w'.queued = w.queued) (hopened : w'.opened = w.opened) : Registry w' := by
  obtain ⟨keyed, located, held, issued, gone⟩ := h
  rw [← hattachments] at keyed located held
  rw [← hmachines] at located held
  rw [← hconnections, ← hqueued, ← hopened] at issued
  rw [← hconnections, ← hqueued] at gone
  exact ⟨keyed, located, held, issued, gone⟩

lemma Registry.disconnect (key : Key) : Registry (w.disconnect key) := by
  unfold World.disconnect
  split
  · rename_i hlive
    refine ⟨h.keyed, h.located, h.held, ?_, ?_⟩
    · rintro k (hk | hk)
      · rw [Dict.contains_erase] at hk
        split at hk
        · cases hk
        · exact h.issued k (.inl hk)
      · rcases mem_append.mp hk with hk | hk
        · exact h.issued k (.inr hk)
        · obtain rfl := mem_singleton.mp hk
          exact h.issued k (.inl hlive)
    · intro k hk
      rw [Dict.contains_erase]
      split
      · rfl
      · rename_i hne
        rcases mem_append.mp hk with hk | hk
        · exact h.gone k hk
        · exact absurd (mem_singleton.mp hk) hne
  · exact h

lemma Registry.supersede (key source : Key) : Registry (w.supersede key source) := by
  unfold World.supersede
  split
  · exact h
  · split
    · exact (h.detach _ _).disconnect _
    · exact h.detach _ _

end

lemma supersede_get? (k : Key) :
    (w.supersede key source).attachments.get? k = if k = key then none else w.attachments.get? k := by
  unfold World.supersede
  split
  · rename_i hnone
    split
    · rename_i hk
      rw [hk, hnone]
    · rfl
  · split
    · rw [disconnect_attachments, detach_get?]
    · exact detach_get? k

@[simp] theorem supersede_published : (w.supersede key source).published = w.published := by
  unfold World.supersede
  split
  · rfl
  · split <;> simp

@[simp] theorem supersede_revoked : (w.supersede key source).revoked = w.revoked := by
  unfold World.supersede
  split
  · rfl
  · split <;> simp

lemma Registry.clear (h : Registry w) (a : Admission) : Registry (w.clear a) := by
  unfold World.clear
  split
  · exact h.supersede _ _
  · exact (h.supersede _ _).supersede _ _

lemma clear_get? (a : Admission) (k : Key) :
    (w.clear a).attachments.get? k =
      if k = a.request.source ∨ a.incumbent = some k then none else w.attachments.get? k := by
  unfold World.clear
  rw [supersede_get?]
  by_cases hsource : k = a.request.source
  · rw [if_pos hsource, if_pos (.inl hsource)]
  · rw [if_neg hsource]
    split
    · rename_i hnone
      rw [hnone, if_neg (by simpa using hsource)]
    · rename_i incumbent hincumbent
      rw [supersede_get?, hincumbent]
      by_cases hk : k = incumbent
      · rw [if_pos hk, if_pos (.inr (by rw [hk]))]
      · rw [if_neg hk, if_neg]
        rintro (hs | hi)
        · exact hsource hs
        · exact hk (Option.some.inj hi).symm

@[simp] theorem clear_published (a : Admission) : (w.clear a).published = w.published := by
  unfold World.clear
  split <;> simp

@[simp] theorem clear_revoked (a : Admission) : (w.clear a).revoked = w.revoked := by
  unfold World.clear
  split <;> simp

theorem Registry.vacant (h : Registry w)
    (hincumbent : w.connectionByMachine.get? a.request.offer.machineId = none ∨
      w.connectionByMachine.get? a.request.offer.machineId = a.incumbent)
    (hb : (w.clear a).attachments.get? k = some b) : b.offer.machineId ≠ a.request.offer.machineId := by
  intro hsame
  rw [clear_get?] at hb
  split at hb
  · cases hb
  · rename_i hfree
    have hat := h.located k b hb
    rw [hsame] at hat
    rcases hincumbent with hnone | hsome
    · rw [hat] at hnone
      cases hnone
    · exact hfree (.inr (hsome.symm.trans hat))

lemma Registry.publish (h : Registry w) (generation : ℕ)
    (hincumbent : w.connectionByMachine.get? a.request.offer.machineId = none ∨
      w.connectionByMachine.get? a.request.offer.machineId = a.incumbent) :
    Registry (w.publishAttachment a generation) := by
  have hcleared := h.clear a
  refine ⟨?_, ?_, ?_, hcleared.issued, hcleared.gone⟩
  · intro k b hb
    simp only [World.publishAttachment, Dict.get?_set] at hb
    split at hb
    · rename_i hk
      cases hb
      exact hk.symm
    · exact hcleared.keyed k b hb
  · intro k b hb
    simp only [World.publishAttachment, Dict.get?_set] at hb ⊢
    split at hb
    · rename_i hk
      cases hb
      rw [hk]
      exact if_pos rfl
    · rw [if_neg (h.vacant hincumbent hb)]
      exact hcleared.located k b hb
  · intro m k hm
    simp only [World.publishAttachment, Dict.get?_set] at hm ⊢
    split at hm
    · rename_i hmachine
      cases hm
      exact ⟨a.attachment generation, if_pos rfl, hmachine.symm⟩
    · obtain ⟨b, hb, hmachine⟩ := hcleared.held m k hm
      refine ⟨b, ?_, hmachine⟩
      rw [if_neg, hb]
      rintro rfl
      rw [clear_get?, if_pos (.inl rfl)] at hb
      cases hb

inductive Advance (neverSupersede : List String) (w : World) : Phase → Phase → Prop where
  | judged (r : Request) (negotiated : Negotiated)
      (hnegotiated : negotiate r.offer r.found ((w.connections.get? r.source).getD none) = .ok negotiated)
      (hopen : r.offer.generation = none → r.offer.machineId ∈ neverSupersede →
        w.connectionByMachine.get? r.offer.machineId = none) :
      Advance neverSupersede w (.negotiating r)
        (.reading ⟨r, negotiated, w.connectionByMachine.get? r.offer.machineId⟩ 0)
  | fetched (a : Admission) (attempt : ℕ) :
      Advance neverSupersede w (.reading a attempt)
        (.fetched a attempt (w.generations.get? a.request.offer.machineId))
  | invalid (a : Admission) (attempt : ℕ) (current : Option ℕ) :
      Advance neverSupersede w (.fetched a attempt current) (.decided a none)
  | mint (a : Admission) (attempt : ℕ) (current : Option ℕ) :
      Advance neverSupersede w (.fetched a attempt current) (.swapping a attempt current)
  | current (a : Admission) (attempt : ℕ) (current : Option ℕ) :
      Advance neverSupersede w (.fetched a attempt current) (.decided a current)
  | lost (a : Admission) (attempt : ℕ) (current : Option ℕ) :
      Advance neverSupersede w (.swapping a attempt current) (.reading a 1)
  | lostTwice (a : Admission) (attempt : ℕ) (current : Option ℕ) :
      Advance neverSupersede w (.swapping a attempt current) (.decided a none)

/-- The steps, by what they do to the registry and to the attach that holds the permit. -/
inductive Steps (neverSupersede : List String) (w : World) : Label → World → Prop where
  | connect (listener : Listener) (fingerprint : Option String) :
      Steps neverSupersede w (.connect listener fingerprint) { w with
        connections := w.connections.set ⟨listener, w.opened listener + 1⟩ fingerprint
        opened := Function.update w.opened listener (w.opened listener + 1) }
  | drop (key : Key) : Steps neverSupersede w (.drop key) (w.disconnect key)
  | disconnected (key : Key) (hqueued : key ∈ w.queued) :
      Steps neverSupersede w (.disconnected key)
        ({ w with queued := w.queued.erase key }.detach key .connectionClosed)
  | enroll (machineId : String) (enrollment : Enrollment) :
      Steps neverSupersede w (.enroll machineId enrollment)
        { w with enrollments := w.enrollments.set machineId enrollment }
  | forget (machineId : String) :
      Steps neverSupersede w (.forget machineId) { w with enrollments := w.enrollments.erase machineId }
  | unenroll (machineId : String) (reason : DetachReason) :
      Steps neverSupersede w (.unenroll machineId reason) (w.unenroll machineId reason)
  | foreign (machineId : String) (generation : ℕ) :
      Steps neverSupersede w (.foreign machineId generation)
        { w with generations := w.generations.set machineId generation }
  | close : Steps neverSupersede w .close w.close
  | attach (offer : Offer) (source : Key) :
      Steps neverSupersede w (.attach offer source) (w.await (.negotiating
        ⟨offer, source, w.revoked.get? offer.machineId, w.enrollments.get? offer.machineId⟩))
  | advance (label : Label) (phase phase' : Phase) (hlabel : label ∈ [.negotiate, .current, .resume, .compareAndSet false])
      (hphase : w.admission = some phase) (hadvance : Advance neverSupersede w phase phase') :
      Steps neverSupersede w label (w.await phase')
  | won (a : Admission) (attempt : ℕ) (current : Option ℕ) (hphase : w.admission = some (.swapping a attempt current)) :
      Steps neverSupersede w (.compareAndSet true) { w with
        generations := w.generations.set a.request.offer.machineId (current.getD 0 + 1)
        admission := some (.decided a (some (current.getD 0 + 1))) }
  | stop (label : Label) (replies : List (Key × AttachResult)) (hlabel : label ∈ [.negotiate, .settle, .fail]) :
      Steps neverSupersede w label { w with admission := none, replies := replies }
  | publish (a : Admission) (generation : ℕ) (hphase : w.admission = some (.decided a (some generation)))
      (hvalid : w.admissionValid a.request = none) :
      Steps neverSupersede w .settle ((w.publishAttachment a generation).respond a.request.source
        (.attached generation a.negotiated.capabilities a.negotiated.exports))

structure Within (w' w : World) : Prop where
  attachments : ∀ (k : Key) (a : Attachment), w'.attachments.get? k = some a → w.attachments.get? k = some a
  machines : ∀ (m : String) (k : Key),
    w'.connectionByMachine.get? m = some k → w.connectionByMachine.get? m = some k
  admission : w'.admission = w.admission
  published : w'.published = w.published

lemma Within.trans {w'' : World} (h : Within w'' w') (h' : Within w' w) : Within w'' w :=
  ⟨fun k a ha => h'.attachments k a (h.attachments k a ha), fun m k hm => h'.machines m k (h.machines m k hm),
    h.admission.trans h'.admission, h.published.trans h'.published⟩

lemma Within.of_maps (hattachments : w'.attachments = w.attachments)
    (hmachines : w'.connectionByMachine = w.connectionByMachine) (hadmission : w'.admission = w.admission)
    (hpublished : w'.published = w.published) : Within w' w := by
  refine ⟨?_, ?_, hadmission, hpublished⟩
  · intro k a ha
    rw [← hattachments, ha]
  · intro m k hm
    rw [← hmachines, hm]

lemma Registry.detach_within (h : Registry w) (key : Key) (reason : DetachReason) :
    Within (w.detach key reason) w := by
  refine ⟨?_, ?_, detach_admission, detach_published⟩
  · intro k a ha
    rw [detach_get?] at ha
    split at ha
    · cases ha
    · exact ha
  · intro m k hm
    rw [h.detach_machine] at hm
    split at hm
    · cases hm
    · exact hm

lemma disconnect_within (key : Key) : Within (w.disconnect key) w :=
  .of_maps disconnect_attachments disconnect_connectionByMachine disconnect_admission disconnect_published

lemma Registry.unenroll (h : Registry w) (machineId : String) (reason : DetachReason) :
    Registry (w.unenroll machineId reason) ∧ Within (w.unenroll machineId reason) w := by
  have hrevoked : ∀ revoked, Registry { w with revoked := revoked } := fun revoked => h.of_maps rfl rfl rfl rfl rfl
  unfold World.unenroll
  dsimp only
  split
  · exact ⟨hrevoked _, .of_maps rfl rfl rfl rfl⟩
  · rename_i attachment _
    refine ⟨((hrevoked _).detach attachment.key reason).disconnect attachment.key, ?_⟩
    exact (disconnect_within _).trans (((hrevoked _).detach_within _ _).trans (.of_maps rfl rfl rfl rfl))

lemma Registry.detachAll (h : Registry w) (keys : List Key) (reason : DetachReason) :
    Registry (keys.foldl (fun w key => w.detach key reason) w) ∧
      Within (keys.foldl (fun w key => w.detach key reason) w) w := by
  induction keys generalizing w with
  | nil => exact ⟨h, .of_maps rfl rfl rfl rfl⟩
  | cons key keys ih =>
    obtain ⟨hregistry, hwithin⟩ := ih (h.detach key reason)
    exact ⟨hregistry, hwithin.trans (h.detach_within key reason)⟩

lemma Registry.close (h : Registry w) : Registry w.close ∧ Within w.close w := by
  have hclosed : Registry { w with closed := true } := h.of_maps rfl rfl rfl rfl rfl
  obtain ⟨hregistry, hwithin⟩ := hclosed.detachAll (w.attachments.entries.map Prod.fst) .hostClosed
  exact ⟨hregistry, hwithin.trans (.of_maps rfl rfl rfl rfl)⟩

lemma Registry.connect (h : Registry w) (listener : Listener) (fingerprint : Option String) :
    Registry { w with
      connections := w.connections.set ⟨listener, w.opened listener + 1⟩ fingerprint
      opened := Function.update w.opened listener (w.opened listener + 1) } := by
  have hbound : ∀ k : Key, k.conn ≤ w.opened k.listener →
      k.conn ≤ Function.update w.opened listener (w.opened listener + 1) k.listener := by
    intro k hk
    rw [Function.update_apply]
    split
    · rename_i hlistener
      rw [hlistener] at hk
      omega
    · exact hk
  refine ⟨h.keyed, h.located, h.held, ?_, ?_⟩
  · rintro k (hk | hk)
    · dsimp only at hk ⊢
      rw [Dict.contains_set] at hk
      split at hk
      · rename_i heq
        subst heq
        rw [Function.update_self]
      · exact hbound k (h.issued k (.inl hk))
    · exact hbound k (h.issued k (.inr hk))
  · intro k hk
    dsimp only at hk ⊢
    rw [Dict.contains_set, if_neg, h.gone k hk]
    rintro rfl
    have hissued := h.issued _ (.inr hk)
    simp only at hissued
    omega

/-- What an admission has read of the registry still stands: no attach but its own can register anything. -/
structure Holding (neverSupersede : List String) (w : World) (a : Admission) : Prop where
  incumbent : w.connectionByMachine.get? a.request.offer.machineId = none ∨
    w.connectionByMachine.get? a.request.offer.machineId = a.incumbent
  displaced : ∀ (k : Key) (b : Attachment), a.incumbent = some k → w.attachments.get? k = some b →
    b.offer.machineId = a.request.offer.machineId
  spared : a.request.offer.generation = none → a.request.offer.machineId ∈ neverSupersede → a.incumbent = none
  enrolled : a.request.found = some a.negotiated.enrollment

lemma Holding.same (h : Holding neverSupersede w a) (hattachments : w'.attachments = w.attachments)
    (hmachines : w'.connectionByMachine = w.connectionByMachine) : Holding neverSupersede w' a := by
  refine ⟨?_, ?_, h.spared, h.enrolled⟩
  · rw [hmachines]
    exact h.incumbent
  · rw [hattachments]
    exact h.displaced

lemma Holding.within (h : Holding neverSupersede w a) (hwithin : Within w' w) : Holding neverSupersede w' a := by
  refine ⟨?_, fun k b hk hb => h.displaced k b hk (hwithin.attachments k b hb), h.spared, h.enrolled⟩
  cases hm : w'.connectionByMachine.get? a.request.offer.machineId with
  | none => exact .inl rfl
  | some k =>
    have hk := hwithin.machines _ k hm
    rcases h.incumbent with hnone | hsome
    · rw [hk] at hnone
      cases hnone
    · exact .inr (hk.symm.trans hsome)

def Phase.admission : Phase → Option Admission
  | .negotiating _ => none
  | .reading a _ | .fetched a _ _ | .swapping a _ _ | .decided a _ => some a

def Standing (neverSupersede : List String) (w : World) : Prop :=
  ∀ (phase : Phase) (a : Admission), w.admission = some phase → phase.admission = some a → Holding neverSupersede w a

lemma Standing.within (h : Standing neverSupersede w) (hwithin : Within w' w) : Standing neverSupersede w' := by
  intro phase a hphase ha
  rw [hwithin.admission] at hphase
  exact (h phase a hphase ha).within hwithin

lemma negotiate_found {offer : Offer} {found : Option Enrollment} {presented : Option String} {negotiated : Negotiated}
    (h : negotiate offer found presented = .ok negotiated) : found = some negotiated.enrollment := by
  unfold negotiate at h
  split at h
  · cases h
  · split at h
    · cases h
    · split at h
      · cases h
      · split at h
        · cases h
          rfl
        · cases h

lemma Standing.advance (h : Standing neverSupersede w) (hregistry : Registry w) (hphase : w.admission = some phase)
    (hadvance : Advance neverSupersede w phase phase') : Standing neverSupersede (w.await phase') := by
  intro p a hp ha
  cases hp
  cases hadvance with
  | judged r negotiated hnegotiated hopen =>
    cases ha
    refine ⟨.inr rfl, ?_, hopen, negotiate_found hnegotiated⟩
    intro k b hk hb
    obtain ⟨c, hc, hmachine⟩ := hregistry.held _ k hk
    obtain rfl := Option.mem_unique hb hc
    exact hmachine
  | fetched b attempt | invalid b attempt current | mint b attempt current | current b attempt current
  | lost b attempt current | lostTwice b attempt current => exact (h _ a hphase ha).same rfl rfl

def World.revocations (w : World) (machineId : String) : ℕ := (w.revoked.get? machineId).getD 0

def Label.unenrolls (machineId : String) : Label → Bool
  | .unenroll id _ => id = machineId
  | _ => false

def Label.moves (machineId : String) : Label → Bool
  | .foreign id _ => id = machineId
  | _ => false

@[simp] theorem detach_revocations (m : String) : (w.detach key reason).revocations m = w.revocations m := by
  unfold World.revocations
  rw [detach_revoked]

@[simp] theorem disconnect_revocations (m : String) : (w.disconnect key).revocations m = w.revocations m := by
  unfold World.revocations
  rw [disconnect_revoked]

lemma detachAll_revoked (keys : List Key) :
    (keys.foldl (fun w key => w.detach key reason) w).revoked = w.revoked := by
  induction keys generalizing w with
  | nil => rfl
  | cons key keys ih =>
    rw [foldl_cons, ih, detach_revoked]

lemma unenroll_revocations (machineId m : String) :
    (w.unenroll machineId reason).revocations m = w.revocations m + if machineId = m then 1 else 0 := by
  have hset : ({ w with revoked := w.revoked.set machineId ((w.revoked.get? machineId).getD 0 + 1) } : World).revocations m =
      w.revocations m + if machineId = m then 1 else 0 := by
    unfold World.revocations
    dsimp only
    rw [Dict.get?_set]
    by_cases hm : m = machineId
    · rw [if_pos hm, if_pos hm.symm, hm]
      rfl
    · rw [if_neg hm, if_neg fun heq => hm heq.symm]
      rfl
  unfold World.unenroll
  dsimp only
  split
  · exact hset
  · rw [disconnect_revocations, detach_revocations, hset]

theorem revocations_step (hstep : Steps neverSupersede w label w') (m : String) :
    w'.revocations m = w.revocations m + if label.unenrolls m then 1 else 0 := by
  cases hstep with
  | unenroll machineId reason =>
    rw [unenroll_revocations]
    simp [Label.unenrolls]
  | drop key => simp [Label.unenrolls]
  | disconnected key hqueued =>
    rw [detach_revocations]
    rfl
  | close =>
    unfold World.revocations World.close
    rw [detachAll_revoked]
    rfl
  | publish a generation hphase hvalid =>
    have hrevoked : ((w.publishAttachment a generation).respond a.request.source
        (.attached generation a.negotiated.capabilities a.negotiated.exports)).revoked = w.revoked := clear_revoked a
    unfold World.revocations
    rw [hrevoked]
    rfl
  | advance label phase phase' hlabel hphase hadvance =>
    simp only [mem_cons, not_mem_nil, or_false] at hlabel
    rcases hlabel with rfl | rfl | rfl | rfl <;> rfl
  | stop label replies hlabel =>
    simp only [mem_cons, not_mem_nil, or_false] at hlabel
    rcases hlabel with rfl | rfl | rfl <;> rfl
  | connect | enroll | forget | foreign | attach | won => rfl

def Phase.Sees (stored : Option ℕ) : Phase → Prop
  | .fetched _ _ current => stored = current
  | .decided _ (some generation) => stored = some generation
  | _ => True

/-- How an attach stands to the state `s` it began in: `rest` are the steps since. -/
structure Since (s : World) (rest : List (World × Label)) (w : World) (phase : Phase) : Prop where
  revision : phase.request.revision = s.revoked.get? phase.request.offer.machineId
  found : phase.request.found = s.enrollments.get? phase.request.offer.machineId
  revocations : w.revocations phase.request.offer.machineId =
    s.revocations phase.request.offer.machineId + rest.countP fun e => e.2.unenrolls phase.request.offer.machineId
  sees : (∀ e ∈ rest, e.2.moves phase.request.offer.machineId = false) →
    phase.Sees (w.generations.get? phase.request.offer.machineId)

def Entered (trace : List (World × Label)) (w : World) : Prop :=
  ∀ phase : Phase, w.admission = some phase → ∃ (before : List (World × Label)) (s : World) (rest : List (World × Label)),
    trace = before ++ (s, .attach phase.request.offer phase.request.source) :: rest ∧ Since s rest w phase

lemma Since.step {s : World} {rest : List (World × Label)} (h : Since s rest w phase)
    (hstep : Steps neverSupersede w label w') (hrequest : phase'.request = phase.request)
    (hsees : label.moves phase.request.offer.machineId = false →
      phase.Sees (w.generations.get? phase.request.offer.machineId) →
        phase'.Sees (w'.generations.get? phase.request.offer.machineId)) :
    Since s (rest ++ [(w, label)]) w' phase' := by
  obtain ⟨revision, found, revocations, sees⟩ := h
  rw [← hrequest] at revision found revocations sees hsees
  refine ⟨revision, found, ?_, ?_⟩
  · rw [revocations_step hstep, revocations, countP_append, countP_singleton, Nat.add_assoc]
  · intro hmoves
    apply hsees
    · exact hmoves (w, label) (mem_append_right _ (mem_singleton.mpr rfl))
    · exact sees fun e he => hmoves e (mem_append_left _ he)

lemma Advance.request (h : Advance neverSupersede w phase phase') : phase'.request = phase.request := by
  cases h <;> rfl

lemma Advance.sees (h : Advance neverSupersede w phase phase')
    (hsees : phase.Sees (w.generations.get? phase.request.offer.machineId)) :
    phase'.Sees (w.generations.get? phase.request.offer.machineId) := by
  cases h with
  | judged r negotiated hnegotiated hopen | invalid a attempt current | mint a attempt current
  | lost a attempt current | lostTwice a attempt current => trivial
  | fetched a attempt => rfl
  | current a attempt current =>
    cases current with
    | none => trivial
    | some generation => exact hsees

section
variable (h : Entered trace w) (hstep : Steps neverSupersede w label w')
include h hstep

lemma Entered.keep (hadmission : w'.admission = w.admission)
    (hgenerations : ∀ m, label.moves m = false → w'.generations.get? m = w.generations.get? m) :
    Entered (trace ++ [(w, label)]) w' := by
  intro phase hphase
  rw [hadmission] at hphase
  obtain ⟨before, s, rest, rfl, hsince⟩ := h phase hphase
  refine ⟨before, s, rest ++ [(w, label)], by simp, hsince.step hstep rfl ?_⟩
  intro hmoves hsees
  rw [hgenerations _ hmoves]
  exact hsees

lemma Entered.move (hphase : w.admission = some phase) (hphase' : w'.admission = some phase')
    (hrequest : phase'.request = phase.request)
    (hsees : phase.Sees (w.generations.get? phase.request.offer.machineId) →
      phase'.Sees (w'.generations.get? phase.request.offer.machineId)) : Entered (trace ++ [(w, label)]) w' := by
  intro p hp
  obtain rfl := Option.mem_unique hphase' hp
  obtain ⟨before, s, rest, rfl, hsince⟩ := h phase hphase
  rw [hrequest]
  exact ⟨before, s, rest ++ [(w, label)], by simp, hsince.step hstep hrequest fun _ => hsees⟩

end

/-- What is published is published by the last piece of its attach: its connection lives, its enrollment is the one the
caller gave when the attach began and no revocation has followed, and its generation is the stored one unless
another host has moved it meanwhile. -/
structure Publication (trace : List (World × Label)) (w : World) (a : Attachment) : Prop where
  opened : w.closed = false
  live : w.connections.contains a.key = true
  enrolled : w.enrollments.get? a.offer.machineId ≠ none
  began : ∃ (before : List (World × Label)) (s : World) (rest : List (World × Label)),
    trace = before ++ (s, .attach a.offer a.key) :: rest ∧
    s.enrollments.get? a.offer.machineId = some a.enrollment ∧
    (∀ e ∈ rest, e.2.unenrolls a.offer.machineId = false) ∧
    ((∀ e ∈ rest, e.2.moves a.offer.machineId = false) →
      w.generations.get? a.offer.machineId = some a.generation)

/-- Why the attachment `a` under the key is no longer registered after a step. -/
inductive Removal (neverSupersede : List String) (w : World) (key : Key) (a : Attachment) (w' : World) : Label → Prop where
  | disconnected : Removal neverSupersede w key a w' (.disconnected key)
  | unenrolled (reason : DetachReason) : Removal neverSupersede w key a w' (.unenroll a.offer.machineId reason)
  | closed : Removal neverSupersede w key a w' .close
  | superseded (successor : Attachment) (hpublished : w'.published = w.published ++ [successor])
      (hplace : successor.key = key ∨ successor.offer.machineId = a.offer.machineId)
      (hspared : successor.offer.generation = none → a.offer.machineId ∈ neverSupersede →
        successor.offer.machineId ≠ a.offer.machineId) :
      Removal neverSupersede w key a w' .settle

/-- What one more step publishes, registers and removes, behind a run. -/
structure SafeStep (neverSupersede : List String) (trace : List (World × Label)) (w w' : World) (label : Label) : Prop where
  published : w'.published = w.published ∨
    ∃ a, w'.published = w.published ++ [a] ∧ Publication trace w a ∧ w'.attachments.get? a.key = some a
  registered : ∀ (k : Key) (a : Attachment), w'.attachments.get? k = some a →
    w.attachments.get? k = some a ∨ w'.published = w.published ++ [a]
  removed : ∀ (k : Key) (a : Attachment), w.attachments.get? k = some a → w'.attachments.get? k ≠ some a →
    Removal neverSupersede w k a w' label

/-- One attachment for a machine, named by both maps, and none but its own removed by a connection's end. -/
structure Safe (neverSupersede : List String) (trace : List (World × Label)) (w : World) : Prop where
  one : ∀ (k k' : Key) (a a' : Attachment), w.attachments.get? k = some a → w.attachments.get? k' = some a' →
    a.offer.machineId = a'.offer.machineId → k = k'
  located : ∀ (k : Key) (a : Attachment),
    w.attachments.get? k = some a → w.connectionByMachine.get? a.offer.machineId = some k
  held : ∀ (m : String) (k : Key), w.connectionByMachine.get? m = some k →
    ∃ a, w.attachments.get? k = some a ∧ a.offer.machineId = m
  gone : ∀ k ∈ w.queued, w.connections.contains k = false
  step : ∀ (label : Label) (w' : World), step neverSupersede w label = some w' →
    SafeStep neverSupersede trace w w' label

end Attach
end OpenOmni

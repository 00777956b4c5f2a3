import OpenOmni.Channels.Deliver
import OpenOmni.Lib.Slots

/-! What the reconciliation map keeps true over every interleaving of keyed deliveries. -/
namespace OpenOmni
namespace Deliver
open List

open Translate

def recent {α : Type*} (n : ℕ) (l : List α) : List α := l.drop (l.length - n)

lemma recent_map {α β : Type*} (n : ℕ) (f : α → β) (l : List α) : recent n (l.map f) = (recent n l).map f := by
  simp [recent, map_drop]

lemma length_recent {α : Type*} (n : ℕ) (l : List α) : (recent n l).length ≤ n := by
  simp only [recent, length_drop]
  omega

lemma recent_append_singleton {α : Type*} (n : ℕ) (l : List α) (x : α) :
    recent n (recent n l ++ [x]) = recent n (l ++ [x]) := by
  have hlen : (recent n l).length = min n l.length := by
    simp only [recent, length_drop]
    omega
  rcases Nat.le_total l.length n with hle | hle
  · have hall : recent n l = l := by
      rw [recent, Nat.sub_eq_zero_of_le hle, drop_zero]
    rw [hall]
  · rcases Nat.eq_zero_or_pos n with rfl | hpos
    · simp [recent]
    · have hleft : (recent n l ++ [x]).length - n = 1 := by
        rw [length_append, hlen, length_singleton]
        omega
      have hright : (l ++ [x]).length - n = (l.length - n) + 1 := by
        rw [length_append, length_singleton]
        omega
      have hshort : 1 ≤ (recent n l).length := by
        rw [hlen]
        omega
      have hdrop : l.length - n + 1 ≤ l.length := by omega
      calc recent n (recent n l ++ [x]) = (recent n l ++ [x]).drop 1 := by rw [recent, hleft]
        _ = (recent n l).drop 1 ++ [x] := drop_append_of_le_length hshort
        _ = l.drop (l.length - n + 1) ++ [x] := by rw [recent, drop_drop]
        _ = recent n (l ++ [x]) := by rw [recent, hright, drop_append_of_le_length hdrop]

lemma get?_foldl_erase (keys : List String) (d : Dict String ℕ) (key : String) :
    (keys.foldl Dict.erase d).get? key = if key ∈ keys then none else d.get? key := by
  induction keys generalizing d with
  | nil => simp
  | cons head keys ih =>
    rw [foldl_cons, ih, Dict.get?_erase]
    by_cases hkeys : key ∈ keys <;> by_cases hhead : key = head <;> simp [hkeys, hhead]

lemma evict_eq (n : ℕ) (l : List String) (d : Dict String ℕ) :
    evict n l d = (recent n l, (l.take (l.length - n)).foldl Dict.erase d) := by
  induction l generalizing d with
  | nil => simp [evict, recent]
  | cons oldest rest ih =>
    by_cases hle : (oldest :: rest).length ≤ n
    · have hzero : (oldest :: rest).length - n = 0 := by omega
      rw [evict, if_pos hle, recent, hzero]
      rfl
    · have hsucc : (oldest :: rest).length - n = (rest.length - n) + 1 := by
        rw [length_cons] at hle ⊢
        omega
      rw [evict, if_neg hle, ih, recent, recent, hsucc]
      rfl

structure Inv (n : ℕ) (w : World) : Prop where
  sound : ∀ (id : ℕ) (a : Attempt), w.attempts[id]? = some a → a.Sound
  mapped : ∀ key id, w.reconciliation.attempts.get? key = some id →
    ∃ a, w.attempts[id]? = some a ∧ a.key = key ∧ ¬ a.SettledAs .notSent
  kept : ∀ (id : ℕ) (a : Attempt), w.attempts[id]? = some a → ¬ a.SettledAs .notSent → ¬ a.SettledAs .sent →
    w.reconciliation.attempts.get? a.key = some id
  proven : ∀ key id, (key, id) ∈ w.sentOrder → ∃ a, w.attempts[id]? = some a ∧ a.key = key ∧ a.SettledAs .sent
  listed : ∀ (id : ℕ) (a : Attempt), w.attempts[id]? = some a → a.SettledAs .sent → (a.key, id) ∈ w.sentOrder
  sentKeys : w.reconciliation.sent = (recent n w.sentOrder).map Prod.fst
  sentKept : ∀ key id, (key, id) ∈ recent n w.sentOrder → w.reconciliation.attempts.get? key = some id
  windows : ∀ l, l <:+: w.sentOrder.map Prod.fst → l.length ≤ n + 1 → l.Nodup

lemma inv_start (n : ℕ) : Inv n World.start where
  sound := by simp [World.start]
  mapped := by simp [World.start]
  kept := by simp [World.start]
  proven := by simp [World.start]
  listed := by simp [World.start]
  sentKeys := by simp [World.start, recent]
  sentKept := by simp [World.start, recent]
  windows := by
    intro l hl _
    simp only [World.start, map_nil, infix_nil] at hl
    simp [hl]

lemma inv_deliverKeyed {n : ℕ} {w : World} (h : Inv n w) (key : String) (payload : Payload) (surface : Surface) :
    Inv n (deliverKeyed w key payload surface).1 := by
  unfold deliverKeyed
  cases hget : w.reconciliation.attempts.get? key with
  | some existing => exact h
  | none =>
    have hold : ∀ (id : ℕ) (a : Attempt), w.attempts[id]? = some a →
        (w.attempts ++ [(⟨key, payload, surface, [], [], .queued⟩ : Attempt)])[id]? = some a :=
      fun _ _ ha => Slots.get?_append ha _
    have hcases : ∀ (id : ℕ) (a : Attempt), (w.attempts ++ [(⟨key, payload, surface, [], [], .queued⟩ : Attempt)])[id]? = some a →
        w.attempts[id]? = some a ∨ (id = w.attempts.length ∧ a = ⟨key, payload, surface, [], [], .queued⟩) :=
      fun _ _ ha => Slots.append_cases ha
    have hqueued : ∀ value, ¬ (⟨key, payload, surface, [], [], .queued⟩ : Attempt).SettledAs value := by
      rintro value ⟨receipt, hphase, -⟩
      cases hphase
    refine ⟨?_, ?_, ?_, ?_, ?_, h.sentKeys, ?_, h.windows⟩
    · intro id a ha
      rcases hcases id a ha with ha | ⟨-, rfl⟩
      · exact h.sound id a ha
      · exact ⟨rfl, rfl⟩
    · intro key' id hid
      by_cases hkey : key' = key
      · subst hkey
        rw [Dict.get?_set_self] at hid
        cases hid
        exact ⟨_, getElem?_concat_length, rfl, hqueued _⟩
      · rw [Dict.get?_set_of_ne _ _ hkey] at hid
        obtain ⟨a, ha, hakey, hsettled⟩ := h.mapped key' id hid
        exact ⟨a, hold id a ha, hakey, hsettled⟩
    · intro id a ha hnotSent hsent
      rcases hcases id a ha with ha | ⟨rfl, rfl⟩
      · have hkept := h.kept id a ha hnotSent hsent
        have hne : a.key ≠ key := by
          intro heq
          rw [heq, hget] at hkept
          cases hkept
        rw [Dict.get?_set_of_ne _ _ hne]
        exact hkept
      · exact Dict.get?_set_self _ _ _
    · intro key' id hid
      obtain ⟨a, ha, hakey, hsettled⟩ := h.proven key' id hid
      exact ⟨a, hold id a ha, hakey, hsettled⟩
    · intro id a ha hsettled
      rcases hcases id a ha with ha | ⟨-, rfl⟩
      · exact h.listed id a ha hsettled
      · exact absurd hsettled (hqueued _)
    · intro key' id hid
      have hkept := h.sentKept key' id hid
      have hne : key' ≠ key := by
        intro heq
        rw [heq, hget] at hkept
        cases hkept
      rw [Dict.get?_set_of_ne _ _ hne]
      exact hkept

theorem inv_advance {n : ℕ} {w w' : World} {id : ℕ} {f : Attempt → Option (Attempt × List Notice)} (h : Inv n w)
    (hf : ∀ a b notices, a.Sound → f a = some (b, notices) →
      ¬ a.Settled ∧ b.Sound ∧ b.key = a.key ∧ ¬ b.Settled)
    (hadvance : advance w id f = some w') : Inv n w' := by
  simp only [advance, Option.bind_eq_bind, Option.bind_eq_some_iff] at hadvance
  obtain ⟨a, ha, ⟨b, notices⟩, hb, hw⟩ := hadvance
  cases hw
  obtain ⟨hopen, hsound, hkey, hopen'⟩ := hf a b notices (h.sound id a ha) hb
  have hget := Slots.get?_set ha b
  have hold : ∀ {value : ReceiptValue}, ¬ a.SettledAs value := fun hs => hopen hs.settled
  have hnew : ∀ {value : ReceiptValue}, ¬ b.SettledAs value := fun hs => hopen' hs.settled
  refine ⟨?_, ?_, ?_, ?_, ?_, h.sentKeys, h.sentKept, h.windows⟩
  · intro j c hc
    rw [hget] at hc
    split at hc
    · cases hc
      exact hsound
    · exact h.sound j c hc
  · intro key j hj
    obtain ⟨c, hc, hckey, hsettled⟩ := h.mapped key j hj
    by_cases hid : j = id
    · subst hid
      obtain rfl : a = c := Option.mem_unique ha hc
      exact ⟨b, by rw [hget, if_pos rfl], hkey.trans hckey, hnew⟩
    · exact ⟨c, by rw [hget, if_neg hid, hc], hckey, hsettled⟩
  · intro j c hc hnotSent hsent
    rw [hget] at hc
    split at hc
    · rename_i hid
      cases hc
      rw [hid, hkey]
      exact h.kept id a ha hold hold
    · exact h.kept j c hc hnotSent hsent
  · intro key j hj
    obtain ⟨c, hc, hckey, hsettled⟩ := h.proven key j hj
    have hid : j ≠ id := by
      rintro rfl
      obtain rfl : a = c := Option.mem_unique ha hc
      exact hold hsettled
    exact ⟨c, by rw [hget, if_neg hid, hc], hckey, hsettled⟩
  · intro j c hc hsettled
    rw [hget] at hc
    split at hc
    · cases hc
      exact absurd hsettled hnew
    · exact h.listed j c hc hsettled

theorem nodup_windows_concat {α : Type*} {n : ℕ} {l : List α} {x : α}
    (h : ∀ t, t <:+: l → t.length ≤ n + 1 → t.Nodup) (hx : x ∉ recent n l) :
    ∀ t, t <:+: l ++ [x] → t.length ≤ n + 1 → t.Nodup := by
  intro t ht hlength
  rcases infix_concat_iff.mp ht with hsuffix | hinfix
  · rcases suffix_concat_iff.mp hsuffix with rfl | ⟨s, rfl, hs⟩
    · exact nodup_nil
    · simp only [length_append, length_singleton, Nat.add_le_add_iff_right] at hlength
      have hshort : s.length ≤ (recent n l).length := by
        have := hs.length_le
        simp only [recent, length_drop]
        omega
      have hrecent : s <:+ recent n l := suffix_of_suffix_length_le hs (drop_suffix _ _) hshort
      rw [nodup_append]
      refine ⟨h s hs.isInfix (Nat.le_succ_of_le hlength), nodup_singleton x, ?_⟩
      intro y hy z hz
      obtain rfl := mem_singleton.mp hz
      rintro rfl
      exact hx (hrecent.subset hy)
  · exact h t hinfix hlength

section Settling

variable {n : ℕ} {w : World} {id : ℕ} {a : Attempt} {result : Except Thrown DeliveryReceipt}

section
variable (h : Inv n w) (ha : w.attempts[id]? = some a) (hphase : a.phase = .returned result)
include h ha hphase

lemma Inv.own : w.reconciliation.attempts.get? a.key = some id := by
  have hopen : ∀ value, ¬ a.SettledAs value := by
    rintro value ⟨r, hsettled, -⟩
    rw [hphase] at hsettled
    cases hsettled
  exact h.kept id a ha (hopen _) (hopen _)

lemma Inv.not_proven (key : String) : (key, id) ∉ w.sentOrder := by
  intro hmem
  obtain ⟨c, hc, -, r, hsettled, -⟩ := h.proven key id hmem
  obtain rfl : a = c := Option.mem_unique ha hc
  rw [hphase] at hsettled
  cases hsettled

lemma Inv.not_sent : a.key ∉ w.reconciliation.sent := by
  rw [h.sentKeys]
  intro hmem
  obtain ⟨⟨key, j⟩, hj, hkey⟩ := mem_map.mp hmem
  obtain rfl : key = a.key := hkey
  have hkept := h.sentKept _ _ hj
  rw [h.own ha hphase] at hkept
  cases hkept
  exact h.not_proven ha hphase _ (mem_of_mem_drop hj)

lemma Inv.sound_set (j : ℕ) (c : Attempt) (hc : (w.attempts.set id (a.settledWith result))[j]? = some c) : c.Sound := by
  rw [Slots.get?_set ha] at hc
  split at hc
  · cases hc
    exact Attempt.sound_settledWith (h.sound id a ha) hphase
  · exact h.sound j c hc

lemma Inv.proven_set (key : String) (j : ℕ) (hj : (key, j) ∈ w.sentOrder) :
    ∃ c, (w.attempts.set id (a.settledWith result))[j]? = some c ∧ c.key = key ∧ c.SettledAs .sent := by
  obtain ⟨c, hc, hckey, hsettled⟩ := h.proven key j hj
  have hid : j ≠ id := by
    rintro rfl
    exact h.not_proven ha hphase key hj
  exact ⟨c, by rw [Slots.get?_set ha, if_neg hid, hc], hckey, hsettled⟩

end

section
variable (h : Inv n w) (ha : w.attempts[id]? = some a)
include h ha

lemma Inv.listed_set (hsent : ¬ (a.settledWith result).SettledAs .sent) (j : ℕ) (c : Attempt)
    (hc : (w.attempts.set id (a.settledWith result))[j]? = some c) (hsettled : c.SettledAs .sent) :
    (c.key, j) ∈ w.sentOrder := by
  rw [Slots.get?_set ha] at hc
  split at hc
  · cases hc
    exact absurd hsettled hsent
  · exact h.listed j c hc hsettled

lemma Inv.mapped_set (hnotSent : ¬ (a.settledWith result).SettledAs .notSent) (key : String) (j : ℕ)
    (hj : w.reconciliation.attempts.get? key = some j) :
    ∃ c, (w.attempts.set id (a.settledWith result))[j]? = some c ∧ c.key = key ∧ ¬ c.SettledAs .notSent := by
  obtain ⟨c, hc, hckey, hsettled⟩ := h.mapped key j hj
  by_cases hid : j = id
  · subst hid
    obtain rfl : a = c := Option.mem_unique ha hc
    exact ⟨a.settledWith result, by rw [Slots.get?_set ha, if_pos rfl], hckey, hnotSent⟩
  · exact ⟨c, by rw [Slots.get?_set ha, if_neg hid, hc], hckey, hsettled⟩

end

def World.full (n : ℕ) (w : World) (key : String) (id : ℕ) : List (String × ℕ) :=
  recent n w.sentOrder ++ [(key, id)]

/-- The keys `retainSent` forgets. -/
def World.evicted (n : ℕ) (w : World) (key : String) (id : ℕ) : List String :=
  ((w.full n key id).map Prod.fst).take ((w.full n key id).length - n)

lemma recent_concat_eq (n : ℕ) (w : World) (key : String) (id : ℕ) :
    recent n (w.sentOrder ++ [(key, id)]) = (w.full n key id).drop ((w.full n key id).length - n) := by
  rw [← recent_append_singleton]
  rfl

section
variable (h : Inv n w) (ha : w.attempts[id]? = some a) (hphase : a.phase = .returned result)
include h ha hphase

lemma Inv.retainSent : w.reconciliation.retainSent n a.key =
      ⟨(w.evicted n a.key id).foldl Dict.erase w.reconciliation.attempts,
        (recent n (w.sentOrder ++ [(a.key, id)])).map Prod.fst⟩ := by
  have hkeys : (recent n w.sentOrder).map Prod.fst ++ [a.key] = (w.full n a.key id).map Prod.fst := by
    simp [World.full]
  have hrecent : recent n ((w.full n a.key id).map Prod.fst) =
      (recent n (w.sentOrder ++ [(a.key, id)])).map Prod.fst := by
    rw [recent_map, World.full, recent_append_singleton]
  have hsent : (if a.key ∈ w.reconciliation.sent then w.reconciliation.sent
      else w.reconciliation.sent ++ [a.key]) = (w.full n a.key id).map Prod.fst := by
    rw [if_neg (h.not_sent ha hphase), h.sentKeys, hkeys]
  simp only [Reconciliation.retainSent, hsent, evict_eq, hrecent, length_map, World.evicted]

lemma Inv.windows_concat : ∀ l, l <:+: (w.sentOrder ++ [(a.key, id)]).map Prod.fst → l.length ≤ n + 1 → l.Nodup := by
  rw [map_append, map_singleton]
  apply nodup_windows_concat h.windows
  rw [recent_map, ← h.sentKeys]
  exact h.not_sent ha hphase

lemma Inv.full_nodup : ((w.full n a.key id).map Prod.fst).Nodup := by
  apply h.windows_concat ha hphase
  · apply List.IsInfix.map
    refine ⟨w.sentOrder.take (w.sentOrder.length - n), [], ?_⟩
    rw [append_nil, World.full, recent, ← append_assoc, take_append_drop]
  · have := length_recent n w.sentOrder
    simp only [World.full, length_map, length_append, length_singleton]
    omega

theorem Inv.evicted_settled {j : ℕ} {c : Attempt} (hkey : c.key ∈ w.evicted n a.key id) (hc : w.attempts[j]? = some c)
    (hj : w.reconciliation.attempts.get? c.key = some j) : j = id ∨ c.SettledAs .sent := by
  obtain ⟨⟨key, i⟩, hi, hfst⟩ := mem_map.mp (mem_of_mem_take hkey)
  obtain rfl : key = c.key := hfst
  rcases mem_append.mp hi with hi | hi
  · have hkept := h.sentKept _ _ hi
    rw [hj] at hkept
    cases hkept
    obtain ⟨d, hd, -, hsettled⟩ := h.proven _ _ (mem_of_mem_drop hi)
    obtain rfl : c = d := Option.mem_unique hc hd
    exact .inr hsettled
  · obtain ⟨hkey', rfl⟩ := Prod.mk.inj (mem_singleton.mp hi)
    rw [hkey', h.own ha hphase] at hj
    exact .inl (Option.some.inj hj).symm

end

lemma not_settledAs {receipt : DeliveryReceipt} {value other : ReceiptValue} (hvalue : receipt.value = value)
    (hne : value ≠ other) : ¬ (a.settledWith (.ok receipt)).SettledAs other := by
  rw [Attempt.settledAs_settledWith]
  rintro ⟨r, hr, rfl⟩
  cases hr
  exact hne hvalue.symm

section
variable {receipt : DeliveryReceipt} (h : Inv n w) (ha : w.attempts[id]? = some a)
  (hphase : a.phase = .returned (.ok receipt))
include h ha hphase

lemma inv_settle_sent (hvalue : receipt.value = .sent) :
    Inv n { w with
      attempts := w.attempts.set id (a.settledWith (.ok receipt))
      reconciliation := w.reconciliation.retainSent n a.key
      sentOrder := w.sentOrder ++ [(a.key, id)] } := by
  have hget := Slots.get?_set ha (a.settledWith (.ok receipt))
  have hsent : (a.settledWith (.ok receipt)).SettledAs .sent := Attempt.settledAs_settledWith.mpr ⟨_, rfl, hvalue⟩
  have hnotSent : ¬ (a.settledWith (.ok receipt)).SettledAs .notSent := not_settledAs hvalue nofun
  refine ⟨h.sound_set ha hphase, ?_, ?_, ?_, ?_, ?_, ?_, h.windows_concat ha hphase⟩
  · intro key j hj
    simp only [h.retainSent ha hphase, get?_foldl_erase] at hj
    split at hj
    · cases hj
    · exact h.mapped_set ha hnotSent key j hj
  · intro j c hc hcNotSent hcSent
    rw [hget] at hc
    split at hc
    · cases hc
      exact absurd hsent hcSent
    · rename_i hid
      have hmapped := h.kept j c hc hcNotSent hcSent
      have hstays : c.key ∉ w.evicted n a.key id := by
        intro hmem
        rcases h.evicted_settled ha hphase hmem hc hmapped with hj | hj
        · exact hid hj
        · exact hcSent hj
      simp only [h.retainSent ha hphase, get?_foldl_erase, if_neg hstays, hmapped]
  · intro key j hj
    rcases mem_append.mp hj with hold | hnew
    · exact h.proven_set ha hphase key j hold
    · obtain ⟨rfl, rfl⟩ := Prod.mk.inj (mem_singleton.mp hnew)
      exact ⟨a.settledWith (.ok receipt), by rw [hget, if_pos rfl], rfl, hsent⟩
  · intro j c hc hsettled
    rw [hget] at hc
    split at hc
    · rename_i hid
      cases hc
      rw [hid]
      exact mem_append_right _ (mem_singleton.mpr rfl)
    · exact mem_append_left _ (h.listed j c hc hsettled)
  · simp only [h.retainSent ha hphase]
  · intro key j hj
    rw [recent_concat_eq] at hj
    have hstays : key ∉ w.evicted n a.key id := by
      intro hmem
      have hdrop : key ∈ ((w.full n a.key id).map Prod.fst).drop ((w.full n a.key id).length - n) := by
        rw [← map_drop]
        exact mem_map.mpr ⟨_, hj, rfl⟩
      exact disjoint_take_drop (h.full_nodup ha hphase) (Nat.le_refl _) hmem hdrop
    simp only [h.retainSent ha hphase, get?_foldl_erase, if_neg hstays]
    rcases mem_append.mp (mem_of_mem_drop hj) with hj | hj
    · exact h.sentKept key j hj
    · obtain ⟨rfl, rfl⟩ := Prod.mk.inj (mem_singleton.mp hj)
      exact h.own ha hphase

lemma inv_settle_notSent (hvalue : receipt.value = .notSent) :
    Inv n { w with
      attempts := w.attempts.set id (a.settledWith (.ok receipt))
      reconciliation := { w.reconciliation with attempts := w.reconciliation.attempts.erase a.key } } := by
  have hget := Slots.get?_set ha (a.settledWith (.ok receipt))
  have hown := h.own ha hphase
  have hnotSent : (a.settledWith (.ok receipt)).SettledAs .notSent :=
    Attempt.settledAs_settledWith.mpr ⟨_, rfl, hvalue⟩
  have hsent : ¬ (a.settledWith (.ok receipt)).SettledAs .sent := not_settledAs hvalue nofun
  have hother : ∀ {key : String} {j : ℕ}, j ≠ id → w.reconciliation.attempts.get? key = some j → key ≠ a.key := by
    rintro key j hid hj rfl
    rw [hown] at hj
    exact hid (Option.some.inj hj).symm
  refine ⟨h.sound_set ha hphase, ?_, ?_, h.proven_set ha hphase, h.listed_set ha hsent, h.sentKeys, ?_, h.windows⟩
  · intro key j hj
    simp only [Dict.get?_erase] at hj
    split at hj
    · cases hj
    · rename_i hne
      obtain ⟨c, hc, hckey, hsettled⟩ := h.mapped key j hj
      have hid : j ≠ id := by
        rintro rfl
        obtain rfl : a = c := Option.mem_unique ha hc
        exact hne hckey.symm
      exact ⟨c, by rw [hget, if_neg hid, hc], hckey, hsettled⟩
  · intro j c hc hcNotSent hcSent
    rw [hget] at hc
    split at hc
    · cases hc
      exact absurd hnotSent hcNotSent
    · rename_i hid
      have hmapped := h.kept j c hc hcNotSent hcSent
      simp only [Dict.get?_erase, if_neg (hother hid hmapped), hmapped]
  · intro key j hj
    have hid : j ≠ id := by
      rintro rfl
      exact h.not_proven ha hphase key (mem_of_mem_drop hj)
    have hkept := h.sentKept key j hj
    simp only [Dict.get?_erase, if_neg (hother hid hkept), hkept]

end

theorem inv_settle_kept (h : Inv n w) (ha : w.attempts[id]? = some a) (hphase : a.phase = .returned result)
    (hsent : ¬ (a.settledWith result).SettledAs .sent) (hnotSent : ¬ (a.settledWith result).SettledAs .notSent) :
    Inv n { w with attempts := w.attempts.set id (a.settledWith result) } := by
  refine ⟨h.sound_set ha hphase, h.mapped_set ha hnotSent, ?_, h.proven_set ha hphase, h.listed_set ha hsent, h.sentKeys,
    h.sentKept, h.windows⟩
  intro j c hc hcNotSent hcSent
  rw [Slots.get?_set ha] at hc
  split at hc
  · rename_i hid
    have hcSettled : c = a.settledWith result := (Option.some.inj hc).symm
    have hown := h.own ha hphase
    rw [hid, hcSettled]
    exact hown
  · exact h.kept j c hc hcNotSent hcSent

end Settling

lemma inv_settle {n : ℕ} {w w' : World} {id : ℕ} (h : Inv n w) (hsettle : settle n w id = some w') : Inv n w' := by
  unfold settle at hsettle
  cases ha : w.attempts[id]? with
  | none => simp [ha] at hsettle
  | some a =>
    cases hphase : a.phase with
    | returned result =>
      simp only [ha, hphase] at hsettle
      cases result with
      | error thrown =>
        cases hsettle
        have hnone : ∀ value, ¬ (a.settledWith (.error thrown)).SettledAs value := by
          intro value hs
          obtain ⟨r, hr, -⟩ := Attempt.settledAs_settledWith.mp hs
          cases hr
        exact inv_settle_kept h ha hphase (hnone _) (hnone _)
      | ok receipt =>
        cases hvalue : receipt.value with
        | notSent =>
          simp only [hvalue] at hsettle
          cases hsettle
          exact inv_settle_notSent h ha hphase hvalue
        | sent =>
          simp only [hvalue] at hsettle
          cases hsettle
          exact inv_settle_sent h ha hphase hvalue
        | unknown =>
          simp only [hvalue] at hsettle
          cases hsettle
          have hother : ∀ value, value ≠ .unknown → ¬ (a.settledWith (.ok receipt)).SettledAs value := by
            intro value hne hs
            obtain ⟨r, hr, hrv⟩ := Attempt.settledAs_settledWith.mp hs
            cases hr
            exact hne (hrv.symm.trans hvalue)
          exact inv_settle_kept h ha hphase (hother _ (by simp)) (hother _ (by simp))
    | _ => simp [ha, hphase] at hsettle

lemma inv_step {n : ℕ} {w w' : World} {event : Event} (h : Inv n w) (hstep : step n w event = some w') :
    Inv n w' := by
  cases event with
  | call key payload surface =>
    cases hstep
    exact inv_deliverKeyed h key payload surface
  | begin id =>
    refine inv_advance h ?_ hstep
    intro a b notices ha hb
    obtain ⟨hsound, hkey, hopen⟩ := Attempt.sound_begin ha hb
    exact ⟨Attempt.not_settled_of_begin hb, hsound, hkey, hopen⟩
  | answer id outcome =>
    refine inv_advance h ?_ hstep
    intro a b notices ha hb
    obtain ⟨hsound, hkey, hopen⟩ := Attempt.sound_answer ha hb
    exact ⟨Attempt.not_settled_of_answer hb, hsound, hkey, hopen⟩
  | settle id => exact inv_settle h hstep

/-- The other keys whose send was proven behind the one of this attempt. -/
def World.otherKeysSince (w : World) (key : String) (id : ℕ) : List String :=
  ((((w.sentOrder.dropWhile (·.2 ≠ id)).drop 1).map Prod.fst).filter (· ≠ key)).dedup

theorem Inv.retention_le {n : ℕ} {w : World} (h : Inv n w) {key : String} {id : ℕ}
    (hlisted : (key, id) ∈ w.sentOrder) (hold : (key, id) ∉ recent n w.sentOrder) :
    n ≤ (w.otherKeysSince key id).length := by
  have hsplit : w.sentOrder.takeWhile (·.2 ≠ id) ++ w.sentOrder.dropWhile (·.2 ≠ id) = w.sentOrder :=
    takeWhile_append_dropWhile
  have hbehind : (key, id) ∈ w.sentOrder.dropWhile (·.2 ≠ id) := by
    have hmem := hlisted
    rw [← hsplit] at hmem
    rcases mem_append.mp hmem with hbefore | hbehind
    · have hall : (w.sentOrder.takeWhile (·.2 ≠ id)).all (·.2 ≠ id) = true := all_takeWhile
      have hne := all_eq_true.mp hall _ hbefore
      simp at hne
    · exact hbehind
  unfold World.otherKeysSince
  cases hdrop : w.sentOrder.dropWhile (·.2 ≠ id) with
  | nil =>
    rw [hdrop] at hbehind
    cases hbehind
  | cons first later =>
    have hfirst : first.2 = id := by
      have hhead := head?_dropWhile_not (·.2 ≠ id) w.sentOrder
      rw [hdrop] at hhead
      simpa using hhead
    -- an attempt is under one key only
    have hkey : first = (key, id) := by
      have hmem : (first.1, id) ∈ w.sentOrder := by
        rw [← hsplit, hdrop, ← hfirst]
        exact mem_append_right _ mem_cons_self
      obtain ⟨a, ha, hakey, -⟩ := h.proven first.1 id hmem
      obtain ⟨b, hb, hbkey, -⟩ := h.proven key id hlisted
      obtain rfl : a = b := Option.mem_unique ha hb
      exact Prod.ext (hakey.symm.trans hbkey) hfirst
    subst hkey
    have hsplit' : w.sentOrder = w.sentOrder.takeWhile (·.2 ≠ id) ++ (key, id) :: later := by
      rw [← hdrop, hsplit]
    have hlong : n ≤ later.length := by
      by_contra hshort
      apply hold
      have hle : w.sentOrder.length - n ≤ (w.sentOrder.takeWhile (·.2 ≠ id)).length := by
        have := congrArg List.length hsplit'
        simp only [length_append, length_cons] at this
        omega
      rw [recent]
      nth_rewrite 2 [hsplit']
      rw [drop_append_of_le_length hle]
      exact mem_append_right _ mem_cons_self
    have hwindow : (((key, id) :: later.take n).map Prod.fst).Nodup := by
      apply h.windows
      · apply List.IsInfix.map
        refine ⟨w.sentOrder.takeWhile (·.2 ≠ id), later.drop n, ?_⟩
        rw [append_assoc, cons_append, take_append_drop]
        exact hsplit'.symm
      · simp only [map_cons, length_cons, length_map, length_take]
        omega
    rw [map_cons, nodup_cons] at hwindow
    have hsubset : (later.take n).map Prod.fst ⊆ ((later.map Prod.fst).filter (· ≠ key)).dedup := by
      intro other hother
      rw [mem_dedup, mem_filter]
      refine ⟨map_subset _ (take_subset n later) hother, ?_⟩
      simp only [ne_eq, decide_eq_true_eq]
      rintro rfl
      exact hwindow.1 hother
    have hlength := (subperm_of_subset hwindow.2 hsubset).length_le
    rw [length_map, length_take, Nat.min_eq_left hlong] at hlength
    simpa using hlength

/-- What the custody of physical sends promises at a state: a key has one send in flight; an attempt makes
each call of its payload at most once and in order; `not_sent` means that nothing was delivered; and a call
under a key either finds an attempt's promise, or that attempt is proven to have delivered nothing, or it was
proven sent before as many other keys as the retention holds. -/
structure Custody (n : ℕ) (w : World) : Prop where
  single : ∀ (i j : ℕ) (a b : Attempt), w.attempts[i]? = some a → w.attempts[j]? = some b → a.key = b.key →
    ¬ a.Settled → ¬ b.Settled → i = j
  once : ∀ (id : ℕ) (a : Attempt), w.attempts[id]? = some a → a.sends <+: a.planned
  evidence : ∀ (id : ℕ) (a : Attempt), w.attempts[id]? = some a → a.SettledAs .notSent → a.DeliveredNothing
  call : ∀ (id : ℕ) (a : Attempt) payload surface, w.attempts[id]? = some a →
    deliverKeyed w a.key payload surface = (w, id) ∨ a.SettledAs .notSent ∨
      (a.SettledAs .sent ∧ n ≤ (w.otherKeysSince a.key id).length)

lemma Inv.custody {n : ℕ} {w : World} (h : Inv n w) : Custody n w where
  single := by
    intro i j a b ha hb hkey haOpen hbOpen
    have hi := h.kept i a ha (fun hs => haOpen hs.settled) (fun hs => haOpen hs.settled)
    have hj := h.kept j b hb (fun hs => hbOpen hs.settled) (fun hs => hbOpen hs.settled)
    rw [hkey, hj] at hi
    exact (Option.some.inj hi).symm
  once := fun id a ha => (h.sound id a ha).sends_planned
  evidence := by
    intro id a ha hsettled
    obtain ⟨receipt, hphase, hvalue⟩ := hsettled
    have hsound := h.sound id a ha
    unfold Attempt.Sound at hsound
    rw [hphase] at hsound
    exact hsound.2 receipt rfl hvalue
  call := by
    intro id a payload surface ha
    have hfound : w.reconciliation.attempts.get? a.key = some id → deliverKeyed w a.key payload surface = (w, id) := by
      intro hget
      rw [deliverKeyed, hget]
    by_cases hnotSent : a.SettledAs .notSent
    · exact .inr (.inl hnotSent)
    · by_cases hsent : a.SettledAs .sent
      · have hlisted := h.listed id a ha hsent
        by_cases hrecent : (a.key, id) ∈ recent n w.sentOrder
        · exact .inl (hfound (h.sentKept _ _ hrecent))
        · exact .inr (.inr ⟨hsent, h.retention_le hlisted hrecent⟩)
      · exact .inl (hfound (h.kept id a ha hnotSent hsent))

theorem settled_stays {n : ℕ} {w w' : World} {event : Event} (hstep : step n w event = some w') {id : ℕ}
    {a : Attempt} (ha : w.attempts[id]? = some a) (hsettled : a.Settled) : w'.attempts[id]? = some a := by
  have hadvance : ∀ {j : ℕ} {f : Attempt → Option (Attempt × List Notice)},
      (∀ c b, f c = some b → ¬ c.Settled) → advance w j f = some w' → w'.attempts[id]? = some a := by
    intro j f hf hadvance
    simp only [advance, Option.bind_eq_bind, Option.bind_eq_some_iff] at hadvance
    obtain ⟨c, hc, ⟨b, notices⟩, hb, hw⟩ := hadvance
    cases hw
    have hid : id ≠ j := by
      rintro rfl
      obtain rfl : a = c := Option.mem_unique ha hc
      exact hf a _ hb hsettled
    simp only [Slots.get?_set hc, if_neg hid, ha]
  cases event with
  | call key payload surface =>
    cases hstep
    unfold deliverKeyed
    split
    · exact ha
    · exact Slots.get?_append ha _
  | begin j => exact hadvance (fun c b hb => Attempt.not_settled_of_begin hb) hstep
  | answer j outcome => exact hadvance (fun c b hb => Attempt.not_settled_of_answer hb) hstep
  | settle j =>
    simp only [step, settle] at hstep
    split at hstep
    · rename_i c hc
      split at hstep
      · rename_i result hphase
        have hid : id ≠ j := by
          rintro rfl
          obtain rfl : a = c := Option.mem_unique ha hc
          obtain ⟨r, hr⟩ := hsettled
          rw [hphase] at hr
          cases hr
        have hget : (w.attempts.set j (c.settledWith result))[id]? = some a := by
          rw [Slots.get?_set hc, if_neg hid, ha]
        split at hstep
        · cases hstep
          exact hget
        · split at hstep <;> obtain rfl := Option.some.inj hstep <;> exact hget
      · cases hstep
    · cases hstep

/-- Physical delivery custody holds after every interleaving of calls, chunk outcomes and settlements, and
what has settled never changes. -/
theorem physical_delivery_custody {n : ℕ} {trace : List (World × Event)} {w : World}
    (run : Transition.Run (fun a event b => step n a event = some b) World.start trace w) :
    Custody n w ∧ ∀ (w' : World) (trace' : List (World × Event)),
      Transition.Run (fun a event b => step n a event = some b) w trace' w' →
        ∀ (id : ℕ) (a : Attempt), w.attempts[id]? = some a → a.Settled → w'.attempts[id]? = some a := by
  have hinv : Inv n w := run.preserves (inv_start n) fun _ _ _ hinv hstep => inv_step hinv hstep
  refine ⟨hinv.custody, ?_⟩
  intro w' trace' run' id a ha hsettled
  exact run'.preserves (P := fun v => v.attempts[id]? = some a) ha fun _ _ _ hbefore hstep =>
    settled_stays hstep hbefore hsettled

section CustodySample

def plainSurface : Surface where
  renderMarkdown := id
  messageLimit := none
  chunkMarkdown := fun text _ => .ok [text]
  media := none
  resolve := none
  reacts := false
  isRejected := fun _ => false

def refusedThenSent : List Event :=
  [.call "k" (.message [.text "hi"]) plainSurface, .begin 0,
    .answer 0 (.threw (.error ⟨false, some "ECONNREFUSED", "connection refused"⟩)), .settle 0,
    .call "k" (.message [.text "hi"]) plainSurface, .begin 1, .answer 1 (.ack (some "m")), .settle 1]

theorem physical_delivery_custody_refused : ∃ w, refusedThenSent.foldlM (step 1) World.start = some w ∧
    w.attempts.map (·.outcomes) = [[.threw (.error ⟨false, some "ECONNREFUSED", "connection refused"⟩)],
      [.ack (some "m")]] ∧ Custody 1 w := by
  have hrun : (refusedThenSent.foldlM (step 1) World.start).map (fun w => w.attempts.map (·.outcomes)) =
      some [[.threw (.error ⟨false, some "ECONNREFUSED", "connection refused"⟩)], [.ack (some "m")]] := by
    decide
  obtain ⟨w, hw, houtcomes⟩ := Option.map_eq_some_iff.mp hrun
  obtain ⟨trace, -, run⟩ := Transition.Run.ofLabels hw
  exact ⟨w, hw, houtcomes, (physical_delivery_custody run).1⟩

end CustodySample

end Deliver
end OpenOmni

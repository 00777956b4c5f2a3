import OpenOmni.Session.Generations

/-! Runs of the generation registry: when a scope closes, what a capture holds, and which generation is current. -/
namespace OpenOmni
namespace Generations
open List
open Option (elim_some getD_none map_eq_some_iff)

open Registry

variable {r r' : Registry} {g : ℕ} {e : Entry} {c : Closing}

@[simp] theorem get?_put (g : ℕ) (e : Entry) (k : ℕ) :
    (r.put g e).entries.get? k = if k = g then some e else r.entries.get? k := Dict.get?_set _ _ _ _

lemma scopeCloses_eq (h : r.entries.get? g = some e) : r.scopeCloses g = e.scopeCloses := by
  rw [Registry.scopeCloses, h, elim_some]

lemma owners_eq (h : r.entries.get? g = some e) : r.owners g = e.owners := by
  rw [Registry.owners, h, elim_some]

lemma scopeCloses_put (g : ℕ) (e : Entry) (k : ℕ) :
    (r.put g e).scopeCloses k = if k = g then e.scopeCloses else r.scopeCloses k := by
  unfold Registry.scopeCloses
  rw [get?_put]
  split <;> rfl

lemma owners_put (g : ℕ) (e : Entry) (k : ℕ) : (r.put g e).owners k = if k = g then e.owners else r.owners k := by
  unfold Registry.owners
  rw [get?_put]
  split <;> rfl

/-- A generation that may be closed: another is current, or the registry stops. -/
def Closable (r : Registry) (g : ℕ) : Prop := g ≠ r.current ∨ r.stopping = true

/-- A scope is closed once and never again, and what retires may be closed. -/
structure EntryOk (r : Registry) (g : ℕ) (e : Entry) : Prop where
  once : e.scopeCloses = if e.closed then 1 else 0
  retired : e.retired = true → Closable r g

def TaskOk (r : Registry) : Task → Prop
  | .capturing bundle | .configuring bundle => r.entries.get? bundle.generation = none
  | .committing candidate => r.entries.get? candidate.bundle.generation = none ∧ candidate = acquire candidate.bundle
  | .retiring _ previous => previous.closing = true
  | .draining _ _ => r.stopping = true

def Retired (r : Registry) (g : ℕ) : Prop := ∃ e, r.entries.get? g = some e ∧ e.retired = true

structure Inv (r : Registry) : Prop where
  entry : ∀ g e, r.entries.get? g = some e → EntryOk r g e
  holder : ∀ task, r.holder = some task → TaskOk r task
  closers : ∀ c ∈ r.closers, Retired r c.generation
  finalizer : r.finalizer ≠ none → r.stopping = true
  current : r.entries.get? r.current ≠ none

lemma Inv.retired (h : Inv r) (hg : Retired r g) : Closable r g := by
  obtain ⟨e, he, hretired⟩ := hg
  exact (h.entry g e he).retired hretired

/-- A step on the entries that selects none: a scope closes only where it may. -/
structure Moves (r r' : Registry) : Prop where
  current : r'.current = r.current
  stopping : r'.stopping = r.stopping
  holder : r'.holder = r.holder
  finalizer : r'.finalizer = r.finalizer
  absent : ∀ g, r'.entries.get? g = none ↔ r.entries.get? g = none
  retired : ∀ g, Retired r g → Retired r' g
  entry : ∀ g e, r'.entries.get? g = some e → EntryOk r g e
  closers : ∀ c ∈ r'.closers, c ∈ r.closers ∨ Retired r' c.generation
  closes : ∀ g, r.scopeCloses g < r'.scopeCloses g → r'.owners g = [] ∧ Closable r g

lemma Moves.closable (h : Moves r r') : Closable r' g ↔ Closable r g := by
  rw [Closable, Closable, h.current, h.stopping]

lemma EntryOk.congr (h : EntryOk r g e) (hclosable : Closable r' g ↔ Closable r g) : EntryOk r' g e :=
  ⟨h.once, fun hretired => hclosable.mpr (h.retired hretired)⟩

variable {task : Task} {r'' : Registry} {s : Registry × Option Answer}

lemma TaskOk.congr (h : TaskOk r task) (habsent : ∀ g, r.entries.get? g = none → r'.entries.get? g = none)
    (hstopping : r.stopping = true → r'.stopping = true) : TaskOk r' task := by
  cases task with
  | capturing bundle | configuring bundle => exact habsent _ h
  | committing candidate => exact ⟨habsent _ h.1, h.2⟩
  | retiring configured previous => exact h
  | draining rest closing => exact hstopping h

lemma Inv.moves (h : Inv r) (hm : Moves r r') : Inv r' where
  entry g e he := (hm.entry g e he).congr hm.closable
  holder task htask := (h.holder task (hm.holder ▸ htask)).congr (fun g => (hm.absent g).mpr) fun hs => hm.stopping ▸ hs
  closers c hc := (hm.closers c hc).elim (fun hold => hm.retired _ (h.closers c hold)) id
  finalizer hf := by
    rw [hm.finalizer] at hf
    rw [hm.stopping]
    exact h.finalizer hf
  current := by
    rw [hm.current, ne_eq, hm.absent]
    exact h.current

lemma Inv.refl_moves (h : Inv r) : Moves r r where
  current := rfl
  stopping := rfl
  holder := rfl
  finalizer := rfl
  absent _ := Iff.rfl
  retired _ hg := hg
  entry := h.entry
  closers _ hc := .inl hc
  closes _ hlt := absurd hlt (Nat.lt_irrefl _)

theorem Inv.put (h : Inv r) {e' : Entry} (he : r.entries.get? g = some e) (hok : EntryOk r g e')
    (hretired : e.retired = true → e'.retired = true)
    (hcloses : e.scopeCloses < e'.scopeCloses → e'.owners = [] ∧ Closable r g) : Moves r (r.put g e') where
  current := rfl
  stopping := rfl
  holder := rfl
  finalizer := rfl
  absent k := by
    rw [get?_put]
    split
    · rename_i hk
      simp [hk, he]
    · rfl
  retired k hk := by
    obtain ⟨e₀, he₀, hr⟩ := hk
    by_cases hkg : k = g
    · subst hkg
      obtain rfl := Option.mem_unique he he₀
      exact ⟨e', by rw [get?_put, if_pos rfl], hretired hr⟩
    · exact ⟨e₀, by rw [get?_put, if_neg hkg, he₀], hr⟩
  entry k e₀ hk := by
    rw [get?_put] at hk
    split at hk
    · rename_i hkg
      cases hk
      exact hkg ▸ hok
    · exact h.entry k e₀ hk
  closers _ hc := .inl hc
  closes k hlt := by
    rw [scopeCloses_put] at hlt
    split at hlt
    · rename_i hkg
      subst hkg
      rw [scopeCloses_eq he] at hlt
      rw [owners_put, if_pos rfl]
      exact hcloses hlt
    · exact absurd hlt (Nat.lt_irrefl _)

theorem Inv.open (h : Inv r) (he : r.entries.get? g = some e) : Moves r (r.put g e.open) :=
  have hok := h.entry g e he
  h.put he ⟨hok.once, hok.retired⟩ id fun hlt => absurd hlt (Nat.lt_irrefl _)

lemma Inv.release (h : Inv r) (he : r.entries.get? g = some e) (key : ℕ) : Moves r (r.put g (e.release key)) :=
  have hok := h.entry g e he
  h.put he ⟨hok.once, hok.retired⟩ id fun hlt => absurd hlt (Nat.lt_irrefl _)

lemma Inv.close (h : Inv r) (hempty : r.owners g = []) (hg : Closable r g) : Moves r (r.close g).1 := by
  unfold Registry.close
  split
  · exact h.refl_moves
  · rename_i e he
    split
    · exact h.refl_moves
    · rename_i hclosed
      have honce : e.scopeCloses = 0 := by
        rw [(h.entry g e he).once, if_neg hclosed]
      rw [owners_eq he] at hempty
      exact h.put he ⟨by simp [Entry.close, honce], (h.entry g e he).retired⟩ id fun _ => ⟨hempty, hg⟩

lemma close_closing (hc : (r.close g).2 = some c) : c = ⟨g, true⟩ := by
  unfold Registry.close at hc
  split at hc
  · cases hc
  · split at hc
    · cases hc
    · exact (Option.some.inj hc).symm

lemma Inv.advance (h : Inv r) (hc : c.closing = true ∨ Closable r c.generation) {s : Registry × Option Closing}
    (hs : r.advance c = some s) : Moves r s.1 ∧ ∀ c', s.2 = some c' → c' = ⟨c.generation, true⟩ := by
  unfold Registry.advance at hs
  split at hs
  · cases hs
    exact ⟨h.refl_moves, fun _ hc' => nomatch hc'⟩
  · rename_i e he
    split at hs
    · cases hs
      have hok := h.entry _ e he
      have hdrop : Moves r (r.put c.generation e.drop) :=
        h.put he ⟨hok.once, hok.retired⟩ id fun hlt => absurd hlt (Nat.lt_irrefl _)
      exact ⟨hdrop, fun _ hc' => nomatch hc'⟩
    · rename_i hclosing
      split at hs
      · rename_i hempty
        cases hs
        have howners : r.owners c.generation = [] := by rw [owners_eq he, hempty]
        exact ⟨h.close howners (hc.resolve_left hclosing), fun _ hc' => close_closing hc'⟩
      · cases hs

theorem Moves.trans (h : Moves r r') (h' : Moves r' r'') (hsame : ∀ g, r'.scopeCloses g = r.scopeCloses g) :
    Moves r r'' where
  current := h'.current.trans h.current
  stopping := h'.stopping.trans h.stopping
  holder := h'.holder.trans h.holder
  finalizer := h'.finalizer.trans h.finalizer
  absent g := (h'.absent g).trans (h.absent g)
  retired g hg := h'.retired g (h.retired g hg)
  entry g e he := (h'.entry g e he).congr h.closable.symm
  closers c hc := by
    rcases h'.closers c hc with hold | hnew
    · exact (h.closers c hold).imp_right (h'.retired _)
    · exact .inr hnew
  closes g hlt := by
    rw [← hsame g] at hlt
    exact (h'.closes g hlt).imp_right h.closable.mp

lemma Inv.retire (h : Inv r) (hg : Closable r g) :
    Moves r (r.retire g).1 ∧ ∀ c, (r.retire g).2 = some c → c = ⟨g, true⟩ := by
  unfold Registry.retire
  split
  · exact ⟨h.refl_moves, fun _ hc => nomatch hc⟩
  · rename_i e he
    have hretire : Moves r (r.put g e.retire) :=
      h.put he ⟨(h.entry g e he).once, fun _ => hg⟩ (fun _ => rfl) fun hlt => absurd hlt (Nat.lt_irrefl _)
    have hsame : ∀ k, (r.put g e.retire).scopeCloses k = r.scopeCloses k := by
      intro k
      rw [scopeCloses_put]
      split
      · rename_i hk
        rw [hk, scopeCloses_eq he]
        rfl
      · rfl
    split
    · exact ⟨h.refl_moves, fun _ hc => nomatch hc⟩
    · dsimp only
      split
      · rename_i hempty
        have howners : (r.put g e.retire).owners g = [] := by rw [owners_put, if_pos rfl]; exact hempty
        have hclose := (h.moves hretire).close howners (hretire.closable.mpr hg)
        exact ⟨hretire.trans hclose hsame, fun _ hc => close_closing hc⟩
      · refine ⟨{ hretire with closers := ?_, closes := ?_ }, fun _ hc => nomatch hc⟩
        · intro c hc
          rcases mem_append.mp hc with hold | hnew
          · exact .inl hold
          · obtain rfl := mem_singleton.mp hnew
            exact .inr ⟨e.retire, by simp, rfl⟩
        · exact fun k hlt => hretire.closes k hlt

theorem retire_owned (he : r.entries.get? g = some e) (howners : e.owners ≠ []) :
    (∀ k, (r.retire g).1.scopeCloses k = r.scopeCloses k) ∧
      ∃ e', (r.retire g).1.entries.get? g = some e' ∧ e'.closed = e.closed ∧ e'.owners = e.owners := by
  unfold Registry.retire
  rw [he]
  dsimp only
  split
  · exact ⟨fun _ => rfl, e, he, rfl, rfl⟩
  · constructor
    · intro k
      change (r.put g e.retire).scopeCloses k = _
      rw [scopeCloses_put]
      split
      · rename_i hk
        rw [hk, scopeCloses_eq he]
        rfl
      · rfl
    · exact ⟨e.retire, by simp, rfl, rfl⟩

theorem own_spec (h : Inv (r.put g e.open)) (hclosed : e.closed = false) :
    Inv (r.own g e) ∧ (r.own g e).current = r.current ∧ (r.own g e).stopping = r.stopping ∧
      (r.own g e).holder = r.holder ∧ (∀ k, (r.own g e).scopeCloses k = (r.put g e.open).scopeCloses k) ∧
      ∃ e', (r.own g e).entries.get? g = some e' ∧ e'.closed = false ∧ e'.owners ≠ [] := by
  have howners : e.open.owners ≠ [] := by simp [Entry.open]
  have he : (r.put g e.open).entries.get? g = some e.open := by simp
  unfold Registry.own
  dsimp only
  split
  · rename_i hlt
    have hmoves := (h.retire (g := g) (.inl (Nat.ne_of_lt hlt))).1
    obtain ⟨hsame, e', he', hclosed', howners'⟩ := retire_owned he howners
    refine ⟨h.moves hmoves, hmoves.current, hmoves.stopping, hmoves.holder, hsame, e', he', ?_, ?_⟩
    · rw [hclosed']
      exact hclosed
    · rw [howners']
      exact howners
  · exact ⟨h, rfl, rfl, rfl, fun _ => rfl, e.open, he, hclosed, howners⟩

structure Sound (r : Registry) (event : Event) (answer : Option Answer) (r' : Registry) : Prop where
  inv : Inv r'
  closes : ∀ g, r.scopeCloses g < r'.scopeCloses g → r'.owners g = [] ∧ Closable r' g
  captured : ∀ g, answer = some (.captured g) → ∃ e, r'.entries.get? g = some e ∧ e.closed = false ∧ e.owners ≠ []
  current : r'.current = (r.configures event).getD r.current

variable {event : Event} {answer : Option Answer}

theorem Moves.sound {b : Registry} (h : Moves b r') (hbase : ∀ g, b.scopeCloses g = r.scopeCloses g)
    (hselected : b.current = (r.configures event).getD r.current) (hentries : r''.entries = r'.entries)
    (hcurrent : r''.current = r'.current) (hstopping : r'.stopping = true → r''.stopping = true) (hinv : Inv r'')
    (hanswer : ∀ g, answer ≠ some (.captured g)) : Sound r event answer r'' where
  inv := hinv
  closes g hlt := by
    have heq : r''.scopeCloses g = r'.scopeCloses g := by rw [Registry.scopeCloses, hentries]; rfl
    rw [heq, ← hbase g] at hlt
    obtain ⟨howners, hclosable⟩ := h.closes g hlt
    rw [Registry.owners, hentries]
    refine ⟨howners, ?_⟩
    rw [Closable, hcurrent, h.current]
    exact hclosable.imp_right fun hs => hstopping (h.stopping.trans hs)
  captured g hg := absurd hg (hanswer g)
  current := by rw [hcurrent, h.current, hselected]

theorem Inv.hold (h : Inv r) {task : Option Task} (htask : ∀ t, task = some t → TaskOk r t) :
    Inv { r with holder := task } :=
  ⟨fun g e he => ⟨(h.entry g e he).once, (h.entry g e he).retired⟩,
    fun t ht => (htask t ht).congr (fun _ hg => hg) id, h.closers, h.finalizer, h.current⟩

lemma Inv.sound_hold (h : Inv r) {task : Option Task} (htask : ∀ t, task = some t → TaskOk r t)
    (hevent : r.configures event = none) (hanswer : ∀ g, answer ≠ some (.captured g)) :
    Sound r event answer { r with holder := task } :=
  h.refl_moves.sound (fun _ => rfl) (by rw [hevent, getD_none]) rfl rfl id (h.hold htask) hanswer

lemma Inv.sound_refl (h : Inv r) (hevent : r.configures event = none) (hanswer : ∀ g, answer ≠ some (.captured g)) :
    Sound r event answer r :=
  h.refl_moves.sound (fun _ => rfl) (by rw [hevent, getD_none]) rfl rfl id h hanswer

lemma Inv.capture (h : Inv r) (bundle : GenerationBundle) :
    Sound r (.capture bundle) (r.capture bundle).2 (r.capture bundle).1 := by
  unfold Registry.capture
  split
  · exact h.sound_refl rfl fun _ hg => nomatch hg
  · split
    · rename_i habsent
      split
      · exact h.sound_refl rfl fun _ hg => nomatch hg
      · refine h.sound_hold ?_ rfl fun _ hg => nomatch hg
        rintro t ⟨⟩
        exact habsent
    · rename_i e he
      split
      · exact h.sound_refl rfl fun _ hg => nomatch hg
      · split
        · exact h.sound_refl rfl fun _ hg => nomatch hg
        · rename_i hadmit
          have hclosed : e.closed = false := by
            unfold Registry.admitCapture at hadmit
            split at hadmit
            · cases hadmit
            · dsimp only at hadmit
              split at hadmit
              · cases hadmit
              · split at hadmit
                · cases hadmit
                · rename_i hlive
                  rw [not_or] at hlive
                  simpa using hlive.1
          have hopen := h.open he
          obtain ⟨hinv, hcurrent, -, -, hsame, hentry⟩ := own_spec (h.moves hopen) hclosed
          refine ⟨hinv, ?_, ?_, hcurrent⟩
          · intro g hlt
            rw [hsame, scopeCloses_put] at hlt
            split at hlt
            · rename_i hg
              rw [hg, scopeCloses_eq he] at hlt
              exact absurd hlt (Nat.lt_irrefl _)
            · exact absurd hlt (Nat.lt_irrefl _)
          · rintro g ⟨⟩
            exact hentry

lemma Inv.configure (h : Inv r) (bundle : GenerationBundle) :
    Sound r (.configure bundle) (r.configure bundle).2 (r.configure bundle).1 := by
  unfold Registry.configure
  split
  · exact h.sound_refl rfl (by rintro _ ⟨⟩)
  · split
    · exact h.sound_refl rfl (by rintro _ ⟨⟩)
    · rename_i hfree
      rw [not_or] at hfree
      refine h.sound_hold ?_ rfl (by rintro _ ⟨⟩)
      rintro t ⟨⟩
      change r.entries.get? bundle.generation = none
      simpa [Dict.contains_iff] using hfree.2

theorem Inv.add (h : Inv r) (habsent : r.entries.get? g = none) (honce : e.scopeCloses = if e.closed then 1 else 0)
    (hfresh : e.retired = false) {current : ℕ} (hcurrent : current = r.current ∨ current = g) :
    Inv { r.put g e with current := current, holder := none } := by
  refine ⟨?_, (fun _ ht => nomatch ht), ?_, h.finalizer, ?_⟩
  · intro k e' he'
    change (r.put g e).entries.get? k = some e' at he'
    rw [get?_put] at he'
    split at he'
    · cases he'
      exact ⟨honce, fun hretired => nomatch hretired.symm.trans hfresh⟩
    · rename_i hk
      have hok := h.entry k e' he'
      refine ⟨hok.once, fun hretired => ?_⟩
      rcases hcurrent with rfl | rfl
      · exact hok.retired hretired
      · exact .inl hk
  · intro c hc
    obtain ⟨e', he', hretired⟩ := h.closers c hc
    have hne : c.generation ≠ g := fun heq => by
      rw [heq] at he'
      exact nomatch he'.symm.trans habsent
    refine ⟨e', ?_, hretired⟩
    change (r.put g e).entries.get? c.generation = some e'
    rw [get?_put, if_neg hne, he']
  · change (r.put g e).entries.get? current ≠ none
    rw [get?_put]
    split
    · exact Option.some_ne_none e
    · rename_i hne
      rw [hcurrent.resolve_right hne]
      exact h.current

lemma scopeCloses_add (habsent : r.entries.get? g = none) (hzero : e.scopeCloses = 0) (k : ℕ) :
    (r.put g e).scopeCloses k = r.scopeCloses k := by
  rw [scopeCloses_put]
  split
  · rename_i hk
    rw [hk, hzero, Registry.scopeCloses, habsent]
    rfl
  · rfl

section
variable (h : Inv r)
include h

theorem Inv.build (htask : r.holder = some task) (hs : r.build task = some s) :
    Sound r (.acquired true) s.2 s.1 := by
  have hok := h.holder task htask
  cases task with
  | capturing bundle =>
    cases hs
    have hnew := h.add (e := (acquire bundle).open) hok rfl rfl (.inl rfl)
    obtain ⟨hinv, hcurrent, -, -, hsame, hentry⟩ :=
      own_spec (r := { r with holder := none }) (g := bundle.generation) (e := acquire bundle) hnew rfl
    refine ⟨hinv, ?_, ?_, hcurrent⟩
    · intro g hlt
      have hzero := scopeCloses_add (e := (acquire bundle).open) hok rfl g
      rw [hsame] at hlt
      exact absurd (hzero ▸ hlt) (Nat.lt_irrefl _)
    · rintro g ⟨⟩
      exact hentry
  | configuring bundle =>
    cases hs
    refine h.sound_hold ?_ rfl fun _ hg => nomatch hg
    rintro t ⟨⟩
    exact ⟨hok, rfl⟩
  | committing candidate | retiring configured previous | draining rest closing => cases hs

lemma Inv.select {candidate : Entry} (htask : r.holder = some (.committing candidate)) :
    Sound r (.committed true) (r.select candidate).2 (r.select candidate).1 := by
  obtain ⟨habsent, hfresh⟩ := h.holder _ htask
  have hevent : r.configures (.committed true) = some candidate.bundle.generation := by
    simp [Registry.configures, htask]
  have hzero : candidate.scopeCloses = 0 := by rw [hfresh]; rfl
  have honce : candidate.scopeCloses = if candidate.closed then 1 else 0 := by rw [hfresh]; rfl
  have hlive : candidate.retired = false := by rw [hfresh]; rfl
  -- the candidate is selected before the generation it replaces retires
  have hchosen := h.add habsent honce hlive (.inr rfl)
  have hprevious : r.current ≠ candidate.bundle.generation := fun heq => h.current (heq ▸ habsent)
  obtain ⟨hmoves, hclosing⟩ := hchosen.retire (g := r.current) (.inl hprevious)
  have hselected : candidate.bundle.generation = (r.configures (.committed true)).getD r.current := by
    rw [hevent, Option.getD_some]
  have hbase := scopeCloses_add (e := candidate) habsent hzero
  unfold Registry.select
  dsimp only
  split
  · rename_i r' hr
    rw [hr] at hmoves
    exact hmoves.sound hbase hselected rfl rfl id (hchosen.moves hmoves) fun _ hg => nomatch hg
  · rename_i r' closing hr
    rw [hr] at hmoves hclosing
    refine hmoves.sound hbase hselected rfl rfl id ((hchosen.moves hmoves).hold ?_) fun _ hg => nomatch hg
    rintro t ⟨⟩
    rw [hclosing closing rfl]
    rfl

lemma Inv.drain : Sound r .drain r.drain.2 r.drain.1 := by
  have hstopped : Inv { r with stopping := true } :=
    ⟨fun g e he => ⟨(h.entry g e he).once, fun _ => .inr rfl⟩,
      fun t ht => (h.holder t ht).congr (fun _ hg => hg) fun _ => rfl, h.closers, fun _ => rfl, h.current⟩
  unfold Registry.drain
  dsimp only
  split
  · exact h.refl_moves.sound (fun _ => rfl) rfl rfl rfl (fun _ => rfl) hstopped fun _ hg => nomatch hg
  · refine h.refl_moves.sound (fun _ => rfl) rfl rfl rfl (fun _ => rfl) (hstopped.hold ?_) fun _ hg => nomatch hg
    rintro t ⟨⟩
    exact rfl

lemma Inv.proceed (htask : r.holder = some task) (hs : r.proceed task = some s) :
    Sound r .proceed s.2 s.1 := by
  have hok := h.holder task htask
  cases task with
  | capturing bundle | configuring bundle | committing candidate => cases hs
  | retiring configured closing =>
    obtain ⟨s', hs', rfl⟩ := map_eq_some_iff.mp hs
    have hmoves := (h.advance (.inl hok) hs').1
    exact hmoves.sound (fun _ => rfl) rfl rfl rfl id ((h.moves hmoves).hold fun _ ht => nomatch ht)
      fun _ hg => nomatch hg
  | draining rest closing =>
    have hdraining : ∀ {r' : Registry} (rest : List ℕ) (c : Option Closing), Moves r r' →
        Sound r .proceed none { r' with holder := some (.draining rest c) } := by
      intro r' rest c hmoves
      refine hmoves.sound (fun _ => rfl) rfl rfl rfl id ((h.moves hmoves).hold ?_) fun _ hg => nomatch hg
      rintro t ⟨⟩
      exact hmoves.stopping.trans hok
    cases closing with
    | some c =>
      obtain ⟨s', hs', rfl⟩ := map_eq_some_iff.mp hs
      exact hdraining rest none (h.advance (.inr (.inr hok)) hs').1
    | none =>
      cases rest with
      | nil =>
        cases hs
        exact h.sound_hold (fun _ ht => nomatch ht) rfl fun _ hg => nomatch hg
      | cons g rest =>
        cases hs
        exact hdraining rest _ (h.retire (.inr hok)).1

theorem Inv.withClosers {closers : List Closing} (hclosers : ∀ c ∈ closers, Retired r c.generation) :
    Inv { r with closers } :=
  ⟨fun g e he => ⟨(h.entry g e he).once, (h.entry g e he).retired⟩,
    fun t ht => (h.holder t ht).congr (fun _ hg => hg) id, hclosers, h.finalizer, h.current⟩

lemma Inv.closer {i : ℕ} (hr : r.closer i = some r') : Sound r (.closer i) none r' := by
  unfold Registry.closer at hr
  split at hr
  · cases hr
  · rename_i c hc
    obtain ⟨s, hs, rfl⟩ := map_eq_some_iff.mp hr
    have hretired := h.closers c (mem_of_getElem? hc)
    obtain ⟨hmoves, hclosing⟩ := h.advance (.inr (h.retired hretired)) hs
    have hinv := h.moves hmoves
    split
    · refine hmoves.sound (fun _ => rfl) rfl rfl rfl id (hinv.withClosers ?_) fun _ hg => nomatch hg
      exact fun c' hc' => hinv.closers c' (mem_of_mem_eraseIdx hc')
    · rename_i c' hc'
      refine hmoves.sound (fun _ => rfl) rfl rfl rfl id (hinv.withClosers ?_) fun _ hg => nomatch hg
      intro c'' hc''
      rcases mem_or_eq_of_mem_set hc'' with hold | rfl
      · exact hinv.closers c'' hold
      · rw [hclosing c'' hc']
        exact hmoves.retired _ hretired

lemma Inv.finalize (hr : r.finalize = some r') : Sound r .finalize none r' := by
  unfold Registry.finalize at hr
  split at hr
  · cases hr
  · cases hr
    have hstopped : ∀ finalizer, Inv { r with stopping := true, finalizer } := fun finalizer =>
      ⟨fun g e he => ⟨(h.entry g e he).once, fun _ => .inr rfl⟩,
        fun t ht => (h.holder t ht).congr (fun _ hg => hg) fun _ => rfl, h.closers, fun _ => rfl, h.current⟩
    exact h.refl_moves.sound (fun _ => rfl) rfl rfl rfl (fun _ => rfl) (hstopped _) fun _ hg => nomatch hg

lemma Inv.finalizeNext (hr : r.finalizeNext = some r') : Sound r .finalizer none r' := by
  unfold Registry.finalizeNext at hr
  split at hr
  · rename_i c rest hfinalizer
    obtain ⟨s, hs, rfl⟩ := map_eq_some_iff.mp hr
    have hstopping : r.stopping = true := h.finalizer (by simp [hfinalizer])
    have hmoves := (h.advance (.inr (.inr hstopping)) hs).1
    have hinv := h.moves hmoves
    have hnext : ∀ finalizer, Inv { s.1 with finalizer } := fun finalizer =>
      ⟨fun g e he => ⟨(hinv.entry g e he).once, (hinv.entry g e he).retired⟩,
        fun t ht => (hinv.holder t ht).congr (fun _ hg => hg) id, hinv.closers,
        fun _ => hmoves.stopping.trans hstopping, hinv.current⟩
    exact hmoves.sound (fun _ => rfl) rfl rfl rfl id (hnext _) fun _ hg => nomatch hg
  · cases hr

lemma Inv.step (hs : r.step event = some s) : Sound r event s.2 s.1 := by
  cases event with
  | capture bundle =>
    obtain rfl := Option.some.inj (Option.ite_none_right_eq_some.mp hs).2
    exact h.capture bundle
  | configure bundle =>
    obtain rfl := Option.some.inj (Option.ite_none_right_eq_some.mp hs).2
    exact h.configure bundle
  | drain =>
    obtain rfl := Option.some.inj (Option.ite_none_right_eq_some.mp hs).2
    exact h.drain
  | acquired ok =>
    cases ok with
    | true =>
      obtain ⟨task, htask, hbuild⟩ := Option.bind_eq_some_iff.mp hs
      exact h.build htask hbuild
    | false =>
      unfold Registry.step at hs
      dsimp only at hs
      split at hs
      · cases hs
        exact h.sound_hold (fun _ ht => nomatch ht) rfl fun _ hg => nomatch hg
      · cases hs
        exact h.sound_hold (fun _ ht => nomatch ht) rfl fun _ hg => nomatch hg
      · cases hs
  | committed ok =>
    unfold Registry.step at hs
    dsimp only at hs
    split at hs
    · rename_i candidate htask
      cases ok with
      | true =>
        cases hs
        exact h.select htask
      | false =>
        cases hs
        exact h.sound_hold (fun _ ht => nomatch ht) rfl fun _ hg => nomatch hg
    · cases hs
  | proceed =>
    obtain ⟨task, htask, hproceed⟩ := Option.bind_eq_some_iff.mp hs
    exact h.proceed htask hproceed
  | closer i =>
    obtain ⟨r', hr', rfl⟩ := map_eq_some_iff.mp hs
    exact h.closer hr'
  | finalize =>
    obtain ⟨r', hr', rfl⟩ := map_eq_some_iff.mp hs
    exact h.finalize hr'
  | finalizer =>
    obtain ⟨r', hr', rfl⟩ := map_eq_some_iff.mp hs
    exact h.finalizeNext hr'
  | retain g =>
    obtain ⟨e, he, rfl⟩ := map_eq_some_iff.mp hs
    exact (h.open he).sound (fun _ => rfl) rfl rfl rfl id (h.moves (h.open he)) fun _ hg => nomatch hg
  | release g key =>
    obtain ⟨e, he, rfl⟩ := map_eq_some_iff.mp hs
    exact (h.release he key).sound (fun _ => rfl) rfl rfl rfl id (h.moves (h.release he key)) fun _ hg => nomatch hg

end

lemma start_inv (initial : GenerationBundle) : Inv (start initial) := by
  have hentry : ∀ g e, (start initial).entries.get? g = some e → e = acquire initial := by
    intro g e he
    rw [start, Dict.get?_set] at he
    split at he
    · exact (Option.some.inj he).symm
    · cases he
  refine ⟨?_, (fun _ ht => nomatch ht), (fun _ hc => nomatch hc), fun hf => absurd rfl hf, ?_⟩
  · intro g e he
    rw [hentry g e he]
    exact ⟨rfl, fun hretired => nomatch hretired⟩
  · simp [start]

lemma lastConfigured_snoc (initial : GenerationBundle) (trace : List (Registry × Event × Option Answer)) (r : Registry)
    (label : Event × Option Answer) :
    lastConfigured initial (trace ++ [(r, label)]) = (r.configures label.1).getD (lastConfigured initial trace) := by
  unfold lastConfigured
  rw [filterMap_append]
  cases hconfigures : r.configures label.1 with
  | none | some g => simp [hconfigures]

/-- A generation that an admitted call has captured is open and owned, a scope closes once, without owners, and only
behind the current generation or in a registry that stops, and the last configured generation is current. -/
theorem generations_owned {initial : GenerationBundle} {trace : List (Registry × Event × Option Answer)}
    (run : Transition.Run Step (start initial) trace r) :
    (∀ g, r.scopeCloses g ≤ 1) ∧ r.current = lastConfigured initial trace ∧
      ∀ step ∈ trace, ∀ after, Step step.1 step.2 after →
        (∀ g, step.1.scopeCloses g < after.scopeCloses g →
          after.owners g = [] ∧ (g ≠ after.current ∨ after.stopping = true)) ∧
        ∀ g, step.2.2 = some (.captured g) →
          ∃ e, after.entries.get? g = some e ∧ e.closed = false ∧ e.owners ≠ [] := by
  have hstep : ∀ a l b, Inv a → Step a l b → Inv b := fun a l b ha hl => (ha.step hl).inv
  refine ⟨?_, ?_, ?_⟩
  · intro g
    have hinv := run.preserves (start_inv initial) hstep
    unfold Registry.scopeCloses
    cases he : r.entries.get? g with
    | none => exact Nat.zero_le 1
    | some e =>
      rw [elim_some, (hinv.entry g e he).once]
      split <;> omega
  · induction run with
    | nil => rfl
    | snoc run step ih =>
      have hsound := (run.preserves (start_inv initial) hstep).step step
      rw [hsound.current, ih, lastConfigured_snoc]
  · intro step hmem after hafter
    have hsound := (run.visits (start_inv initial) hstep step hmem).step hafter
    exact ⟨hsound.closes, hsound.captured⟩

/-- A second generation is configured under an owner of the first, whose scope closes behind the release. -/
theorem generations_owned_handover :
    ∃ trace r, Transition.Run Step (start ⟨"s", 0, ⟨0, "a"⟩⟩) trace r ∧ r.scopeCloses 0 = 1 ∧ r.current = 1 ∧
      r.current = lastConfigured ⟨"s", 0, ⟨0, "a"⟩⟩ trace ∧ ∀ g, r.scopeCloses g ≤ 1 := by
  let first : GenerationBundle := ⟨"s", 0, ⟨0, "a"⟩⟩
  let events : List Event := [.capture first, .configure ⟨"s", 1, ⟨1, "b"⟩⟩, .acquired true, .committed true,
    .release 0 0, .closer 0]
  have hplays : (events.foldlM (fun (r : Registry) event => (r.step event).map Prod.fst) (start first)).map
      (fun r => (r.scopeCloses 0, r.current)) = some (1, 1) := by decide
  obtain ⟨r, hr, hend⟩ := map_eq_some_iff.mp hplays
  obtain ⟨hscope, hcurrent⟩ := Prod.mk.inj hend
  obtain ⟨trace, -, run⟩ := Transition.Run.ofEvents hr
  have howned := generations_owned run
  exact ⟨trace, r, run, hscope, hcurrent, howned.2.1, howned.1⟩

/-- A drain closes the generation that is current. -/
theorem drain_closes_current :
    ¬ ∀ (initial : GenerationBundle) (trace : List (Registry × Event × Option Answer)) (r : Registry),
      Transition.Run Step (start initial) trace r → ∀ step ∈ trace, ∀ after, Step step.1 step.2 after →
        ∀ g, step.1.scopeCloses g < after.scopeCloses g → after.owners g = [] ∧ g ≠ after.current := by
  intro h
  let initial : GenerationBundle := ⟨"s", 0, ⟨0, "a"⟩⟩
  let drained := (start initial).drain.1
  have hdrain : Step (start initial) (.drain, none) drained := rfl
  have hretire : Step drained (.proceed, none) { (drained.retire 0).1 with
      holder := some (.draining [] (drained.retire 0).2) } := by decide
  have run := (Transition.Run.nil.snoc hdrain).snoc hretire
  have hcloses := h initial _ _ run _ (mem_append_right _ mem_cons_self) _ hretire 0 (by decide)
  exact hcloses.2 (by decide)

end Generations
end OpenOmni

import OpenOmni.Fold.Settlements

/-! The order of the results of a wave in the fold, and the parts that a result reaches. -/
namespace OpenOmni
open List

open PlainValue SessionTransition FoldCheckpoint

def Tool.Result.call (r : Tool.Result) : String × Option String := (r.toolCallId, r.toolName)

def Tool.Result.outcome (r : Tool.Result) : Bool × String := (decide (r.isError = some true), r.text)

def settleCall (result : Tool.Result) («at» : ℚ) (callID name : String) (input : PlainObject) : Option Tool.State :=
  if callID = result.toolCallId ∧ some name = result.toolName then some (settledState name input result «at») else none

lemma settleToolParts_eq (m : Message.WithParts) (result : Tool.Result) («at» : ℚ) :
    settleToolParts m result «at» = mapOpenParts (settleCall result «at») m := rfl

@[simp] theorem settledState_openInput (name : String) (input : PlainObject) (result : Tool.Result) («at» : ℚ) :
    (settledState name input result «at»).openInput = none := by
  unfold settledState
  split <;> rfl

lemma settledState_untimed_iff (name : String) (input : PlainObject) (a b : Tool.Result) (ta tb : ℚ) :
    (settledState name input a ta).untimed = (settledState name input b tb).untimed ↔ a.outcome = b.outcome := by
  unfold settledState Tool.Result.outcome
  by_cases ha : a.isError = some true <;> by_cases hb : b.isError = some true <;> simp [ha, hb, Tool.State.untimed]

lemma mapOpenPart_settled {settle settle' : String → String → PlainObject → Option Tool.State}
    {base : Message.PartBase} {callID name : String} {state : Tool.State} {input : PlainObject} {settled : Tool.State}
    (hinput : state.openInput = some input) (hsettle : settle callID name input = some settled)
    (hclosed : settled.openInput = none) :
    mapOpenPart settle' (mapOpenPart settle (.tool base callID name state)) = .tool base callID name settled := by
  simp [mapOpenPart, hinput, hsettle, hclosed]

variable {a b : Tool.Result}

lemma settlePart_comm (h : a.call = b.call → a.outcome = b.outcome) (ta tb : ℚ) (p : Message.Part) :
    (mapOpenPart (settleCall b tb) (mapOpenPart (settleCall a ta) p)).untimed =
      (mapOpenPart (settleCall a ta) (mapOpenPart (settleCall b tb) p)).untimed := by
  cases p with
  | text | reasoning | stepStart | stepFinish => rfl
  | tool base callID name state =>
    cases hinput : state.openInput with
    | none => simp [mapOpenPart, hinput]
    | some input =>
      by_cases ha : callID = a.toolCallId ∧ some name = a.toolName
      · have hsettleA : settleCall a ta callID name input = some (settledState name input a ta) := if_pos ha
        rw [mapOpenPart_settled hinput hsettleA (settledState_openInput _ _ _ _)]
        by_cases hb : callID = b.toolCallId ∧ some name = b.toolName
        · have hsettleB : settleCall b tb callID name input = some (settledState name input b tb) := if_pos hb
          have hcall : a.call = b.call := Prod.ext (ha.1.symm.trans hb.1) (ha.2.symm.trans hb.2)
          rw [mapOpenPart_settled hinput hsettleB (settledState_openInput _ _ _ _)]
          simp only [Message.Part.untimed, (settledState_untimed_iff name input a b ta tb).mpr (h hcall)]
        · have hkept : settleCall b tb callID name input = none := if_neg hb
          simp [mapOpenPart, hinput, hsettleA, hkept]
      · have hkeptA : settleCall a ta callID name input = none := if_neg ha
        have hfirst : mapOpenPart (settleCall a ta) (.tool base callID name state) = .tool base callID name state := by
          simp [mapOpenPart, hinput, hkeptA]
        rw [hfirst]
        cases hsettleB : settleCall b tb callID name input with
        | none => simp [mapOpenPart, hinput, hkeptA, hsettleB]
        | some settled =>
          have hclosed : settled.openInput = none := by
            unfold settleCall at hsettleB
            split at hsettleB
            · cases hsettleB
              exact settledState_openInput _ _ _ _
            · cases hsettleB
          rw [mapOpenPart_settled hinput hsettleB hclosed]
          simp [mapOpenPart, hinput, hsettleB]

theorem settleToolParts_comm (h : a.call = b.call → a.outcome = b.outcome) (ta tb : ℚ) (m : Message.WithParts) :
    (settleToolParts (settleToolParts m a ta) b tb).untimed =
      (settleToolParts (settleToolParts m b tb) a ta).untimed := by
  simp only [settleToolParts_eq, mapOpenParts, Message.WithParts.untimed, map_map]
  congr 1
  apply map_congr_left
  intro p _
  exact settlePart_comm h ta tb p

section
variable [PlainCoding]

/-- Rows that touch no scope of each other, and whose results agree where they name one call. -/
structure Independent (a b : Node) : Prop where
  scopes : List.Disjoint (touches a) (touches b)
  results : ∀ r s, resultOf a = some r → resultOf b = some s → r.call = s.call → r.outcome = s.outcome

/-- A row with a result closes the scope it looks its turn up by. -/
def Anchored (row : Node) : Prop := (resultOf row).isSome → row.parentId.getD "" ∈ touches row

variable {a b : Node} {rows rows' : List Node}

lemma Independent.symm (h : Independent a b) : Independent b a :=
  ⟨fun _ hb ha => h.scopes ha hb, fun r s hr hs hcall => (h.results s r hs hr hcall.symm).symm⟩

namespace Folding

variable {f g : Folding} {a b : Node}

omit [PlainCoding] in
lemma settleIn_comm (f : Folding) (turnA turnB : Option (Option String)) {resultA resultB : Option Tool.Result}
    (h : ∀ r s, resultA = some r → resultB = some s → r.call = s.call → r.outcome = s.outcome) (ta tb : ℚ)
    (m : Message.WithParts) : (f.settleIn turnB resultB tb (f.settleIn turnA resultA ta m)).untimed =
      (f.settleIn turnA resultA ta (f.settleIn turnB resultB tb m)).untimed := by
  cases resultA with
  | none => rfl
  | some r =>
    cases resultB with
    | none => rfl
    | some s =>
      have hinfo : ∀ (x : Tool.Result) (t : ℚ), (settleToolParts m x t).info = m.info := fun _ _ => rfl
      unfold settleIn
      dsimp only
      by_cases hA : f.messageTurns.get? m.info.id = turnA
      · by_cases hB : f.messageTurns.get? m.info.id = turnB
        · simp only [hA.symm, hB.symm, hinfo, if_true]
          exact settleToolParts_comm (h r s rfl rfl) ta tb m
        · simp only [if_pos hA, if_neg hB, hinfo]
      · simp only [if_neg hA]
        split
        · simp only [hinfo, if_neg hA]
        · rfl

theorem pass_turn (hf : f.Unique) (row : Node) {info : Message.Info} (h : info ∈ f.messages.map (·.info)) :
    (f.pass row).messageTurns.get? info.id = f.messageTurns.get? info.id := by
  have hstands : (f.pass row).messages.any (·.info.id = info.id) = true := by
    rw [any_eq_of_infos (pass_infos f row)]
    obtain ⟨m, hm, rfl⟩ := mem_map.mp h
    exact any_eq_true.mpr ⟨m, hm, by simp⟩
  rw [pass_messageTurns, Dict.get?_filter hf.messageTurns]
  have hkeeps : (fun turn => (f.pass row).keeps (info.id, turn)) = fun _ => true := by
    funext turn
    simp [keeps, hstands]
  rw [hkeeps]
  cases f.messageTurns.get? info.id <;> rfl

theorem pass_turnOf (hscopes : List.Disjoint (touches a) (touches b)) (hb : b.parentId.getD "" ∈ touches b) :
    (f.pass a).turnOf b = f.turnOf b := by
  unfold turnOf
  rw [pass_parents]
  exact scopes_get?_of_notMem fun ha => hscopes ha hb

lemma pass_settleIn (hf : f.Unique) (hscopes : List.Disjoint (touches a) (touches b)) (hb : Anchored b)
    {m : Message.WithParts} (hm : m.info ∈ f.messages.map (·.info)) :
    (f.pass a).settleIn ((f.pass a).turnOf b) (resultOf b) b.ts m = f.settleIn (f.turnOf b) (resultOf b) b.ts m := by
  unfold Anchored at hb
  cases hresult : resultOf b with
  | none => rfl
  | some result =>
    rw [hresult] at hb
    unfold settleIn
    rw [pass_turnOf hscopes (hb rfl), pass_turn hf a hm]

lemma pass_pass_messages (hf : f.Unique) (hscopes : List.Disjoint (touches a) (touches b)) (hb : Anchored b) :
    ((f.pass a).pass b).messages = f.messages.map fun m =>
      f.settleIn (f.turnOf b) (resultOf b) b.ts (f.settleIn (f.turnOf a) (resultOf a) a.ts m) := by
  rw [pass_messages, pass_messages f a, map_map]
  apply map_congr_left
  intro m hm
  apply pass_settleIn hf hscopes hb
  rw [settleIn_info]
  exact mem_map_of_mem hm

lemma pass_pass_infos (f : Folding) (a b : Node) :
    ((f.pass a).pass b).messages.map (·.info) = f.messages.map (·.info) := by
  rw [pass_infos, pass_infos]

theorem pass_pass_keeps (hscopes : List.Disjoint (touches a) (touches b)) {e : String × Option String}
    (he : f.keeps e = true) : ((f.pass a).keeps e && ((f.pass a).pass b).keeps e) =
      ((f.pass b).keeps e && ((f.pass b).pass a).keeps e) := by
  have hstands : ∀ k : Folding, k.messages.map (·.info) = f.messages.map (·.info) →
      k.messages.any (·.info.id = e.1) = f.messages.any (·.info.id = e.1) := fun k hk => any_eq_of_infos hk e.1
  unfold keeps at he ⊢
  rw [hstands _ (pass_infos f a), hstands _ (pass_infos f b), hstands _ (pass_pass_infos f a b),
    hstands _ (pass_pass_infos f b a)]
  cases hmessage : f.messages.any (·.info.id = e.1) with
  | true => rfl
  | false =>
    rw [hmessage, Bool.false_or] at he
    simp only [Bool.false_or, pass_parents, Dict.contains_iff]
    cases hturn : e.2 with
    | none => rfl
    | some turnId =>
      rw [hturn, Option.any_some, Dict.contains_iff] at he
      simp only [Option.any_some]
      have hcomm := scopes_comm f.parents hscopes turnId
      by_cases ha : turnId ∈ touches a
      · rw [← hcomm, scopes_get?_of_notMem (hscopes ha), scopes_get?_of_notMem (hscopes ha), he, Bool.and_self,
          Bool.true_and]
      · rw [hcomm, scopes_get?_of_notMem ha, scopes_get?_of_notMem ha, he, Bool.and_self, Bool.true_and]

lemma pass_pass_turns (hf : f.Unique) (a b : Node) (id : String) :
    ((f.pass a).pass b).messageTurns.get? id =
      (f.messageTurns.get? id).filter fun turn => (f.pass a).keeps (id, turn) && ((f.pass a).pass b).keeps (id, turn) := by
  rw [pass_messageTurns, Dict.get?_filter (hf.pass a).messageTurns, pass_messageTurns f a,
    Dict.get?_filter hf.messageTurns, Option.filter_filter]

theorem pass_comm (hf : f.Unique) (hpruned : f.Pruned) (h : Independent a b) (ha : Anchored a) (hb : Anchored b) :
    ((f.pass a).pass b).Alike ((f.pass b).pass a) := by
  apply Alike.mk
  · rw [pass_pass_messages hf h.scopes hb, pass_pass_messages hf h.symm.scopes ha, map_map, map_map]
    apply map_congr_left
    intro m _
    exact settleIn_comm f _ _ h.results _ _ m
  · simp only [pass_canonicalTurn]
    split <;> split <;> rfl
  · refine ⟨((hf.pass a).pass b).parents, ((hf.pass b).pass a).parents, ?_⟩
    intro id
    simp only [pass_parents]
    exact scopes_comm f.parents h.scopes id
  · refine ⟨((hf.pass a).pass b).messageTurns, ((hf.pass b).pass a).messageTurns, ?_⟩
    intro id
    apply Option.ext
    intro turn
    rw [pass_pass_turns hf, pass_pass_turns hf, Option.filter_eq_some_iff, Option.filter_eq_some_iff]
    apply and_congr_right
    intro hturn
    rw [pass_pass_keeps h.scopes (hpruned _ ((Dict.get?_eq_some_iff hf.messageTurns).mp hturn))]

lemma Alike.pass (h : f.Alike g) (row : Node) : (f.pass row).Alike (g.pass row) := by
  have hturn : f.turnOf row = g.turnOf row := h.parents.get? _
  unfold Folding.pass
  rw [hturn]
  exact (((h.enter row).settle _ row _).leave row).prune

lemma Alike.passes (h : f.Alike g) (rows : List Node) : (rows.foldl Folding.pass f).Alike (rows.foldl Folding.pass g) := by
  induction rows generalizing f g with
  | nil => exact h
  | cons row rows ih => exact ih (h.pass row)

lemma Unique.passes (h : f.Unique) (rows : List Node) : (rows.foldl Folding.pass f).Unique := by
  induction rows generalizing f with
  | nil => exact h
  | cons row rows ih => exact ih (h.pass row)

variable {rows : List Node}

theorem passes_perm {rows' : List Node} (h : rows.Perm rows') (hf : f.Unique) (hpruned : f.Pruned)
    (hanchored : ∀ row ∈ rows, Anchored row) (hindependent : rows.Pairwise Independent) :
    (rows.foldl pass f).Alike (rows'.foldl pass f) := by
  induction h generalizing f with
  | nil => exact hf.alike
  | cons row h ih =>
    exact ih (hf.pass row) (pruned_pass f row) (fun next hnext => hanchored next (mem_cons_of_mem row hnext))
      (pairwise_cons.mp hindependent).2
  | swap a b rows =>
    have hba : Independent b a := (pairwise_cons.mp hindependent).1 a mem_cons_self
    have hb := hanchored b mem_cons_self
    have ha := hanchored a (mem_cons_of_mem b mem_cons_self)
    exact (pass_comm hf hpruned hba hb ha).passes rows
  | trans h h' ih ih' =>
    have hindependent' := (h.pairwise_iff Independent.symm).mp hindependent
    exact (ih hf hpruned hanchored hindependent).trans
      (ih' hf hpruned (fun row hrow => hanchored row (h.mem_iff.mpr hrow)) hindependent')

theorem pass_passes {row : Node} (hf : f.Unique) (hpruned : f.Pruned) (hrow : Anchored row)
    (hanchored : ∀ next ∈ rows, Anchored next) (hindependent : ∀ next ∈ rows, Independent row next) :
    (rows.foldl pass (f.pass row)).Alike ((rows.foldl pass f).pass row) := by
  induction rows generalizing f with
  | nil => exact (hf.pass row).alike
  | cons next rows ih =>
    have hnext := mem_cons_self (a := next) (l := rows)
    have hswap := (pass_comm hf hpruned (hindependent next hnext) hrow (hanchored next hnext)).passes rows
    exact hswap.trans (ih (hf.pass next) (pruned_pass f next)
      (fun a ha => hanchored a (mem_cons_of_mem next ha)) fun a ha => hindependent a (mem_cons_of_mem next ha))

end Folding

def bringsResult (row : Node) : Bool := (resultOf row).isSome

def waveOf (rows : List Node) : List Node := rows.filter bringsResult

def besides (rows : List Node) : List Node := rows.filter fun row => !bringsResult row

def retimed (row : Node) : Node := { row with ts := 0, ordinal := 0 }

/-- The same rows with the result rows written at other times and in another order. -/
structure Rearranged (rows rows' : List Node) : Prop where
  results : ((waveOf rows).map retimed).Perm ((waveOf rows').map retimed)
  others : (besides rows).map retimed = (besides rows').map retimed

/-- Rows whose order is free: results among each other, and results against what stands between them. -/
structure FreeOrder (rows : List Node) : Prop where
  anchored : ∀ row ∈ rows, Anchored row
  results : (waveOf rows).Pairwise Independent
  others : ∀ row ∈ besides rows, ∀ result ∈ waveOf rows, Independent row result

namespace Folding

variable {f g : Folding}

lemma pass_retimed (hf : f.Unique) (row : Node) : (f.pass row).Alike (f.pass (retimed row)) := by
  refine Alike.mk ?_ ?_ ?_ ?_
  · rw [pass_messages, pass_messages, map_map, map_map]
    apply map_congr_left
    intro m _
    change (f.settleIn (f.turnOf row) (resultOf row) row.ts m).untimed =
      (f.settleIn (f.turnOf row) (resultOf row) 0 m).untimed
    unfold settleIn
    split
    · rfl
    · split
      · exact settleToolParts_untimed rfl _ _ _
      · rfl
  · rw [pass_canonicalTurn, pass_canonicalTurn]
    rfl
  · rw [pass_parents, pass_parents]
    exact .refl (scopes_unique hf.parents row)
  · rw [pass_messageTurns, pass_messageTurns]
    apply (Dict.Same.refl hf.messageTurns).filter
    intro e
    unfold keeps
    rw [any_eq_of_infos ((pass_infos f row).trans (pass_infos f (retimed row)).symm), pass_parents, pass_parents]
    rfl

lemma passes_retimed (hf : f.Unique) (rows : List Node) :
    (rows.foldl pass f).Alike ((rows.map retimed).foldl pass f) := by
  induction rows generalizing f with
  | nil => exact hf.alike
  | cons row rows ih =>
    exact ((pass_retimed hf row).passes rows).trans (ih (hf.pass (retimed row)))

theorem passes_resultsFirst {rows : List Node} (hf : f.Unique) (hpruned : f.Pruned) (h : FreeOrder rows) :
    (rows.foldl pass f).Alike ((waveOf rows ++ besides rows).foldl pass f) := by
  induction rows generalizing f with
  | nil => exact hf.alike
  | cons row rows ih =>
    have hsub : ∀ {p : Node → Bool}, (rows.filter p).Sublist ((row :: rows).filter p) :=
      (sublist_cons_self row rows).filter _
    have hrest : FreeOrder rows := by
      refine ⟨fun a ha => h.anchored a (mem_cons_of_mem row ha), h.results.sublist hsub, ?_⟩
      intro a ha result hresult
      exact h.others a (hsub.subset ha) result (hsub.subset hresult)
    have htail := ih (hf.pass row) (pruned_pass f row) hrest
    rw [foldl_cons]
    apply htail.trans
    by_cases hbrings : bringsResult row = true
    · have hwave : waveOf (row :: rows) = row :: waveOf rows := filter_cons_of_pos hbrings
      have hothers : besides (row :: rows) = besides rows := filter_cons_of_neg (by simp [hbrings])
      rw [hwave, hothers]
      exact ((hf.pass row).passes _).alike
    · have hwave : waveOf (row :: rows) = waveOf rows := filter_cons_of_neg hbrings
      have hothers : besides (row :: rows) = row :: besides rows := filter_cons_of_pos (by simp [hbrings])
      have hrow := h.anchored row mem_cons_self
      have hswap : ((waveOf rows).foldl pass (f.pass row)).Alike (((waveOf rows).foldl pass f).pass row) := by
        apply pass_passes hf hpruned hrow
        · exact fun a ha => hrest.anchored a (mem_filter.mp ha).1
        · intro a ha
          apply h.others row
          · rw [hothers]
            exact mem_cons_self
          · rw [hwave]
            exact ha
      rw [hwave, hothers, foldl_append, foldl_append, foldl_cons]
      exact hswap.passes (besides rows)

lemma waveOf_retimed (rows : List Node) : waveOf (rows.map retimed) = (waveOf rows).map retimed := by
  unfold waveOf
  rw [filter_map]
  rfl

lemma besides_retimed (rows : List Node) : besides (rows.map retimed) = (besides rows).map retimed := by
  unfold besides
  rw [filter_map]
  rfl

end Folding

lemma Independent.retime (h : Independent a b) : Independent (retimed a) (retimed b) :=
  ⟨h.scopes, h.results⟩

lemma mem_waveOf_or_besides {row : Node} (h : row ∈ rows) : row ∈ waveOf rows ∨ row ∈ besides rows := by
  cases hbrings : bringsResult row with
  | true => exact Or.inl (mem_filter.mpr ⟨h, hbrings⟩)
  | false => exact Or.inr (mem_filter.mpr ⟨h, by simp [hbrings]⟩)

lemma FreeOrder.retime (h : FreeOrder rows) : FreeOrder (rows.map retimed) := by
  refine ⟨?_, ?_, ?_⟩
  · intro row hmem
    obtain ⟨row, hrow, rfl⟩ := mem_map.mp hmem
    exact h.anchored row hrow
  · rw [Folding.waveOf_retimed, pairwise_map]
    exact h.results.imp Independent.retime
  · rw [Folding.waveOf_retimed, Folding.besides_retimed]
    intro row hmem result hresults
    obtain ⟨row, hrow, rfl⟩ := mem_map.mp hmem
    obtain ⟨result, hresult, rfl⟩ := mem_map.mp hresults
    exact (h.others row hrow result hresult).retime

theorem FreeOrder.rearrange (h : FreeOrder rows) (hre : Rearranged rows rows') : FreeOrder (rows'.map retimed) := by
  have hretimed := h.retime
  have hresults : (waveOf (rows.map retimed)).Perm (waveOf (rows'.map retimed)) := by
    rw [Folding.waveOf_retimed, Folding.waveOf_retimed]
    exact hre.results
  have hothers : besides (rows.map retimed) = besides (rows'.map retimed) := by
    rw [Folding.besides_retimed, Folding.besides_retimed]
    exact hre.others
  refine ⟨?_, ?_, ?_⟩
  · intro row hrow
    apply hretimed.anchored
    rcases mem_waveOf_or_besides hrow with hwave | hbesides
    · exact (mem_filter.mp (hresults.mem_iff.mpr hwave)).1
    · rw [← hothers] at hbesides
      exact (mem_filter.mp hbesides).1
  · exact (hresults.pairwise_iff Independent.symm).mp hretimed.results
  · intro row hrow result hresult
    rw [← hothers] at hrow
    exact hretimed.others row hrow result (hresults.mem_iff.mpr hresult)

theorem Folding.passes_rearranged {f : Folding} (hf : f.Unique) (hpruned : f.Pruned) (h : FreeOrder rows)
    (hre : Rearranged rows rows') : (rows.foldl pass f).Alike (rows'.foldl pass f) := by
  have hretimed := h.retime
  have hretimed' := h.rearrange hre
  have hsorted := passes_resultsFirst hf hpruned hretimed
  have hsorted' := passes_resultsFirst hf hpruned hretimed'
  have hperm : ((waveOf (rows.map retimed)).foldl pass f).Alike ((waveOf (rows'.map retimed)).foldl pass f) := by
    apply passes_perm _ hf hpruned
    · exact fun row hrow => hretimed.anchored row (mem_filter.mp hrow).1
    · exact hretimed.results
    · rw [waveOf_retimed, waveOf_retimed]
      exact hre.results
  have hothers : besides (rows'.map retimed) = besides (rows.map retimed) := by
    rw [besides_retimed, besides_retimed]
    exact hre.others.symm
  rw [foldl_append] at hsorted hsorted'
  rw [hothers] at hsorted'
  have hmid := hperm.passes (besides (rows.map retimed))
  exact (passes_retimed hf rows).trans (hsorted.trans (hmid.trans (hsorted'.symm.trans (passes_retimed hf rows').symm)))

end
end OpenOmni

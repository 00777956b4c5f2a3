import OpenOmni.Fold.SettlementOrder

/-! The results of one wave in the fold: when their order does not show, and which parts a result changes. -/
namespace OpenOmni
open List
open Option (bind_map bind_some map_eq_some_iff map_some mem_toList)

open PlainValue SessionTransition FoldCheckpoint

def Message.Part.openCall : Message.Part → Option (String × String)
  | .tool _ callID name state => state.openInput.map fun _ => (callID, name)
  | .text .. | .reasoning .. | .stepStart .. | .stepFinish .. => none

def Folding.openCalls (f : Folding) (turnId : String) : List (String × String) :=
  (f.messages.filter fun m => f.messageTurns.get? m.info.id = some (some turnId)).flatMap fun m =>
    m.parts.filterMap Message.Part.openCall

section
variable [PlainCoding]

def rowCall (row : Node) : Option (String × String) :=
  (resultOf row).bind fun result => result.toolName.map fun name => (result.toolCallId, name)

structure SettlementRow (f : Folding) (turnId : String) (row : Node) : Prop where
  tool : row.kind = .tool
  notIntent : opensScope row = false
  closes : closesScope row = true
  parent : ∃ parentId, row.parentId = some parentId ∧ f.parents.get? parentId = some (some turnId)

/-- A row that brings nothing to the context and leaves the calls of a wave under way. -/
structure QuietRow (sessionId : String) (calls : List (Option String)) (row : Node) : Prop where
  passing : Passing sessionId row
  scopes : ∀ id ∈ touches row, some id ∉ calls

/-- The results of one wave, each for another open call of the turn, and quiet rows between them. -/
structure IsWave (sessionId : String) (f : Folding) (turnId : String) (rows : List Node) : Prop where
  results : ∀ row ∈ waveOf rows, SettlementRow f turnId row
  others : ∀ row ∈ besides rows, QuietRow sessionId ((waveOf rows).map (·.parentId)) row
  calls : ((waveOf rows).map (·.parentId)).Nodup
  opened : ((waveOf rows).map rowCall).Subperm ((f.openCalls turnId).map some)

/-- The messages of a history apart from the times of their calls. -/
def foldedMessages (sessionId : String) (rows : List Node) : Option (List Message.WithParts) :=
  (foldHistoryState sessionId rows emptyState).map fun state => state.messages.map Message.WithParts.untimed

def Commutes (sessionId : String) (front rows : List Node) : Prop :=
  ∀ rows' rest, Rearranged rows rows' →
    foldedMessages sessionId (front ++ rows' ++ rest) = foldedMessages sessionId (front ++ rows ++ rest)

def SameResults (rows : List Node) : Prop :=
  ∀ a ∈ waveOf rows, ∀ b ∈ waveOf rows, rowCall a = rowCall b →
    (resultOf a).map Tool.Result.outcome = (resultOf b).map Tool.Result.outcome

variable {sessionId turnId : String} {f : Folding} {rows : List Node}

variable {row a b : Node} {call : String × String} {p : Message.Part} {i j : ℕ} {result : Tool.Result}

lemma resultOf_of_mem (h : row ∈ waveOf rows) : ∃ result, resultOf row = some result :=
  Option.isSome_iff_exists.mp (mem_filter.mp h).2

lemma resultOf_of_besides (h : row ∈ besides rows) : resultOf row = none := by
  have hbrings := (mem_filter.mp h).2
  simpa [bringsResult] using hbrings

omit [PlainCoding] in
lemma SettlementRow.touches (h : SettlementRow f turnId row) : touches row = row.parentId.toList := by
  simp [OpenOmni.touches, h.notIntent, h.closes]

omit [PlainCoding] in
lemma SettlementRow.turnOf (h : SettlementRow f turnId row) : f.turnOf row = some (some turnId) := by
  obtain ⟨parentId, hparent, hturn⟩ := h.parent
  unfold Folding.turnOf
  rw [hparent]
  exact hturn

lemma SettlementRow.passing (h : SettlementRow f turnId row) (hbrings : (resultOf row).isSome) :
    Passing sessionId row := by
  apply Passing.of_tool h.tool
  intro hnone
  simp [resultOf, hnone] at hbrings

lemma IsWave.passing (h : IsWave sessionId f turnId rows) : ∀ row ∈ rows, Passing sessionId row := by
  intro row hrow
  rcases mem_waveOf_or_besides hrow with hwave | hbesides
  · exact (h.results row hwave).passing (mem_filter.mp hwave).2
  · exact (h.others row hbesides).passing

lemma IsWave.rowCall (h : IsWave sessionId f turnId rows) (hrow : row ∈ waveOf rows) :
    ∃ call ∈ f.openCalls turnId, rowCall row = some call := by
  obtain ⟨call, hcall, heq⟩ := mem_map.mp (h.opened.subset (mem_map_of_mem hrow))
  exact ⟨call, hcall, heq.symm⟩

theorem rowCall_eq_iff {r s : Tool.Result} (ha : resultOf a = some r) (hb : resultOf b = some s)
    (hcall : rowCall a = some call) : rowCall a = rowCall b ↔ r.call = s.call := by
  unfold rowCall Tool.Result.call at *
  rw [ha, bind_some, map_eq_some_iff] at hcall
  obtain ⟨name, hname, -⟩ := hcall
  rw [ha, hb, bind_some, bind_some, hname]
  cases s.toolName with
  | none | some other => simp

lemma IsWave.freeOrder (h : IsWave sessionId f turnId rows) (hsame : SameResults rows) : FreeOrder rows := by
  refine ⟨?_, ?_, ?_⟩
  · intro row hrow hbrings
    have hwave : row ∈ waveOf rows := mem_filter.mpr ⟨hrow, hbrings⟩
    obtain ⟨parentId, hparent, -⟩ := (h.results row hwave).parent
    rw [(h.results row hwave).touches, hparent]
    exact mem_singleton.mpr rfl
  · have hparents := pairwise_map.mp h.calls
    apply List.Pairwise.imp_of_mem _ hparents
    intro a b ha hb hne
    constructor
    · rw [(h.results a ha).touches, (h.results b hb).touches]
      intro id hida hidb
      exact hne ((mem_toList.mp hida).trans (mem_toList.mp hidb).symm)
    · intro r s hr hs hcall
      obtain ⟨call, -, hcallA⟩ := h.rowCall ha
      have hagree := hsame a ha b hb ((rowCall_eq_iff hr hs hcallA).mpr hcall)
      rw [hr, hs] at hagree
      exact Option.some.inj hagree
  · intro row hrow result hresult
    constructor
    · rw [(h.results result hresult).touches]
      intro id hid hparent
      apply (h.others row hrow).scopes id hid
      exact mem_map.mpr ⟨result, hresult, mem_toList.mp hparent⟩
    · intro r s hr
      rw [resultOf_of_besides hrow] at hr
      cases hr

variable {front : List Node}

lemma foldedMessages_append (hfront : front.foldlM (foldStep sessionId) (Folding.ofSeed emptyState) = some f)
    (hpassing : ∀ row ∈ rows, Passing sessionId row) (rest : List Node) :
    foldedMessages sessionId (front ++ rows ++ rest) =
      (rest.foldlM (foldStep sessionId) (rows.foldl Folding.pass f)).map fun g => g.messages.map Message.WithParts.untimed := by
  unfold foldedMessages foldHistoryState
  rw [foldlM_append, foldlM_append, hfront]
  simp only [Option.bind_eq_bind, bind_some, Folding.foldSteps_pass hpassing, Option.map_map]
  rfl

lemma Rearranged.mem_retimed {rows' : List Node} (h : Rearranged rows rows') (hrow : row ∈ rows') :
    ∃ old ∈ rows, retimed old = retimed row := by
  rcases mem_waveOf_or_besides hrow with hwave | hbesides
  · obtain ⟨old, hold, heq⟩ := mem_map.mp (h.results.mem_iff.mpr (mem_map_of_mem hwave))
    exact ⟨old, (mem_filter.mp hold).1, heq⟩
  · have hmem : retimed row ∈ (besides rows).map retimed := by
      rw [h.others]
      exact mem_map_of_mem hbesides
    obtain ⟨old, hold, heq⟩ := mem_map.mp hmem
    exact ⟨old, (mem_filter.mp hold).1, heq⟩

lemma Passing.of_retimed (h : retimed a = retimed b) (ha : Passing sessionId a) : Passing sessionId b := by
  have hretimed : ∀ {row : Node}, Passing sessionId row ↔ Passing sessionId (retimed row) := by
    intro row
    have hprompt : deliveredPrompt row sessionId = none ↔ deliveredPrompt (retimed row) sessionId = none := by
      have hdelivery : deliveryOf (retimed row) = deliveryOf row := rfl
      unfold deliveredPrompt
      rw [hdelivery]
      cases deliveryOf row with
      | none => exact Iff.rfl
      | some delivery =>
        dsimp only
        split <;> simp
    exact ⟨fun h => ⟨h.notCheckpoint, hprompt.mp h.noPrompt, h.noSnapshot, h.noProjection, h.parses, h.noTerminal⟩,
      fun h => ⟨h.notCheckpoint, hprompt.mpr h.noPrompt, h.noSnapshot, h.noProjection, h.parses, h.noTerminal⟩⟩
  rw [hretimed, ← h]
  exact hretimed.mp ha

lemma IsWave.commutes (h : IsWave sessionId f turnId rows)
    (hfront : front.foldlM (foldStep sessionId) (Folding.ofSeed emptyState) = some f) (hsame : SameResults rows) :
    Commutes sessionId front rows := by
  intro rows' rest hre
  have hpassing' : ∀ row ∈ rows', Passing sessionId row := by
    intro row hrow
    obtain ⟨old, hold, heq⟩ := hre.mem_retimed hrow
    exact (h.passing old hold).of_retimed heq
  have hunique := foldSteps_unique (Folding.unique_ofSeed emptyState) hfront
  have hpruned : f.Pruned := foldSteps_pruned emptyState_settled hfront
  have halike := Folding.passes_rearranged hunique hpruned (h.freeOrder hsame) hre
  rw [foldedMessages_append hfront hpassing', foldedMessages_append hfront h.passing]
  exact rel_map_eq (halike.symm.steps rest) fun _ _ hlast => hlast.messages

omit [PlainCoding] in
def Folding.partAt (f : Folding) (i j : ℕ) : Option Message.Part := f.messages[i]?.bind fun m => m.parts[j]?

def Folding.settlePart (f : Folding) (row : Node) (info : Message.Info) (p : Message.Part) : Message.Part :=
  match resultOf row with
  | none => p
  | some result => if f.messageTurns.get? info.id = f.turnOf row then mapOpenPart (settleCall result row.ts) p else p

lemma Folding.settleIn_parts (f : Folding) (row : Node) (m : Message.WithParts) :
    (f.settleIn (f.turnOf row) (resultOf row) row.ts m).parts = m.parts.map (f.settlePart row m.info) := by
  have hid : ∀ ps : List Message.Part, ps = ps.map fun p => p := fun ps => (map_id' ps).symm
  unfold settleIn settlePart
  cases resultOf row with
  | none => exact hid _
  | some result =>
    dsimp only
    split
    · rfl
    · exact hid _

lemma Folding.pass_partAt (f : Folding) (row : Node) (i j : ℕ) :
    (f.pass row).partAt i j = f.messages[i]?.bind fun m => m.parts[j]?.map (f.settlePart row m.info) := by
  unfold partAt
  rw [pass_messages, getElem?_map, bind_map]
  congr 1
  funext m
  simp only [Function.comp_apply, settleIn_parts, getElem?_map]

omit [PlainCoding] in
lemma mapOpenPart_of_closed {settle : String → String → PlainObject → Option Tool.State} (h : p.openCall = none) :
    mapOpenPart settle p = p := by
  cases p with
  | text | reasoning | stepStart | stepFinish => rfl
  | tool base callID name state =>
    have hclosed : state.openInput = none := Option.map_eq_none_iff.mp h
    simp [mapOpenPart, hclosed]

theorem Folding.pass_partAt_of_closed (h : f.partAt i j = some p) (hclosed : p.openCall = none) (row : Node) :
    (f.pass row).partAt i j = some p := by
  unfold partAt at h
  obtain ⟨m, hm, hp⟩ := Option.bind_eq_some_iff.mp h
  have hsame : f.settlePart row m.info p = p := by
    unfold settlePart
    split
    · rfl
    · split
      · exact mapOpenPart_of_closed hclosed
      · rfl
  rw [pass_partAt, hm, bind_some, hp, map_some, hsame]

lemma Folding.passes_partAt_of_closed (h : f.partAt i j = some p) (hclosed : p.openCall = none) (rows : List Node) :
    (rows.foldl pass f).partAt i j = some p := by
  induction rows generalizing f with
  | nil => exact h
  | cons row rows ih => exact ih (pass_partAt_of_closed h hclosed row)

/-- The part at the place is open under the call of the row's result, in a message of the turn looked up. -/
def Reached (f : Folding) (row : Node) (i j : ℕ) : Prop :=
  ∃ m p call, f.messages[i]? = some m ∧ m.parts[j]? = some p ∧ p.openCall = some call ∧ rowCall row = some call ∧
    f.messageTurns.get? m.info.id = f.turnOf row

omit [PlainCoding] in
lemma openCall_eq_some (h : p.openCall = some call) :
    ∃ base state input, p = .tool base call.1 call.2 state ∧ state.openInput = some input := by
  cases p with
  | text | reasoning | stepStart | stepFinish => cases h
  | tool base callID name state =>
    obtain ⟨input, hinput, rfl⟩ := map_eq_some_iff.mp h
    exact ⟨base, state, input, rfl, hinput⟩

lemma rowCall_eq_some (hresult : resultOf row = some result) :
    rowCall row = some call ↔ call.1 = result.toolCallId ∧ some call.2 = result.toolName := by
  unfold rowCall
  rw [hresult, bind_some, map_eq_some_iff]
  constructor
  · rintro ⟨name, hname, rfl⟩
    exact ⟨rfl, hname.symm⟩
  · rintro ⟨hid, hname⟩
    exact ⟨call.2, hname.symm, by rw [← hid]⟩

theorem Reached.pass_partAt (hresult : resultOf row = some result) (h : Reached f row i j) :
    ∃ base call state input, f.partAt i j = some (.tool base call.1 call.2 state) ∧
      state.openInput = some input ∧ rowCall row = some call ∧
      (f.pass row).partAt i j = some (.tool base call.1 call.2 (settledState call.2 input result row.ts)) := by
  obtain ⟨m, p, call, hm, hp, hopen, hcall, hturn⟩ := h
  obtain ⟨base, state, input, rfl, hinput⟩ := openCall_eq_some hopen
  refine ⟨base, call, state, input, ?_, hinput, hcall, ?_⟩
  · unfold Folding.partAt
    rw [hm, bind_some, hp]
  · have hsettle : settleCall result row.ts call.1 call.2 input = some (settledState call.2 input result row.ts) :=
      if_pos ((rowCall_eq_some hresult).mp hcall)
    rw [Folding.pass_partAt, hm, bind_some, hp, map_some]
    unfold Folding.settlePart
    rw [hresult]
    dsimp only
    rw [if_pos hturn]
    simp [mapOpenPart, hinput, hsettle]

theorem pass_partAt_ne_iff (hresult : resultOf row = some result) (i j : ℕ) :
    (f.pass row).partAt i j ≠ f.partAt i j ↔ Reached f row i j := by
  constructor
  · intro hne
    rw [Folding.pass_partAt] at hne
    unfold Folding.partAt at hne
    cases hm : f.messages[i]? with
    | none => simp [hm] at hne
    | some m =>
      rw [hm, bind_some, bind_some] at hne
      cases hp : m.parts[j]? with
      | none => simp [hp] at hne
      | some p =>
        rw [hp, map_some] at hne
        have hchange : f.settlePart row m.info p ≠ p := fun heq => hne (congrArg some heq)
        unfold Folding.settlePart at hchange
        rw [hresult] at hchange
        dsimp only at hchange
        split at hchange
        · rename_i hturn
          cases hopen : p.openCall with
          | none => exact absurd (mapOpenPart_of_closed hopen) hchange
          | some call =>
            obtain ⟨base, state, input, rfl, hinput⟩ := openCall_eq_some hopen
            refine ⟨m, _, call, hm, hp, hopen, ?_, hturn⟩
            rw [rowCall_eq_some hresult]
            by_contra hother
            have hkept : settleCall result row.ts call.1 call.2 input = none := if_neg hother
            exact hchange (by simp [mapOpenPart, hinput, hkept])
        · exact absurd rfl hchange
  · intro hreached heq
    obtain ⟨base, call, state, input, hpart, hinput, -, hsettled⟩ := hreached.pass_partAt hresult
    rw [hpart, hsettled] at heq
    have hstate : settledState call.2 input result row.ts = state := by
      injection heq with heq
      injection heq
    rw [← hstate, settledState_openInput] at hinput
    cases hinput

def startingWith (row : Node) (rows : List Node) : List Node := row :: ((waveOf rows).erase row ++ besides rows)

lemma rearranged_startingWith (h : row ∈ waveOf rows) : Rearranged rows (startingWith row rows) := by
  have hrow : bringsResult row = true := (mem_filter.mp h).2
  have herase : ∀ a ∈ (waveOf rows).erase row, bringsResult a = true :=
    fun a ha => (mem_filter.mp (mem_of_mem_erase ha)).2
  have hbesides : ∀ a ∈ besides rows, (!bringsResult a) = true := fun a ha => (mem_filter.mp ha).2
  have hwave : waveOf (startingWith row rows) = row :: (waveOf rows).erase row := by
    have hnone : (besides rows).filter bringsResult = [] := by
      rw [filter_eq_nil_iff]
      intro a ha
      simpa using hbesides a ha
    change (row :: ((waveOf rows).erase row ++ besides rows)).filter bringsResult = _
    rw [filter_cons_of_pos hrow, filter_append, hnone, append_nil, filter_eq_self.mpr herase]
  have hothers : besides (startingWith row rows) = besides rows := by
    have hnone : ((waveOf rows).erase row).filter (fun a => !bringsResult a) = [] := by
      rw [filter_eq_nil_iff]
      intro a ha
      simp [herase a ha]
    change (row :: ((waveOf rows).erase row ++ besides rows)).filter (fun a => !bringsResult a) = _
    rw [filter_cons_of_neg (by simp [hrow]), filter_append, hnone, nil_append,
      filter_eq_self.mpr hbesides]
  refine ⟨?_, ?_⟩
  · rw [hwave]
    exact (perm_cons_erase h).map retimed
  · rw [hothers]

omit [PlainCoding] in
lemma Folding.partAt_untimed (f : Folding) (i j : ℕ) : (f.partAt i j).map Message.Part.untimed =
    (f.messages.map Message.WithParts.untimed)[i]?.bind fun m => m.parts[j]? := by
  unfold partAt
  rw [getElem?_map, bind_map, Option.map_bind]
  congr 1
  funext m
  simp [Message.WithParts.untimed]

section
variable (h : IsWave sessionId f turnId rows)
include h

lemma IsWave.reached (hcall : call ∈ f.openCalls turnId) :
    ∃ i j, ∀ row ∈ waveOf rows, OpenOmni.rowCall row = some call → Reached f row i j := by
  obtain ⟨m, hm, hp⟩ := mem_flatMap.mp hcall
  obtain ⟨p, hp, hopen⟩ := mem_filterMap.mp hp
  obtain ⟨hm, hturn⟩ := mem_filter.mp hm
  obtain ⟨i, hi⟩ := mem_iff_getElem?.mp hm
  obtain ⟨j, hj⟩ := mem_iff_getElem?.mp hp
  refine ⟨i, j, ?_⟩
  intro row hrow hcall
  refine ⟨m, p, call, hi, hj, hopen, hcall, ?_⟩
  rw [(h.results row hrow).turnOf]
  exact of_decide_eq_true hturn

theorem IsWave.first (hfront : front.foldlM (foldStep sessionId) (Folding.ofSeed emptyState) = some f)
    (hcomm : Commutes sessionId front rows) (hrow : row ∈ waveOf rows) (hresult : resultOf row = some result)
    (hreached : Reached f row i j) : ∃ base call state input, f.partAt i j = some (.tool base call.1 call.2 state) ∧
      state.openInput = some input ∧ OpenOmni.rowCall row = some call ∧
      ((rows.foldl Folding.pass f).partAt i j).map Message.Part.untimed =
        some (.tool base call.1 call.2 (settledState call.2 input result row.ts).untimed) := by
  have hre := rearranged_startingWith hrow
  have hpassing : ∀ next ∈ startingWith row rows, Passing sessionId next := by
    intro next hnext
    obtain ⟨old, hold, heq⟩ := hre.mem_retimed hnext
    exact (h.passing old hold).of_retimed heq
  have hfold := hcomm (startingWith row rows) [] hre
  rw [foldedMessages_append hfront hpassing, foldedMessages_append hfront h.passing] at hfold
  have hmessages : ((startingWith row rows).foldl Folding.pass f).messages.map Message.WithParts.untimed =
      (rows.foldl Folding.pass f).messages.map Message.WithParts.untimed := Option.some.inj hfold
  obtain ⟨base, call, state, input, hpart, hinput, hcall, hsettled⟩ := hreached.pass_partAt hresult
  refine ⟨base, call, state, input, hpart, hinput, hcall, ?_⟩
  have hclosed : (Message.Part.tool base call.1 call.2 (settledState call.2 input result row.ts)).openCall = none := by
    simp [Message.Part.openCall]
  have hlast := Folding.passes_partAt_of_closed hsettled hclosed ((waveOf rows).erase row ++ besides rows)
  rw [Folding.partAt_untimed, ← hmessages, ← Folding.partAt_untimed]
  unfold startingWith
  rw [foldl_cons, hlast]
  rfl

lemma IsWave.sameResults
    (hfront : front.foldlM (foldStep sessionId) (Folding.ofSeed emptyState) = some f) (hcomm : Commutes sessionId front rows) :
    SameResults rows := by
  intro a ha b hb hsame
  obtain ⟨call, hopen, hcallA⟩ := h.rowCall ha
  obtain ⟨i, j, hreached⟩ := h.reached hopen
  obtain ⟨r, hr⟩ := resultOf_of_mem ha
  obtain ⟨s, hs⟩ := resultOf_of_mem hb
  obtain ⟨base, callA, state, input, hpart, hinput, -, hlast⟩ :=
    h.first hfront hcomm ha hr (hreached a ha hcallA)
  obtain ⟨base', callB, state', input', hpart', hinput', -, hlast'⟩ :=
    h.first hfront hcomm hb hs (hreached b hb (hsame.symm.trans hcallA))
  rw [hpart] at hpart'
  rw [hlast] at hlast'
  injection hpart' with hpart'
  injection hpart' with _ _ hname hstate
  rw [← hstate, hinput] at hinput'
  injection hlast' with hlast'
  injection hlast' with _ _ _ hsettled
  rw [← hname, ← Option.some.inj hinput'] at hsettled
  rw [hr, hs]
  exact congrArg some ((settledState_untimed_iff _ _ _ _ _ _).mp hsettled)

lemma IsWave.commutes_iff (hfront : front.foldlM (foldStep sessionId) (Folding.ofSeed emptyState) = some f) :
    Commutes sessionId front rows ↔ SameResults rows :=
  ⟨h.sameResults hfront, h.commutes hfront⟩

end

/-- The part at the place is open under the call of the row's result, in a message of the row's own turn. -/
def OwnPart (f : Folding) (row : Node) (i j : ℕ) : Prop :=
  ∃ m p call turnId, f.messages[i]? = some m ∧ m.parts[j]? = some p ∧ p.openCall = some call ∧ rowCall row = some call ∧
    f.turnOf row = some (some turnId) ∧ f.messageTurns.get? m.info.id = some (some turnId)

/-- The row changes one part at most: the one that is open in its own turn under the call of its result. -/
def ChangesOnlyOwn (sessionId : String) (f : Folding) (row : Node) : Prop :=
  ∀ next, foldStep sessionId f row = some next → next.messages.map (·.info) = f.messages.map (·.info) ∧
    ∀ i j, next.partAt i j ≠ f.partAt i j → OwnPart f row i j ∧
      ∀ i' j', next.partAt i' j' ≠ f.partAt i' j' → (i', j') = (i, j)

/-- No two open parts of the turn looked up stand under the call of the row's result. -/
def NamesOneCall (f : Folding) (row : Node) : Prop :=
  ∀ i j i' j', Reached f row i j → Reached f row i' j' → (i', j') = (i, j)

/-- The row's turn is known, where an open part stands under the call of its result: a row without a turn would
reach the messages without one. -/
def KnownTurn (f : Folding) (row : Node) : Prop :=
  ∀ i j, Reached f row i j → ∃ turnId, f.turnOf row = some (some turnId)

lemma changesOnlyOwn_iff (hresult : toolSettlement row = some (some result)) :
    ChangesOnlyOwn sessionId f row ↔ NamesOneCall f row ∧ KnownTurn f row := by
  have hkind : row.kind = .tool := by
    unfold toolSettlement at hresult
    split at hresult
    · rename_i hkind
      exact hkind
    · cases hresult
  have hbrings : resultOf row = some result := by
    unfold resultOf
    rw [hresult]
    rfl
  have hstep : foldStep sessionId f row = some (f.pass row) :=
    Folding.foldStep_pass (Passing.of_tool hkind (by simp [hresult]))
  have hchanged := pass_partAt_ne_iff (f := f) hbrings
  constructor
  · intro h
    obtain ⟨-, hparts⟩ := h (f.pass row) hstep
    constructor
    · intro i j i' j' hreached hreached'
      exact (hparts i j ((hchanged i j).mpr hreached)).2 i' j' ((hchanged i' j').mpr hreached')
    · intro i j hreached
      obtain ⟨⟨m, p, call, turnId, -, -, -, -, hturn, -⟩, -⟩ := hparts i j ((hchanged i j).mpr hreached)
      exact ⟨turnId, hturn⟩
  · rintro ⟨hone, hknown⟩ next hnext
    obtain rfl := Option.mem_unique hstep hnext
    refine ⟨Folding.pass_infos f row, ?_⟩
    intro i j hne
    have hreached := (hchanged i j).mp hne
    obtain ⟨turnId, hturn⟩ := hknown i j hreached
    obtain ⟨m, p, call, hm, hp, hopen, hcall, hlooked⟩ := hreached
    refine ⟨⟨m, p, call, turnId, hm, hp, hopen, hcall, hturn, hlooked.trans hturn⟩, ?_⟩
    intro i' j' hne'
    exact hone i j i' j' ((hchanged i j).mp hne) ((hchanged i' j').mp hne')

/-- The results of a wave may come in any order where those that name one call say the same, and a result
changes nothing but the open part of its call where one part stands under it and its turn is known. -/
theorem settlements_commute_iff (hfront : front.foldlM (foldStep sessionId) (Folding.ofSeed emptyState) = some f) :
    (∀ turnId rows, IsWave sessionId f turnId rows → (Commutes sessionId front rows ↔ SameResults rows)) ∧
      ∀ row result, toolSettlement row = some (some result) →
        (ChangesOnlyOwn sessionId f row ↔ NamesOneCall f row ∧ KnownTurn f row) :=
  ⟨fun _ _ h => h.commutes_iff hfront, fun _ _ hresult => changesOnlyOwn_iff hresult⟩

end

section
attribute [local instance] textCoding

def phased (phase : String) : PlainValue := record [("phase", some (.str phase))]

def rowUnder (id : String) (parentId : Option String) (kind : Kind) (intent effect : PlainValue) (ordinal : ℕ) : Node where
  id := id
  parentId := parentId
  sessionId := "s"
  kind := kind
  intent := intent
  effect := effect
  ts := ordinal
  ordinal := ordinal

def calling (callIDs : List String) : Message.WithParts :=
  let info : Message.AssistantMessage :=
    { id := "m", sessionID := "s", created := 0, parentID := "p", modelID := "", providerID := "", agent := "s",
      tokens := ⟨0, 0, 0, 0, 0⟩ }
  { info := .assistant info, parts := callIDs.map fun callID => .tool ⟨"part", "s", "m"⟩ callID "read" (.pending []) }

def callsOpen (callIDs : List String) : List Node :=
  [rowUnder "turn" none .turn (phased "intent") .null 1,
    rowUnder "asked" (some "turn") .message (phased "intent") .null 2,
    rowUnder "answered" (some "asked") .message (record [("phase", some (.str "result")), ("op", some (.str "assistant"))])
      (record [("phase", some (.str "result")), ("terminal", some (.str "executed")),
        ("result", some (calling callIDs).toPlain)]) 3,
    rowUnder "first" (some "turn") .tool (phased "intent") .null 4,
    rowUnder "second" (some "turn") .tool (phased "intent") .null 5]

def settlementRow (parentId callID content : String) (ordinal : ℕ) : Node :=
  rowUnder (parentId ++ "-result") (some parentId) .tool (phased "result")
    (record [("phase", some (.str "result")), ("toolResult", some (record [("id", some (.str callID)),
      ("toolCallId", some (.str callID)), ("toolName", some (.str "read")), ("content", some (.str content))]))]) ordinal

def bothResults (callID callID' : String) : List Node :=
  [settlementRow "first" callID "one" 6, settlementRow "second" callID' "two" 7]

theorem isWave_bothResults {callID callID' : String} {f : Folding}
    (hwave : waveOf (bothResults callID callID') = bothResults callID callID')
    (hfirst : f.parents.get? "first" = some (some "turn")) (hsecond : f.parents.get? "second" = some (some "turn"))
    (hopened : ((bothResults callID callID').map rowCall).Subperm ((f.openCalls "turn").map some)) :
    IsWave "s" f "turn" (bothResults callID callID') := by
  have hbesides : besides (bothResults callID callID') = [] := by
    unfold besides
    rw [filter_eq_nil_iff]
    intro row hrow
    rw [← hwave] at hrow
    simp [(mem_filter.mp hrow).2]
  refine ⟨?_, ?_, ?_, ?_⟩
  · rw [hwave]
    intro row hrow
    unfold bothResults at hrow
    rw [mem_cons, mem_singleton] at hrow
    cases hrow with
    | inl h =>
      subst h
      exact ⟨rfl, rfl, rfl, "first", rfl, hfirst⟩
    | inr h =>
      subst h
      exact ⟨rfl, rfl, rfl, "second", rfl, hsecond⟩
  · rw [hbesides]
    exact fun row hrow => nomatch hrow
  · rw [hwave]
    simp [bothResults, settlementRow, rowUnder]
  · rw [hwave]
    exact hopened

theorem callsOpen_fold (callIDs : List String) (hfold : ((callsOpen callIDs).foldlM (foldStep "s")
      (Folding.ofSeed emptyState)).map (fun f => (f.parents.get? "first", f.parents.get? "second", f.openCalls "turn")) =
    some (some (some "turn"), some (some "turn"), callIDs.map fun callID => (callID, "read"))) :
    ∃ f, (callsOpen callIDs).foldlM (foldStep "s") (Folding.ofSeed emptyState) = some f ∧
      f.parents.get? "first" = some (some "turn") ∧ f.parents.get? "second" = some (some "turn") ∧
      f.openCalls "turn" = callIDs.map fun callID => (callID, "read") := by
  obtain ⟨f, hf, heq⟩ := map_eq_some_iff.mp hfold
  exact ⟨f, hf, congrArg Prod.fst heq, congrArg (fun x => x.2.1) heq, congrArg (fun x => x.2.2) heq⟩

theorem settlements_commute_other_ids : Commutes "s" (callsOpen ["a", "b"]) (bothResults "a" "b") := by
  obtain ⟨f, hf, hfirst, hsecond, hopen⟩ := callsOpen_fold ["a", "b"] (by decide)
  have hwave : IsWave "s" f "turn" (bothResults "a" "b") := by
    apply isWave_bothResults (by decide) hfirst hsecond
    rw [hopen]
    have hcalls : (bothResults "a" "b").map rowCall = ([("a", "read"), ("b", "read")] : List (String × String)).map some := by
      decide
    rw [hcalls]
    exact List.Subperm.refl _
  have hsame : SameResults (bothResults "a" "b") := by
    unfold SameResults
    decide
  exact ((settlements_commute_iff hf).1 "turn" _ hwave).mpr hsame

/-- Two calls under one id: the result that comes first settles both. -/
theorem settlements_order_shows : ¬ ∀ front f turnId rows,
    front.foldlM (foldStep "s") (Folding.ofSeed emptyState) = some f → IsWave "s" f turnId rows →
      Commutes "s" front rows := by
  intro hclaim
  obtain ⟨f, hf, hfirst, hsecond, hopen⟩ := callsOpen_fold ["a", "a"] (by decide)
  have hwave : IsWave "s" f "turn" (bothResults "a" "a") := by
    apply isWave_bothResults (by decide) hfirst hsecond
    rw [hopen]
    have hcalls : (bothResults "a" "a").map rowCall = ([("a", "read"), ("a", "read")] : List (String × String)).map some := by
      decide
    rw [hcalls]
    exact List.Subperm.refl _
  have hsame : ¬ SameResults (bothResults "a" "a") := by
    unfold SameResults
    decide
  exact hsame (hwave.sameResults hf (hclaim _ _ _ _ hf hwave))

end
end OpenOmni

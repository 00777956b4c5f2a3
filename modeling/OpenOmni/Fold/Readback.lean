import OpenOmni.Fold.State

/-! What a schema reads of a written value is the value that was written, wherever it reads one. -/
namespace OpenOmni
open Option (bind_eq_some_iff map_eq_some_iff)

open PlainValue SessionTransition

def ReadsBack {α : Type} (read : PlainValue → Option α) (write : α → PlainValue) : Prop :=
  ∀ a b, read (write a) = some b → b = a

lemma readEpoch_eq {q r : ℚ} (h : readEpoch (.num q) = some r) : r = q := by
  have hfilter := (Option.filter_eq_some_iff.mp h).1
  exact (Option.some.inj hfilter).symm

lemma readId_eq {s t : String} (h : readId (.str s) = some t) : t = s := by
  have hfilter := (Option.filter_eq_some_iff.mp h).1
  exact (Option.some.inj hfilter).symm

lemma asCount_eq {n m : ℕ} (h : asCount (.num n) = some m) : m = n := by
  rw [asCount_num] at h
  split at h
  · exact (Option.some.inj h).symm
  · cases h

variable {α : Type} {read : PlainValue → Option α} {write : α → PlainValue} {a b : Option α} {l m : List α}

lemma optional_eq (hread : ReadsBack read write) (h : optional read (a.map write) = some b) : b = a := by
  cases a with
  | none => exact (Option.some.inj h).symm
  | some a =>
    obtain ⟨c, hc, rfl⟩ := map_eq_some_iff.mp h
    rw [hread a c hc]

lemma nullable_eq (hread : ReadsBack read write) (hnull : ∀ a, write a ≠ .null)
    (h : nullable read (ofNullable write a) = some b) : b = a := by
  cases a with
  | none => exact (Option.some.inj h).symm
  | some a =>
    have hsome : nullable read (write a) = (read (write a)).map some := by
      cases hcase : write a with
      | null => exact absurd hcase (hnull a)
      | _ => rfl
    unfold ofNullable at h
    dsimp only at h
    rw [hsome] at h
    obtain ⟨c, hc, rfl⟩ := map_eq_some_iff.mp h
    rw [hread a c hc]

lemma nullable_readId_eq {a b : Option String} (h : nullable readId (ofNullable .str a) = some b) : b = a :=
  nullable_eq (fun _ _ => readId_eq) (fun _ => nofun) h

lemma mapM_eq (hread : ReadsBack read write) (h : (l.map write).mapM read = some m) : m = l := by
  induction l generalizing m with
  | nil => exact (Option.some.inj h).symm
  | cons a l ih =>
    rw [List.map_cons, List.mapM_cons] at h
    obtain ⟨b, hb, h⟩ := bind_eq_some_iff.mp h
    obtain ⟨rest, hrest, h⟩ := bind_eq_some_iff.mp h
    cases h
    rw [hread a b hb, ih hrest]

lemma asList_eq (hread : ReadsBack read write) (h : asList read (.arr (l.map write)) = some m) :
    m = l := mapM_eq hread h

namespace Tool

lemma State.ofPlain_eq : ReadsBack State.ofPlain State.toPlain := by
  intro a b h
  cases a with
  | pending input =>
    simp [State.ofPlain, State.toPlain, field, get?_record, List.lookup] at h
    exact h.symm
  | running input start =>
    simp [State.ofPlain, State.toPlain, readStart, startTime, field, get?_record, List.lookup, bind_eq_some_iff] at h
    obtain ⟨start', hstart, rfl⟩ := h
    rw [readEpoch_eq hstart]
  | completed input output title metadata start stop | error input message start stop =>
    simp [State.ofPlain, State.toPlain, readStart, readEnd, spanTime, field, get?_record, List.lookup, bind_eq_some_iff] at h
    obtain ⟨start', hstart, stop', hstop, rfl⟩ := h
    rw [readEpoch_eq hstart, readEpoch_eq hstop]

end Tool

namespace Message

lemma PartTime.ofPlain_eq : ReadsBack PartTime.ofPlain PartTime.toPlain := by
  intro a b h
  simp [PartTime.ofPlain, PartTime.toPlain, field, get?_record, List.lookup, bind_eq_some_iff] at h
  obtain ⟨start, hstart, stop, hstop, rfl⟩ := h
  rw [readEpoch_eq hstart, optional_eq (fun _ _ => readEpoch_eq) hstop]

lemma Tokens.ofPlain_eq : ReadsBack Tokens.ofPlain Tokens.toPlain := by
  intro a b h
  simp [Tokens.ofPlain, Tokens.toPlain, field, get?_record, List.lookup, bind_eq_some_iff, -asCount_num] at h
  obtain ⟨input, hinput, output, houtput, reasoning, hreasoning, read, hread, write, hwrite, rfl⟩ := h
  rw [asCount_eq hinput, asCount_eq houtput, asCount_eq hreasoning, asCount_eq hread, asCount_eq hwrite]

lemma readLane_eq {v : PlainValue} {key : String} {m : ℕ} (h : readLane v key = some m) (n : ℕ)
    (hkey : v.get? key = some (.num n)) : m = n := by
  unfold readLane at h
  rw [hkey, optional_some] at h
  obtain ⟨o, ho, rfl⟩ := map_eq_some_iff.mp h
  obtain ⟨k, hk, rfl⟩ := map_eq_some_iff.mp ho
  exact asCount_eq hk

lemma Tokens.ofStep_eq : ReadsBack Tokens.ofStep Tokens.toPlain := by
  intro a b h
  simp [Tokens.ofStep, Tokens.toPlain, field, get?_record, List.lookup, bind_eq_some_iff, -asCount_num] at h
  obtain ⟨input, hinput, output, houtput, reasoning, hreasoning, read, hread, write, hwrite, rfl⟩ := h
  rw [asCount_eq hinput, asCount_eq houtput, readLane_eq hreasoning a.reasoning (by simp [get?_record, List.lookup]),
    readLane_eq hread a.cacheRead (by simp [get?_record, List.lookup]),
    readLane_eq hwrite a.cacheWrite (by simp [get?_record, List.lookup])]

lemma Part.ofPlain_eq : ReadsBack Part.ofPlain Part.toPlain := by
  intro a b h
  cases a with
  | text base body time metadata =>
    simp [Part.ofPlain, Part.toPlain, PartBase.ofPlain, PartBase.slots, field, get?_record, List.lookup, bind_eq_some_iff] at h
    obtain ⟨time', htime, rfl⟩ := h
    rw [optional_eq PartTime.ofPlain_eq htime]
  | reasoning base body signature time metadata =>
    simp [Part.ofPlain, Part.toPlain, PartBase.ofPlain, PartBase.slots, field, get?_record, List.lookup, bind_eq_some_iff] at h
    obtain ⟨time', htime, rfl⟩ := h
    rw [PartTime.ofPlain_eq _ _ htime]
  | stepStart base =>
    simp [Part.ofPlain, Part.toPlain, PartBase.ofPlain, PartBase.slots, field, get?_record, List.lookup] at h
    exact h.symm
  | stepFinish base reason tokens =>
    simp [Part.ofPlain, Part.toPlain, PartBase.ofPlain, PartBase.slots, field, get?_record, List.lookup, bind_eq_some_iff] at h
    obtain ⟨tokens', htokens, rfl⟩ := h
    rw [Tokens.ofStep_eq _ _ htokens]
  | tool base callID name state =>
    simp [Part.ofPlain, Part.toPlain, PartBase.ofPlain, PartBase.slots, field, get?_record, List.lookup, bind_eq_some_iff] at h
    obtain ⟨state', hstate, rfl⟩ := h
    rw [Tool.State.ofPlain_eq _ _ hstate]

lemma Info.ofPlain_eq : ReadsBack Info.ofPlain Info.toPlain := by
  intro a b h
  cases a with
  | user m =>
    have htools : ∀ tools : Option (List (String × Bool)), optional (fun tools => tools.asObj.bind (·.mapM readFlag))
        (tools.map fun tools => .obj (tools.map fun e => (e.1, .bool e.2))) = some tools := by
      intro tools
      cases tools with
      | none => rfl
      | some tools =>
        have hread := mapM_readFlag tools
        simpa using hread
    simp [Info.ofPlain, Info.toPlain, UserMessage.ofPlain, UserMessage.toPlain, field, get?_record, List.lookup,
      htools, bind_eq_some_iff] at h
    obtain ⟨created, hcreated, rfl⟩ := h
    rw [readEpoch_eq hcreated]
  | assistant m =>
    have hpath : ∀ path : Option (String × String), optional readPath
        (path.map fun path => record [("cwd", some (.str path.1)), ("root", some (.str path.2))]) = some path := by
      intro path
      cases path with
      | none => rfl
      | some path => simp [readPath, field, get?_record, List.lookup]
    simp [Info.ofPlain, Info.toPlain, AssistantMessage.ofPlain, AssistantMessage.toPlain, field, get?_record, List.lookup,
      hpath, bind_eq_some_iff] at h
    obtain ⟨created, hcreated, completed, hcompleted, tokens, htokens, rfl⟩ := h
    rw [readEpoch_eq hcreated, optional_eq (fun _ _ => readEpoch_eq) hcompleted, Tokens.ofPlain_eq _ _ htokens]

lemma WithParts.ofPlain_eq : ReadsBack WithParts.ofPlain WithParts.toPlain := by
  intro a b h
  simp [WithParts.ofPlain, WithParts.toPlain, field, get?_record, List.lookup, bind_eq_some_iff, -List.map_map] at h
  obtain ⟨info, hinfo, parts, hparts, rfl⟩ := h
  rw [Info.ofPlain_eq _ _ hinfo, asList_eq Part.ofPlain_eq hparts]

end Message

namespace FoldCheckpoint

lemma readLink_eq : ReadsBack (readPair readId (nullable readId)) linkToPlain := by
  rintro ⟨id, other⟩ b h
  obtain ⟨id', hid, h⟩ := bind_eq_some_iff.mp h
  obtain ⟨other', hother, h⟩ := bind_eq_some_iff.mp h
  cases h
  rw [readId_eq hid, nullable_readId_eq hother]

lemma readOpenTool_eq : ReadsBack (readPair readId readEpoch) openToolToPlain := by
  rintro ⟨id, start⟩ b h
  obtain ⟨id', hid, h⟩ := bind_eq_some_iff.mp h
  obtain ⟨start', hstart, h⟩ := bind_eq_some_iff.mp h
  cases h
  rw [readId_eq hid, readEpoch_eq hstart]

lemma BudgetState.ofPlain_eq : ReadsBack BudgetState.ofPlain BudgetState.toPlain := by
  intro a b h
  have hstrict : a.toPlain.strict budgetKeys = true := strict_record (by simp [budgetKeys])
  unfold BudgetState.ofPlain at h
  rw [hstrict] at h
  simp [BudgetState.toPlain, field, get?_record, List.lookup, bind_eq_some_iff, -asCount_num] at h
  obtain ⟨start, hstart, charged, hcharged, turns, hturns, calls, hcalls, runtime, hruntime, input, hinput, output,
    houtput, through, hthrough, tools, htools, rfl⟩ := h
  rw [readEpoch_eq hstart, readEpoch_eq hcharged, asCount_eq hturns, asCount_eq hcalls, asCount_cast hruntime,
    asCount_eq hinput, asCount_eq houtput, readEpoch_eq hthrough, asList_eq readOpenTool_eq htools]

lemma CompatibilityRow.ofPlain_eq : ReadsBack CompatibilityRow.ofPlain CompatibilityRow.toPlain := by
  intro a b h
  have hrole : readEnum Speaker.members Speaker.text (.str a.role.text) = some a.role :=
    readEnum_text (by decide) (by cases a.role <;> decide)
  have hstrict : a.toPlain.strict ["id", "role", "text"] = true := strict_record (by simp)
  unfold CompatibilityRow.ofPlain at h
  rw [hstrict] at h
  simp [CompatibilityRow.toPlain, field, get?_record, List.lookup, hrole, bind_eq_some_iff] at h
  obtain ⟨id, hid, rfl⟩ := h
  rw [readId_eq hid]

theorem State.ofPlain_eq : ReadsBack State.ofPlain State.toPlain := by
  intro a b h
  have hstrict : a.toPlain.strict stateKeys = true := strict_record (by simp [stateKeys])
  unfold State.ofPlain at h
  rw [hstrict] at h
  simp [State.toPlain, field, get?_record, List.lookup, bind_eq_some_iff, -List.map_map] at h
  obtain ⟨messages, hmessages, turns, hturns, parents, hparents, rows, hrows, successor, hsuccessor, budget, hbudget,
    rfl⟩ := h
  have hnull : ReadsBack (nullable BudgetState.ofPlain) (ofNullable BudgetState.toPlain) := fun _ _ hread =>
    nullable_eq BudgetState.ofPlain_eq (by rintro _ ⟨⟩) hread
  rw [asList_eq Message.WithParts.ofPlain_eq hmessages, asList_eq readLink_eq hturns, asList_eq readLink_eq hparents,
    asList_eq CompatibilityRow.ofPlain_eq hrows, nullable_readId_eq hsuccessor, optional_eq hnull hbudget]

lemma Intent.ofPlain_eq : ReadsBack Intent.ofPlain Intent.toPlain := by
  intro a b h
  have hreason : readEnum Reason.members Reason.text (.str a.reason.text) = some a.reason :=
    readEnum_text (by decide) (by cases a.reason <;> decide)
  have hstrict : a.toPlain.strict ["phase", "revision", "foldVersion", "reason"] = true := strict_record (by simp)
  unfold Intent.ofPlain at h
  rw [hstrict] at h
  simp [Intent.toPlain, field, get?_record, List.lookup, hreason, bind_eq_some_iff, -asCount_num] at h
  obtain ⟨revision, hrevision, rfl⟩ := h
  rw [asCount_eq hrevision]

lemma Result.ofPlain_eq : ReadsBack Result.ofPlain Result.toPlain := by
  intro a b h
  have hstrict : a.toPlain.strict ["revision", "foldVersion", "stateHash", "state"] = true := strict_record (by simp)
  unfold Result.ofPlain at h
  rw [hstrict] at h
  simp [Result.toPlain, field, get?_record, List.lookup, bind_eq_some_iff, -asCount_num] at h
  obtain ⟨revision, hrevision, hash, hhash, state, hstate, rfl⟩ := h
  rw [asCount_eq hrevision, readId_eq hhash, State.ofPlain_eq _ _ hstate]

lemma effectOfPlain_eq : ReadsBack effectOfPlain effectToPlain := by
  intro a b h
  have hstrict : (effectToPlain a).strict ["phase", "terminal", "result"] = true := strict_record (by simp)
  unfold effectOfPlain at h
  rw [hstrict] at h
  simp [effectToPlain, field, get?_record, List.lookup] at h
  exact Result.ofPlain_eq _ _ h

end FoldCheckpoint
end OpenOmni

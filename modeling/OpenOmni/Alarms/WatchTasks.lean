import OpenOmni.Alarms.Watch

/-! What a watch's handlers still may do: what each prompts and arms on its way to its end. -/
namespace OpenOmni
namespace Watch

namespace Task
variable {ρ : Type}

/-- It leaves the main chain and the hits alone: no prompt but the companion's, no timed arm of the main chain. -/
def Aside : Task ρ → Prop
  | .done _ => True
  | .prompt wake committed refused => wake.chain = .timeout ∧ committed.Aside ∧ refused.Aside
  | .arm input committed refused => (input.chain = .main → input.at = none) ∧ (∀ n, (committed n).Aside) ∧ refused.Aside
  | .latestArm _ next => ∀ row, (next row).Aside
  | .install installed refused => installed.Aside ∧ refused.Aside

/-- With the main chain unarmed, it prompts nothing and arms nothing. -/
def Quiet : Task ρ → Prop
  | .done _ => True
  | .prompt _ _ _ => False
  | .arm input committed refused => input.at = none ∧ (∀ n, (committed n).Quiet) ∧ refused.Quiet
  | .latestArm chain next => ∀ row, (chain = .main → row = none) → (next row).Quiet
  | .install installed refused => installed.Quiet ∧ refused.Quiet

def Settles : Task ρ → Prop
  | .done _ => True
  | .prompt _ committed refused => committed.Settles ∧ refused.Settles
  | .arm input committed refused =>
    (input.chain = .main → input.at = none → ∀ n, (committed n).Quiet) ∧ (∀ n, (committed n).Settles) ∧ refused.Settles
  | .latestArm _ next => ∀ row, (next row).Settles
  | .install installed refused => installed.Settles ∧ refused.Settles

/-- It prompts for one occurrence of the main chain, and arms the chain only behind that prompt, with
the budget one wake more. -/
def Spends (limit armSeq notifications : ℕ) : Bool → Task ρ → Prop
  | _, .done _ => True
  | prompted, .prompt wake committed refused =>
    (wake.chain = .main ∧ wake.armSeq = armSeq) ∧ committed.Spends limit armSeq notifications true ∧
      refused.Spends limit armSeq notifications prompted
  | prompted, .arm input committed refused =>
    (input.chain = .main → input.at.isSome = true → prompted = true ∧ input.payload = .budget (notifications + 1) ∧
      notifications + 1 < limit ∧ ∀ n, (committed n).Aside) ∧
    (∀ n, (committed n).Spends limit armSeq notifications prompted) ∧ refused.Spends limit armSeq notifications prompted
  | prompted, .latestArm _ next => ∀ row, (next row).Spends limit armSeq notifications prompted
  | prompted, .install installed refused =>
    installed.Spends limit armSeq notifications prompted ∧ refused.Spends limit armSeq notifications prompted

end Task

variable {next : Task FiredOutcome} {notifications : ℕ}

lemma retireTimeoutCompanion_quiet (h : next.Quiet) : (retireTimeoutCompanion next).Quiet := by
  intro row _
  cases row with
  | none => exact h
  | some companion => exact ⟨rfl, fun _ => h, trivial⟩

lemma retireTimeoutCompanion_settles (h : next.Settles) : (retireTimeoutCompanion next).Settles := by
  intro row
  cases row with
  | none => exact h
  | some companion => exact ⟨nofun, fun _ => h, trivial⟩

lemma retireTimeoutCompanion_spends {limit armSeq : ℕ} {prompted : Bool}
    (h : next.Spends limit armSeq notifications prompted) :
    (retireTimeoutCompanion next).Spends limit armSeq notifications prompted := by
  intro row
  cases row with
  | none => exact h
  | some companion => exact ⟨nofun, fun _ => h, trivial⟩

lemma monitorHit_settles (spec : Spec) (o : Occurrence) (now : ℚ) : (monitorHit spec o now).Settles := by
  unfold monitorHit
  split
  · refine ⟨?_, trivial⟩
    split_ifs
    · exact ⟨fun _ _ _ => retireTimeoutCompanion_quiet trivial, fun _ => retireTimeoutCompanion_settles trivial, trivial⟩
    · exact ⟨fun _ _ _ => retireTimeoutCompanion_quiet trivial, fun _ => retireTimeoutCompanion_settles trivial, trivial⟩
    · exact ⟨nofun, fun _ => trivial, trivial⟩
  · trivial

lemma monitorHit_spends (spec : Spec) (o : Occurrence) (now : ℚ) (hpayload : o.payload = .budget notifications) :
    (monitorHit spec o now).Spends spec.notificationLimit o.armSeq notifications false := by
  unfold monitorHit
  rw [hpayload]
  cases o.hit with
  | none => trivial
  | some hit =>
    refine ⟨⟨rfl, rfl⟩, ?_, trivial⟩
    split_ifs with hterminal hlimit
    · exact ⟨fun _ => nofun, fun _ => retireTimeoutCompanion_spends trivial, trivial⟩
    · exact ⟨fun _ => nofun, fun _ => retireTimeoutCompanion_spends trivial, trivial⟩
    · exact ⟨fun _ _ => ⟨rfl, rfl, Nat.lt_of_not_le hlimit, fun _ => trivial⟩, fun _ => trivial, trivial⟩

lemma monitorTimeout_aside (o : Occurrence) : (monitorTimeout o).Aside := by
  unfold monitorTimeout
  split
  · intro row
    cases row with
    | none => trivial
    | some latest => exact ⟨rfl, ⟨fun _ => rfl, fun _ => trivial, trivial⟩, trivial⟩
  · trivial

lemma monitorTimeout_quiet (o : Occurrence) : (monitorTimeout o).Quiet := by
  unfold monitorTimeout
  split
  · intro row hmain
    rw [hmain rfl]
    trivial
  · trivial

lemma monitorTimeout_settles (o : Occurrence) : (monitorTimeout o).Settles := by
  unfold monitorTimeout
  split
  · intro row
    cases row with
    | none => trivial
    | some latest => exact ⟨⟨fun _ _ _ => trivial, fun _ => trivial, trivial⟩, trivial⟩
  · trivial

lemma compensateTimeout_quiet (timeout : Option ℕ) : (compensateTimeout timeout).Quiet := by
  cases timeout with
  | none => trivial
  | some timeout => exact ⟨rfl, fun _ => trivial, trivial⟩

lemma compensateTimeout_settles (timeout : Option ℕ) : (compensateTimeout timeout).Settles := by
  cases timeout with
  | none => trivial
  | some timeout => exact ⟨nofun, fun _ => trivial, trivial⟩

lemma compensateTimeout_aside (timeout : Option ℕ) : (compensateTimeout timeout).Aside := by
  cases timeout with
  | none => trivial
  | some timeout => exact ⟨nofun, fun _ => trivial, trivial⟩

lemma compensate_settles (main : ℕ) (timeout : Option ℕ) (reason : Reason) : (compensate main timeout reason).Settles :=
  ⟨fun _ _ _ => compensateTimeout_quiet timeout, fun _ => compensateTimeout_settles timeout, compensateTimeout_settles timeout⟩

lemma compensate_aside (main : ℕ) (timeout : Option ℕ) (reason : Reason) : (compensate main timeout reason).Aside :=
  ⟨fun _ => rfl, fun _ => compensateTimeout_aside timeout, compensateTimeout_aside timeout⟩

lemma created_settles (spec : Spec) (now : ℚ) (main : ℕ) :
    (match spec.timeoutMs with
      | none => installSource main none
      | some ms => .arm ⟨.timeout, some (now + ms), none, .watchId⟩
          (fun timeout => installSource main (some timeout)) (compensate main none .create)).Settles := by
  cases spec.timeoutMs with
  | none => exact ⟨trivial, compensate_settles main none .install⟩
  | some ms => exact ⟨nofun, fun timeout => ⟨trivial, compensate_settles main (some timeout) .install⟩,
      compensate_settles main none .create⟩

lemma created_aside (spec : Spec) (now : ℚ) (main : ℕ) :
    (match spec.timeoutMs with
      | none => installSource main none
      | some ms => .arm ⟨.timeout, some (now + ms), none, .watchId⟩
          (fun timeout => installSource main (some timeout)) (compensate main none .create)).Aside := by
  cases spec.timeoutMs with
  | none => exact ⟨trivial, compensate_aside main none .install⟩
  | some ms => exact ⟨nofun, fun timeout => ⟨trivial, compensate_aside main (some timeout) .install⟩,
      compensate_aside main none .create⟩

lemma createWatchVerb_settles (spec : Spec) (now : ℚ) : (createWatchVerb spec now).Settles :=
  ⟨nofun, created_settles spec now, trivial⟩

lemma alarmOccurrence_settles (spec : Spec) (f : File) (o : Occurrence) (capable : Bool) (now : ℚ) :
    (alarmOccurrence spec f o capable now).2.Settles := by
  unfold alarmOccurrence wake
  dsimp only
  split_ifs
  · trivial
  · cases o.chain with
    | main => exact monitorHit_settles spec o now
    | timeout => exact monitorTimeout_settles o
  · trivial
  · trivial

lemma alarmOccurrence_quiet (spec : Spec) {f : File} (o : Occurrence) (capable : Bool) (now : ℚ)
    (hmain : f.armed .main = none) : (alarmOccurrence spec f o capable now).2.Quiet := by
  unfold alarmOccurrence wake
  dsimp only
  split_ifs with hruns
  · trivial
  · cases hchain : o.chain with
    | main =>
      unfold File.runs at hruns
      rw [hchain, hmain] at hruns
      simp at hruns
    | timeout => exact monitorTimeout_quiet o
  · trivial
  · trivial

lemma alarmOccurrence_file (spec : Spec) (f : File) (o : Occurrence) (capable : Bool) (now : ℚ) :
    (alarmOccurrence spec f o capable now).1 = f ∨ (alarmOccurrence spec f o capable now).1 = f.strike o.chain := by
  unfold alarmOccurrence
  dsimp only
  split_ifs
  · exact .inr rfl
  · exact .inr rfl
  · exact .inl rfl

end Watch
end OpenOmni

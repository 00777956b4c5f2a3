import OpenOmni.Lib.Results
import OpenOmni.Session.ActivationFence
import OpenOmni.Session.EntityForward

/-! Runs of the arm verb and its forwarder: the budget, the queue, and what is sent. -/
namespace OpenOmni
namespace Forwarder
open List
open Option (bind_eq_some_iff filter_eq_some_iff map_eq_some_iff some_ne_none)

open PlainValue SessionTransition

theorem armSeqOf_arm (alarmId : String) (n : ℕ) : armSeqOf (alarmId ++ ":arm:" ++ toString n) alarmId = some n := by
  have hdigits : (alarmId ++ ":arm:" ++ toString n).toList.drop (alarmId ++ ":arm:").length = Nat.toDigits 10 n := by
    rw [String.toList_append, ← String.length_toList, drop_left]
    exact Nat.toList_repr
  have hall : (Nat.toDigits 10 n).all Char.isDigit = true :=
    all_eq_true.mpr fun c hc => Nat.isDigit_of_mem_toDigits (by decide) (by decide) hc
  unfold armSeqOf
  rw [hdigits]
  dsimp only
  rw [if_pos hall, Nat.ofDigitChars_ten_toDigits]

section
variable [PlainCoding] {cap : ℕ} {arm : Arm}

section
variable (haccepted : refuseRow cap (armAction arm) = none)
include haccepted

theorem names_of_accepted : arm.alarmId ≠ "" ∧ arm.purpose ≠ "" ∧ arm.sourceKey ≠ "" := by
  have hissue : Journal.firstIssue .alarm (armAction arm).intent (armAction arm).effect = none :=
    firstIssue_of_accepted haccepted
  have hchecks := findSome?_eq_none_iff.mp (Option.bind_eq_none_iff.mp hissue _ rfl)
  have hnonempty : ∀ key s, ⟨.intent, key, isNonempty⟩ ∈ (Journal.declarationFor .alarm).getD [] →
      (armAction arm).intent.get? key = some (.str s) → s ≠ "" := by
    rintro key s hmem hget rfl
    have hcheck := hchecks _ hmem
    simp [Journal.refineField, hget, isNonempty, isId] at hcheck
  refine ⟨hnonempty "alarmId" _ ?_ ?_, hnonempty "purpose" _ ?_ (armAction_purpose arm), hnonempty "sourceKey" _ ?_ ?_⟩
  · simp [Journal.declarationFor]
  · simp [armAction, get?_record, List.lookup]
  · simp [Journal.declarationFor]
  · simp [Journal.declarationFor]
  · simp [armAction, get?_record, List.lookup]

lemma armDelta_of_accepted : armedAlarmDelta (armAction arm) = some (match arm.at with
      | none => .retire arm.alarmId
      | some fireAt => .upsert arm.alarmId arm.occurrenceId fireAt) :=
  armDelta_armAction (names_of_accepted haccepted).1

theorem armedOccurrenceOf_arm (hobject : arm.payload.objectValue.isSome)
    {fireAt : ℚ} (hat : arm.at = some fireAt) :
    ∃ f, armedOccurrenceOf (armAction arm) = some f ∧ f.alarmId = arm.alarmId ∧ f.occurrenceId = arm.occurrenceId := by
  obtain ⟨halarm, hpurpose, hsource⟩ := names_of_accepted haccepted
  obtain ⟨payload, hpayload⟩ := Option.isSome_iff_exists.mp hobject
  have hocc : arm.occurrenceId ≠ "" := occurrenceId_ne_empty _ _ _ _
  have hseq : armSeqOf (armAction arm).id arm.alarmId = some arm.armSeq := armSeqOf_arm arm.alarmId arm.armSeq
  refine ⟨⟨arm.occurrenceId, arm.purpose, arm.alarmId, arm.armSeq, arm.sourceKey, payload, fireAt, none⟩, ?_, rfl, rfl⟩
  unfold armedOccurrenceOf
  have hkind : (armAction arm).kind = .alarm := rfl
  have hintent : ∀ key, (armAction arm).intent.get? key = (PlainValue.record [("op", some (.str "arm")),
      ("purpose", some (.str arm.purpose)), ("at", some (.ofNullable .num arm.at)),
      ("supersedes", some (.ofNullable .str arm.supersedes)), ("alarmId", some (.str arm.alarmId)),
      ("sourceKey", some (.str arm.sourceKey)), ("payload", some arm.payload)]).get? key := fun _ => rfl
  have heffect : (armAction arm).effect.get? "occurrenceId" = some (.str arm.occurrenceId) := by
    simp [armAction, get?_record, List.lookup]
  simp [hkind, field, hintent, heffect, get?_record, List.lookup, hat, halarm, hpurpose, hsource, hocc, hseq, hpayload,
    PlainValue.optional, ofNullable, asNum]

end

lemma armedOccurrenceOf_retire (hat : arm.at = none) : armedOccurrenceOf (armAction arm) = none := by
  unfold armedOccurrenceOf
  have hfield : field (armAction arm).intent "at" asNum = none := by
    simp [field, armAction, get?_record, List.lookup, hat, ofNullable, asNum]
  rw [hfield]
  simp

end

lemma armedOccurrenceOf_fired (input : Fired) : armedOccurrenceOf (firedAction input) = none := by
  have hop : ¬ (firedAction input).intent.get? "op" = some (.str "arm") := by
    simp [firedAction, get?_record, List.lookup]
  unfold armedOccurrenceOf
  simp [hop]

lemma armedOccurrenceOf_other {action : Append} (hkind : action.kind ≠ .alarm) : armedOccurrenceOf action = none := by
  unfold armedOccurrenceOf
  simp [hkind]

section
variable {rows : List Append} {armed armed' : List ArmedRow} {alarmId occurrenceId : String}

lemma armedBy_cons (action : Append) (rows : List Append) :
    armedBy (action :: rows) = armedBy [action] ++ armedBy rows := by
  unfold armedBy
  rw [← filterMap_append]
  rfl

variable {action : Append}

lemma applyDelta_some {delta : ArmedAlarmDelta} (h : armedAlarmDelta action = some delta) :
    applyDelta armed action = applyArmedAlarmDelta armed delta := by
  unfold applyDelta
  rw [h]

theorem isArmed_before_delta (h : applyDelta armed action = .ok armed') (hnot : alarmId ∉ armedBy [action])
    (harmed : IsArmed alarmId occurrenceId armed') : IsArmed alarmId occurrenceId armed := by
  unfold applyDelta at h
  unfold armedBy at hnot
  cases hdelta : armedAlarmDelta action with
  | none =>
    rw [hdelta] at h
    cases h
    exact harmed
  | some delta =>
    rw [hdelta] at h
    cases delta with
    | upsert other occurrence fireAt =>
      have hne : alarmId ≠ other := by
        rintro rfl
        simp [hdelta] at hnot
      rw [isArmed_upsert h, if_neg hne] at harmed
      exact harmed
    | retire other => exact ((isArmed_retire h).mp harmed).2
    | fired occurrence => exact ((isArmed_fired h).mp harmed).2

lemma isArmed_before (h : rows.foldlM applyDelta armed = .ok armed') (hnot : alarmId ∉ armedBy rows)
    (harmed : IsArmed alarmId occurrenceId armed') : IsArmed alarmId occurrenceId armed := by
  induction rows generalizing armed with
  | nil =>
    cases h
    exact harmed
  | cons action rows ih =>
    rw [foldlM_cons] at h
    rw [armedBy_cons, mem_append, not_or] at hnot
    obtain ⟨mid, hfirst, hrest⟩ := Results.bind_eq_ok.mp h
    exact isArmed_before_delta hfirst hnot.1 (ih hrest hnot.2)

end

section
variable {q : Dict String Entry} {sent : Dict String String} {alarmId occurrenceId : String} {entry : Entry}
  {entries : List Entry}

def Keyed (q : Dict String Entry) : Prop := ∀ alarmId entry, q.get? alarmId = some entry → entry.occurrence.alarmId = alarmId

lemma keyed_empty : Keyed .empty := fun _ _ h => nomatch h

lemma Keyed.erase (h : Keyed q) (alarmId : String) : Keyed (q.erase alarmId) := by
  intro other entry hget
  rw [Dict.get?_erase] at hget
  split at hget
  · cases hget
  · exact h other entry hget

lemma Keyed.queue (h : Keyed q) (entry : Entry) :
    Keyed ((q.erase entry.occurrence.alarmId).set entry.occurrence.alarmId entry) := by
  intro other found hget
  rw [Dict.get?_set] at hget
  split at hget
  · rename_i heq
    rw [← Option.some.inj hget, heq]
  · exact h.erase _ other found hget

lemma Keyed.queueAll (h : Keyed q) (entries : List Entry) : Keyed (queueAll q entries) := by
  induction entries generalizing q with
  | nil => exact h
  | cons entry entries ih => exact ih (h.queue entry)

lemma get?_first {rest : List (String × Entry)} (h : q.entries = (alarmId, entry) :: rest) : q.get? alarmId = some entry := by
  simp [Dict.get?, h]

lemma has_queue_self (q : Dict String Entry) (sent : Dict String String) (entry : Entry) :
    Has ((q.erase entry.occurrence.alarmId).set entry.occurrence.alarmId entry) sent entry.occurrence.alarmId
      entry.occurrence.occurrenceId := by
  left
  rw [Dict.get?_set_self]
  rfl

lemma Has.queue (h : Has q sent alarmId occurrenceId) (hne : alarmId ≠ entry.occurrence.alarmId) :
    Has ((q.erase entry.occurrence.alarmId).set entry.occurrence.alarmId entry) sent alarmId occurrenceId := by
  unfold Has
  rw [Dict.get?_set_of_ne _ _ hne, Dict.get?_erase, if_neg hne]
  exact h

variable {own own' : List String} {armed armed' : List ArmedRow}

lemma Covered.sub (h : Covered own armed q sent) (hown : ∀ alarmId ∈ own', alarmId ∈ own)
    (harmed : ∀ alarmId ∈ own', ∀ occurrenceId, IsArmed alarmId occurrenceId armed' → IsArmed alarmId occurrenceId armed) :
    Covered own' armed' q sent :=
  fun alarmId hmem occurrenceId hafter => h alarmId (hown alarmId hmem) occurrenceId (harmed alarmId hmem occurrenceId hafter)

theorem Covered.queue (h : Covered own armed q sent) (hkeys : ArmedKeys armed)
    (harmed : IsArmed entry.occurrence.alarmId entry.occurrence.occurrenceId armed) :
    Covered (entry.occurrence.alarmId :: own) armed
      ((q.erase entry.occurrence.alarmId).set entry.occurrence.alarmId entry) sent := by
  intro alarmId hmem occurrenceId hisArmed
  by_cases halarm : alarmId = entry.occurrence.alarmId
  · subst halarm
    obtain rfl : occurrenceId = entry.occurrence.occurrenceId := by
      obtain ⟨row, hrow, hid, rfl⟩ := hisArmed
      obtain ⟨other, hother, hid', hocc⟩ := harmed
      rw [← hocc, inj_on_of_nodup_map hkeys hrow hother (hid.trans hid'.symm)]
    exact has_queue_self q sent entry
  · exact (h alarmId ((mem_cons.mp hmem).resolve_left halarm) occurrenceId hisArmed).queue halarm

end

section
variable [PlainCoding] {cap : ℕ} {q : Dict String Entry} {sent : Dict String String} {own : List String}
  {armed armed' : List ArmedRow}

variable {arm : Arm} {action : Append}

lemma armedBy_retire (haccepted : refuseRow cap (armAction arm) = none) (hat : arm.at = none) :
    armedBy [armAction arm] = [] := by
  have hrow := armDelta_of_accepted haccepted
  rw [hat] at hrow
  simp [armedBy, hrow]

lemma armedBy_arm (haccepted : refuseRow cap (armAction arm) = none) (hat : arm.at ≠ none) :
    armedBy [armAction arm] = [arm.alarmId] := by
  obtain ⟨fireAt, hat⟩ := Option.ne_none_iff_exists'.mp hat
  have hrow := armDelta_of_accepted haccepted
  rw [hat] at hrow
  simp [armedBy, hrow]

omit [PlainCoding] in
lemma armedBy_fired (input : Fired) : armedBy [firedAction input] = [] := by
  have harm : armDeltaIntent (firedAction input).intent = none := by
    simp [armDeltaIntent, firedAction, get?_record, List.lookup]
  have hkind : (firedAction input).kind = .alarm := rfl
  unfold armedBy armedAlarmDelta
  cases hfired : firedDeltaIntent (firedAction input).intent <;> simp [harm, hkind, hfired]

omit [PlainCoding] in
lemma armedBy_other (hkind : action.kind ≠ .alarm) : armedBy [action] = [] := by
  simp [armedBy, armedAlarmDelta, hkind]

omit [PlainCoding] in
theorem Covered.still (h : Covered own armed q sent) (hdelta : applyDelta armed action = .ok armed')
    (harms : armedBy [action] = []) (hnone : armedOccurrenceOf action = none) :
    Covered (armedBy [action] ++ own) armed' (queueAll q (tapped [action])) sent := by
  have htapped : tapped [action] = [] := by simp [tapped, hnone]
  rw [harms, htapped]
  exact h.sub (fun _ hmem => hmem) fun alarmId _ occurrenceId hafter =>
    isArmed_before_delta hdelta (by rw [harms]; exact not_mem_nil) hafter

lemma Covered.row (h : Covered own armed q sent) {row : TapRow} (hvalid : row.valid = true)
    (haccepted : refuseRow cap row.toAppend = none) (hdelta : applyDelta armed row.toAppend = .ok armed') :
    Covered (armedBy [row.toAppend] ++ own) armed' (queueAll q (tapped [row.toAppend])) sent := by
  cases row with
  | arm input =>
    have hrow := armDelta_of_accepted haccepted
    cases hat : input.at with
    | none => exact h.still hdelta (armedBy_retire haccepted hat) (armedOccurrenceOf_retire hat)
    | some fireAt =>
      rw [hat] at hrow
      obtain ⟨f, hf, hfalarm, hfocc⟩ := armedOccurrenceOf_arm haccepted hvalid hat
      have hby : armedBy [armAction input] = [input.alarmId] := armedBy_arm haccepted (by rw [hat]; exact some_ne_none _)
      have htapped : tapped [armAction input] = [⟨f, .ignore⟩] := by simp [tapped, hf]
      have hupsert : applyArmedAlarmDelta armed (.upsert input.alarmId input.occurrenceId fireAt) = .ok armed' := by
        rw [← applyDelta_some hrow]
        exact hdelta
      change Covered (armedBy [armAction input] ++ own) armed' (queueAll q (tapped [armAction input])) sent
      rw [hby, htapped]
      intro alarmId hmem occurrenceId hafter
      rw [isArmed_upsert hupsert] at hafter
      by_cases hsame : alarmId = input.alarmId
      · rw [if_pos hsame] at hafter
        rw [hsame, hafter, ← hfalarm, ← hfocc]
        exact has_queue_self q sent ⟨f, .ignore⟩
      · rw [if_neg hsame] at hafter
        have hown : alarmId ∈ own := (mem_cons.mp hmem).resolve_left hsame
        have hne : alarmId ≠ (⟨f, .ignore⟩ : Entry).occurrence.alarmId := by
          rw [hfalarm]
          exact hsame
        exact (h alarmId hown occurrenceId hafter).queue hne
  | fired input => exact h.still hdelta (armedBy_fired input) (armedOccurrenceOf_fired input)
  | other action =>
    have hkind : action.kind ≠ .alarm := of_decide_eq_true hvalid
    exact h.still hdelta (armedBy_other hkind) (armedOccurrenceOf_other hkind)

omit [PlainCoding] in
lemma tapped_cons (action : Append) (rows : List Append) : tapped (action :: rows) = tapped [action] ++ tapped rows := by
  unfold tapped
  rw [← map_append, ← filterMap_append]
  rfl

omit [PlainCoding] in
lemma queueAll_append (q : Dict String Entry) (a b : List Entry) : queueAll q (a ++ b) = queueAll (queueAll q a) b :=
  foldl_append

theorem Covered.rows {rows : List TapRow} (h : Covered own armed q sent)
    (hvalid : ∀ row ∈ rows, row.valid = true) (haccepted : ∀ row ∈ rows, refuseRow cap row.toAppend = none)
    (hdeltas : (rows.map TapRow.toAppend).foldlM applyDelta armed = .ok armed') :
    Covered (armedBy (rows.map TapRow.toAppend) ++ own) armed' (queueAll q (tapped (rows.map TapRow.toAppend))) sent := by
  induction rows generalizing own armed q with
  | nil =>
    cases hdeltas
    exact h
  | cons row rows ih =>
    rw [map_cons, foldlM_cons] at hdeltas
    obtain ⟨mid, hfirst, hrest⟩ := Results.bind_eq_ok.mp hdeltas
    have hrow := h.row (hvalid row mem_cons_self) (haccepted row mem_cons_self) hfirst
    have hlater := ih hrow (fun r hr => hvalid r (mem_cons_of_mem _ hr))
      (fun r hr => haccepted r (mem_cons_of_mem _ hr)) hrest
    rw [map_cons, armedBy_cons, tapped_cons, queueAll_append]
    refine hlater.sub ?_ fun _ _ _ hafter => hafter
    intro alarmId hmem
    simp only [mem_append] at hmem ⊢
    tauto

end

section
variable {config : Config} {a : Activation} {entries : List Entry}

@[simp] theorem enqueue_sent : (a.enqueue config entries).sent = a.sent := by
  unfold Activation.enqueue
  split
  · rfl
  · split <;> rfl

@[simp] theorem enqueue_orphans : (a.enqueue config entries).orphans = a.orphans := by
  unfold Activation.enqueue
  split
  · rfl
  · split <;> rfl

@[simp] theorem enqueue_gate : (a.enqueue config entries).gate = a.gate := by
  unfold Activation.enqueue
  split
  · rfl
  · split <;> rfl

@[simp] theorem enqueue_closing : (a.enqueue config entries).closing = a.closing := by
  unfold Activation.enqueue
  split
  · rfl
  · split <;> rfl

@[simp] theorem enqueue_own : (a.enqueue config entries).own = a.own := by
  unfold Activation.enqueue
  split
  · rfl
  · split <;> rfl

lemma enqueue_queued (hsends : config.sends = true) (hclosing : a.closing = false) :
    (a.enqueue config entries).queued = queueAll a.queued entries := by
  unfold Activation.enqueue
  cases entries with
  | nil => simp [queueAll]
  | cons entry entries =>
    rw [if_neg (by simp [hsends, hclosing])]
    split <;> rfl

lemma Keyed.enqueue (h : Keyed a.queued) : Keyed (a.enqueue config entries).queued := by
  unfold Activation.enqueue
  split
  · exact h
  · split <;> exact h.queueAll entries

variable {rows : List Append}

@[simp] theorem committed_orphans : (a.committed config rows).orphans = a.orphans := enqueue_orphans

@[simp] theorem committed_gate : (a.committed config rows).gate = a.gate := enqueue_gate

variable {result : ArmEnd} {arming : Arming}

@[simp] theorem resumeForwards_queued : (a.resumeForwards result).queued = a.queued := by
  unfold Activation.resumeForwards
  split <;> rfl

@[simp] theorem resumeForwards_sent : (a.resumeForwards result).sent = a.sent := by
  unfold Activation.resumeForwards
  split <;> rfl

@[simp] theorem resumeForwards_orphans : (a.resumeForwards result).orphans = a.orphans := by
  unfold Activation.resumeForwards
  split <;> rfl

@[simp] theorem resumeForwards_gate : (a.resumeForwards result).gate = a.gate := by
  unfold Activation.resumeForwards
  split <;> rfl

@[simp] theorem resumeForwards_closing : (a.resumeForwards result).closing = a.closing := by
  unfold Activation.resumeForwards
  split <;> rfl

@[simp] theorem resumeForwards_own : (a.resumeForwards result).own = a.own := by
  unfold Activation.resumeForwards
  split <;> rfl

@[simp] theorem released_queued : (a.released arming result).queued = a.queued := by
  unfold Activation.released
  split
  · exact resumeForwards_queued
  · rfl

@[simp] theorem released_sent : (a.released arming result).sent = a.sent := by
  unfold Activation.released
  split
  · exact resumeForwards_sent
  · rfl

@[simp] theorem released_orphans : (a.released arming result).orphans = a.orphans := by
  unfold Activation.released
  split
  · exact resumeForwards_orphans
  · rfl

@[simp] theorem released_gate : (a.released arming result).gate = none := by
  unfold Activation.released
  split
  · exact resumeForwards_gate
  · rfl

@[simp] theorem released_closing : (a.released arming result).closing = a.closing := by
  unfold Activation.released
  split
  · exact resumeForwards_closing
  · rfl

@[simp] theorem released_own : (a.released arming result).own = a.own := by
  unfold Activation.released
  split
  · exact resumeForwards_own
  · rfl

theorem forward_cases (db : Db) (a : Activation) :
    (∃ q, (a.closing = false → q = a.queued) ∧ q.entries = [] ∧
      a.forward db = (none, { a with queued := q, running := false, fiber := none })) ∨
    ∃ alarmId entry, a.closing = false ∧ a.queued.get? alarmId = some entry ∧
      ((db.latestArm entry.occurrence.alarmId).map (·.occurrenceId) ≠ some entry.occurrence.occurrenceId ∧
          a.forward db = (none, { a with queued := a.queued.erase alarmId }) ∨
        (db.latestArm entry.occurrence.alarmId).map (·.occurrenceId) = some entry.occurrence.occurrenceId ∧
          a.forward db = (some entry.occurrence,
            { a with queued := a.queued.erase alarmId,
                     sent := a.sent.set entry.occurrence.alarmId entry.occurrence.occurrenceId,
                     fiber := some (.sending entry) })) := by
  unfold Activation.forward Activation.take
  cases hentries : a.queued.entries with
  | nil => exact .inl ⟨a.queued, fun _ => rfl, hentries, rfl⟩
  | cons first rest =>
    obtain ⟨alarmId, entry⟩ := first
    by_cases hclosing : a.closing = true
    · refine .inl ⟨.empty, fun h => ?_, rfl, by simp [hclosing]⟩
      rw [hclosing] at h
      cases h
    · refine .inr ⟨alarmId, entry, Bool.not_eq_true _ ▸ hclosing, get?_first hentries, ?_⟩
      by_cases hcurrent :
          (db.latestArm entry.occurrence.alarmId).map (·.occurrenceId) = some entry.occurrence.occurrenceId
      · exact .inr ⟨hcurrent, by simp [hclosing, hcurrent]⟩
      · exact .inl ⟨hcurrent, by simp [hclosing, hcurrent]⟩

end

section
variable [PlainCoding]

inductive Moves (cap : ℕ) (config : Config) (sessionId : String) (s : ArmSystem) : ArmEvent → ArmSystem → Prop where
  | same {event : ArmEvent} (hnot : ∀ a, ¬ Fails cap config sessionId s a event) : Moves cap config sessionId s event s
  | outside {op : WriteOp} {db : Db} (hdb : db = s.db ∨ Wrote op.rows s.db db) :
      Moves cap config sessionId s (.outside op)
        ⟨db, s.activation.map fun a => { a with own := spared a.own op.rows }, spared s.accepted op.rows⟩
  | strike {occurrenceId : String} :
      Moves cap config sessionId s (.strike occurrenceId)
        { s with db := { s.db with armed := strikeArmed occurrenceId s.db.armed } }
  | opened {authority : Authority} {resent : List Entry} (hnone : s.activation = none) :
      Moves cap config sessionId s (.opened authority)
        { s with activation := some (({ authority } : Activation).enqueue config resent) }
  | held {event : ArmEvent} {a : Activation} {arming g : Arming} (ha : s.activation = some a) (hgate : a.gate = none)
      (harm : entityArm config sessionId s.db a g.input = .ok arming) (horphan : g.orphan = arming.orphan)
      (hfiber : g.forwarder = true → ∃ entry reason, a.fiber = some (.refused entry reason)) (hevent : g.input.at = none ∨ event = .arm g.input)
      (hnot : ¬ Fails cap config sessionId s a event) :
      Moves cap config sessionId s event { s with activation := some { a with gate := some g } }
  | survived {a : Activation} {code : ArmRefused} (ha : s.activation = some a) (hgate : a.gate = none) (hfiber : a.fiber.isSome)
      (hfails : Fails cap config sessionId s a .retire ↔ (ArmEnd.refused code).survived = false) :
      Moves cap config sessionId s .retire { s with activation := some (a.resumeForwards (.refused code)) }
  | abandoned {a : Activation} (ha : s.activation = some a) :
      Moves cap config sessionId s .abandon { s with activation := some { a with gate := none } }
  | armRefused {a : Activation} {arming : Arming} {now : ℚ} {result : ArmEnd} (ha : s.activation = some a)
      (hgate : a.gate = some arming)
      (hfails : Fails cap config sessionId s a (.commitArm now) ↔ arming.forwarder = true ∧ result.survived = false) :
      Moves cap config sessionId s (.commitArm now) { s with activation := some (a.released arming result) }
  | armed {a : Activation} {arming : Arming} {now : ℚ} {db : Db} {arm : Arm} (ha : s.activation = some a)
      (hgate : a.gate = some arming) (hwrote : Wrote [armAction arm] s.db db)
      (haccepted : refuseRow cap (armAction arm) = none) (hobject : arm.payload.objectValue.isSome)
      (halarm : arm.alarmId = arming.input.chain sessionId) (hat : arm.at = arming.input.at)
      (hnot : ¬ Fails cap config sessionId s a (.commitArm now)) :
      Moves cap config sessionId s (.commitArm now)
        ⟨db, some (((a.committed config [armAction arm]).orphan arming.orphan).released arming .armed),
          armedBy [armAction arm] ++ s.accepted⟩
  | committed {a : Activation} {rows : List TapRow} {input : Commit} {db : Db} (ha : s.activation = some a)
      (hwrote : Wrote (rows.map TapRow.toAppend) s.db db) (haccepted : ∀ row ∈ rows, refuseRow cap row.toAppend = none)
      (hvalid : ∀ row ∈ rows, row.valid = true) :
      Moves cap config sessionId s (.commit rows input)
        ⟨db, some (a.committed config (rows.map TapRow.toAppend)), spared s.accepted (rows.map TapRow.toAppend)⟩
  | quiet {a : Activation} {fired : AlarmFired} {due : ℚ} (ha : s.activation = some a)
      (hcurrent : (s.db.latestArm fired.alarmId).map (·.occurrenceId) = some fired.occurrenceId) :
      Moves cap config sessionId s (.quiet fired due)
        { s with db := { s.db with armed := requeueArmed fired.occurrenceId due s.db.armed }
                 activation := some (a.enqueue config [⟨{ fired with tick := some due }, .retire⟩]) }
  | delivered {a : Activation} {occurrenceId : String} (ha : s.activation = some a) :
      Moves cap config sessionId s (.deliver occurrenceId)
        { s with activation := some { a with orphans := a.orphans.erase occurrenceId } }
  | forwarded {a : Activation} (ha : s.activation = some a) (hfiber : a.fiber = some .next) :
      Moves cap config sessionId s .next { s with activation := some (a.forward s.db).2 }
  | answered {a : Activation} {result : SendResult} {stage : Stage} (ha : s.activation = some a)
      (hfiber : ∃ entry, a.fiber = some (.sending entry)) :
      Moves cap config sessionId s (.answer result) { s with activation := some { a with fiber := some stage } }
  | closing {a : Activation} (ha : s.activation = some a) :
      Moves cap config sessionId s .closing { s with activation := some { a with closing := true } }
  | interrupted {a : Activation} (ha : s.activation = some a) :
      Moves cap config sessionId s .interrupt
        { s with activation := some { a with
            fiber := none, running := a.running && a.fiber.isNone, gate := a.gate.filter (!·.forwarder) } }
  | closed : Moves cap config sessionId s .closed { s with activation := none }

variable {cap : ℕ} {config : Config} {sessionId : String} {s t : ArmSystem}

variable {db : Db}

omit [PlainCoding] in
lemma entityArm_input {a : Activation} {input : ArmInput} {arming : Arming}
    (h : entityArm config sessionId db a input = .ok arming) : arming.input = input ∧ arming.forwarder = false := by
  unfold entityArm at h
  split at h
  · cases h
  · split at h
    · cases h
    · obtain ⟨orphan, -, rfl⟩ := Results.map_eq_ok.mp h
      exact ⟨rfl, rfl⟩

theorem wrote_of_commit {c : Commit} (h : refused (write cap (.commit c) db).1 = false) :
    Wrote c.actions db (write cap (.commit c) db).2 ∧ ∀ action ∈ c.actions, refuseRow cap action = none := by
  unfold write transaction at h ⊢
  cases hrun : runWrite cap (.commit c) db with
  | error refusal =>
    rw [hrun] at h
    cases h
  | ok result =>
    obtain ⟨out, db'⟩ := result
    obtain ⟨row, receipts, -, -, hcommit⟩ := runWrite_commit hrun
    exact ⟨hcommit.wrote, hcommit.rows⟩

omit [PlainCoding] in
lemma armEnd_of_accepted {result : Except Refusal WriteOutcome} (h : refused result = false) : armEnd result = .armed := by
  cases result with
  | error refusal => cases h
  | ok outcome => rfl

lemma commitArm_moves {a : Activation} {arming : Arming} {row : Row} {now : ℚ} (ha : s.activation = some a)
    (hgate : a.gate = some arming) (hrow : s.db.selectSession sessionId = some row) :
    Moves cap config sessionId s (.commitArm now) (commitArm cap config s a arming row now) := by
  have hid : row.id = sessionId := (selectSession_some hrow).2
  have hfails : Fails cap config sessionId s a (.commitArm now) ↔ arming.forwarder = true ∧
      (armEnd (write cap (.commit (arming.commit s.db a.authority row now)) s.db).1).survived = false := by
    constructor
    · rintro ⟨other, row', hother, hforwarder, hrow', hsurvived⟩
      obtain rfl := Option.mem_unique hgate hother
      obtain rfl := Option.mem_unique hrow hrow'
      exact ⟨hforwarder, hsurvived⟩
    · rintro ⟨hforwarder, hsurvived⟩
      exact ⟨arming, row, hgate, hforwarder, hrow, hsurvived⟩
  unfold commitArm
  dsimp only
  cases hrefused : refused (write cap (.commit (arming.commit s.db a.authority row now)) s.db).1 with
  | true =>
    rw [if_pos rfl]
    exact .armRefused ha hgate hfails
  | false =>
    rw [if_neg (by decide)]
    obtain ⟨hwrote, haccepted⟩ := wrote_of_commit hrefused
    rw [armEnd_of_accepted hrefused] at hfails ⊢
    exact .armed ha hgate hwrote (haccepted _ mem_cons_self) rfl (by rw [← hid]; rfl) rfl
      fun h => absurd (hfails.mp h).2 (by decide)

theorem step_moves {event : ArmEvent} (h : s.step cap config sessionId event = some t) :
    Moves cap config sessionId s event t := by
  cases event with
  | outside op =>
    simp only [ArmSystem.step] at h
    split at h
    · cases h
    · cases h
      exact .outside ((write_accepted cap op s.db).imp id And.left)
  | strike occurrenceId =>
    cases h
    exact .strike
  | opened authority =>
    simp only [ArmSystem.step] at h
    split at h
    · cases h
    · rename_i hnone
      obtain ⟨resent, -, rfl⟩ := map_eq_some_iff.mp h
      exact .opened (by simpa using hnone)
  | arm input =>
    obtain ⟨a, ha, h⟩ := bind_eq_some_iff.mp h
    split at h
    · cases h
    · rename_i hgate
      split at h
      · cases h
        exact .same fun _ => id
      · rename_i arming harm
        obtain ⟨hinput, hforwarder⟩ := entityArm_input harm
        cases h
        exact .held ha (by simpa using hgate) (by rw [hinput]; exact harm) rfl (fun hf => by rw [hforwarder] at hf; cases hf)
          (.inr (by rw [hinput])) id
  | retire =>
    obtain ⟨a, ha, h⟩ := bind_eq_some_iff.mp h
    split at h
    · cases h
    · rename_i hgate
      have hnone : a.gate = none := by simpa using hgate
      split at h
      · rename_i entry reason hfiber
        have hfails : ∀ code, entityArm config sessionId s.db a (entry.retirement reason) = .error code →
            (Fails cap config sessionId s a .retire ↔ (ArmEnd.refused code).survived = false) := by
          intro code hcode
          constructor
          · rintro ⟨entry', reason', code', hfiber', -, hcode', hne⟩
            obtain ⟨rfl, rfl⟩ := Stage.refused.inj (Option.mem_unique hfiber hfiber')
            obtain rfl := Except.error.inj (hcode.symm.trans hcode')
            exact decide_eq_false hne
          · exact fun hsurvived => ⟨entry, reason, code, hfiber, hnone, hcode, of_decide_eq_false hsurvived⟩
        split at h
        · rename_i code hcode
          cases h
          exact .survived ha hnone (by rw [hfiber]; rfl) (hfails code hcode)
        · rename_i arming harm
          obtain ⟨hinput, -⟩ := entityArm_input harm
          cases h
          have harm' : entityArm config sessionId s.db a arming.input = .ok arming := by
            rw [hinput]
            exact harm
          refine .held (g := { arming with forwarder := true }) ha hnone harm' rfl (fun _ => ⟨entry, reason, hfiber⟩) ?_ ?_
          · left
            change arming.input.at = none
            rw [hinput]
            rfl
          · rintro ⟨entry', reason', code', hfiber', -, hcode', -⟩
            obtain ⟨rfl, rfl⟩ := Stage.refused.inj (Option.mem_unique hfiber hfiber')
            rw [harm] at hcode'
            cases hcode'
      · cases h
  | abandon =>
    obtain ⟨a, ha, h⟩ := bind_eq_some_iff.mp h
    split at h
    · cases h
      exact .abandoned ha
    · cases h
  | commitArm now =>
    obtain ⟨a, ha, h⟩ := bind_eq_some_iff.mp h
    obtain ⟨arming, hgate, h⟩ := bind_eq_some_iff.mp h
    obtain ⟨row, hrow, rfl⟩ := map_eq_some_iff.mp h
    exact commitArm_moves ha hgate hrow
  | commit rows input =>
    obtain ⟨a, ha, h⟩ := bind_eq_some_iff.mp h
    dsimp only at h
    split at h
    · cases h
    · rename_i hgood
      simp only [Bool.or_eq_true, Bool.not_eq_true', not_or, Bool.not_eq_true, Bool.not_eq_false] at hgood
      obtain ⟨hwrote, haccepted⟩ := wrote_of_commit hgood.1
      cases h
      exact .committed ha hwrote (fun row hrow => haccepted _ (mem_map_of_mem hrow)) (all_eq_true.mp hgood.2)
  | quiet fired due =>
    obtain ⟨a, ha, h⟩ := bind_eq_some_iff.mp h
    split at h
    · cases h
    · rename_i hcurrent
      cases h
      exact .quiet ha (not_not.mp hcurrent)
  | deliver occurrenceId =>
    obtain ⟨a, ha, rfl⟩ := map_eq_some_iff.mp h
    exact .delivered ha
  | next =>
    obtain ⟨a, ha, h⟩ := bind_eq_some_iff.mp h
    split at h
    · rename_i hfiber
      cases h
      exact .forwarded ha hfiber
    · cases h
  | answer result =>
    obtain ⟨a, ha, h⟩ := bind_eq_some_iff.mp h
    split at h
    · rename_i entry hfiber
      cases h
      exact .answered ha ⟨entry, hfiber⟩
    · cases h
  | resumeSend occurrenceId =>
    obtain ⟨a, ha, h⟩ := bind_eq_some_iff.mp h
    obtain ⟨armed, -, h⟩ := bind_eq_some_iff.mp h
    obtain ⟨-, -, rfl⟩ := map_eq_some_iff.mp h
    exact .same fun _ => id
  | closing =>
    obtain ⟨a, ha, rfl⟩ := map_eq_some_iff.mp h
    exact .closing ha
  | interrupt =>
    obtain ⟨a, ha, rfl⟩ := map_eq_some_iff.mp h
    exact .interrupted ha
  | closed =>
    obtain ⟨a, ha, h⟩ := bind_eq_some_iff.mp h
    split at h
    · cases h
      exact .closed
    · cases h

end

section
variable {db : Db} {alarmId occurrenceId : String}

lemma isArmed_of_latestArm (h : (db.latestArm alarmId).map (·.occurrenceId) = some occurrenceId) :
    IsArmed alarmId occurrenceId db.armed := by
  obtain ⟨view, hview, rfl⟩ := map_eq_some_iff.mp h
  obtain ⟨row, hrow, rfl⟩ := map_eq_some_iff.mp hview
  exact ⟨row, mem_of_find?_eq_some hrow, by simpa using find?_some hrow, rfl⟩

lemma latestArm_of_isArmed (hkeys : ArmedKeys db.armed) (h : IsArmed alarmId occurrenceId db.armed) :
    (db.latestArm alarmId).map (·.occurrenceId) = some occurrenceId := by
  obtain ⟨row, hrow, rfl, rfl⟩ := h
  unfold Db.latestArm
  rw [hkeys.find? hrow]
  rfl

lemma isArmed_strike {struck : String} :
    IsArmed alarmId occurrenceId (strikeArmed struck db.armed) ↔ IsArmed alarmId occurrenceId db.armed :=
  isArmed_map_iff (fun row => by split <;> rfl) (fun row => by split <;> rfl)

lemma isArmed_requeue {moved : String} {due : ℚ} :
    IsArmed alarmId occurrenceId (requeueArmed moved due db.armed) ↔ IsArmed alarmId occurrenceId db.armed :=
  isArmed_map_iff (fun row => by split <;> rfl) (fun row => by split <;> rfl)

lemma mem_spared {alarms : List String} {rows : List Append} :
    alarmId ∈ spared alarms rows ↔ alarmId ∈ alarms ∧ alarmId ∉ armedBy rows := by
  simp [spared]

end

section
variable [PlainCoding] {cap : ℕ} {config : Config} {sessionId : String} {s t : ArmSystem} {event : ArmEvent}

theorem Moves.keys (h : Moves cap config sessionId s event t) (hs : ArmedKeys s.db.armed) : ArmedKeys t.db.armed := by
  have hmoved : ∀ {f : ArmedRow → ArmedRow}, (∀ row, (f row).alarmId = row.alarmId) → ArmedKeys (s.db.armed.map f) :=
    fun hf => hs.map hf
  cases h with
  | outside hdb =>
    rcases hdb with rfl | hwrote
    · exact hs
    · exact hs.foldlM hwrote.armed
  | strike | quiet => exact hmoved fun row => by split <;> rfl
  | armed _ _ hwrote | committed _ hwrote => exact hs.foldlM hwrote.armed
  | _ => exact hs

def QueueKeyed (s : ArmSystem) : Prop := ∀ a, s.activation = some a → Keyed a.queued

lemma Moves.keyed (h : Moves cap config sessionId s event t) (hs : QueueKeyed s) : QueueKeyed t := by
  intro b hb
  cases h with
  | same | strike => exact hs b hb
  | outside =>
    obtain ⟨a, ha, rfl⟩ := map_eq_some_iff.mp hb
    exact hs a ha
  | opened =>
    cases hb
    exact Keyed.enqueue keyed_empty
  | @held _ a _ _ ha | @abandoned a ha | @delivered a _ ha | @answered a _ _ ha | @closing a ha
  | @interrupted a ha =>
    cases hb
    exact hs a ha
  | @survived a _ ha =>
    rw [← Option.some.inj hb, resumeForwards_queued]
    exact hs a ha
  | @armRefused a _ _ _ ha =>
    rw [← Option.some.inj hb, released_queued]
    exact hs a ha
  | @armed a _ _ _ _ ha =>
    rw [← Option.some.inj hb, released_queued]
    exact (hs a ha).enqueue
  | @committed a _ _ _ ha | @quiet a _ _ ha =>
    cases hb
    exact (hs a ha).enqueue
  | @forwarded a ha =>
    cases hb
    rcases forward_cases s.db a with ⟨q, -, hnil, hpass⟩ | ⟨k, entry, -, -, ⟨-, hpass⟩ | ⟨-, hpass⟩⟩
    · rw [hpass]
      exact fun alarmId entry hget => by simp [Dict.get?, hnil] at hget
    · rw [hpass]
      exact (hs a ha).erase k
    · rw [hpass]
      exact (hs a ha).erase k
  | closed => cases hb

omit [PlainCoding] in
theorem Covered.forward {db : Db} {a : Activation} (h : Covered a.own db.armed a.queued a.sent) (hclosing : a.closing = false)
    (hkeys : ArmedKeys db.armed) (hkeyed : Keyed a.queued) :
    Covered (a.forward db).2.own db.armed (a.forward db).2.queued (a.forward db).2.sent := by
  rcases forward_cases db a with ⟨q, hq, -, hpass⟩ | ⟨k, entry, -, hget, ⟨hstale, hpass⟩ | ⟨hcurrent, hpass⟩⟩
  · rw [hpass, hq hclosing]
    exact h
  · rw [hpass]
    have hk : entry.occurrence.alarmId = k := hkeyed k entry hget
    intro alarmId hown occurrenceId harmed
    rcases h alarmId hown occurrenceId harmed with hqueued | hsent
    · by_cases halarm : alarmId = k
      · rw [halarm, hget] at hqueued
        have hlatest := latestArm_of_isArmed hkeys harmed
        rw [halarm, ← hk, ← hqueued] at hlatest
        exact absurd hlatest hstale
      · left
        change ((a.queued.erase k).get? alarmId).map _ = _
        rw [Dict.get?_erase, if_neg halarm]
        exact hqueued
    · exact .inr hsent
  · rw [hpass]
    have hk : entry.occurrence.alarmId = k := hkeyed k entry hget
    intro alarmId hown occurrenceId harmed
    by_cases halarm : alarmId = k
    · right
      have hlatest := latestArm_of_isArmed hkeys harmed
      rw [halarm, ← hk, hcurrent] at hlatest
      change (a.sent.set entry.occurrence.alarmId entry.occurrence.occurrenceId).get? alarmId = some occurrenceId
      rw [halarm, ← hk, Dict.get?_set_self, hlatest]
    · rcases h alarmId hown occurrenceId harmed with hqueued | hsent
      · left
        change ((a.queued.erase k).get? alarmId).map _ = _
        rw [Dict.get?_erase, if_neg halarm]
        exact hqueued
      · right
        change (a.sent.set entry.occurrence.alarmId entry.occurrence.occurrenceId).get? alarmId = some occurrenceId
        rw [Dict.get?_set_of_ne _ _ (by rw [hk]; exact halarm)]
        exact hsent

lemma Moves.covered (h : Moves cap config sessionId s event t) (hkeys : ArmedKeys s.db.armed) (hkeyed : QueueKeyed s)
    (hs : CoveredOpen config s) : CoveredOpen config t := by
  intro hsends b hb hclosing
  cases h with
  | same => exact hs hsends b hb hclosing
  | outside hdb =>
    obtain ⟨a, ha, rfl⟩ := map_eq_some_iff.mp hb
    refine (hs hsends a ha hclosing).sub (fun _ hmem => (mem_spared.mp hmem).1) fun alarmId hmem occurrenceId harmed => ?_
    rcases hdb with rfl | hwrote
    · exact harmed
    · exact isArmed_before hwrote.armed (mem_spared.mp hmem).2 harmed
  | strike =>
    exact (hs hsends b hb hclosing).sub (fun _ hmem => hmem) fun _ _ _ harmed => isArmed_strike.mp harmed
  | opened =>
    cases hb
    rw [enqueue_own]
    exact fun _ hmem => nomatch hmem
  | @held _ a _ _ ha | @abandoned a ha | @delivered a _ ha | @answered a _ _ ha | @interrupted a ha =>
    cases hb
    exact hs hsends a ha hclosing
  | @survived a _ ha =>
    cases hb
    rw [resumeForwards_closing] at hclosing
    rw [resumeForwards_own, resumeForwards_queued, resumeForwards_sent]
    exact hs hsends a ha hclosing
  | @armRefused a _ _ _ ha =>
    cases hb
    rw [released_closing] at hclosing
    rw [released_own, released_queued, released_sent]
    exact hs hsends a ha hclosing
  | @armed a arming now db arm ha _ hwrote haccepted hobject =>
    cases hb
    rw [released_closing] at hclosing
    have hopen : a.closing = false := by simpa [Activation.orphan, Activation.committed] using hclosing
    have hvalid : ∀ row ∈ [TapRow.arm arm], row.valid = true := forall_mem_singleton.mpr hobject
    have hrows := (hs hsends a ha hopen).rows hvalid (forall_mem_singleton.mpr haccepted) hwrote.armed
    rw [released_own, released_queued, released_sent]
    change Covered (armedBy [armAction arm] ++ (a.enqueue config _).own) db.armed (a.enqueue config _).queued
      (a.enqueue config _).sent
    rw [enqueue_own, enqueue_queued hsends hopen, enqueue_sent]
    exact hrows
  | @committed a rows input db ha hwrote haccepted hvalid =>
    cases hb
    have hopen : a.closing = false := by simpa [Activation.committed] using hclosing
    have hrows := (hs hsends a ha hopen).rows hvalid haccepted hwrote.armed
    change Covered (armedBy _ ++ (a.enqueue config _).own) db.armed (a.enqueue config _).queued (a.enqueue config _).sent
    rw [enqueue_own, enqueue_queued hsends hopen, enqueue_sent]
    exact hrows
  | @quiet a fired due ha hcurrent =>
    cases hb
    rw [enqueue_closing] at hclosing
    rw [enqueue_own, enqueue_queued hsends hclosing, enqueue_sent]
    have harmed : IsArmed (⟨{ fired with tick := some due }, .retire⟩ : Entry).occurrence.alarmId fired.occurrenceId
        s.db.armed := isArmed_of_latestArm hcurrent
    have hqueue := (hs hsends a ha hclosing).queue hkeys harmed
    exact hqueue.sub (fun _ hmem => mem_cons_of_mem _ hmem) fun _ _ _ harmed => isArmed_requeue.mp harmed
  | @forwarded a ha =>
    cases hb
    have hopen : a.closing = false := by
      rcases forward_cases s.db a with ⟨q, -, -, hpass⟩ | ⟨k, entry, hopen, -⟩
      · rw [hpass] at hclosing
        exact hclosing
      · exact hopen
    exact (hs hsends a ha hopen).forward hopen hkeys (hkeyed a ha)
  | closing ha =>
    cases hb
    cases hclosing
  | closed => cases hb

end

section
variable {config : Config} {sessionId : String} {db : Db} {a b : Activation} {input : ArmInput} {arming : Arming}

lemma armBudget_of_entityArm (h : entityArm config sessionId db a input = .ok arming) :
    armBudget config db a (input.chain sessionId) input.at (db.latestArm (input.chain sessionId)) = .ok arming.orphan := by
  unfold entityArm at h
  split at h
  · cases h
  · split at h
    · cases h
    · obtain ⟨orphan, horphan, rfl⟩ := Results.map_eq_ok.mp h
      exact horphan

variable {alarmId : String} {due : Option ℚ}

theorem orphans_of_armBudget {latest : Option AlarmArmView} {orphan : Option String}
    (h : armBudget config db a alarmId due latest = .ok orphan) (hne : orphan ≠ none) :
    a.orphans.length < config.maxArmed := by
  unfold armBudget at h
  split at h
  · exact absurd (Except.ok.inj h).symm hne
  · split at h
    · split at h
      · cases h
      · exact absurd (Except.ok.inj h).symm hne
    · split at h
      · exact absurd (Except.ok.inj h).symm hne
      · split at h
        · cases h
        · rename_i hroom
          exact Nat.lt_of_not_le hroom

theorem armed_of_armBudget {orphan : Option String} (hdue : due ≠ none)
    (h : armBudget config db a alarmId due none = .ok orphan) : db.armed.length < config.maxArmed := by
  unfold armBudget at h
  rw [if_neg hdue] at h
  dsimp only at h
  split at h
  · cases h
  · rename_i hroom
    exact Nat.lt_of_not_le hroom

/-- The orphans are within the budget, and leave room for the one of the arm at the gate. -/
structure Activation.WithinOrphans (config : Config) (a : Activation) : Prop where
  le : a.orphans.length ≤ config.maxArmed
  room : ∀ g, a.gate = some g → g.orphan ≠ none → a.orphans.length < config.maxArmed

lemma Activation.WithinOrphans.congr (h : a.WithinOrphans config) (horphans : b.orphans.length ≤ a.orphans.length)
    (hgate : ∀ g, b.gate = some g → a.gate = some g) : b.WithinOrphans config where
  le := horphans.trans h.le
  room g hg hne := Nat.lt_of_le_of_lt horphans (h.room g (hgate g hg) hne)

lemma forward_orphans (db : Db) (a : Activation) : (a.forward db).2.orphans = a.orphans ∧ (a.forward db).2.gate = a.gate := by
  rcases forward_cases db a with ⟨q, -, -, hpass⟩ | ⟨k, entry, -, -, ⟨-, hpass⟩ | ⟨-, hpass⟩⟩
  · rw [hpass]
    exact ⟨rfl, rfl⟩
  · rw [hpass]
    exact ⟨rfl, rfl⟩
  · rw [hpass]
    exact ⟨rfl, rfl⟩

lemma length_insert_le (l : List String) (x : String) : (l.insert x).length ≤ l.length + 1 := by
  by_cases hmem : x ∈ l
  · rw [length_insert_of_mem hmem]
    omega
  · rw [length_insert_of_not_mem hmem]

theorem Activation.WithinOrphans.orphan (h : a.WithinOrphans config) (hgate : a.gate = some arming) :
    (a.orphan arming.orphan).orphans.length ≤ config.maxArmed := by
  unfold Activation.orphan
  cases horphan : arming.orphan with
  | none => exact h.le
  | some occurrenceId =>
    have hroom := h.room arming hgate (by rw [horphan]; exact some_ne_none _)
    exact (length_insert_le a.orphans occurrenceId).trans hroom

end

section
variable [PlainCoding] {cap : ℕ} {config : Config} {sessionId : String} {s t : ArmSystem} {event : ArmEvent}

def OrphansKept (config : Config) (s : ArmSystem) : Prop := ∀ a, s.activation = some a → a.WithinOrphans config

lemma Moves.orphans (h : Moves cap config sessionId s event t) (hs : OrphansKept config s) : OrphansKept config t := by
  intro b hb
  cases h with
  | same | strike => exact hs b hb
  | outside =>
    obtain ⟨a, ha, rfl⟩ := map_eq_some_iff.mp hb
    exact (hs a ha).congr le_rfl fun _ hg => hg
  | opened =>
    cases hb
    exact ⟨by rw [enqueue_orphans]; exact Nat.zero_le _, fun g hg => by rw [enqueue_gate] at hg; cases hg⟩
  | @held _ a arming g ha _ harm horphan =>
    cases hb
    refine ⟨(hs a ha).le, fun g' hg hne => ?_⟩
    cases hg
    exact orphans_of_armBudget (armBudget_of_entityArm harm) (by rw [← horphan]; exact hne)
  | @survived a _ ha =>
    cases hb
    exact (hs a ha).congr (by rw [resumeForwards_orphans]) fun g hg => by rw [← hg, resumeForwards_gate]
  | @abandoned a ha =>
    cases hb
    exact (hs a ha).congr le_rfl fun _ hg => nomatch hg
  | @armRefused a _ _ _ ha =>
    cases hb
    exact (hs a ha).congr (by rw [released_orphans]) fun g hg => by rw [released_gate] at hg; cases hg
  | @armed a arming _ _ arm ha hgate =>
    cases hb
    have hcommitted : (a.committed config [armAction arm]).WithinOrphans config :=
      (hs a ha).congr (by rw [committed_orphans]) fun g hg => by rw [← hg, committed_gate]
    refine ⟨?_, fun g hg => by rw [released_gate] at hg; cases hg⟩
    rw [released_orphans]
    exact hcommitted.orphan (committed_gate.trans hgate)
  | @committed a _ _ _ ha =>
    cases hb
    exact (hs a ha).congr (by rw [committed_orphans]) fun g hg => by rw [← hg, committed_gate]
  | @quiet a _ _ ha =>
    cases hb
    exact (hs a ha).congr (by rw [enqueue_orphans]) fun g hg => by rw [← hg, enqueue_gate]
  | @delivered a _ ha =>
    cases hb
    exact (hs a ha).congr length_erase_le fun _ hg => hg
  | @forwarded a ha =>
    cases hb
    obtain ⟨horphans, hgate⟩ := forward_orphans s.db a
    exact (hs a ha).congr (by rw [horphans]) fun g hg => by rw [← hg, hgate]
  | @answered a _ _ ha | @closing a ha =>
    cases hb
    exact (hs a ha).congr le_rfl fun _ hg => hg
  | @interrupted a ha =>
    cases hb
    exact (hs a ha).congr le_rfl fun g hg => (filter_eq_some_iff.mp hg).1
  | closed => cases hb

omit [PlainCoding] in
lemma mem_acceptedArmed {alarmId : String} :
    alarmId ∈ s.acceptedArmed ↔ (∃ occurrenceId, IsArmed alarmId occurrenceId s.db.armed) ∧ alarmId ∈ s.accepted := by
  unfold ArmSystem.acceptedArmed
  rw [Finset.mem_filter, mem_toFinset, mem_map]
  refine and_congr_left fun _ => ⟨?_, ?_⟩
  · rintro ⟨row, hrow, rfl⟩
    exact ⟨row.occurrenceId, row, hrow, rfl, rfl⟩
  · rintro ⟨occurrenceId, row, hrow, hid, -⟩
    exact ⟨row, hrow, hid⟩

omit [PlainCoding] in
lemma card_acceptedArmed_le (s : ArmSystem) : s.acceptedArmed.card ≤ s.db.armed.length := by
  calc s.acceptedArmed.card ≤ (s.db.armed.map (·.alarmId)).toFinset.card := Finset.card_filter_le _ _
    _ ≤ (s.db.armed.map (·.alarmId)).length := toFinset_card_le _
    _ = s.db.armed.length := length_map _

omit [PlainCoding] in
lemma acceptedArmed_subset (haccepted : ∀ alarmId, alarmId ∈ t.accepted → alarmId ∈ s.accepted)
    (harmed : ∀ alarmId occurrenceId, alarmId ∈ t.accepted → IsArmed alarmId occurrenceId t.db.armed →
      IsArmed alarmId occurrenceId s.db.armed) : t.acceptedArmed ⊆ s.acceptedArmed := by
  intro alarmId hmem
  obtain ⟨⟨occurrenceId, hisArmed⟩, hin⟩ := mem_acceptedArmed.mp hmem
  exact mem_acceptedArmed.mpr ⟨⟨occurrenceId, harmed _ _ hin hisArmed⟩, haccepted _ hin⟩

omit [PlainCoding] in
lemma acceptedArmed_spared {rows : List Append} {db : Db} {activation : Option Activation} (hwrote : db = s.db ∨
    rows.foldlM applyDelta s.db.armed = .ok db.armed) :
    (ArmSystem.mk db activation (spared s.accepted rows)).acceptedArmed ⊆ s.acceptedArmed := by
  refine acceptedArmed_subset (fun _ hmem => (mem_spared.mp hmem).1) fun alarmId occurrenceId hmem harmed => ?_
  rcases hwrote with rfl | hdeltas
  · exact harmed
  · exact isArmed_before hdeltas (mem_spared.mp hmem).2 harmed

/-- The chains that the verb armed are within the budget, and leave room for the one of the arm at the gate. -/
structure AcceptedKept (config : Config) (sessionId : String) (s : ArmSystem) : Prop where
  le : s.acceptedArmed.card ≤ config.maxArmed
  room : ∀ a, s.activation = some a → ∀ g, a.gate = some g → g.input.at ≠ none →
    (s.acceptedArmed.erase (g.input.chain sessionId)).card < config.maxArmed

omit [PlainCoding] in
lemma AcceptedKept.shrink (h : AcceptedKept config sessionId s) (hsub : t.acceptedArmed ⊆ s.acceptedArmed)
    (hgate : ∀ b, t.activation = some b → ∀ g, b.gate = some g → ∃ a, s.activation = some a ∧ a.gate = some g) :
    AcceptedKept config sessionId t where
  le := (Finset.card_le_card hsub).trans h.le
  room b hb g hg hne := by
    obtain ⟨a, ha, hga⟩ := hgate b hb g hg
    exact Nat.lt_of_le_of_lt (Finset.card_le_card (Finset.erase_subset_erase _ hsub)) (h.room a ha g hga hne)

omit [PlainCoding] in
theorem AcceptedKept.roomFor (h : AcceptedKept config sessionId s) {a : Activation} {input : ArmInput} {arming : Arming}
    (harm : entityArm config sessionId s.db a input = .ok arming) (hat : input.at ≠ none)
    (hown : (s.db.latestArm (input.chain sessionId)).isSome → input.chain sessionId ∈ s.accepted) :
    (s.acceptedArmed.erase (input.chain sessionId)).card < config.maxArmed := by
  have hbudget := armBudget_of_entityArm harm
  cases hlatest : s.db.latestArm (input.chain sessionId) with
  | none =>
    rw [hlatest] at hbudget
    exact Nat.lt_of_le_of_lt ((Finset.card_le_card (Finset.erase_subset _ _)).trans (card_acceptedArmed_le s))
      (armed_of_armBudget hat hbudget)
  | some view =>
    have hcurrent : (s.db.latestArm (input.chain sessionId)).map (·.occurrenceId) = some view.occurrenceId := by
      rw [hlatest]
      rfl
    have hmem : input.chain sessionId ∈ s.acceptedArmed :=
      mem_acceptedArmed.mpr ⟨⟨_, isArmed_of_latestArm hcurrent⟩, hown (by rw [hlatest]; rfl)⟩
    exact Nat.lt_of_lt_of_le (Finset.card_erase_lt_of_mem hmem) h.le

lemma Moves.accepted (h : Moves cap config sessionId s event t) (hnot : ¬ TakesOver sessionId s event)
    (hs : AcceptedKept config sessionId s) : AcceptedKept config sessionId t := by
  have hsame : ∀ {db : Db} {activation : Option Activation}, (∀ alarmId occurrenceId,
      IsArmed alarmId occurrenceId db.armed → IsArmed alarmId occurrenceId s.db.armed) →
      (ArmSystem.mk db activation s.accepted).acceptedArmed ⊆ s.acceptedArmed := fun harmed =>
    acceptedArmed_subset (fun _ hmem => hmem) fun _ _ _ => harmed _ _
  cases h with
  | same => exact hs
  | outside hdb =>
    refine hs.shrink (acceptedArmed_spared (hdb.imp id (·.armed))) fun b hb g hg => ?_
    obtain ⟨a, ha, rfl⟩ := map_eq_some_iff.mp hb
    exact ⟨a, ha, hg⟩
  | strike => exact hs.shrink (hsame fun _ _ => isArmed_strike.mp) fun b hb g hg => ⟨b, hb, hg⟩
  | opened =>
    refine hs.shrink (hsame fun _ _ => id) fun b hb g hg => ?_
    cases hb
    rw [enqueue_gate] at hg
    cases hg
  | @held _ a arming g ha _ harm _ _ hevent =>
    refine ⟨hs.le, fun b hb g' hg hat => ?_⟩
    cases hb
    cases hg
    obtain rfl := hevent.resolve_left hat
    refine hs.roomFor harm hat fun hlatest => ?_
    by_contra hown
    exact hnot ⟨hat, hlatest, hown⟩
  | @survived a _ ha =>
    refine hs.shrink (hsame fun _ _ => id) fun b hb g hg => ?_
    cases hb
    rw [resumeForwards_gate] at hg
    exact ⟨a, ha, hg⟩
  | abandoned =>
    refine hs.shrink (hsame fun _ _ => id) fun b hb g hg => ?_
    cases hb
    cases hg
  | armRefused =>
    refine hs.shrink (hsame fun _ _ => id) fun b hb g hg => ?_
    cases hb
    rw [released_gate] at hg
    cases hg
  | @armed a arming now db arm ha hgate hwrote haccepted _ halarm hat =>
    have hgone : ∀ b, some (((a.committed config [armAction arm]).orphan arming.orphan).released arming .armed) = some b →
        ∀ g, b.gate ≠ some g := by
      intro b hb g hg
      cases hb
      rw [released_gate] at hg
      cases hg
    by_cases hnone : arm.at = none
    · have hby := armedBy_retire haccepted hnone
      refine hs.shrink (acceptedArmed_subset ?_ ?_) fun b hb g hg => absurd hg (hgone b hb g)
      · intro alarmId hmem
        rw [hby] at hmem
        exact hmem
      · intro alarmId occurrenceId _ harmed
        exact isArmed_before hwrote.armed (by rw [hby]; exact not_mem_nil) harmed
    · have hby := armedBy_arm haccepted hnone
      refine ⟨?_, fun b hb g hg => absurd hg (hgone b hb g)⟩
      have hroom := hs.room a ha arming hgate (by rw [← hat]; exact hnone)
      refine (Finset.card_le_card ?_).trans ((Finset.card_insert_le (arming.input.chain sessionId)
        (s.acceptedArmed.erase (arming.input.chain sessionId))).trans hroom)
      intro alarmId hmem
      obtain ⟨⟨occurrenceId, harmed⟩, hin⟩ := mem_acceptedArmed.mp hmem
      by_cases hchain : alarmId = arming.input.chain sessionId
      · exact Finset.mem_insert.mpr (.inl hchain)
      · have hnotBy : alarmId ∉ armedBy [armAction arm] := by
          rw [hby, halarm, mem_singleton]
          exact hchain
        refine Finset.mem_insert_of_mem (Finset.mem_erase.mpr ⟨hchain, mem_acceptedArmed.mpr ?_⟩)
        exact ⟨⟨occurrenceId, isArmed_before hwrote.armed hnotBy harmed⟩, (mem_append.mp hin).resolve_left hnotBy⟩
  | @committed a _ _ _ ha hwrote =>
    refine hs.shrink (acceptedArmed_spared (.inr hwrote.armed)) fun b hb g hg => ?_
    cases hb
    exact ⟨a, ha, committed_gate.symm.trans hg⟩
  | @quiet a _ _ ha =>
    refine hs.shrink (hsame fun _ _ => isArmed_requeue.mp) fun b hb g hg => ?_
    cases hb
    rw [enqueue_gate] at hg
    exact ⟨a, ha, hg⟩
  | @delivered a _ ha | @answered a _ _ ha | @closing a ha =>
    refine hs.shrink (hsame fun _ _ => id) fun b hb g hg => ?_
    cases hb
    exact ⟨a, ha, hg⟩
  | @forwarded a ha =>
    refine hs.shrink (hsame fun _ _ => id) fun b hb g hg => ?_
    cases hb
    exact ⟨a, ha, (forward_orphans s.db a).2.symm.trans hg⟩
  | @interrupted a ha =>
    refine hs.shrink (hsame fun _ _ => id) fun b hb g hg => ?_
    cases hb
    exact ⟨a, ha, (filter_eq_some_iff.mp hg).1⟩
  | closed => exact hs.shrink (hsame fun _ _ => id) fun b hb => nomatch hb

end

section
variable [PlainCoding] {cap : ℕ} {config : Config} {sessionId : String} {s t : ArmSystem} {event : ArmEvent}

/-- The running flag tells of the fiber, and the forwarder waits where it holds the gate. -/
structure Activation.Linked (a : Activation) : Prop where
  running : a.running = a.fiber.isSome
  gate : ∀ g, a.gate = some g → g.forwarder = true → ∃ entry reason, a.fiber = some (.refused entry reason)

def Linked (s : ArmSystem) : Prop := ∀ a, s.activation = some a → a.Linked

omit [PlainCoding] in
lemma Activation.Linked.enqueue {a : Activation} (h : a.Linked) (entries : List Entry) : (a.enqueue config entries).Linked := by
  unfold Activation.enqueue
  split
  · exact h
  · split
    · exact ⟨h.running, h.gate⟩
    · rename_i hrunning
      refine ⟨rfl, fun g hg hforwarder => ?_⟩
      obtain ⟨entry, reason, hfiber⟩ := h.gate g hg hforwarder
      rw [h.running, hfiber] at hrunning
      exact absurd rfl hrunning

omit [PlainCoding] in
lemma Activation.Linked.released {a : Activation} (h : a.Linked) {arming : Arming} (hgate : a.gate = some arming)
    (result : ArmEnd) : (a.released arming result).Linked := by
  refine ⟨?_, fun g hg => by rw [released_gate] at hg; cases hg⟩
  unfold Activation.released
  split
  · rename_i hforwarder
    obtain ⟨entry, reason, hfiber⟩ := h.gate arming hgate hforwarder
    unfold Activation.resumeForwards
    split
    · exact h.running.trans (by rw [hfiber]; rfl)
    · rfl
  · exact h.running

omit [PlainCoding] in
lemma Activation.Linked.forward {a : Activation} (h : a.Linked) (hfiber : a.fiber = some .next) (db : Db) :
    (a.forward db).2.Linked := by
  have hrunning : a.running = true := by rw [h.running, hfiber]; rfl
  refine ⟨?_, fun g hg hforwarder => ?_⟩
  · rcases forward_cases db a with ⟨q, -, -, hpass⟩ | ⟨k, entry, -, -, ⟨-, hpass⟩ | ⟨-, hpass⟩⟩
    · rw [hpass]
      rfl
    · rw [hpass]
      exact hrunning.trans (by rw [hfiber]; rfl)
    · rw [hpass]
      exact hrunning
  · rw [(forward_orphans db a).2] at hg
    obtain ⟨entry, reason, hrefused⟩ := h.gate g hg hforwarder
    rw [hfiber] at hrefused
    cases Option.some.inj hrefused

lemma Moves.linked (h : Moves cap config sessionId s event t) (hs : Linked s) : Linked t := by
  intro b hb
  cases h with
  | same | strike => exact hs b hb
  | outside =>
    obtain ⟨a, ha, rfl⟩ := map_eq_some_iff.mp hb
    exact ⟨(hs a ha).running, (hs a ha).gate⟩
  | @opened authority resent =>
    cases hb
    have hfresh : ({ authority } : Activation).Linked := ⟨rfl, fun g hg => nomatch hg⟩
    exact hfresh.enqueue resent
  | @held _ a _ g ha _ _ _ hfiber =>
    cases hb
    refine ⟨(hs a ha).running, fun g' hg hforwarder => ?_⟩
    cases hg
    exact hfiber hforwarder
  | @survived a code ha hgate hfiber =>
    cases hb
    refine ⟨?_, fun g hg => ?_⟩
    · unfold Activation.resumeForwards
      split
      · exact (hs a ha).running.trans hfiber
      · rfl
    · rw [resumeForwards_gate, hgate] at hg
      cases hg
  | @abandoned a ha =>
    cases hb
    exact ⟨(hs a ha).running, fun g hg => nomatch hg⟩
  | @armRefused a _ _ result ha hgate =>
    cases hb
    exact (hs a ha).released hgate result
  | @armed a arming now db arm ha hgate =>
    cases hb
    have hqueued : (a.enqueue config (tapped [armAction arm])).Linked := (hs a ha).enqueue _
    have hcommitted : ((a.committed config [armAction arm]).orphan arming.orphan).Linked := ⟨hqueued.running, hqueued.gate⟩
    exact hcommitted.released (committed_gate.trans hgate) .armed
  | @committed a rows _ _ ha =>
    cases hb
    have hqueued : (a.enqueue config (tapped (rows.map TapRow.toAppend))).Linked := (hs a ha).enqueue _
    exact ⟨hqueued.running, hqueued.gate⟩
  | @quiet a _ _ ha =>
    cases hb
    exact (hs a ha).enqueue _
  | @delivered a _ ha | @closing a ha =>
    cases hb
    exact ⟨(hs a ha).running, (hs a ha).gate⟩
  | @forwarded a ha hfiber =>
    cases hb
    exact (hs a ha).forward hfiber s.db
  | @answered a result stage ha hfiber =>
    cases hb
    obtain ⟨entry, hsending⟩ := hfiber
    refine ⟨(hs a ha).running.trans (by rw [hsending]; rfl), fun g hg hforwarder => ?_⟩
    obtain ⟨other, reason, hrefused⟩ := (hs a ha).gate g hg hforwarder
    rw [hsending] at hrefused
    cases Option.some.inj hrefused
  | @interrupted a ha =>
    cases hb
    refine ⟨?_, fun g hg hforwarder => ?_⟩
    · change (a.running && a.fiber.isNone) = false
      rw [(hs a ha).running]
      cases a.fiber <;> rfl
    · obtain ⟨-, hnot⟩ := filter_eq_some_iff.mp hg
      rw [hforwarder] at hnot
      cases hnot
  | closed => cases hb

def Activation.Rests (a : Activation) : Prop := a.running = false → a.queued.entries = []

omit [PlainCoding] in
lemma Activation.Rests.enqueue {a : Activation} (h : a.Rests) (entries : List Entry) : (a.enqueue config entries).Rests := by
  unfold Activation.enqueue
  split
  · exact h
  · split
    · rename_i hrunning
      exact fun hidle => absurd (hrunning.symm.trans hidle) (by decide)
    · exact fun hidle => nomatch hidle

omit [PlainCoding] in
lemma Activation.Rests.forward {a : Activation} (hrunning : a.running = true) (db : Db) : (a.forward db).2.Rests := by
  rcases forward_cases db a with ⟨q, -, hnil, hpass⟩ | ⟨k, entry, -, -, ⟨-, hpass⟩ | ⟨-, hpass⟩⟩
  · rw [hpass]
    exact fun _ => hnil
  · rw [hpass]
    exact fun hidle => absurd (hrunning.symm.trans hidle) (by decide)
  · rw [hpass]
    exact fun hidle => absurd (hrunning.symm.trans hidle) (by decide)

omit [PlainCoding] in
theorem resumeForwards_rests {a : Activation} (hrunning : a.running = true) (result : ArmEnd) :
    (a.resumeForwards result).Rests ↔ (a.queued.entries ≠ [] → result.survived = true) := by
  unfold Activation.resumeForwards
  split
  · rename_i hsurvived
    exact iff_of_true (fun hidle => absurd (hrunning.symm.trans hidle) (by decide)) fun _ => hsurvived
  · rename_i hdied
    constructor
    · exact fun hrests hne => absurd (hrests rfl) hne
    · exact fun himp _ => by_contra fun hne => hdied (himp hne)

variable {db : Db} {f : AlarmFired}

omit [PlainCoding] in
lemma idleEmpty_iff {a : Activation} {accepted : List String} : IdleEmpty ⟨db, some a, accepted⟩ ↔ a.Rests :=
  ⟨fun h => h a rfl, fun h _ hb => Option.some.inj hb ▸ h⟩

lemma leavesQueued_iff {a : Activation} (ha : s.activation = some a) :
    LeavesQueued cap config sessionId s event ↔ a.queued.entries ≠ [] ∧ Fails cap config sessionId s a event := by
  constructor
  · rintro ⟨b, hb, hrest⟩
    obtain rfl := Option.mem_unique ha hb
    exact hrest
  · exact fun h => ⟨a, ha, h⟩

theorem calm_iff (hnot : ∀ a, s.activation = some a → ¬ Fails cap config sessionId s a event) (ht : IdleEmpty t) :
    ¬ LeavesQueued cap config sessionId s event ↔ IdleEmpty t :=
  iff_of_true (fun ⟨a, ha, _, hfails⟩ => hnot a ha hfails) ht

lemma Moves.idle_iff (h : Moves cap config sessionId s event t) (hlinked : Linked s) (hs : IdleEmpty s) :
    ¬ LeavesQueued cap config sessionId s event ↔ IdleEmpty t := by
  cases h with
  | same hnot => exact calm_iff (fun a _ => hnot a) hs
  | outside =>
    refine calm_iff (fun _ _ => id) fun _ hb => ?_
    obtain ⟨a, ha, rfl⟩ := map_eq_some_iff.mp hb
    exact hs a ha
  | strike => exact calm_iff (fun _ _ => id) hs
  | @opened authority resent =>
    refine calm_iff (fun _ _ => id) (idleEmpty_iff.mpr ?_)
    have hfresh : ({ authority } : Activation).Rests := fun _ => rfl
    exact hfresh.enqueue resent
  | @held _ a _ g ha _ _ _ _ _ hnot =>
    refine calm_iff (fun b hb => ?_) (idleEmpty_iff.mpr (hs a ha))
    obtain rfl := Option.mem_unique ha hb
    exact hnot
  | @survived a code ha _ hfiber hfails =>
    have hrunning : a.running = true := (hlinked a ha).running.trans hfiber
    rw [leavesQueued_iff ha, hfails, idleEmpty_iff, resumeForwards_rests hrunning, not_and, Bool.not_eq_false]
  | @abandoned a ha | @delivered a _ ha | @answered a _ _ ha | @closing a ha => exact calm_iff (fun _ _ => id) (idleEmpty_iff.mpr (hs a ha))
  | @armRefused a arming _ result ha hgate hfails =>
    rw [leavesQueued_iff ha, hfails, idleEmpty_iff]
    unfold Activation.released
    split
    · rename_i hforwarder
      obtain ⟨entry, reason, hfiber⟩ := (hlinked a ha).gate arming hgate hforwarder
      have hrunning : a.running = true := (hlinked a ha).running.trans (by rw [hfiber]; rfl)
      have hrests : (({ a with gate := none } : Activation).resumeForwards result).Rests ↔
          (a.queued.entries ≠ [] → result.survived = true) :=
        resumeForwards_rests (a := { a with gate := none }) hrunning result
      rw [hrests, not_and, not_and, Bool.not_eq_false]
      exact imp_congr_right fun _ => ⟨fun himp => himp hforwarder, fun hsurvived _ => hsurvived⟩
    · rename_i hforwarder
      exact iff_of_true (fun hfailed => hforwarder hfailed.2.1) (hs a ha)
  | @armed a arming now db arm ha hgate _ _ _ _ _ hnot =>
    refine calm_iff (fun b hb => ?_) (idleEmpty_iff.mpr ?_)
    · obtain rfl := Option.mem_unique ha hb
      exact hnot
    · have hqueued : (a.enqueue config (tapped [armAction arm])).Rests := Activation.Rests.enqueue (hs a ha) _
      unfold Activation.released
      split
      · rename_i hforwarder
        obtain ⟨entry, reason, hfiber⟩ := (hlinked a ha).gate arming hgate hforwarder
        have hrunning : (a.enqueue config (tapped [armAction arm])).running = true := by
          unfold Activation.enqueue
          split
          · exact (hlinked a ha).running.trans (by rw [hfiber]; rfl)
          · split
            · exact (hlinked a ha).running.trans (by rw [hfiber]; rfl)
            · rfl
        exact fun hidle => absurd (hrunning.symm.trans hidle) (by decide)
      · exact hqueued
  | @committed a rows _ _ ha =>
    refine calm_iff (fun _ _ => id) (idleEmpty_iff.mpr ?_)
    have hqueued : (a.enqueue config (tapped (rows.map TapRow.toAppend))).Rests := Activation.Rests.enqueue (hs a ha) _
    exact hqueued
  | @quiet a _ _ ha => exact calm_iff (fun _ _ => id) (idleEmpty_iff.mpr (Activation.Rests.enqueue (hs a ha) _))
  | @forwarded a ha hfiber =>
    have hrunning : a.running = true := (hlinked a ha).running.trans (by rw [hfiber]; rfl)
    exact calm_iff (fun _ _ => id) (idleEmpty_iff.mpr (Activation.Rests.forward hrunning s.db))
  | @interrupted a ha =>
    rw [leavesQueued_iff ha, idleEmpty_iff]
    cases hfiber : a.fiber with
    | none =>
      have hidle : a.running = false := (hlinked a ha).running.trans (by rw [hfiber]; rfl)
      refine iff_of_true (fun hfailed => ?_) fun _ => hs a ha hidle
      have hsome : a.fiber.isSome = true := hfailed.2
      rw [hfiber] at hsome
      cases hsome
    | some stage =>
      have hfails : Fails cap config sessionId s a .interrupt := by
        change a.fiber.isSome = true
        rw [hfiber]
        rfl
      constructor
      · exact fun hnot _ => by_contra fun hne => hnot ⟨hne, hfails⟩
      · exact fun hrests hfailed => hfailed.1 (hrests (by simp))
  | closed => exact calm_iff (fun _ _ => id) fun a ha => nomatch ha

omit [PlainCoding] in
lemma exists_of_mem_mapM {α β : Type} {f : α → Option β} {l : List α} {out : List β} (h : l.mapM f = some out) :
    ∀ b ∈ out, ∃ a ∈ l, f a = some b := by
  induction l generalizing out with
  | nil =>
    intro b hb
    rw [← Option.some.inj h] at hb
    cases hb
  | cons a l ih =>
    rw [mapM_cons] at h
    obtain ⟨first, hfirst, h⟩ := bind_eq_some_iff.mp h
    obtain ⟨rest, hrest, h⟩ := bind_eq_some_iff.mp h
    intro b hb
    rw [← Option.some.inj h] at hb
    rcases mem_cons.mp hb with rfl | hb
    · exact ⟨a, mem_cons_self, hfirst⟩
    · obtain ⟨a', ha', hf⟩ := ih hrest b hb
      exact ⟨a', mem_cons_of_mem _ ha', hf⟩

omit [PlainCoding] in
lemma armedAlarmRow_ids {row : ArmedRow} {node : Node} (h : armedAlarmRow row node = some f) :
    f.alarmId = row.alarmId ∧ f.occurrenceId = row.occurrenceId := by
  unfold armedAlarmRow at h
  simp only [Option.bind_eq_bind, bind_eq_some_iff] at h
  obtain ⟨_, -, _, -, _, -, _, -, _, -, h⟩ := h
  cases h
  exact ⟨rfl, rfl⟩

omit [PlainCoding] in
lemma isArmed_of_armedAlarms {armed : List AlarmFired} (h : armedAlarms db = some armed) (hmem : f ∈ armed) :
    IsArmed f.alarmId f.occurrenceId db.armed := by
  obtain ⟨e, he, hrow⟩ := exists_of_mem_mapM h f hmem
  obtain ⟨row, hin, hnodes⟩ := mem_flatMap.mp he
  obtain ⟨node, -, rfl⟩ := mem_map.mp hnodes
  obtain ⟨halarm, hocc⟩ := armedAlarmRow_ids hrow
  exact ⟨row, (mem_insertionSort _).mp hin, halarm.symm, hocc.symm⟩

omit [PlainCoding] in
theorem sends_armed (h : s.sends event = some f) : IsArmed f.alarmId f.occurrenceId s.db.armed := by
  cases event with
  | next =>
    obtain ⟨a, -, h⟩ := bind_eq_some_iff.mp h
    split at h
    · rcases forward_cases s.db a with ⟨q, -, -, hpass⟩ | ⟨k, entry, -, -, ⟨-, hpass⟩ | ⟨hcurrent, hpass⟩⟩
      · rw [hpass] at h
        cases h
      · rw [hpass] at h
        cases h
      · rw [hpass] at h
        cases h
        exact isArmed_of_latestArm hcurrent
    · cases h
  | resumeSend occurrenceId =>
    obtain ⟨armed, harmed, hfind⟩ := bind_eq_some_iff.mp h
    exact isArmed_of_armedAlarms harmed (mem_of_find?_eq_some hfind)
  | _ => cases h

structure Started (s : ArmSystem) : Prop where
  closed : s.activation = none
  accepted : s.accepted = []
  keys : ArmedKeys s.db.armed

/-- In every run: the orphans are within the budget; so are the armed chains that the verb armed, as long as it takes
over no other; the forwarder is idle only with an empty queue, exactly as long as it does not fail with occurrences
queued; what the activation's own commits armed is queued or sent while it is open; and what is sent is armed. -/
theorem arm_forwarding {trace : List (ArmSystem × ArmEvent)} (hs : Started s)
    (run : Transition.Run (fun s e t => s.step cap config sessionId e = some t) s trace t) :
    (∀ a, t.activation = some a → a.orphans.length ≤ config.maxArmed) ∧
      ((∀ e ∈ trace, ¬ TakesOver sessionId e.1 e.2) → t.acceptedArmed.card ≤ config.maxArmed) ∧
      ((∀ e ∈ trace, ¬ LeavesQueued cap config sessionId e.1 e.2) ↔ (∀ e ∈ trace, IdleEmpty e.1) ∧ IdleEmpty t) ∧
      CoveredOpen config t ∧
      ∀ e ∈ trace, ∀ f, e.1.sends e.2 = some f → IsArmed f.alarmId f.occurrenceId e.1.db.armed := by
  have hclosed : ∀ {P : Activation → Prop}, ∀ a, s.activation = some a → P a := fun a ha => by
    rw [hs.closed] at ha
    cases ha
  refine ⟨?_, fun hnot => ?_, ?_, ?_, fun e _ f hf => sends_armed hf⟩
  · have horphans : OrphansKept config t := run.preserves hclosed fun _ _ _ ha hstep => (step_moves hstep).orphans ha
    exact fun a ha => (horphans a ha).le
  · have hrun : Transition.Run (fun s e t => s.step cap config sessionId e = some t ∧ ¬ TakesOver sessionId s e) s trace t :=
      Transition.Run.restrict_iff.mpr ⟨run, hnot⟩
    have hstart : AcceptedKept config sessionId s := by
      refine ⟨?_, hclosed⟩
      have hempty : s.acceptedArmed = ∅ := by
        simp [ArmSystem.acceptedArmed, hs.accepted]
      rw [hempty]
      exact Nat.zero_le _
    have hkept : AcceptedKept config sessionId t :=
      hrun.preserves hstart fun _ _ _ ha hstep => (step_moves hstep.1).accepted hstep.2 ha
    exact hkept.le
  · have hlinked : Linked s := hclosed
    have hidle : IdleEmpty s := hclosed
    have hiff : (∀ e ∈ trace, ¬ LeavesQueued cap config sessionId e.1 e.2) ↔
        (∀ e ∈ trace, IdleEmpty e.1 ∧ Linked e.1) ∧ IdleEmpty t ∧ Linked t :=
      run.forall_iff ⟨hidle, hlinked⟩ fun a event b ha hstep =>
        ((step_moves hstep).idle_iff ha.2 ha.1).trans (and_iff_left ((step_moves hstep).linked ha.2)).symm
    rw [hiff, and_iff_left (run.preserves hlinked fun _ _ _ ha hstep => (step_moves hstep).linked ha)]
    apply and_congr_left
    intro _
    exact forall₂_congr fun e he =>
      and_iff_left (run.visits hlinked (fun _ _ _ ha hstep => (step_moves hstep).linked ha) e he)
  · have hkept : ArmedKeys t.db.armed ∧ QueueKeyed t ∧ CoveredOpen config t :=
      run.preserves (P := fun s => ArmedKeys s.db.armed ∧ QueueKeyed s ∧ CoveredOpen config s) ⟨hs.keys, hclosed, fun _ => hclosed⟩ fun _ _ _ ha hstep =>
        ⟨(step_moves hstep).keys ha.1, (step_moves hstep).keyed ha.2.1, (step_moves hstep).covered ha.1 ha.2.1 ha.2.2⟩
    exact hkept.2.2

end

end Forwarder

namespace ForwardSample

open Forwarder

attribute [local instance] textCoding

def armOf (alarmId purpose : String) (due : ℚ) (armSeq : ℕ) : Arm where
  parentId := none
  sessionId := "s"
  purpose
  «at» := some due
  supersedes := none
  alarmId
  sourceKey := "k"
  payload := .obj []
  armSeq
  ts := 0

def arming (alarmId purpose : String) (due : ℚ) (revision : ℕ) : WriteOp :=
  .commit {
    sessionId := "s", owner := "a", fence := 1, now := 0, expectedRevision := revision,
    actions := [armAction (armOf alarmId purpose due (revision + 1))], state := .idle }

def verb (alarmId : String) (due : ℚ) : ArmEvent :=
  .arm { purpose := "watch", «at» := some due, payload := [], alarmId := some alarmId, sourceKey := "k" }

def config : Config := ⟨1, true⟩

def start : ArmSystem where
  db := FenceSample.activated.file

def play (events : List ArmEvent) : Option ArmSystem := events.foldlM (ArmSystem.step 1000000 config "s") start

abbrev Play (s : ArmSystem) (trace : List (ArmSystem × ArmEvent)) (t : ArmSystem) : Prop :=
  Transition.Run (fun s e t => s.step 1000000 config "s" e = some t) s trace t

theorem exists_play {events : List ArmEvent} {check : ArmSystem → Bool} (h : (play events).any check = true) :
    ∃ trace t, trace.map Prod.snd = events ∧ Play start trace t ∧ check t = true := by
  obtain ⟨t, hplay, hcheck⟩ := (Option.any_eq_true check (play events)).mp h
  obtain ⟨trace, hevents, run⟩ := Transition.Run.ofLabels hplay
  exact ⟨trace, t, hevents, run, hcheck⟩

lemma started : Started start where
  closed := rfl
  accepted := rfl
  keys := (by decide : (start.db.armed.map (·.alarmId)).Nodup)

/-- One arm of the verb, up to its send. -/
theorem arm_forwarding_sent : ∃ trace t, Play start trace t ∧ trace.length = 4 ∧ CoveredOpen config t ∧
    ∀ a, t.activation = some a → a.orphans.length ≤ 1 := by
  obtain ⟨trace, t, hevents, run, -⟩ : ∃ trace t, trace.map Prod.snd = [.opened ⟨"a", 1⟩, verb "y" 5, .commitArm 0, .next] ∧
      Play start trace t ∧ (t.activation.any fun a => a.sent.contains "y") = true := exists_play (by decide)
  obtain ⟨horphans, -, -, hcovered, -⟩ := arm_forwarding started run
  refine ⟨trace, t, run, ?_, hcovered, horphans⟩
  rw [← List.length_map (f := Prod.snd), hevents]
  rfl

def retryAndWatch : List ArmEvent := [.outside (arming "x" "retry" 5 1), .outside (arming "y" "watch" 6 2), .opened ⟨"a", 1⟩]

/-- With a budget of one: the verb takes over the chain of a retry and has two chains armed; a refused retry kills the
forwarder in front of a queued occurrence; so does the close of its scope; and what the turn's ledger arms is neither
queued nor sent. -/
theorem arm_forwarding_exceeded :
    (∃ trace t, Play start trace t ∧ config.maxArmed < t.acceptedArmed.card) ∧
    (∃ trace t a, Play start trace t ∧ t.activation = some a ∧ a.closing = false ∧ a.running = false ∧
      a.queued.entries ≠ []) ∧
    (∃ trace t a, Play start trace t ∧ t.activation = some a ∧ a.closing = true ∧ a.running = false ∧
      a.queued.entries ≠ []) ∧
    ∃ trace s t a op, Play start trace s ∧ s.activation.isSome ∧ s.db.armed = [] ∧
      s.step 1000000 config "s" (.outside op) = some t ∧ t.activation = some a ∧ a.closing = false ∧
      ∃ alarmId occurrenceId, IsArmed alarmId occurrenceId t.db.armed ∧ ¬ Has a.queued a.sent alarmId occurrenceId := by
  refine ⟨?_, ?_, ?_, ?_⟩
  · obtain ⟨trace, t, -, run, hcard⟩ : ∃ trace t, trace.map Prod.snd = [.opened ⟨"a", 1⟩, verb "y" 5, .commitArm 0,
        .outside (arming "x" "retry" 6 2), verb "x" 7, .commitArm 0] ∧ Play start trace t ∧
        decide (1 < t.acceptedArmed.card) = true := exists_play (by decide +kernel)
    exact ⟨trace, t, run, of_decide_eq_true hcard⟩
  · obtain ⟨trace, t, -, run, hcheck⟩ : ∃ trace t, trace.map Prod.snd = retryAndWatch ++ [.next, .answer (.refused "gone"),
        .retire] ∧ Play start trace t ∧ (t.activation.any fun a => decide (a.closing = false ∧ a.running = false ∧
          a.queued.entries ≠ [])) = true := exists_play (by decide)
    obtain ⟨a, ha, hdone⟩ := (Option.any_eq_true _ t.activation).mp hcheck
    exact ⟨trace, t, a, run, ha, of_decide_eq_true hdone⟩
  · obtain ⟨trace, t, -, run, hcheck⟩ : ∃ trace t, trace.map Prod.snd = retryAndWatch ++ [.next, .closing, .interrupt] ∧
        Play start trace t ∧ (t.activation.any fun a => decide (a.closing = true ∧ a.running = false ∧
          a.queued.entries ≠ [])) = true := exists_play (by decide)
    obtain ⟨a, ha, hdone⟩ := (Option.any_eq_true _ t.activation).mp hcheck
    exact ⟨trace, t, a, run, ha, of_decide_eq_true hdone⟩
  · obtain ⟨trace, s, -, run, hcheck⟩ : ∃ trace s, trace.map Prod.snd = [.opened ⟨"a", 1⟩] ∧ Play start trace s ∧
        (s.activation.isSome && s.db.armed.isEmpty && (s.step 1000000 config "s" (.outside (arming "x" "retry" 5 1))).any
          fun t => t.activation.any fun a => decide (a.closing = false ∧ a.queued.get? "x" = none ∧ a.sent.get? "x" = none ∧
            t.db.armed.map (·.alarmId) = ["x"])) = true := exists_play (by decide)
    simp only [Bool.and_eq_true, List.isEmpty_iff] at hcheck
    obtain ⟨⟨hopen, hempty⟩, hstep⟩ := hcheck
    obtain ⟨t, ht, hcheck⟩ := (Option.any_eq_true _ _).mp hstep
    obtain ⟨a, ha, hdone⟩ := (Option.any_eq_true _ t.activation).mp hcheck
    obtain ⟨hclosing, hqueued, hsent, harmed⟩ := of_decide_eq_true hdone
    have hmem : "x" ∈ t.db.armed.map (·.alarmId) := by
      rw [harmed]
      exact List.mem_cons_self
    obtain ⟨row, hrow, hid⟩ := List.mem_map.mp hmem
    refine ⟨trace, s, t, a, _, run, hopen, hempty, ht, ha, hclosing, "x", row.occurrenceId, ⟨row, hrow, hid, rfl⟩, ?_⟩
    rintro (hhas | hhas)
    · rw [hqueued] at hhas
      cases hhas
    · rw [hsent] at hhas
      cases hhas

end ForwardSample

end OpenOmni

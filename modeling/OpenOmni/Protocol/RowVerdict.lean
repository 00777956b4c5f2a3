import OpenOmni.Protocol.SessionTurn

/-! The verdict a stored policy row carries, with the grammar it is decoded under. -/
namespace OpenOmni
open List

open PlainValue SessionTransition

namespace PolicyEffects

private def isDelay (least : ℤ) (v : PlainValue) : Bool := v.asInt.any (decide <| least ≤ ·)
private def isObject (v : PlainValue) : Bool := v.asObj.isSome
private def isArray (v : PlainValue) : Bool := v.asArr.isSome

/-- The members of the union: their tag, what they must have, and what they may have. -/
def members : List (String × List (String × (PlainValue → Bool)) × List (String × (PlainValue → Bool))) :=
  [("prompt.append_context", [("context", isString)], []),
    ("prompt.inject_message", [("message", isString)], [("role", isOneOf ["user", "assistant"])]),
    ("prompt.replace", [("prompt", isString)], []),
    ("tool.filter", [("toolPattern", isString)], []),
    ("tool.rewrite_input", [("input", isObject)], []),
    ("tool.rewrite_output", [("output", isString)], []),
    ("tool.skip_invocation", [], [("reason", isString)]),
    ("tool.require_approval", [], [("reason", isString)]),
    ("run.abort", [], [("reason", isString)]),
    ("run.continue_with_prompt", [("prompt", isString)], []),
    ("run.retry_after", [("delayMs", isDelay 0)], [("maxRetries", isDelay 1)]),
    ("run.replace_messages", [("messages", isArray)], []),
    ("audit.annotate", [("annotation", isString)], [("severity", isOneOf ["info", "warning", "error"])]),
    ("writeback.rewrite", [("output", isString)], []),
    ("writeback.suppress", [], [("reason", isString)]),
    ("model.override", [("provider", isNonempty), ("id", isNonempty)], [])]

private def memberKeys (member : String × List (String × (PlainValue → Bool)) × List (String × (PlainValue → Bool))) :
    List String := "type" :: (member.2.1 ++ member.2.2).map Prod.fst

/-- `PolicyEffect.parse`: an unknown field is left out. -/
def parse (v : PlainValue) : Option PlainValue := do
  let type ← (v.get? "type").bind asStr
  let member ← members.find? (·.1 = type)
  guard (member.2.1.all fun slot => (v.get? slot.1).any slot.2)
  guard (member.2.2.all fun slot => (v.get? slot.1).all slot.2)
  return record ((memberKeys member).map fun key => (key, v.get? key))

private lemma memberKeys_nodup : ∀ member ∈ members, (memberKeys member).Nodup := by
  decide

lemma lookup_map_self (keys : List String) (get : String → Option PlainValue) {key : String} (h : key ∈ keys) :
    (keys.map fun key => (key, get key)).lookup key = some (get key) := by
  induction keys with
  | nil => cases h
  | cons k keys ih =>
    by_cases hkey : key = k
    · subst hkey
      simp
    · have hbeq : (key == k) = false := by simpa using hkey
      have hmem : key ∈ keys := mem_of_ne_of_mem hkey h
      rw [map_cons, lookup_cons, hbeq]
      exact ih hmem

private lemma of_guard {p : Bool} {u : Unit} (h : (guard p : Option Unit) = some u) : p = true := by
  cases p with
  | true => rfl
  | false => simp at h

theorem parse_parse {v w : PlainValue} (h : parse v = some w) : parse w = some w := by
  simp only [parse, Option.bind_eq_bind, Option.bind_eq_some_iff, Option.pure_def, Option.some.injEq] at h
  obtain ⟨type, ⟨text, htype, htext⟩, member, hmember, _, hrequired, _, hallowed, rfl⟩ := h
  have hnodup := memberKeys_nodup member (mem_of_find?_eq_some hmember)
  have hkeys : (((memberKeys member).map fun key => (key, v.get? key)).map Prod.fst).Nodup := by
    simpa [Function.comp_def] using hnodup
  have hget : ∀ key ∈ memberKeys member,
      (record ((memberKeys member).map fun key => (key, v.get? key))).get? key = v.get? key := by
    intro key hkey
    rw [get?_record hkeys, lookup_map_self _ _ hkey, Option.join_some]
  have hslots : ∀ slot ∈ member.2.1 ++ member.2.2, slot.1 ∈ memberKeys member := fun slot hslot =>
    mem_cons_of_mem _ (mem_map_of_mem hslot)
  have hrecord : ((memberKeys member).map fun key =>
      (key, (record ((memberKeys member).map fun key => (key, v.get? key))).get? key)) =
        (memberKeys member).map fun key => (key, v.get? key) := by
    apply map_congr_left
    intro key hkey
    rw [hget key hkey]
  have hrequired' : (member.2.1.all fun slot =>
      ((record ((memberKeys member).map fun key => (key, v.get? key))).get? slot.1).any slot.2) = true := by
    have hrequired := of_guard hrequired
    rw [all_eq_true] at hrequired ⊢
    intro slot hslot
    rw [hget _ (hslots slot (mem_append_left _ hslot))]
    exact hrequired slot hslot
  have hallowed' : (member.2.2.all fun slot =>
      ((record ((memberKeys member).map fun key => (key, v.get? key))).get? slot.1).all slot.2) = true := by
    have hallowed := of_guard hallowed
    rw [all_eq_true] at hallowed ⊢
    intro slot hslot
    rw [hget _ (hslots slot (mem_append_right _ hslot))]
    exact hallowed slot hslot
  unfold parse
  rw [hget "type" mem_cons_self, htype, Option.bind_some, htext]
  simp only [Option.bind_eq_bind, Option.bind_some, hmember, hrequired', hallowed', guard_true, hrecord, Option.pure_def]

end PolicyEffects

structure PolicyEffect where
  value : PlainValue
  parsed : PolicyEffects.parse value = some value

def PolicyEffect.read (v : PlainValue) : Option PolicyEffect :=
  match h : PolicyEffects.parse v with
  | none => none
  | some w => some ⟨w, PolicyEffects.parse_parse h⟩

inductive RowVerdict where
  | allow (reason : Option String) (reasonCodes : Option (List String)) (effects : Option (List PolicyEffect))
  | deny (reason : Option String)
  | requireApproval (reason : String)
  | transform (ref : String) (config : Option PlainValue)
  | obligation (ref metric : String) (limit : ℕ)
  | consult (ref : String) (config : Option PlainValue) (observe rewrite : Bool)

private def isLower (c : Char) : Bool := 'a' ≤ c && c ≤ 'z'
private def isDigit (c : Char) : Bool := '0' ≤ c && c ≤ '9'

/-- A name of a `PolicyRef`: a letter, then letters, digits and dashes. -/
def isRefName : List Char → Bool
  | [] => false
  | c :: cs => isLower c && cs.all fun d => isLower d || isDigit d || d == '-'

/-- `PolicyRef`: two names around a slash. -/
def isPolicyRef (s : String) : Bool :=
  isRefName (s.toList.takeWhile (· ≠ '/')) &&
    match s.toList.dropWhile (· ≠ '/') with
    | [] => false
    | _ :: service => isRefName service

def readRef (v : PlainValue) : Option String := v.asStr.filter isPolicyRef

def budgetMetrics : List String :=
  ["continuation", "fanout", "exact_repeat", "toolless_stall", "blocked_recurrence", "resume", "notifications"]

def readMetric (v : PlainValue) : Option String := v.asStr.filter budgetMetrics.contains

/-- `z.literal(true).optional()`. -/
def readFlag (v : Option PlainValue) : Option Bool :=
  match v with
  | none => some false
  | some (.bool true) => some true
  | some _ => none

namespace RowVerdict

def ofPlain (v : PlainValue) : Option RowVerdict :=
  match (v.get? "type").bind asStr with
  | some "allow" => do
    guard (v.strict ["type", "reason", "reasonCodes", "effects"])
    let reason ← optional asStr (v.get? "reason")
    let reasonCodes ← optional (asList asStr) (v.get? "reasonCodes")
    let effects ← optional (asList PolicyEffect.read) (v.get? "effects")
    return .allow reason reasonCodes effects
  | some "deny" => do
    guard (v.strict ["type", "reason"])
    let reason ← optional asStr (v.get? "reason")
    return .deny reason
  | some "require_approval" => do
    guard (v.strict ["type", "reason"])
    let reason ← field v "reason" readId
    return .requireApproval reason
  | some "transform" => do
    guard (v.strict ["type", "ref", "config"])
    let ref ← field v "ref" readRef
    return .transform ref (v.get? "config")
  | some "obligation" => do
    guard (v.strict ["type", "ref", "metric", "limit"])
    let ref ← field v "ref" readRef
    let metric ← field v "metric" readMetric
    let limit ← field v "limit" SessionTurn.readPositive
    return .obligation ref metric limit
  | some "consult" => do
    guard (v.strict ["type", "ref", "config", "observe", "rewrite"])
    let ref ← field v "ref" readRef
    let observe ← readFlag (v.get? "observe")
    let rewrite ← readFlag (v.get? "rewrite")
    return .consult ref (v.get? "config") observe rewrite
  | _ => none

def historicRedact (v : PlainValue) : Option RowVerdict := do
  guard (v.strict ["type", "name", "paths", "replacement"])
  field v "type" (SessionTurn.readLiteral "transform")
  field v "name" (SessionTurn.readLiteral "redact")
  let paths ← optional (asList readId) (v.get? "paths")
  return .transform "kernel/redact" (some (record [("paths", some (.arr ((paths.getD []).map .str))),
    ("replacement", v.get? "replacement")]))

def historicBudget (v : PlainValue) : Option RowVerdict := do
  guard (v.strict ["type", "name", "metric", "limit"])
  field v "type" (SessionTurn.readLiteral "obligation")
  field v "name" (SessionTurn.readLiteral "budget_clamp")
  let metric ← field v "metric" readMetric
  let limit ← field v "limit" SessionTurn.readPositive
  return .obligation "kernel/budget-clamp" metric limit

/-- `RowVerdictRead.safeParse`. -/
def read (v : PlainValue) : Option RowVerdict := (ofPlain v).or ((historicRedact v).or (historicBudget v))

end RowVerdict
end OpenOmni

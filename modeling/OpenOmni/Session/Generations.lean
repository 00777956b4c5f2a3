import OpenOmni.Lib.Dict
import OpenOmni.Lib.Run

/-! The registry of a session's generations: captures and configurations under its lock, owners that come and go
outside it, and the closers that wait for the last of them. A step is what runs from one wait to the next. -/
namespace OpenOmni
namespace Generations

/-- A snapshot by its generation and `snapshotHash`. -/
structure Snapshot where
  generation : ℕ
  hash : String
deriving DecidableEq

structure GenerationBundle where
  sessionId : String
  generation : ℕ
  snapshot : Snapshot
deriving DecidableEq

/-- An entry; its slots are numbered as they open, and it outlives its place in the map. -/
structure Entry where
  bundle : GenerationBundle
  hash : String
  owners : List ℕ := []
  opened : ℕ := 0
  retired : Bool := false
  closed : Bool := false
  /-- The calls of `Scope.close` on its scope. -/
  scopeCloses : ℕ := 0
  /-- The map holds `null` in its place. -/
  dropped : Bool := false
deriving DecidableEq

def acquire (bundle : GenerationBundle) : Entry := { bundle, hash := bundle.snapshot.hash }

def Entry.open (e : Entry) : Entry := { e with owners := e.owners ++ [e.opened], opened := e.opened + 1 }

def Entry.release (e : Entry) (key : ℕ) : Entry := { e with owners := e.owners.erase key }

def Entry.retire (e : Entry) : Entry := { e with retired := true }

def Entry.close (e : Entry) : Entry := { e with closed := true, scopeCloses := e.scopeCloses + 1 }

def Entry.drop (e : Entry) : Entry := { e with dropped := true }

/-- A `close` under way: it awaits the owners, or its scope is closing. -/
structure Closing where
  generation : ℕ
  closing : Bool
deriving DecidableEq

inductive Task where
  /-- The layer of a captured generation that the map lacks. -/
  | capturing (bundle : GenerationBundle)
  | configuring (bundle : GenerationBundle)
  | committing (candidate : Entry)
  /-- The scope of the generation before the configured one. -/
  | retiring (configured : ℕ) (previous : Closing)
  | draining (rest : List ℕ) (closing : Option Closing)
deriving DecidableEq

structure Registry where
  sessionId : String
  entries : Dict ℕ Entry
  current : ℕ
  stopping : Bool := false
  holder : Option Task := none
  closers : List Closing := []
  /-- What the finalizer of the process scope has yet to close. -/
  finalizer : Option (List Closing) := none
deriving DecidableEq

inductive Failure where
  | unavailable (generation : ℕ)
  | unsettled (sessionId : String) (generation owners : ℕ)
  | agent (operation cause : String)
deriving DecidableEq

inductive Answer where
  | captured (generation : ℕ)
  | configured (generation : ℕ)
  | drained
  | failed (failure : Failure)
  | raised
deriving DecidableEq

inductive Event where
  | capture (bundle : GenerationBundle)
  | configure (bundle : GenerationBundle)
  | drain
  | acquired (ok : Bool)
  | committed (ok : Bool)
  | proceed
  | closer (i : ℕ)
  | finalize
  | finalizer
  | retain (generation : ℕ)
  | release (generation key : ℕ)

/-- `makeSessionGenerations`, its first entry built. -/
def start (initial : GenerationBundle) : Registry :=
  { sessionId := initial.sessionId
    entries := Dict.empty.set initial.generation (acquire initial)
    current := initial.generation }

namespace Registry

def put (r : Registry) (generation : ℕ) (e : Entry) : Registry := { r with entries := r.entries.set generation e }

/-- `close` behind its wait: the scope closes unless another closer was first. -/
def close (r : Registry) (generation : ℕ) : Registry × Option Closing :=
  match r.entries.get? generation with
  | none => (r, none)
  | some e => if e.closed then (r, none) else (r.put generation e.close, some ⟨generation, true⟩)

/-- One step of a `close`; nothing while it awaits an owner. -/
def advance (r : Registry) (c : Closing) : Option (Registry × Option Closing) :=
  match r.entries.get? c.generation with
  | none => some (r, none)
  | some e =>
    if c.closing then some (r.put c.generation e.drop, none)
    else if e.owners = [] then some (r.close c.generation)
    else none

def retire (r : Registry) (generation : ℕ) : Registry × Option Closing :=
  match r.entries.get? generation with
  | none => (r, none)
  | some e =>
    if e.retired then (r, none)
    else
      let r := r.put generation e.retire
      if e.owners = [] then r.close generation
      else ({ r with closers := r.closers ++ [⟨generation, false⟩] }, none)

def validate (r : Registry) (bundle : GenerationBundle) : Except Failure Unit :=
  if bundle.sessionId ≠ r.sessionId ∨ bundle.generation ≠ bundle.snapshot.generation then
    .error (.agent "generation.identity" "snapshot_identity_mismatch")
  else .ok ()

def admitCapture (r : Registry) (bundle : GenerationBundle) (entry : Option Entry) : Except Failure Unit :=
  if r.stopping then .error (.unavailable bundle.generation)
  else
    match entry with
    | none => .ok ()
    | some e =>
      if e.hash ≠ bundle.snapshot.hash then .error (.agent "generation.capture" "snapshot_hash_mismatch")
      else if e.closed ∨ e.retired ∧ e.owners = [] then .error (.unavailable bundle.generation)
      else .ok ()

/-- The captured entry gets an owner; one behind the current generation retires, its closer forked. -/
def own (r : Registry) (generation : ℕ) (e : Entry) : Registry :=
  let r := r.put generation e.open
  if generation < r.current then (r.retire generation).1 else r

def capture (r : Registry) (bundle : GenerationBundle) : Registry × Option Answer :=
  match r.validate bundle with
  | .error failure => (r, some (.failed failure))
  | .ok () =>
    match r.entries.get? bundle.generation with
    | none =>
      match r.admitCapture bundle none with
      | .error failure => (r, some (.failed failure))
      | .ok () => ({ r with holder := some (.capturing bundle) }, none)
    | some e =>
      if e.dropped then (r, some (.failed (.unavailable bundle.generation)))
      else
        match r.admitCapture bundle (some e) with
        | .error failure => (r, some (.failed failure))
        | .ok () => (r.own bundle.generation e, some (.captured bundle.generation))

def configure (r : Registry) (bundle : GenerationBundle) : Registry × Option Answer :=
  match r.validate bundle with
  | .error failure => (r, some (.failed failure))
  | .ok () =>
    if r.stopping ∨ r.entries.contains bundle.generation then (r, some (.failed (.unavailable bundle.generation)))
    else ({ r with holder := some (.configuring bundle) }, none)

def select (r : Registry) (candidate : Entry) : Registry × Option Answer :=
  let previous := r.current
  let generation := candidate.bundle.generation
  let r := { r.put generation candidate with current := generation, holder := none }
  match r.retire previous with
  | (r, none) => (r, some (.configured generation))
  | (r, some closing) => ({ r with holder := some (.retiring generation closing) }, none)

def drain (r : Registry) : Registry × Option Answer :=
  let r := { r with stopping := true }
  match r.entries.values.find? fun e => !e.dropped && !e.owners.isEmpty with
  | some e => (r, some (.failed (.unsettled e.bundle.sessionId e.bundle.generation e.owners.length)))
  | none =>
    let live := r.entries.entries.filter fun entry => !entry.2.dropped
    ({ r with holder := some (.draining (live.map Prod.fst) none) }, none)

def build (r : Registry) : Task → Option (Registry × Option Answer)
  | .capturing bundle =>
    some ({ r with holder := none }.own bundle.generation (acquire bundle), some (.captured bundle.generation))
  | .configuring bundle => some ({ r with holder := some (.committing (acquire bundle)) }, none)
  | _ => none

def proceed (r : Registry) : Task → Option (Registry × Option Answer)
  | .retiring generation closing =>
    (r.advance closing).map fun s => ({ s.1 with holder := none }, some (.configured generation))
  | .draining rest (some closing) =>
    (r.advance closing).map fun s => ({ s.1 with holder := some (.draining rest none) }, none)
  | .draining (generation :: rest) none =>
    let s := r.retire generation
    some ({ s.1 with holder := some (.draining rest s.2) }, none)
  | .draining [] none => some ({ r with holder := none }, some .drained)
  | _ => none

def closer (r : Registry) (i : ℕ) : Option Registry :=
  match r.closers[i]? with
  | none => none
  | some c =>
    (r.advance c).map fun s =>
      match s.2 with
      | none => { s.1 with closers := s.1.closers.eraseIdx i }
      | some c' => { s.1 with closers := s.1.closers.set i c' }

def finalize (r : Registry) : Option Registry :=
  match r.finalizer with
  | some _ => none
  | none =>
    let live := r.entries.entries.filter fun entry => !entry.2.dropped
    some { r with stopping := true, finalizer := some (live.map fun entry => ⟨entry.1, false⟩) }

def finalizeNext (r : Registry) : Option Registry :=
  match r.finalizer with
  | some (c :: rest) => (r.advance c).map fun s => { s.1 with finalizer := some (s.2.toList ++ rest) }
  | _ => none

/-- What is under way under a free lock, or under the one that is held. -/
def step (r : Registry) : Event → Option (Registry × Option Answer)
  | .capture bundle => if r.holder = none then some (r.capture bundle) else none
  | .configure bundle => if r.holder = none then some (r.configure bundle) else none
  | .drain => if r.holder = none then some r.drain else none
  | .acquired true => r.holder.bind r.build
  | .acquired false =>
    match r.holder with
    | some (.capturing _) | some (.configuring _) => some ({ r with holder := none }, some .raised)
    | _ => none
  | .committed ok =>
    match r.holder with
    | some (.committing candidate) => some (if ok then r.select candidate else ({ r with holder := none }, some .raised))
    | _ => none
  | .proceed => r.holder.bind r.proceed
  | .closer i => (r.closer i).map fun r => (r, none)
  | .finalize => r.finalize.map fun r => (r, none)
  | .finalizer => r.finalizeNext.map fun r => (r, none)
  | .retain generation => (r.entries.get? generation).map fun e => (r.put generation e.open, none)
  | .release generation key => (r.entries.get? generation).map fun e => (r.put generation (e.release key), none)

def configures (r : Registry) : Event → Option ℕ
  | .committed true =>
    match r.holder with
    | some (.committing candidate) => some candidate.bundle.generation
    | _ => none
  | _ => none

/-- The calls of `Scope.close` on a generation's scope. -/
def scopeCloses (r : Registry) (generation : ℕ) : ℕ := (r.entries.get? generation).elim 0 Entry.scopeCloses

def owners (r : Registry) (generation : ℕ) : List ℕ := (r.entries.get? generation).elim [] Entry.owners

end Registry

def Step (r : Registry) (label : Event × Option Answer) (r' : Registry) : Prop := r.step label.1 = some (r', label.2)

instance (r r' : Registry) (label : Event × Option Answer) : Decidable (Step r label r') :=
  inferInstanceAs (Decidable (r.step label.1 = some (r', label.2)))

def lastConfigured (initial : GenerationBundle) (trace : List (Registry × Event × Option Answer)) : ℕ :=
  (trace.filterMap fun e => e.1.configures e.2.1).getLastD initial.generation

end Generations
end OpenOmni

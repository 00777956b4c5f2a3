import Mathlib.Logic.Function.Basic
import OpenOmni.Machines.PtyRegistry

/-! One terminal of a daemon: the operations on it, each a fiber that sends commands and waits for their replies,
and the control stream that answers them in order and brings the output of its pane. -/
namespace OpenOmni

namespace Pty

/-- The commands of the operations, with what a fiber has of the window and the pane when it sends one. -/
inductive Command where
  | listPanes
  | linkWindow (windowId paneId : String)
  | capturePane (windowId paneId : String)
  | killSession
  | listSessions
  | killWindow (windowId : String)
  | listWindows (windowId : String)
  /-- One of the commands of a write, a resize or a screen read, with those that follow it. -/
  | other (more : ℕ)
deriving DecidableEq

inductive Reply where
  | ok (lines : List String)
  | refused
deriving DecidableEq

/-- What is asked of the terminal; a write, a resize and a screen read attach it and send commands. -/
inductive Operation where
  | «open»
  | read (cursor : Cursor) (waits : Bool)
  | commands (count : ℕ)
  | close
deriving DecidableEq

inductive Result where
  | opened (cursor : Cursor)
  | shown (view : View)
  | done
  | notFound
  | failed
deriving DecidableEq

inductive Phase where
  | idle
  | sent (operation : Operation) (command : Command)
  /-- The reply is there and the fiber has not resumed; `since` is the output of the pane behind the reply. -/
  | replied (operation : Operation) (command : Command) (reply : Reply) (since : Bytes)
  | waiting (cursor : Cursor)
  | ended (result : Result)
deriving DecidableEq

inductive Event where
  | reply (reply : Reply)
  | output (paneId : String) (data : Bytes)

/-- `snapshot`: the rows without the blank ones at the bottom. -/
def snapshot (lines : List String) : Bytes :=
  let text := "\n".intercalate (lines.reverse.dropWhile (· = "")).reverse
  if text = "" then [] else (text ++ "\n").toUTF8.toList

/-- The window and the pane that `list-panes` names; it names one pane of the session. -/
def paneOf : List String → Option (String × String)
  | [line] =>
    match (line.toList.splitOn ' ').map String.ofList with
    | windowId :: paneId :: _ => some (windowId, paneId)
    | _ => none
  | _ => none

structure Terminal where
  record : PtyRecord := {}
  /-- The panes that `paneRoutes` takes to this record. -/
  routes : List String := []
  pending : List (ℕ × Command) := []
  ops : ℕ → Phase := fun _ => .idle
  /-- What the terminal was at the capture it was attached with, and the output of its pane since. -/
  said : Bytes := []

/-- Output of a pane heard while a captured reply waits for its fiber. -/
def Phase.heard (paneId : String) (data : Bytes) : Phase → Phase
  | .replied operation (.capturePane windowId pane) reply since =>
    .replied operation (.capturePane windowId pane) reply (if pane = paneId then since ++ data else since)
  | phase => phase

namespace Terminal
variable (t : Terminal) (i : ℕ)

def put (phase : Phase) : Terminal := { t with ops := Function.update t.ops i phase }

/-- `ctl.command`. -/
def send (operation : Operation) (command : Command) : Terminal :=
  { t.put i (.sent operation command) with pending := t.pending ++ [(i, command)] }

def body : Operation → Terminal
  | .open => t.put i (.ended (.opened (.minted 0)))
  | .read cursor waits =>
    let view := t.record.read cursor
    if view.data ≠ [] ∨ waits = false ∨ t.record.closed then t.put i (.ended (.shown view))
    else t.put i (.waiting cursor)
  | .commands 0 => t.put i (.ended .done)
  | .commands (more + 1) => t.send i (.commands (more + 1)) (.other more)
  | .close => t.put i (.ended .done)

/-- The end of `attach`. -/
def attach (windowId paneId : String) (lines : List String) (since : Bytes) : Terminal :=
  { t with
    record := { t.record with
      windowId := some windowId
      paneId := some paneId
      replay := snapshot lines
      attached := true }
    routes := paneId :: t.routes
    said := if t.record.attached then t.said else snapshot lines ++ since }

/-- The end of `close`. -/
def remove : Terminal :=
  { t.put i (.ended .done) with
    record := { t.record with closed := true }
    routes := match t.record.paneId with
      | some paneId => t.routes.filter (· ≠ paneId)
      | none => t.routes }

/-- `close` behind the session. -/
def closeWindow : Terminal :=
  match t.record.windowId with
  | some windowId => t.send i .close (.killWindow windowId)
  | none => t.remove i

def begin (operation : Operation) : Terminal :=
  if t.record.closed then t.put i (.ended .notFound)
  else if operation = .close then t.send i .close .killSession
  else if t.record.attached then t.body i operation
  else t.send i operation .listPanes

section
variable (name : String)

def proceed (operation : Operation) (since : Bytes) : Command → Reply → Terminal
  | .listPanes, .ok panes =>
    match paneOf panes with
    | some (windowId, paneId) => t.send i operation (.linkWindow windowId paneId)
    | none => t.put i (.ended .failed)
  | .linkWindow windowId paneId, .ok _ => t.send i operation (.capturePane windowId paneId)
  | .capturePane windowId paneId, .ok lines => (t.attach windowId paneId lines since).body i operation
  | .killSession, .ok _ => t.closeWindow i
  | .killSession, .refused => t.send i operation .listSessions
  | .listSessions, .ok names => if name ∈ names then t.put i (.ended .failed) else t.closeWindow i
  | .killWindow _, .ok _ => t.remove i
  | .killWindow windowId, .refused => t.send i operation (.listWindows windowId)
  | .listWindows windowId, .ok windows => if windowId ∈ windows then t.put i (.ended .failed) else t.remove i
  | .other 0, .ok _ => t.put i (.ended .done)
  | .other (more + 1), .ok _ => t.send i operation (.other more)
  | _, .refused => t.put i (.ended .failed)

/-- A fiber resumes: its reply has come, or a read that waits is woken. -/
def resume : Option Terminal :=
  match t.ops i with
  | .replied operation command reply since => some (t.proceed i name operation since command reply)
  | .waiting cursor =>
    some (t.put i (.ended (if t.record.closed then .notFound else .shown (t.record.read cursor))))
  | _ => none

def route : Event → Terminal
  | .reply reply =>
    match t.pending with
    | [] => t
    | (i, command) :: pending =>
      match t.ops i with
      | .sent operation _ => { t.put i (.replied operation command reply []) with pending := pending }
      | _ => { t with pending := pending }
  | .output paneId data =>
    { t with
      record := if paneId ∈ t.routes then t.record.append data else t.record
      ops := fun i => (t.ops i).heard paneId data
      said := if t.record.attached ∧ t.record.paneId = some paneId then t.said ++ data else t.said }

inductive Label where
  | begin (i : ℕ) (operation : Operation)
  | resume (i : ℕ)
  | event (event : Event)

def step : Label → Option Terminal
  | .begin i operation => if t.ops i = .idle then some (t.begin i operation) else none
  | .resume i => t.resume i name
  | .event event => some (t.route event)

end

end Terminal

end Pty

end OpenOmni

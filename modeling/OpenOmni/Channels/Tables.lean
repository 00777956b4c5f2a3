import OpenOmni.Lib.Joined
import OpenOmni.Lib.Utf16
import Mathlib.Data.List.TakeWhile
import OpenOmni.Lib.Paired

/-! Pipe tables rewritten into bold headings and bullets, for surfaces that have no tables. -/
namespace OpenOmni
namespace Tables
open List

abbrev Text := List Char

def split (text : Text) (sep : Char) : List Text := text.splitOn sep

def join (sep : Text) (words : List Text) : Text := sep.intercalate words

def cells (line : Text) : List Text :=
  let parts := (split line '|').map Utf16.trimChars
  let parts := if parts.head? = some [] then parts.tail else parts
  if parts.getLast? = some [] then parts.dropLast else parts

/-- `**lead**` -/
def bold (lead : Text) : Text := ['*', '*'] ++ lead ++ ['*', '*']

/-- `- name: value` -/
def bullet (name value : Text) : Text := ['-', ' '] ++ name ++ [':', ' '] ++ value

def bullets (header row : List Text) : List Text :=
  header.tail.zipIdx.map fun e => bullet e.1 (row[e.2 + 1]?.getD [])

def rowToGroup (header row : List Text) : Text :=
  let lead := row.head?.getD []
  let bullets := join ['\n'] (bullets header row)
  if bullets = [] then bold lead else bold lead ++ '\n' :: bullets

def renderTable (header : Text) (rows : List Text) : Text :=
  let names := cells header
  let groups := rows.map fun row => rowToGroup names (cells row)
  if groups = [] then join ['\n'] (names.map bold) else join ['\n', '\n'] groups

structure Fence where
  marker : Char
  length : ℕ

def unindent (line : Text) : Option Text :=
  if (line.takeWhile (· = ' ')).length ≤ 3 then some (line.dropWhile (· = ' ')) else none

def markerRun (marker : Char) (line : Text) : ℕ := (line.takeWhile (· = marker)).length

/-- The fence that a line opens: three backticks or tildes and more, and no backtick behind backticks. -/
def openingFence (line : Text) : Option Fence := do
  let rest ← unindent line
  let marker ← rest.head?
  let length := markerRun marker rest
  if (marker = '`' ∧ '`' ∉ rest.drop length ∨ marker = '~') ∧ 3 ≤ length then some ⟨marker, length⟩ else none

/-- A line closes a fence by its marker, no shorter, with nothing but blanks behind it. -/
def closesFence (fence : Fence) (line : Text) : Bool :=
  (unindent line).any fun rest =>
    fence.length ≤ markerRun fence.marker rest &&
      (rest.drop (markerRun fence.marker rest)).all fun c => c = ' ' || c = '\t'

def fenceAfter : Option Fence → Text → Option Fence
  | none, line => openingFence line
  | some fence, line => if closesFence fence line then none else some fence

def fencedLines : Option Fence → List Text → List Bool
  | _, [] => []
  | fence, line :: rest =>
    (fence.isSome || (fenceAfter fence line).isSome) :: fencedLines (fenceAfter fence line) rest

@[simp] theorem fencedLines_nil (fence : Option Fence) : fencedLines fence [] = [] := rfl

inductive Block
  | prose (line : Text)
  | table (header separator : Text) (rows : List Text)
  deriving DecidableEq

namespace Block

def lines : Block → List Text
  | .prose line => [line]
  | .table header separator rows => header :: separator :: rows

def out : Block → Text
  | .prose line => line
  | .table header _ rows => renderTable header rows

def kept : Block → List Bool
  | .prose _ => [true]
  | .table _ _ rows => List.replicate (rows.length + 2) false

def cells : Block → List Text
  | .prose _ => []
  | .table header _ rows => Tables.cells header ++ rows.flatMap Tables.cells

def shown : Block → List Text
  | .prose line => [line]
  | .table header _ rows =>
    if rows = [] then (Tables.cells header).map bold
    else rows.flatMap fun row =>
      bold ((Tables.cells row).head?.getD []) :: bullets (Tables.cells header) (Tables.cells row)

end Block

section Shown

variable {word : Text}

section
variable (hword : '\n' ∉ word) (hne : word ≠ [])
include hword hne

end

end Shown

variable {line cell text : Text} {b : Block}

def FencesKept (fenced kept : List Bool) : Prop := List.Forall₂ (fun fenced kept => fenced = true → kept = true) fenced kept

end Tables
end OpenOmni

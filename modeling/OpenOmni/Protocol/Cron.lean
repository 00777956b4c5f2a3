import OpenOmni.Lib.JumpSearch

/-! Five-field cron expressions on the wall clock of a zone: their parse, and the search for their instants. -/
namespace OpenOmni.Cron

inductive ErrorCode where
  | fields | field | range | step | zone | unreachable
deriving DecidableEq

structure CronParseError where
  code : ErrorCode
  field : ℤ
  input : String
deriving DecidableEq

structure FieldSpec where
  set : List ℕ
  restricted : Bool
deriving DecidableEq

structure Spec where
  minute : FieldSpec
  hour : FieldSpec
  dom : FieldSpec
  month : FieldSpec
  dow : FieldSpec
deriving DecidableEq

def monthNames : List String :=
  ["jan", "feb", "mar", "apr", "may", "jun", "jul", "aug", "sep", "oct", "nov", "dec"]

def dayNames : List String := ["sun", "mon", "tue", "wed", "thu", "fri", "sat"]

def monthField : ℕ := 3

def dowField : ℕ := 4

/-- `/^\d+$/`. -/
def isDigits (token : List Char) : Bool := !token.isEmpty && token.all Char.isDigit

/-- `/^[1-9]\d*$/`. -/
def isStep (token : List Char) : Bool := isDigits token && token.head? ≠ some '0'

/-- `Number` of a run of digits. -/
def number (token : List Char) : ℕ := token.foldl (fun n c => n * 10 + (c.toNat - '0'.toNat)) 0

/-- `names.indexOf(token.toLowerCase())`. -/
def nameIndex (names : List String) (token : List Char) : Option ℕ :=
  names.findIdx? fun name => name.toList = token.map Char.toLower

def named (index : ℕ) (token : List Char) : Option ℕ :=
  if index = monthField then (nameIndex monthNames token).map (· + 1)
  else if index = dowField then nameIndex dayNames token
  else none

def parseValue (token : List Char) (index : ℕ) (input : String) : Except CronParseError ℕ :=
  match named index token with
  | some value => .ok value
  | none => if isDigits token then .ok (number token) else .error ⟨.field, index, input⟩

def itemRange (base : List Char) (stepped : Bool) (index lo hi : ℕ) (input : String) : Except CronParseError (ℕ × ℕ) :=
  if base = ['*'] then .ok (lo, hi)
  else
    match base.splitOn '-' with
    | rangeFrom :: rangeTo :: [] => do
      let first ← parseValue rangeFrom index input
      let last ← parseValue rangeTo index input
      return (first, last)
    | rangeFrom :: [] => do
      let first ← parseValue rangeFrom index input
      return (first, if stepped then hi else first)
    | _ => .error ⟨.range, index, input⟩

def itemValue (index value : ℕ) : ℕ := if index = dowField ∧ value = 7 then 0 else value

def stepValues (first last step : ℕ) : List ℕ := List.range' first ((last - first) / step + 1) step

def itemValues (base : List Char) (stepToken : Option (List Char)) (index lo hi : ℕ) (input : String) :
    Except CronParseError (List ℕ) :=
  if stepToken.any fun token => !isStep token then .error ⟨.step, index, input⟩
  else do
    let (first, last) ← itemRange base stepToken.isSome index lo hi input
    if first < lo ∨ hi < last ∨ last < first then .error ⟨.range, index, input⟩
    else .ok ((stepValues first last ((stepToken.map number).getD 1)).map (itemValue index))

/-- `parseItem`: the values that it adds. -/
def parseItem (index lo hi : ℕ) (input : String) (item : List Char) : Except CronParseError (List ℕ) :=
  match item.splitOn '/' with
  | base :: [] => itemValues base none index lo hi input
  | base :: stepToken :: [] => itemValues base (some stepToken) index lo hi input
  | _ => .error ⟨.step, index, input⟩

def parseField (raw : List Char) (index lo hi : ℕ) (input : String) : Except CronParseError FieldSpec := do
  let values ← (raw.splitOn ',').mapM (parseItem index lo hi input)
  return ⟨values.flatten, raw ≠ ['*']⟩

/-- What `trim` strips and `\s` matches. -/
def isSpace (c : Char) : Bool :=
  [9, 10, 11, 12, 13, 32, 160, 5760, 8232, 8233, 8239, 8287, 12288, 65279].contains c.toNat ||
    (8192 ≤ c.toNat && c.toNat ≤ 8202)

/-- `expr.trim().split(/\s+/)`; an expression of blanks is one empty field. -/
def fieldsOf (expr : String) : List (List Char) :=
  match (expr.toList.splitOnP isSpace).filter (· ≠ []) with
  | [] => [[]]
  | fields => fields

def parse (expr : String) : Except CronParseError Spec :=
  match fieldsOf expr with
  | [minute, hour, dom, month, dow] => do
    let minute ← parseField minute 0 0 59 expr
    let hour ← parseField hour 1 0 23 expr
    let dom ← parseField dom 2 1 31 expr
    let month ← parseField month monthField 1 12 expr
    let dow ← parseField dow dowField 0 7 expr
    return ⟨minute, hour, dom, month, dow⟩
  | fields => .error ⟨.fields, fields.length, expr⟩

abbrev Zone := ℤ → ℤ

def minuteMs : ℤ := 60000

/-- The minute that a zone's wall clock shows at an instant, counted from 1970. -/
def wallMinute (zone : Zone) (ms : ℤ) : ℤ := (ms + zone ms * minuteMs) / minuteMs

/-- Year, month and day of the Gregorian calendar, by the day counted from 1970; years start in March here, so that
the leap day ends one. -/
def civil (day : ℤ) : ℤ × ℕ × ℕ :=
  let shifted := day + 719468
  let era := shifted / 146097
  let dayOfEra := (shifted % 146097).toNat
  let yearOfEra := (dayOfEra - dayOfEra / 1460 + dayOfEra / 36524 - dayOfEra / 146096) / 365
  let dayOfYear := dayOfEra - (365 * yearOfEra + yearOfEra / 4 - yearOfEra / 100)
  let month := (5 * dayOfYear + 2) / 153
  let dayOfMonth := dayOfYear - (153 * month + 2) / 5 + 1
  let year := yearOfEra + era * 400
  if month < 10 then (year, month + 3, dayOfMonth) else (year + 1, month - 9, dayOfMonth)

/-- The parts of the wall clock that make its `key`; the year is shown without its era. -/
structure WallKey where
  year : ℤ
  month : ℕ
  dom : ℕ
  hour : ℕ
  minute : ℕ
deriving DecidableEq

structure Wall where
  minute : ℕ
  hour : ℕ
  dom : ℕ
  month : ℕ
  dow : ℕ
  key : WallKey

/-- What `formatToParts` reads off a wall minute. -/
def wallOf (wall : ℤ) : Wall :=
  let minute := (wall % 60).toNat
  let hour := (wall / 60 % 24).toNat
  let day := wall / 1440
  let date := civil day
  { minute := minute
    hour := hour
    dom := date.2.2
    month := date.2.1
    dow := ((day + 4) % 7).toNat
    key := ⟨if date.1 ≤ 0 then 1 - date.1 else date.1, date.2.1, date.2.2, hour, minute⟩ }

def wallAt (zone : Zone) (ms : ℤ) : Wall := wallOf (wallMinute zone ms)

/-- Vixie day rule: both restricted, either; one restricted, that one. -/
def dayMatches (spec : Spec) (wall : Wall) : Bool :=
  let domHit := spec.dom.set.contains wall.dom
  let dowHit := spec.dow.set.contains wall.dow
  if spec.dom.restricted && spec.dow.restricted then domHit || dowHit
  else (!spec.dom.restricted || domHit) && (!spec.dow.restricted || dowHit)

def isRepeatedWallMinute (zone : Zone) (ms : ℤ) (key : WallKey) : Bool :=
  (wallAt zone (ms - 60 * minuteMs)).key = key || (wallAt zone (ms - 30 * minuteMs)).key = key

def searchBoundMs : ℤ := 366 * 24 * 60 * minuteMs

def dayJumpSafetyMinutes : ℤ := 120

def hourJump (wall : Wall) : ℤ := 60 - wall.minute

def dayJump (wall : Wall) : ℤ := (23 - wall.hour) * 60 + hourJump wall - dayJumpSafetyMinutes

/-- One pass of `nextAfterMinute`'s loop: how far the cursor goes on, or nothing where it is returned. -/
def probe (spec : Spec) (zone : Zone) (cursor : ℤ) : Option ℤ :=
  let wall := wallAt zone cursor
  if !(spec.month.set.contains wall.month && dayMatches spec wall) then
    some (max (hourJump wall) (dayJump wall) * minuteMs)
  else if !spec.hour.set.contains wall.hour then some (hourJump wall * minuteMs)
  else if !spec.minute.set.contains wall.minute || isRepeatedWallMinute zone cursor wall.key then some minuteMs
  else none

lemma hourJump_pos (zone : Zone) (ms : ℤ) : 0 < hourJump (wallAt zone ms) := by
  unfold hourJump wallAt wallOf
  dsimp only
  omega

lemma probe_leadsOn (spec : Spec) (zone : Zone) : JumpSearch.LeadsOn (probe spec zone) := by
  intro cursor jump h
  have hhour := hourJump_pos zone cursor
  unfold probe at h
  dsimp only at h
  split at h
  · cases h
    have hmax := le_max_left (hourJump (wallAt zone cursor)) (dayJump (wallAt zone cursor))
    unfold minuteMs
    omega
  · split at h
    · cases h
      unfold minuteMs
      omega
    · split at h
      · cases h
        decide
      · cases h

def nextAfterMinute (spec : Spec) (zone : Zone) (floorMs : ℤ) (expr : String) : Except CronParseError ℤ :=
  match JumpSearch.search (probe spec zone) (probe_leadsOn spec zone) (floorMs + searchBoundMs) (floorMs + minuteMs) with
  | some cursor => .ok cursor
  | none => .error ⟨.unreachable, -1, expr⟩

/-- `zoneFormatter`, with the zones that `Intl` knows. -/
def zoneFormatter (zones : String → Option Zone) (tz : String) : Except CronParseError Zone :=
  match zones tz with
  | some zone => .ok zone
  | none => .error ⟨.zone, -1, tz⟩

/-- `Math.floor(ms / MINUTE_MS) * MINUTE_MS`. -/
def floorMinute (ms : ℤ) : ℤ := ms / minuteMs * minuteMs

variable (zones : String → Option Zone)

def next (expr : String) (fromMs : ℤ) (tz : String) : Except CronParseError ℤ := do
  let spec ← parse expr
  let zone ← zoneFormatter zones tz
  nextAfterMinute spec zone (floorMinute fromMs) expr

end OpenOmni.Cron

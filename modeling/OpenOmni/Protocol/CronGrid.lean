import OpenOmni.Protocol.Cron

/-! The grid that an expression lays over a zone's wall clock, and where the search finds its next minute. -/
namespace OpenOmni.Cron

def satisfies (spec : Spec) (wall : Wall) : Bool :=
  spec.month.set.contains wall.month && dayMatches spec wall && spec.hour.set.contains wall.hour &&
    spec.minute.set.contains wall.minute

def OccurredEarlier (zone : Zone) (ms : ℤ) : Prop := ∃ earlier < ms, wallMinute zone earlier = wallMinute zone ms

/-- A whole minute whose wall minute satisfies the expression and was not shown before. -/
def Grid (spec : Spec) (zone : Zone) (t : ℤ) : Prop :=
  minuteMs ∣ t ∧ satisfies spec (wallAt zone t) = true ∧ ¬ OccurredEarlier zone t

variable {spec : Spec} {zone : Zone} {floorMs limit : ℤ}

variable {m jump t w w' : ℤ} {expr : String}

end OpenOmni.Cron

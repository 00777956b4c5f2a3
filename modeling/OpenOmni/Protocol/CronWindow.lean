import Mathlib
import OpenOmni.Protocol.CronGrid
import OpenOmni.Lib.Results

/-! The grid minutes of a window, listed and counted by one search after another. -/
namespace OpenOmni.Cron
open List

/-- The grid minutes of the window from `afterMs`, left out, to `untilMs`. -/
def window (spec : Spec) (zone : Zone) (afterMs untilMs : ℤ) : Set ℤ := {t | afterMs < t ∧ t ≤ untilMs ∧ Grid spec zone t}

/-- The first elements of a set in increasing order, as many as there are up to a limit. -/
structure FirstOf (limit : ℕ) (S : Set ℤ) (hits : List ℤ) : Prop where
  sorted : hits.Pairwise (· < ·)
  mem : ∀ t ∈ hits, t ∈ S
  short : hits.length ≤ limit
  first : ∀ t ∈ S, t ∉ hits → hits.length = limit ∧ ∀ hit ∈ hits, hit < t

variable {spec : Spec} {zone : Zone} {untilMs : ℤ} {expr : String} {s : ℤ}

variable {g u hit : ℤ} {k left count : ℕ} {zones : String → Option Zone} {tz : String}

lemma FirstOf.nil (limit : ℕ) : FirstOf limit ∅ [] :=
  ⟨List.Pairwise.nil, fun _ h => (nomatch h), Nat.zero_le _, fun t ht => absurd ht (Set.notMem_empty t)⟩

end OpenOmni.Cron

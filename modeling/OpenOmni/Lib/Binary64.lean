import Mathlib

/-! Finite binary64 numbers as rationals: rounding to the nearest, and the decimals that round to a number. -/

namespace Binary64
open List

def roundHalfEven (q : ℚ) : ℤ :=
  let below := ⌊q⌋
  if q - below < 1 / 2 then below
  else if 1 / 2 < q - below then below + 1
  else if below % 2 = 0 then below
  else below + 1

lemma roundHalfEven_intCast (z : ℤ) : roundHalfEven z = z := by
  unfold roundHalfEven
  simp

variable {z : ℤ} {q : ℚ}

lemma roundHalfEven_le (q : ℚ) (h : q ≤ z) : roundHalfEven q ≤ z := by
  have hfloor : ⌊q⌋ ≤ z := by
    have hle := Int.floor_le_floor h
    rwa [Int.floor_intCast] at hle
  have hceil : ⌊q⌋ ≠ z ∨ q - ⌊q⌋ < 1 / 2 := by
    by_contra hnot
    push Not at hnot
    obtain ⟨heq, hhalf⟩ := hnot
    rw [heq] at hhalf
    linarith
  unfold roundHalfEven
  dsimp only
  split
  · exact hfloor
  · rename_i hbelow
    have hlt : ⌊q⌋ < z := lt_of_le_of_ne hfloor (hceil.resolve_right hbelow)
    split
    · omega
    · split
      · exact hfloor
      · omega

lemma le_roundHalfEven (q : ℚ) (h : z ≤ q) : z ≤ roundHalfEven q := by
  have hfloor : z ≤ ⌊q⌋ := Int.le_floor.mpr h
  unfold roundHalfEven
  dsimp only
  split
  · exact hfloor
  · split
    · omega
    · split
      · exact hfloor
      · omega

/-- The exponent of the last place of a number: 52 places below the first, and no less than the smallest. -/
def lastPlace (q : ℚ) : ℤ := max (Int.log 2 |q| - 52) (-1074)

def rounded (q : ℚ) : ℚ := roundHalfEven (q / 2 ^ lastPlace q) * 2 ^ lastPlace q

/-- The number nearest to a rational; nothing where it is no finite number. -/
def nearest (q : ℚ) : Option ℚ := if |rounded q| < 2 ^ 1024 then some (rounded q) else none

/-- A finite binary64 number: a multiple of a place, of no more than 53 bits. -/
def IsNumber (q : ℚ) : Prop := (∃ m place : ℤ, |m| ≤ 2 ^ 53 ∧ -1074 ≤ place ∧ q = m * 2 ^ place) ∧ |q| < 2 ^ 1024

lemma two_zpow_pos (z : ℤ) : (0 : ℚ) < 2 ^ z := zpow_pos (by norm_num) z

lemma two_zpow_add (a b : ℤ) : (2 : ℚ) ^ (a + b) = 2 ^ a * 2 ^ b := zpow_add₀ (by norm_num) a b

lemma lastPlace_le {place : ℤ} (hne : q ≠ 0) (hplace : -1074 ≤ place) (hq : |q| < 2 ^ (place + 53)) :
    lastPlace q ≤ place := by
  have hlog : Int.log 2 |q| < place + 53 := by
    apply (Int.lt_zpow_iff_log_lt (by norm_num) (abs_pos.mpr hne)).mp
    exact_mod_cast hq
  unfold lastPlace
  omega

lemma abs_lt_zpow_lastPlace (q : ℚ) : |q| < 2 ^ (lastPlace q + 53) := by
  have hlog : |q| < ((2 : ℕ) : ℚ) ^ (Int.log 2 |q| + 1) := Int.lt_zpow_succ_log_self (by norm_num) |q|
  apply lt_of_lt_of_le hlog
  push_cast
  apply zpow_le_zpow_right₀ (by norm_num)
  unfold lastPlace
  omega

theorem rounded_of_int (h : q = z * 2 ^ lastPlace q) : rounded q = q := by
  have hdiv : q / 2 ^ lastPlace q = z := by
    rw [div_eq_iff (two_zpow_pos _).ne']
    exact h
  unfold rounded
  rw [hdiv, roundHalfEven_intCast]
  exact h.symm

lemma IsNumber.rounded (h : IsNumber q) : rounded q = q := by
  obtain ⟨⟨m, place, hm, hplace, hq⟩, -⟩ := h
  by_cases hne : q = 0
  · exact rounded_of_int (by simpa using hne : q = (0 : ℤ) * 2 ^ lastPlace q)
  have habs : |q| = |(m : ℚ)| * 2 ^ place := by rw [hq, abs_mul, abs_of_pos (two_zpow_pos place)]
  have hbits : (2 : ℚ) ^ (place + 53) = 2 ^ 53 * 2 ^ place := by
    rw [two_zpow_add, mul_comm]
    norm_cast
  rcases lt_or_eq_of_le hm with hlt | heq
  · have hsmall : |q| < 2 ^ (place + 53) := by
      rw [habs, hbits]
      apply mul_lt_mul_of_pos_right _ (two_zpow_pos place)
      exact_mod_cast hlt
    have hle := lastPlace_le hne hplace hsmall
    have hsplit : (2 : ℚ) ^ place = 2 ^ (place - lastPlace q).toNat * 2 ^ lastPlace q := by
      rw [← zpow_natCast, ← two_zpow_add]
      congr 1
      omega
    have hint : q = ((m * 2 ^ (place - lastPlace q).toNat : ℤ) : ℚ) * 2 ^ lastPlace q := by
      push_cast
      rw [mul_assoc, ← hsplit]
      exact hq
    exact rounded_of_int hint
  · -- one bit more than 53, a power of two: it is a multiple of the next place too
    have hcast : |(m : ℚ)| = 2 ^ 53 := by exact_mod_cast heq
    have hsmall : |q| < 2 ^ (place + 1 + 53) := by
      have hstep : (2 : ℚ) ^ (place + 1 + 53) = 2 * 2 ^ (place + 53) := by
        rw [show place + 1 + 53 = 1 + (place + 53) by ring, two_zpow_add]
        norm_num
      have hpos := two_zpow_pos (place + 53)
      rw [hstep, habs, hcast, ← hbits]
      linarith
    have hle := lastPlace_le hne (by omega) hsmall
    have hsplit : (2 : ℚ) ^ (place + 1) = 2 ^ (place + 1 - lastPlace q).toNat * 2 ^ lastPlace q := by
      rw [← zpow_natCast, ← two_zpow_add]
      congr 1
      omega
    have hhalf : ∃ half : ℤ, m = half * 2 := by
      rcases abs_choice m with hpos | hneg
      · exact ⟨2 ^ 52, by omega⟩
      · exact ⟨-2 ^ 52, by omega⟩
    obtain ⟨half, rfl⟩ := hhalf
    have hint : q = ((half * 2 ^ (place + 1 - lastPlace q).toNat : ℤ) : ℚ) * 2 ^ lastPlace q := by
      push_cast
      rw [mul_assoc, ← hsplit, hq, show place + 1 = 1 + place by ring, two_zpow_add]
      push_cast
      ring
    exact rounded_of_int hint

theorem IsNumber.nearest_eq (h : IsNumber q) : nearest q = some q := by
  unfold nearest
  rw [h.rounded, if_pos h.2]

theorem isNumber_of_nearest {r : ℚ} (h : nearest q = some r) : IsNumber r := by
  unfold nearest at h
  split at h
  · rename_i hfinite
    cases h
    refine ⟨⟨roundHalfEven (q / 2 ^ lastPlace q), lastPlace q, ?_, le_max_right _ _, rfl⟩, hfinite⟩
    have hlt := abs_lt_zpow_lastPlace q
    rw [add_comm, two_zpow_add] at hlt
    have hdiv : |q / 2 ^ lastPlace q| ≤ 2 ^ 53 := by
      rw [abs_div, abs_of_pos (two_zpow_pos _), div_le_iff₀ (two_zpow_pos _)]
      have hcast : (2 : ℚ) ^ (53 : ℤ) = 2 ^ 53 := by norm_cast
      rw [hcast] at hlt
      exact hlt.le
    obtain ⟨hlow, hhigh⟩ := abs_le.mp hdiv
    apply abs_le.mpr
    constructor
    · apply le_roundHalfEven
      push_cast
      exact hlow
    · apply roundHalfEven_le
      push_cast
      exact hhigh
  · cases h

lemma isNumber_zero : IsNumber 0 := ⟨⟨0, 0, by norm_num, by norm_num, by simp⟩, by norm_num⟩

lemma IsNumber.neg (h : IsNumber q) : IsNumber (-q) := by
  obtain ⟨⟨m, place, hm, hplace, hq⟩, hfinite⟩ := h
  refine ⟨⟨-m, place, by rwa [abs_neg], hplace, ?_⟩, by rwa [abs_neg]⟩
  rw [hq]
  push_cast
  ring

structure Decimal where
  digits : ℕ
  exponent : ℤ

def Decimal.value (d : Decimal) : ℚ := d.digits * 10 ^ d.exponent

/-- The largest decimal of the given digits that is not above a positive rational. -/
def below (q : ℚ) (digits : ℕ) : Decimal :=
  let exponent := Int.log 10 q + 1 - digits
  ⟨⌊q / 10 ^ exponent⌋₊, exponent⟩

def above (q : ℚ) (digits : ℕ) : Decimal :=
  let low := below q digits
  if low.digits + 1 = 10 ^ digits then ⟨10 ^ (digits - 1), low.exponent + 1⟩ else ⟨low.digits + 1, low.exponent⟩

/-- The two decimals next to a rational, the nearer one first, or the even one. -/
def neighbours (q : ℚ) (digits : ℕ) : List Decimal :=
  let low := below q digits
  let high := above q digits
  if q - low.value < high.value - q then [low, high]
  else if high.value - q < q - low.value then [high, low]
  else if low.digits % 2 = 0 then [low, high]
  else [high, low]

/-- The decimal of the given digits that rounds to the number, where there is one. -/
def decimal (q : ℚ) (digits : ℕ) : Option Decimal := (neighbours q digits).find? fun d => nearest d.value = some q

lemma decimal_isSome_of_below {digits : ℕ} (h : nearest (below q digits).value = some q) :
    (decimal q digits).isSome := by
  unfold decimal
  rw [find?_isSome]
  refine ⟨below q digits, ?_, by simpa using h⟩
  unfold neighbours
  dsimp only
  split
  · exact mem_cons_self
  · split
    · exact mem_cons_of_mem _ mem_cons_self
    · split
      · exact mem_cons_self
      · exact mem_cons_of_mem _ mem_cons_self

theorem IsNumber.exists_place (h : IsNumber q) : ∃ j : ℕ, ∃ z : ℤ, q * 10 ^ j = z := by
  obtain ⟨⟨m, place, -, -, hq⟩, -⟩ := h
  refine ⟨(-place).toNat, m * 2 ^ place.toNat * 5 ^ (-place).toNat, ?_⟩
  have hten : (10 : ℚ) ^ (-place).toNat = 2 ^ (-place).toNat * 5 ^ (-place).toNat := by
    rw [← mul_pow]
    norm_num
  have htwo : (2 : ℚ) ^ place * 2 ^ (-place).toNat = 2 ^ place.toNat := by
    rw [← zpow_natCast, ← zpow_natCast, ← two_zpow_add]
    congr 1
    omega
  push_cast
  rw [hq, hten, ← htwo]
  ring

theorem exists_decimal (h : IsNumber q) (hpos : 0 < q) : ∃ k, (decimal q (k + 1)).isSome := by
  obtain ⟨j, z, hz⟩ := h.exists_place
  refine ⟨(Int.log 10 q + j).toNat, decimal_isSome_of_below ?_⟩
  have hexact : (below q ((Int.log 10 q + j).toNat + 1)).value = q := by
    unfold below Decimal.value
    dsimp only
    generalize hexponent : Int.log 10 q + 1 - ((Int.log 10 q + j).toNat + 1 : ℕ) = exponent
    have hle : exponent ≤ -(j : ℤ) := by omega
    have hten : (10 : ℚ) ^ exponent ≠ 0 := (zpow_pos (by norm_num) exponent).ne'
    have hnat : ∃ n : ℕ, q / 10 ^ exponent = n := by
      have hint : q / 10 ^ exponent = ((z * 10 ^ (-exponent - j).toNat : ℤ) : ℚ) := by
        push_cast
        rw [← hz, div_eq_iff hten, mul_assoc, mul_assoc, ← zpow_natCast, ← zpow_natCast, ← zpow_add₀ (by norm_num),
          ← zpow_add₀ (by norm_num)]
        have hsum : (j : ℤ) + (((-exponent - j).toNat : ℤ) + exponent) = 0 := by omega
        rw [hsum, zpow_zero, mul_one]
      have hnonneg : 0 ≤ z * 10 ^ (-exponent - j).toNat := by
        have hdiv : 0 ≤ q / 10 ^ exponent := div_nonneg hpos.le (zpow_pos (by norm_num) exponent).le
        rw [hint] at hdiv
        exact_mod_cast hdiv
      refine ⟨(z * 10 ^ (-exponent - j).toNat).toNat, ?_⟩
      rw [hint]
      exact_mod_cast (Int.toNat_of_nonneg hnonneg).symm
    obtain ⟨n, hn⟩ := hnat
    rw [hn, Nat.floor_natCast, ← hn, div_mul_cancel₀ _ hten]
  rw [hexact]
  exact h.nearest_eq

/-- The decimal of the fewest digits that rounds to a positive number, the nearest one of them. -/
def shortest (q : ℚ) (h : IsNumber q) (hpos : 0 < q) : Decimal :=
  (decimal q (Nat.find (exists_decimal h hpos) + 1)).get (Nat.find_spec (exists_decimal h hpos))

lemma nearest_shortest (h : IsNumber q) (hpos : 0 < q) : nearest (shortest q h hpos).value = some q := by
  have hfind : decimal q (Nat.find (exists_decimal h hpos) + 1) = some (shortest q h hpos) := (Option.some_get _).symm
  have htest := find?_some hfind
  simpa using htest

lemma shortest_pos (h : IsNumber q) (hpos : 0 < q) : 0 < (shortest q h hpos).digits := by
  have hround := nearest_shortest h hpos
  by_contra hzero
  have hdigits : (shortest q h hpos).digits = 0 := by omega
  unfold Decimal.value at hround
  rw [hdigits, Nat.cast_zero, zero_mul, isNumber_zero.nearest_eq] at hround
  exact hpos.ne (Option.some.inj hround)

end Binary64

import Mathlib.Data.Int.Log
import Mathlib.Data.Rat.Floor
import Mathlib.Algebra.Order.Field.Rat

/-!
# Binary floating point with 64 bits

The numbers of `binary64` as rationals: `round` is the nearest one, and of two nearest ones the one
with an even significand. `shortest` is the decimal that such a number is printed as. An integer
below `2^53` is a number, and is printed as itself (`round_intCast`, `shortest_intCast`).
-/

namespace ControlPlane.Binary64

/-- A rational rounded to an integer, a half to the even one. -/
def roundHalfEven (q : ℚ) : ℤ :=
  let n := q.floor
  let rest := q - n
  if rest < 1 / 2 then n
  else if 1 / 2 < rest then n + 1
  else if n % 2 = 0 then n else n + 1

/-- The exponent of the last bit of a number of this size. -/
def exponent (q : ℚ) : ℤ := max (Int.log 2 |q| - 52) (-1074)

/-- The nearest number, where the exponent has no upper bound. -/
def round (q : ℚ) : ℚ :=
  if q = 0 then 0
  else
    let ulp : ℚ := 2 ^ exponent q
    roundHalfEven (q / ulp) * ulp

/-- The nearest number, `none` beyond the largest one. -/
def ofRat (q : ℚ) : Option ℚ := if |round q| < 2 ^ 1024 then some (round q) else none

/-! ## Decimals -/

/-- The decimal with so many digits that is read as this positive number: the nearest one, or else
the one on the other side. -/
def withDigits (x : ℚ) (digits : ℕ) : Option ℚ :=
  let unit : ℚ := 10 ^ (Int.log 10 x + 1 - digits)
  let near := roundHalfEven (x / unit)
  let other := if near ≤ x / unit then near + 1 else near - 1
  if round (near * unit) = x then some (near * unit)
  else if round (other * unit) = x then some (other * unit)
  else none

/-- The decimal with the fewest digits that is read as this number, of which 17 are enough. -/
def shortest (x : ℚ) : ℚ :=
  let decimal (y : ℚ) : ℚ := ((List.range 17).findSome? fun n => withDigits y (n + 1)).getD y
  if x = 0 then 0 else if x < 0 then -decimal (-x) else decimal x

/-! ## Integers -/

theorem roundHalfEven_intCast (n : ℤ) : roundHalfEven n = n := by
  simp [roundHalfEven]

theorem floor_le_roundHalfEven (q : ℚ) : q.floor ≤ roundHalfEven q := by
  simp only [roundHalfEven]
  split_ifs <;> omega

/-- An integer below `2^53` is a number. -/
theorem round_intCast {n : ℤ} (hn : |n| < 2 ^ 53) : round n = n := by
  unfold round
  split_ifs with hzero
  · exact hzero.symm
  have hpos : (0 : ℚ) < |(n : ℚ)| := abs_pos.mpr hzero
  have hlog : Int.log 2 |(n : ℚ)| < 53 := by
    rw [← Int.lt_zpow_iff_log_lt (by decide) hpos]
    exact_mod_cast hn
  -- The last bit is not above the unit, so that the quotient is an integer.
  obtain ⟨k, hk⟩ : ∃ k : ℕ, exponent n = -k := by
    have hexponent : exponent n ≤ 0 := by
      unfold exponent
      omega
    exact ⟨(-exponent n).toNat, by omega⟩
  have hquotient : (n : ℚ) / 2 ^ exponent n = ((n * 2 ^ k : ℤ) : ℚ) := by
    rw [hk, zpow_neg, zpow_natCast, div_inv_eq_mul]
    push_cast
    rfl
  have hulp : (2 : ℚ) ^ exponent n ≠ 0 := zpow_ne_zero _ two_ne_zero
  simp only [hquotient, roundHalfEven_intCast]
  rw [← hquotient, div_mul_cancel₀ _ hulp]

/-- What is `2^53` or more is not rounded below it. -/
theorem le_round {q : ℚ} (hq : 2 ^ 53 ≤ q) : 2 ^ 53 ≤ round q := by
  have hpos : 0 < q := lt_of_lt_of_le (by norm_num) hq
  have hlog : 53 ≤ Int.log 2 |q| := by
    rw [abs_of_pos hpos, ← Int.zpow_le_iff_le_log (by decide) hpos]
    exact_mod_cast hq
  have hexponent : exponent q = Int.log 2 |q| - 52 := by
    unfold exponent
    omega
  have hulp : (0 : ℚ) < 2 ^ exponent q := zpow_pos two_pos _
  have hself : (2 : ℚ) ^ Int.log 2 |q| ≤ q := by
    have h := @Int.zpow_log_le_self ℚ _ _ _ _ 2 q (by decide) hpos
    rw [abs_of_pos hpos]
    exact_mod_cast h
  have hquotient : ((2 ^ 52 : ℤ) : ℚ) ≤ q / 2 ^ exponent q := by
    rw [le_div_iff₀ hulp, hexponent]
    refine le_trans (le_of_eq ?_) hself
    have hsplit : Int.log 2 |q| = 52 + (Int.log 2 |q| - 52) := by ring
    conv_rhs => rw [hsplit, zpow_add₀ two_ne_zero]
    norm_num
  have hfloor : (2 ^ 52 : ℤ) ≤ roundHalfEven (q / 2 ^ exponent q) :=
    (Rat.le_floor_iff.mpr hquotient).trans (floor_le_roundHalfEven _)
  have hone : (2 : ℚ) ^ (1 : ℤ) ≤ 2 ^ exponent q := zpow_le_zpow_right₀ one_le_two (by omega)
  unfold round
  rw [if_neg hpos.ne']
  calc (2 : ℚ) ^ 53 = ((2 ^ 52 : ℤ) : ℚ) * 2 ^ (1 : ℤ) := by norm_num
    _ ≤ roundHalfEven (q / 2 ^ exponent q) * 2 ^ exponent q :=
      mul_le_mul (by exact_mod_cast hfloor) hone (by norm_num)
        (by exact_mod_cast (by positivity : (0 : ℤ) ≤ 2 ^ 52).trans hfloor)

/-- A natural number below `2^53` is not read from another integer. -/
theorem eq_of_round_eq {y : ℤ} {n : ℕ} (hy : 0 ≤ y) (hn : n < 2 ^ 53)
    (h : round y = (n : ℚ)) : (y : ℚ) = n := by
  rcases lt_or_ge y (2 ^ 53) with hsmall | hlarge
  · rw [← h, round_intCast (by rwa [abs_of_nonneg hy])]
  · have hround : (2 : ℚ) ^ 53 ≤ n := h ▸ le_round (by exact_mod_cast hlarge)
    exact absurd hround (not_le.mpr (by exact_mod_cast hn))

/-- With no more digits than it has in front of the point, no other decimal is found for it. -/
theorem withDigits_natCast {n digits : ℕ} (hn : n < 2 ^ 53)
    (hdigits : (digits : ℤ) ≤ Int.log 10 (n : ℚ) + 1) :
    withDigits n digits = none ∨ withDigits n digits = some (n : ℚ) := by
  obtain ⟨k, hk⟩ : ∃ k : ℕ, Int.log 10 (n : ℚ) + 1 - digits = k :=
    ⟨(Int.log 10 (n : ℚ) + 1 - digits).toNat, by omega⟩
  have hfloor : 0 ≤ ((n : ℚ) / 10 ^ k).floor :=
    Rat.le_floor_iff.mpr (by positivity)
  have hnear := hfloor.trans (floor_le_roundHalfEven ((n : ℚ) / 10 ^ k))
  -- Every candidate is an integer, as the unit is one.
  have hcandidate {m : ℤ} (hm : 0 ≤ m) (h : round (m * 10 ^ k) = (n : ℚ)) :
      (m * 10 ^ k : ℚ) = n := by
    have hcast : ((m * 10 ^ k : ℤ) : ℚ) = m * 10 ^ k := by push_cast; rfl
    rw [← hcast] at h ⊢
    exact eq_of_round_eq (by positivity) hn h
  unfold withDigits
  simp only [hk, zpow_natCast]
  split_ifs with hread hle hother hother
  · exact .inr (congrArg some (hcandidate hnear hread))
  · exact .inr (congrArg some (hcandidate (by omega) hother))
  · exact .inl rfl
  · -- A number that is rounded up is positive.
    have hpos : 0 < roundHalfEven ((n : ℚ) / 10 ^ k) := by
      have hnonneg : (0 : ℚ) ≤ n / 10 ^ k := by positivity
      exact_mod_cast hnonneg.trans_lt (not_le.mp hle)
    exact .inr (congrArg some (hcandidate (by omega) hother))
  · exact .inl rfl

/-- With as many digits it is found itself. -/
theorem withDigits_log {n : ℕ} (hn : n < 2 ^ 53) :
    withDigits n (Nat.log 10 n + 1) = some (n : ℚ) := by
  have hunit : Int.log 10 (n : ℚ) + 1 - ((Nat.log 10 n + 1 : ℕ) : ℤ) = 0 := by
    rw [Int.log_natCast]
    omega
  have hround : roundHalfEven (n : ℚ) = n := roundHalfEven_intCast n
  have hread : round (n : ℚ) = n := by
    have h := @round_intCast n (by rw [Nat.abs_cast]; exact_mod_cast hn)
    exact_mod_cast h
  unfold withDigits
  simp only [hunit, zpow_zero, div_one, mul_one, hround]
  rw [if_pos (by exact_mod_cast hread)]
  rfl

/-- The first of some results is the one at `last`, where nothing else comes before it. -/
theorem findSome?_range {α : Type} {f : ℕ → Option α} {a : α} {last count : ℕ}
    (hbefore : ∀ k < last, f k = none ∨ f k = some a) (hlast : f last = some a)
    (hcount : last < count) : (List.range count).findSome? f = some a := by
  induction count with
  | zero => omega
  | succ count ih =>
    rw [List.range_succ, List.findSome?_append]
    rcases Nat.lt_succ_iff_lt_or_eq.mp hcount with hlt | rfl
    · rw [ih hlt, Option.some_or]
    · cases hfirst : (List.range last).findSome? f with
      | none => simp [hlast]
      | some b =>
        obtain ⟨k, hk, hb⟩ := List.exists_of_findSome?_eq_some hfirst
        rcases hbefore k (List.mem_range.mp hk) with hnone | hsome
        · exact absurd (hnone.symm.trans hb) (Option.some_ne_none b).symm
        · rw [← hb, hsome, Option.some_or]

theorem findSome?_withDigits {n : ℕ} (hn : n < 2 ^ 53) :
    ((List.range 17).findSome? fun k => withDigits n (k + 1)) = some (n : ℚ) := by
  have hlog : Nat.log 10 n < 17 := by
    rcases Nat.eq_zero_or_pos n with rfl | hpos
    · simp
    · exact (Nat.log_lt_iff_lt_pow (by decide) hpos.ne').mpr (hn.trans (by norm_num))
  refine findSome?_range (fun k hk => withDigits_natCast hn ?_) (withDigits_log hn) hlog
  rw [Int.log_natCast]
  push_cast
  omega

/-- An integer below `2^53` is printed as itself. -/
theorem shortest_intCast {n : ℤ} (hn : |n| < 2 ^ 53) : shortest n = n := by
  have habs : n.natAbs < 2 ^ 53 := by
    rw [Int.abs_eq_natAbs] at hn
    exact_mod_cast hn
  have hdecimal := findSome?_withDigits habs
  unfold shortest
  simp only
  split_ifs with hzero hneg
  · exact hzero.symm
  · have hcast : -(n : ℚ) = (n.natAbs : ℚ) := by
      have hneg' : n < 0 := by exact_mod_cast hneg
      rw [Nat.cast_natAbs, abs_of_neg hneg']
      push_cast
      rfl
    rw [hcast, hdecimal, Option.getD_some, ← hcast, neg_neg]
  · have hcast : (n : ℚ) = (n.natAbs : ℚ) := by
      have hnonneg : 0 ≤ n := by exact_mod_cast not_lt.mp hneg
      rw [Nat.cast_natAbs, abs_of_nonneg hnonneg]
    rw [hcast, hdecimal, Option.getD_some]

/-- An integer below `2^53` goes through. -/
theorem shortest_ofRat_intCast {n : ℤ} (hn : |n| < 2 ^ 53) :
    (ofRat n).map shortest = some (n : ℚ) := by
  have hround := round_intCast hn
  have hrange : |round (n : ℚ)| < 2 ^ 1024 := by
    have hcast : |(n : ℚ)| < 2 ^ 53 := by exact_mod_cast hn
    rw [hround]
    exact hcast.trans (pow_lt_pow_right₀ one_lt_two (by decide))
  rw [ofRat, if_pos hrange, Option.map_some, hround, shortest_intCast hn]

example : round (1 / 3) = 6004799503160661 / 2 ^ 54 := by decide +kernel

example : shortest (round (1 / 10)) = 1 / 10 := by decide +kernel

end ControlPlane.Binary64

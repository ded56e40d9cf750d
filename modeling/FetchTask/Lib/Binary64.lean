import FetchTask.Lib.Rounding
import Mathlib.Algebra.Order.Field.Power
import Mathlib.Data.Int.Log
import Mathlib.Tactic.Linarith
import Mathlib.Tactic.NormNum
import Mathlib.Tactic.Ring

/-!
Rounding to a double: to the nearest number with a significand of 53 bits, and
on a tie to the one whose last bit is zero.

What is too large for a double is rounded as if the exponent had no bound.
-/

namespace FetchTask.Binary64

/-- The nearest integer, on a tie the even one. -/
def nearestEven (x : Rat) : Int :=
  if x - ⌊x⌋ < 1 / 2 then ⌊x⌋
  else if 1 / 2 < x - ⌊x⌋ then ⌊x⌋ + 1
  else if ⌊x⌋ % 2 = 0 then ⌊x⌋ else ⌊x⌋ + 1

/-- The exponent of the last bit. -/
def exponent (x : Rat) : Int := max (Int.log 2 |x| - 52) (-1074)

/-- What the last bit counts. -/
def unit (x : Rat) : Rat := 2 ^ exponent x

def round (x : Rat) : Rat := nearestEven (x / unit x) * unit x

/-! ### The nearest integer -/

theorem le_nearestEven {m : Int} {x : Rat} :
    m ≤ nearestEven x ↔ (m : Rat) - 1 / 2 < x ∨ (m : Rat) - 1 / 2 = x ∧ m % 2 = 0 := by
  have hfloor := Int.floor_le x
  have hlt := Int.lt_floor_add_one x
  have hcast : m ≤ ⌊x⌋ → (m : Rat) ≤ ⌊x⌋ := fun h => by exact_mod_cast h
  have hcast' : m = ⌊x⌋ + 1 → (m : Rat) = ⌊x⌋ + 1 := fun h => by exact_mod_cast h
  have hcast'' : ⌊x⌋ + 2 ≤ m → (⌊x⌋ : Rat) + 2 ≤ m := fun h => by exact_mod_cast h
  rcases lt_trichotomy m (⌊x⌋ + 1) with hm | hm | hm
  · -- Below the floor and at it both sides hold.
    have hle := hcast (by omega)
    refine iff_of_true ?_ (.inl (by linarith))
    unfold nearestEven
    split_ifs <;> omega
  · have heq := hcast' hm
    unfold nearestEven
    split_ifs with hless hmore heven
    · refine iff_of_false (by omega) ?_
      rintro (h | ⟨h, -⟩) <;> linarith
    · exact iff_of_true hm.le (.inl (by linarith))
    · refine iff_of_false (by omega) ?_
      rintro (h | ⟨-, h⟩)
      · linarith
      · omega
    · exact iff_of_true hm.le (.inr ⟨by linarith, by omega⟩)
  · have hle := hcast'' (by omega)
    refine iff_of_false ?_ ?_
    · unfold nearestEven
      split_ifs <;> omega
    · rintro (h | ⟨h, -⟩) <;> linarith

theorem nearestEven_intCast (m : Int) : nearestEven m = m := by
  simp [nearestEven]

theorem nearestEven_mono {x y : Rat} (h : x ≤ y) : nearestEven x ≤ nearestEven y := by
  rcases le_nearestEven.mp (le_refl (nearestEven x)) with hx | ⟨hx, heven⟩
  · exact le_nearestEven.mpr (.inl (hx.trans_le h))
  · rcases lt_or_eq_of_le h with hlt | rfl
    · exact le_nearestEven.mpr (.inl (hx.trans_lt hlt))
    · exact le_refl _

theorem nearestEven_neg (x : Rat) : nearestEven (-x) = -nearestEven x := by
  have hiff : ∀ m : Int, m ≤ nearestEven (-x) ↔ m ≤ -nearestEven x := by
    intro m
    have hnot : m ≤ -nearestEven x ↔ ¬ 1 - m ≤ nearestEven x := by omega
    rw [hnot, le_nearestEven, le_nearestEven]
    push_cast
    constructor
    · rintro (h | ⟨h, heven⟩) (h' | ⟨h', heven'⟩)
      · linarith
      · linarith
      · linarith
      · omega
    · intro h
      rcases lt_trichotomy ((m : Rat) - 1 / 2) (-x) with hlt | heq | hgt
      · exact .inl hlt
      · refine .inr ⟨heq, ?_⟩
        by_contra hodd
        exact h (.inr ⟨by linarith, by omega⟩)
      · exact absurd (.inl (by linarith)) h
  exact le_antisymm ((hiff _).mp le_rfl) ((hiff _).mpr le_rfl)

/-! ### The grid -/

theorem unit_pos (x : Rat) : 0 < unit x := zpow_pos (by norm_num) _

theorem round_le {m : Int} {x : Rat} (h : x ≤ m * unit x) : round x ≤ m * unit x := by
  have hle : nearestEven (x / unit x) ≤ m := by
    rw [← nearestEven_intCast m]
    exact nearestEven_mono ((div_le_iff₀ (unit_pos x)).mpr h)
  exact mul_le_mul_of_nonneg_right (by exact_mod_cast hle) (unit_pos x).le

theorem le_round {m : Int} {x : Rat} (h : m * unit x ≤ x) : m * unit x ≤ round x := by
  have hle : m ≤ nearestEven (x / unit x) := by
    rw [← nearestEven_intCast m]
    exact nearestEven_mono ((le_div_iff₀ (unit_pos x)).mpr h)
  exact mul_le_mul_of_nonneg_right (by exact_mod_cast hle) (unit_pos x).le

/-- A power of two that is no finer than the grid lies on it. -/
theorem zpow_on_grid {x : Rat} {i : Int} (h : exponent x ≤ i) (m : Int) :
    (m : Rat) * 2 ^ i = ((m * 2 ^ (i - exponent x).toNat : Int) : Rat) * unit x := by
  have hi : i = (i - exponent x).toNat + exponent x := by omega
  conv_lhs => rw [hi, zpow_add₀ (by norm_num), zpow_natCast]
  rw [unit]
  push_cast
  ring

theorem round_of_grid {x : Rat} {i : Int} (h : exponent x ≤ i) {m : Int} (hx : x = m * 2 ^ i) :
    round x = x := by
  have hgrid : x = _ := hx.trans (zpow_on_grid h m)
  refine le_antisymm ?_ ?_
  · calc round x ≤ _ := round_le hgrid.le
      _ = x := hgrid.symm
  · calc x = _ := hgrid
      _ ≤ round x := le_round hgrid.ge

/-! ### Order -/

theorem exponent_mono {x y : Rat} (hx : 0 < x) (h : x ≤ y) : exponent x ≤ exponent y := by
  rw [exponent, exponent, abs_of_pos hx, abs_of_pos (hx.trans_le h)]
  exact max_le_max_right _ (sub_le_sub_right (Int.log_mono_right hx h) _)

theorem round_nonneg {x : Rat} (h : 0 ≤ x) : 0 ≤ round x := by
  have hle : ((0 : Int) : Rat) * unit x ≤ round x := le_round (by simpa using h)
  simpa using hle

theorem round_neg (x : Rat) : round (-x) = -round x := by
  have hunit : unit (-x) = unit x := by rw [unit, unit, exponent, exponent, abs_neg]
  rw [round, round, hunit, neg_div, nearestEven_neg]
  push_cast
  ring

theorem round_le_round {x y : Rat} (hx : 0 < x) (h : x ≤ y) : round x ≤ round y := by
  have hy := hx.trans_le h
  rcases (exponent_mono hx h).lt_or_eq with hlt | heq
  · -- A power of two that lies between them is on the grid of both.
    have hlog : exponent y = Int.log 2 y - 52 := by
      rw [exponent, abs_of_pos hy, max_eq_left]
      refine le_of_lt (lt_of_not_ge fun hmin => ?_)
      rw [exponent, exponent, abs_of_pos hy, max_eq_right hmin] at hlt
      exact absurd hlt (not_lt.mpr (le_max_right ..))
    have hbetween : x ≤ ((1 : Int) : Rat) * 2 ^ Int.log 2 y := by
      have hfew : Int.log 2 x + 1 ≤ Int.log 2 y := by
        have hle : Int.log 2 x - 52 ≤ exponent x := by
          rw [exponent, abs_of_pos hx]
          exact le_max_left ..
        omega
      rw [Int.cast_one, one_mul]
      exact (Int.lt_zpow_succ_log_self (b := 2) (by norm_num) x).le.trans
        (zpow_le_zpow_right₀ (by norm_num) hfew)
    have hbelow : ((1 : Int) : Rat) * 2 ^ Int.log 2 y ≤ y := by
      rw [Int.cast_one, one_mul]
      exact Int.zpow_log_le_self (b := 2) (by norm_num) hy
    calc round x ≤ ((1 : Int) : Rat) * 2 ^ Int.log 2 y := by
          rw [zpow_on_grid (x := x) (by omega)] at hbetween ⊢
          exact round_le hbetween
      _ ≤ round y := by
          rw [zpow_on_grid (x := y) (by omega)] at hbelow ⊢
          exact le_round hbelow
  · have hunit : unit x = unit y := by rw [unit, unit, heq]
    rw [round, round, hunit]
    refine mul_le_mul_of_nonneg_right ?_ (unit_pos y).le
    exact_mod_cast nearestEven_mono (div_le_div_of_nonneg_right h (unit_pos y).le)

theorem round_zero : round 0 = 0 := by simp [round, nearestEven]

theorem round_mono : Monotone round := by
  intro x y h
  rcases lt_trichotomy x 0 with hx | rfl | hx
  · rcases lt_or_ge y 0 with hy | hy
    · have hle := round_le_round (neg_pos.mpr hy) (neg_le_neg h)
      rw [round_neg, round_neg] at hle
      exact neg_le_neg_iff.mp hle
    · have hle := round_nonneg (neg_nonneg.mpr hx.le)
      rw [round_neg] at hle
      exact (neg_nonneg.mp hle).trans (round_nonneg hy)
  · rw [round_zero]
    exact round_nonneg h
  · exact round_le_round hx h

/-! ### Exact numbers -/

/-- A number with a significand of 53 bits is left as it is. -/
theorem round_of_significand {m : Nat} (hm : m ≤ 2 ^ 53) {i : Int} (hi : -1074 ≤ i) :
    round ((m : Rat) * 2 ^ i) = m * 2 ^ i := by
  have hfit : ∀ {m : Nat} {i : Int}, 0 < m → m < 2 ^ 53 → -1074 ≤ i →
      exponent ((m : Rat) * 2 ^ i) ≤ i := by
    intro m i hpos hlt hi
    have hx : (0 : Rat) < m * 2 ^ i := mul_pos (by exact_mod_cast hpos) (zpow_pos (by norm_num) _)
    have hbelow : (m : Rat) * 2 ^ i < ((2 : Nat) : Rat) ^ (53 + i) := by
      rw [Nat.cast_ofNat, zpow_add₀ (by norm_num)]
      refine mul_lt_mul_of_pos_right ?_ (zpow_pos (by norm_num) _)
      exact_mod_cast hlt
    have hlog := (Int.lt_zpow_iff_log_lt (by norm_num) hx).mp hbelow
    rw [exponent, abs_of_pos hx]
    exact max_le (by omega) hi
  rcases Nat.eq_zero_or_pos m with rfl | hpos
  · rw [Nat.cast_zero, zero_mul, round_zero]
  · rcases hm.lt_or_eq with hlt | rfl
    · exact round_of_grid (hfit hpos hlt hi) (m := m) (by push_cast; rfl)
    · -- One bit more, but the last is zero.
      have hhalf : (((2 ^ 53 : Nat) : Rat)) * 2 ^ i = ((2 ^ 52 : Nat) : Rat) * 2 ^ (i + 1) := by
        rw [zpow_add₀ (by norm_num)]
        push_cast
        ring
      rw [hhalf]
      exact round_of_grid (hfit (by norm_num) (by norm_num) (by omega)) (m := (2 ^ 52 : Nat))
        (by push_cast; rfl)

theorem round_natCast {n : Nat} (h : n ≤ 2 ^ 53) : round n = n := by
  simpa using round_of_significand h (i := 0) (by norm_num)

/-- What is a little above a whole number is not rounded down to it. -/
theorem lt_round {n : Nat} {x : Rat} (hn : n < 2 ^ 43) (h : (n : Rat) + 1 / 1024 ≤ x) :
    (n : Rat) < round x := by
  have hgrid : ((n * 1024 + 1 : Nat) : Rat) * 2 ^ (-10 : Int) = n + 1 / 1024 := by
    push_cast
    norm_num
    ring
  calc (n : Rat) < n + 1 / 1024 := by linarith
    _ = round (n + 1 / 1024) := by
        rw [← hgrid]
        exact (round_of_significand (by omega) (by norm_num)).symm
    _ ≤ round x := round_mono h

/-! ### Whole numbers -/

/-- Below the integers that are not exact, a unit is a part of one. -/
theorem exists_unit {x : Rat} (hx : 0 ≤ x) (h : x < 2 ^ 53) :
    ∃ j : Nat, exponent x = -j ∧ ∀ y, y / unit x = y * 2 ^ j := by
  have hexp : exponent x ≤ 0 := by
    rcases hx.lt_or_eq with hpos | rfl
    · have hlt : x < ((2 : Nat) : Rat) ^ (53 : Int) := by exact_mod_cast h
      have hlog := (Int.lt_zpow_iff_log_lt (by norm_num) hpos).mp hlt
      rw [exponent, abs_of_pos hpos]
      exact max_le (by omega) (by norm_num)
    · simp [exponent]
  obtain ⟨j, hj⟩ : ∃ j : Nat, exponent x = -j := ⟨(-exponent x).toNat, by omega⟩
  refine ⟨j, hj, fun y => ?_⟩
  rw [unit, hj, zpow_neg, zpow_natCast, div_inv_eq_mul]

/-- Adding an even number, where the integers are exact, loses no whole number: what is rounded
up to an integer is so after the addition as well. -/
theorem add_le_round_add {x : Rat} (hx : 0 ≤ x) {n k : Nat} (hn : (n : Rat) ≤ round x)
    (heven : k % 2 = 0) (hbound : x + k ≤ 2 ^ 53) : ((n + k : Nat) : Rat) ≤ round (x + k) := by
  have hk : (0 : Rat) ≤ k := Nat.cast_nonneg k
  rcases le_or_gt (n : Rat) x with hle | hgt
  · have hsum : ((n + k : Nat) : Rat) ≤ x + k := by
      push_cast
      linarith
    have hexact : n + k ≤ 2 ^ 53 := by exact_mod_cast hsum.trans hbound
    calc ((n + k : Nat) : Rat) = round ((n + k : Nat) : Rat) := (round_natCast hexact).symm
      _ ≤ round (x + k) := round_mono hsum
  · have hpos : 0 < x := by
      refine hx.lt_of_ne fun hzero => ?_
      rw [← hzero, round_zero] at hn
      linarith
    have hlt : x + k < 2 ^ 53 := by
      refine hbound.lt_of_ne fun heq => ?_
      have hle : k ≤ 2 ^ 53 := by
        have hcast : (k : Rat) ≤ 2 ^ 53 := by linarith
        exact_mod_cast hcast
      have hnat : x = ((2 ^ 53 - k : Nat) : Rat) := by
        rw [Nat.cast_sub hle]
        push_cast
        linarith
      rw [hnat, round_natCast (Nat.sub_le ..), ← hnat] at hn
      linarith
    obtain ⟨j, hj, hdiv⟩ := exists_unit hx (by linarith)
    obtain ⟨i, hi, hdiv'⟩ := exists_unit (add_nonneg hx hk) hlt
    have hle : i ≤ j := by
      have hmono := exponent_mono hpos (le_add_of_nonneg_right hk)
      omega
    -- The distance to the integer is at most half a unit, and the units do not get finer.
    have hnear : (n : Rat) * 2 ^ j - 1 / 2 < x * 2 ^ j ∨
        (n : Rat) * 2 ^ j - 1 / 2 = x * 2 ^ j ∧ n * 2 ^ j % 2 = 0 := by
      have hround : ((n * 2 ^ j : Nat) : Int) ≤ nearestEven (x / unit x) := by
        rw [round, ← div_le_iff₀ (unit_pos x), hdiv] at hn
        exact_mod_cast hn
      have hcases := le_nearestEven.mp hround
      rw [hdiv] at hcases
      exact_mod_cast hcases
    have hgoal : (((n + k) * 2 ^ i : Nat) : Int) ≤ nearestEven ((x + k) / unit (x + k)) := by
      rw [le_nearestEven, hdiv']
      rcases hle.lt_or_eq with hless | rfl
      · refine .inl ?_
        have htwice : (2 : Rat) ^ (i + 1) ≤ 2 ^ j := pow_le_pow_right₀ (by norm_num) hless
        have hgap : (n - x) * (2 : Rat) ^ (i + 1) ≤ 1 / 2 := by
          refine (mul_le_mul_of_nonneg_left htwice (by linarith)).trans ?_
          rcases hnear with h | ⟨h, -⟩ <;> linarith
        rw [pow_succ] at hgap
        push_cast
        linarith
      · rcases hnear with h | ⟨h, hparity⟩
        · refine .inl ?_
          push_cast
          linarith
        · refine .inr ⟨?_, ?_⟩
          · push_cast
            linarith
          · have hkeven : k * 2 ^ i % 2 = 0 := by simp [Nat.mul_mod, heven]
            have hsum : (n + k) * 2 ^ i % 2 = 0 := by rw [Nat.add_mul, Nat.add_mod, hparity, hkeven]
            exact_mod_cast hsum
    rw [round, ← div_le_iff₀ (unit_pos _), hdiv']
    exact_mod_cast hgoal

end FetchTask.Binary64

namespace FetchTask

/-- The arithmetic of doubles. -/
def Rounding.binary64 : Rounding where
  round := Binary64.round
  mono := Binary64.round_mono
  exact := 2 ^ 53
  round_natCast _ h := Binary64.round_natCast h

end FetchTask

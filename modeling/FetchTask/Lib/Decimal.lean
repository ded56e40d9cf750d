import Mathlib.Algebra.Order.Field.Basic
import Mathlib.Algebra.Order.Field.Power
import Mathlib.Algebra.Ring.Parity
import Mathlib.Data.Nat.Log
import Mathlib.Data.Rat.Defs
import Mathlib.Tactic.Linarith
import Mathlib.Tactic.NormNum
import Mathlib.Tactic.Positivity
import Mathlib.Tactic.Ring

/-!
Decimal numbers of limited precision, with their special values and signals.

A number is written with a sign, a coefficient and a power of ten. A product keeps the
first digits of the exact one, as many as the context has, rounded to the nearest with
ties to the even digit; what it may be off by is half a unit in the last of these
digits. An invalid operation and an overflow are signals that stop the computation.
-/

namespace FetchTask

/-- A number `± coefficient * 10 ^ exponent`. -/
structure Numeral where
  negative : Bool
  coefficient : Nat
  exponent : Int
  deriving DecidableEq

inductive Decimal
  | finite (n : Numeral)
  | infinity (negative : Bool)
  | nan (signaling : Bool)
  deriving DecidableEq

namespace Decimal

inductive Signal
  | invalidOperation
  | overflow
  deriving DecidableEq

/-- A precision and the bounds of the exponent of the first digit. -/
structure Context where
  prec : Nat
  emin : Int
  emax : Int
  prec_pos : 0 < prec
  emin_le_emax : emin ≤ emax

/-- The exponent of the last digit that a number near zero may have. -/
def Context.etiny (ctx : Context) : Int := ctx.emin - (ctx.prec - 1)

/-- The exponent of the last digit of the largest numbers. -/
def Context.etop (ctx : Context) : Int := ctx.emax - (ctx.prec - 1)

/-- The number of digits of a positive coefficient. -/
def digits (c : Nat) : Nat := Nat.log 10 c + 1

/-- The quotient rounded to the nearest, ties to the even one. -/
def divHalfEven (n d : Nat) : Nat :=
  if 2 * (n % d) < d then n / d
  else if d < 2 * (n % d) then n / d + 1
  else if n / d % 2 = 0 then n / d else n / d + 1

/-- The exponent of the last digit that is kept. -/
def lastExponent (ctx : Context) (c : Nat) (e : Int) : Int :=
  max (digits c + e - ctx.prec) ctx.etiny

/-- A numeral brought to the digits of the context. -/
def finalize (ctx : Context) (n : Numeral) : Except Signal Numeral :=
  if n.coefficient = 0 then
    .ok { n with exponent := min (max n.exponent ctx.etiny) ctx.emax }
  else if ctx.etop < digits n.coefficient + n.exponent - ctx.prec then .error .overflow
  else
    let last := lastExponent ctx n.coefficient n.exponent
    if n.exponent < last then
      let rounded := divHalfEven n.coefficient (10 ^ (last - n.exponent).toNat)
      -- Rounding up may give one digit more, the last of them a zero.
      if 10 ^ ctx.prec ≤ rounded then
        if ctx.etop < last + 1 then .error .overflow
        else .ok { n with coefficient := rounded / 10, exponent := last + 1 }
      else .ok { n with coefficient := rounded, exponent := last }
    else .ok n

/-- `a * b`. -/
def mul (ctx : Context) : Decimal → Decimal → Except Signal Decimal
  | .nan true, _ => .error .invalidOperation
  | _, .nan true => .error .invalidOperation
  | .nan false, _ => .ok (.nan false)
  | _, .nan false => .ok (.nan false)
  | .infinity s, .infinity t => .ok (.infinity (s ^^ t))
  | .infinity s, .finite n =>
    if n.coefficient = 0 then .error .invalidOperation else .ok (.infinity (s ^^ n.negative))
  | .finite n, .infinity s =>
    if n.coefficient = 0 then .error .invalidOperation else .ok (.infinity (n.negative ^^ s))
  | .finite m, .finite n =>
    (finalize ctx
      { negative := m.negative ^^ n.negative
        coefficient := m.coefficient * n.coefficient
        exponent := m.exponent + n.exponent }).map .finite

end Decimal

/-! ### Values -/

namespace Numeral

/-- The number without its sign. -/
def magnitude (n : Numeral) : Rat := n.coefficient * 10 ^ n.exponent

def value (n : Numeral) : Rat := if n.negative then -n.magnitude else n.magnitude

theorem magnitude_nonneg (n : Numeral) : 0 ≤ n.magnitude := by
  unfold magnitude
  positivity

theorem magnitude_eq_zero {n : Numeral} : n.magnitude = 0 ↔ n.coefficient = 0 := by
  have hpow : (10 : Rat) ^ n.exponent ≠ 0 := by positivity
  rw [magnitude, mul_eq_zero, or_iff_left hpow, Nat.cast_eq_zero]

theorem value_pos {n : Numeral} : 0 < n.value ↔ n.negative = false ∧ n.coefficient ≠ 0 := by
  have hnonneg := n.magnitude_nonneg
  cases hsign : n.negative with
  | true => simp [value, hsign, hnonneg]
  | false => simp [value, hsign, hnonneg.lt_iff_ne', magnitude_eq_zero]

end Numeral

namespace Decimal

/-- A whole number nearest to a number, the even one of two. -/
def HalfEven (r : Nat) (x : Rat) : Prop :=
  |(r : Rat) - x| < 1 / 2 ∨ |(r : Rat) - x| = 1 / 2 ∧ Even r

theorem HalfEven.le {r : Nat} {x : Rat} (h : HalfEven r x) : |(r : Rat) - x| ≤ 1 / 2 :=
  h.elim le_of_lt fun h => h.1.le

theorem HalfEven.of_eq {r : Nat} {x : Rat} (h : x = r) : HalfEven r x := by
  refine Or.inl ?_
  rw [h, sub_self, abs_zero]
  norm_num

theorem HalfEven.of_even {r : Nat} {x : Rat} (heven : Even r) (h : |(r : Rat) - x| ≤ 1 / 2) :
    HalfEven r x := h.lt_or_eq.imp id fun heq => ⟨heq, heven⟩

/-- Neighbours that are both nearest would both be even. -/
theorem HalfEven.not_succ {r : Nat} {x : Rat} (hr : HalfEven r x) : ¬HalfEven (r + 1) x := by
  intro hs
  have hrx := abs_le.mp hr.le
  have hsx := abs_le.mp hs.le
  push_cast at hsx
  have hx : x = r + 1 / 2 := by linarith
  have hr' : |(r : Rat) - x| = 1 / 2 := by
    rw [hx, sub_add_cancel_left, abs_neg]
    norm_num
  have hs' : |((r + 1 : Nat) : Rat) - x| = 1 / 2 := by
    push_cast
    rw [hx, add_sub_add_left_eq_sub]
    norm_num
  have heven : Even r := (hr.resolve_left hr'.not_lt).2
  have hodd : Even (r + 1) := (hs.resolve_left hs'.not_lt).2
  exact Nat.even_add_one.mp hodd heven

/-- Only one whole number is the nearest. -/
theorem HalfEven.unique {r s : Nat} {x : Rat} (hr : HalfEven r x) (hs : HalfEven s x) : r = s := by
  have hrx := abs_le.mp hr.le
  have hsx := abs_le.mp hs.le
  have hrs : r ≤ s + 1 := by
    have hcast : (r : Rat) ≤ (s + 1 : Nat) := by
      push_cast
      linarith
    exact_mod_cast hcast
  have hsr : s ≤ r + 1 := by
    have hcast : (s : Rat) ≤ (r + 1 : Nat) := by
      push_cast
      linarith
    exact_mod_cast hcast
  by_contra hne
  obtain rfl | rfl : s = r + 1 ∨ r = s + 1 := by omega
  · exact hr.not_succ hs
  · exact hs.not_succ hr

theorem divHalfEven_spec (n : Nat) {d : Nat} (hd : 0 < d) :
    HalfEven (divHalfEven n d) ((n : Rat) / d) := by
  have hd' : (0 : Rat) < d := by exact_mod_cast hd
  have hdiv : (n : Rat) / d = (n / d : Nat) + (n % d : Nat) / d := by
    rw [eq_comm, ← mul_right_inj' hd'.ne', mul_add, mul_div_cancel₀ _ hd'.ne',
      mul_div_cancel₀ _ hd'.ne']
    exact_mod_cast Nat.div_add_mod n d
  have hless : ((n % d : Nat) : Rat) / d < 1 := by
    rw [div_lt_one hd']
    exact_mod_cast Nat.mod_lt n hd
  have hnonneg : (0 : Rat) ≤ ((n % d : Nat) : Rat) / d := by positivity
  rw [divHalfEven]
  split
  next hlow =>
    have hlow' : ((n % d : Nat) : Rat) / d < 1 / 2 := by
      rw [div_lt_div_iff₀ hd' two_pos]
      exact_mod_cast (by omega : n % d * 2 < 1 * d)
    refine Or.inl ?_
    rw [hdiv, sub_add_cancel_left, abs_neg, abs_of_nonneg hnonneg]
    exact hlow'
  next hlow =>
    split
    next hhigh =>
      have hhigh' : 1 / 2 < ((n % d : Nat) : Rat) / d := by
        rw [div_lt_div_iff₀ two_pos hd']
        exact_mod_cast (by omega : 1 * d < n % d * 2)
      refine Or.inl ?_
      rw [hdiv, abs_lt]
      push_cast
      constructor <;> linarith
    next hhigh =>
      have hhalf : ((n % d : Nat) : Rat) / d = 1 / 2 := by
        rw [div_eq_div_iff hd'.ne' two_ne_zero]
        exact_mod_cast (by omega : n % d * 2 = 1 * d)
      rw [hdiv, hhalf]
      split
      next heven =>
        refine HalfEven.of_even (Nat.even_iff.mpr heven) ?_
        rw [sub_add_cancel_left, abs_neg]
        norm_num
      next hodd =>
        refine HalfEven.of_even (Nat.even_add_one.mpr fun h => hodd (Nat.even_iff.mp h)) ?_
        push_cast
        rw [add_sub_add_left_eq_sub]
        norm_num

/-! ### What is rounded -/

section Rounding

variable (ctx : Context) (n : Numeral)

/-- A unit of the last digit that is kept. -/
def unit : Rat := 10 ^ lastExponent ctx n.coefficient n.exponent

/-- The magnitude from which on a number overflows. -/
def bound : Rat := 10 ^ (ctx.emax + 1) - 10 ^ ctx.etop / 2

theorem unit_pos : 0 < unit ctx n := by
  unfold unit
  positivity

theorem div_unit_mul : n.magnitude / unit ctx n * unit ctx n = n.magnitude :=
  div_mul_cancel₀ _ (unit_pos ctx n).ne'

theorem etiny_le_etop : ctx.etiny ≤ ctx.etop := by
  have hle := ctx.emin_le_emax
  unfold Context.etiny Context.etop
  omega

theorem bound_eq : bound ctx = (10 ^ ctx.prec - 1 / 2) * 10 ^ ctx.etop := by
  have hsum : ctx.emax + 1 = ctx.prec + ctx.etop := by
    unfold Context.etop
    omega
  rw [bound, hsum, zpow_add₀ (by norm_num), zpow_natCast]
  ring

theorem pow_emax_le_bound : (10 : Rat) ^ ctx.emax ≤ bound ctx := by
  have hle : (10 : Rat) ^ ctx.etop ≤ 10 ^ ctx.emax := by
    refine zpow_le_zpow_right₀ (by norm_num) ?_
    have hprec := ctx.prec_pos
    unfold Context.etop
    omega
  have hpos : (0 : Rat) < 10 ^ ctx.emax := by positivity
  rw [bound, zpow_add₀ (by norm_num), zpow_one]
  linarith

theorem bound_pos : 0 < bound ctx :=
  lt_of_lt_of_le (by positivity) (pow_emax_le_bound ctx)

variable {ctx n}

theorem magnitude_lt (n : Numeral) :
    n.magnitude < 10 ^ (digits n.coefficient + n.exponent) := by
  rw [zpow_add₀ (by norm_num), zpow_natCast, Numeral.magnitude]
  refine mul_lt_mul_of_pos_right ?_ (by positivity)
  exact_mod_cast Nat.lt_pow_succ_log_self (by norm_num) n.coefficient

theorem le_magnitude (hc : n.coefficient ≠ 0) :
    10 ^ (digits n.coefficient + n.exponent - 1) ≤ n.magnitude := by
  have hsum : digits n.coefficient + n.exponent - 1 =
      (Nat.log 10 n.coefficient : Int) + n.exponent := by
    unfold digits
    omega
  rw [hsum, zpow_add₀ (by norm_num), zpow_natCast, Numeral.magnitude]
  refine mul_le_mul_of_nonneg_right ?_ (by positivity)
  exact_mod_cast Nat.pow_log_le_self 10 hc

theorem div_unit_lt (ctx : Context) (n : Numeral) :
    n.magnitude / unit ctx n < 10 ^ ctx.prec := by
  rw [div_lt_iff₀ (unit_pos ctx n), unit, ← zpow_natCast, ← zpow_add₀ (by norm_num)]
  refine (magnitude_lt n).trans_le (zpow_le_zpow_right₀ (by norm_num) ?_)
  unfold lastExponent
  omega

/-- A number that is within the exponents overflows when it is rounded up beyond them. -/
theorem bound_le_iff {r : Nat}
    (hlast : lastExponent ctx n.coefficient n.exponent ≤ ctx.etop)
    (hr : HalfEven r (n.magnitude / unit ctx n)) :
    bound ctx ≤ n.magnitude ↔
      lastExponent ctx n.coefficient n.exponent = ctx.etop ∧ r = 10 ^ ctx.prec := by
  have hless := div_unit_lt ctx n
  have hpos : (0 : Rat) < 10 ^ ctx.etop := by positivity
  rcases hlast.lt_or_eq with hlt | heq
  · refine iff_of_false (not_le.mpr ?_) fun h => hlt.ne h.1
    refine lt_of_lt_of_le ?_ (pow_emax_le_bound ctx)
    rw [← div_unit_mul ctx n]
    have hunit : unit ctx n ≤ 10 ^ (ctx.etop - 1) := by
      unfold unit
      exact zpow_le_zpow_right₀ (by norm_num) (by omega)
    have hsum : ctx.emax = ctx.prec + (ctx.etop - 1) := by
      unfold Context.etop
      omega
    rw [hsum, zpow_add₀ (by norm_num), zpow_natCast]
    calc n.magnitude / unit ctx n * unit ctx n
        < 10 ^ ctx.prec * unit ctx n := mul_lt_mul_of_pos_right hless (unit_pos ctx n)
      _ ≤ 10 ^ ctx.prec * 10 ^ (ctx.etop - 1) := by gcongr
  · have hunit : unit ctx n = 10 ^ ctx.etop := by rw [unit, heq]
    have hbound : bound ctx ≤ n.magnitude ↔ 10 ^ ctx.prec - 1 / 2 ≤ n.magnitude / unit ctx n := by
      rw [le_div_iff₀ (unit_pos ctx n), hunit, bound_eq]
    rw [hbound, and_iff_right heq]
    constructor
    · intro hle
      refine hr.unique (HalfEven.of_even ?_ ?_)
      · exact (Nat.even_pow.mpr ⟨by decide, ctx.prec_pos.ne'⟩)
      · push_cast
        rw [abs_le]
        constructor <;> linarith
    · rintro rfl
      have hnear := abs_le.mp hr.le
      push_cast at hnear
      linarith

theorem HalfEven.le_of_lt {r : Nat} {x : Rat} (h : HalfEven r x) (hx : x < 10 ^ ctx.prec) :
    r ≤ 10 ^ ctx.prec := by
  have hnear := abs_le.mp h.le
  have hcast : (r : Rat) < (10 ^ ctx.prec + 1 : Nat) := by
    push_cast
    linarith
  exact Nat.le_of_lt_succ (by exact_mod_cast hcast)

/-- The coefficient divided by the digits that are dropped. -/
theorem div_unit_of_lt (h : n.exponent < lastExponent ctx n.coefficient n.exponent) :
    n.magnitude / unit ctx n = (n.coefficient : Rat) /
      (10 ^ (lastExponent ctx n.coefficient n.exponent - n.exponent).toNat : Nat) := by
  have hsum : lastExponent ctx n.coefficient n.exponent =
      n.exponent + (lastExponent ctx n.coefficient n.exponent - n.exponent).toNat := by omega
  push_cast
  rw [unit, Numeral.magnitude, ← zpow_natCast, eq_comm, div_eq_div_iff (by positivity)
    (by positivity), mul_assoc, ← zpow_add₀ (by norm_num)]
  rw [← hsum]

theorem div_unit_of_le (h : lastExponent ctx n.coefficient n.exponent ≤ n.exponent) :
    n.magnitude / unit ctx n =
      (n.coefficient * 10 ^ (n.exponent - lastExponent ctx n.coefficient n.exponent).toNat :
        Nat) := by
  have hsum : n.exponent =
      (n.exponent - lastExponent ctx n.coefficient n.exponent).toNat +
        lastExponent ctx n.coefficient n.exponent := by omega
  push_cast
  rw [div_eq_iff (unit_pos ctx n).ne', unit, Numeral.magnitude, mul_assoc, ← zpow_natCast,
    ← zpow_add₀ (by norm_num), ← hsum]

/-- A numeral overflows from the bound on; below it the result is the nearest multiple of the
unit. -/
theorem finalize_spec (ctx : Context) (hc : n.coefficient ≠ 0) :
    (finalize ctx n = .error .overflow ∧ bound ctx ≤ n.magnitude) ∨
      ∃ m r, finalize ctx n = .ok m ∧ n.magnitude < bound ctx ∧ m.negative = n.negative ∧
        HalfEven r (n.magnitude / unit ctx n) ∧ m.magnitude = r * unit ctx n := by
  rw [finalize, if_neg hc]
  split
  next hover =>
    refine Or.inl ⟨rfl, ?_⟩
    have hexp : ctx.emax + 1 ≤ digits n.coefficient + n.exponent - 1 := by
      unfold Context.etop at hover
      omega
    have hpos : (0 : Rat) < 10 ^ ctx.etop := by positivity
    calc bound ctx ≤ 10 ^ (ctx.emax + 1) := by
          unfold bound
          linarith
      _ ≤ 10 ^ (digits n.coefficient + n.exponent - 1) := zpow_le_zpow_right₀ (by norm_num) hexp
      _ ≤ n.magnitude := le_magnitude hc
  next hover =>
    have hlast : lastExponent ctx n.coefficient n.exponent ≤ ctx.etop :=
      max_le (not_lt.mp hover) (etiny_le_etop ctx)
    dsimp only
    split
    next hdrop =>
      have hnear := divHalfEven_spec n.coefficient
        (d := 10 ^ (lastExponent ctx n.coefficient n.exponent - n.exponent).toNat) (by positivity)
      rw [← div_unit_of_lt hdrop] at hnear
      have hmost := hnear.le_of_lt (div_unit_lt ctx n)
      have hover' := bound_le_iff hlast hnear
      split
      next hcarry =>
        have heq := le_antisymm hmost hcarry
        split
        next htop =>
          exact Or.inl ⟨rfl, hover'.mpr ⟨by omega, heq⟩⟩
        next htop =>
          refine Or.inr ⟨_, _, rfl, not_le.mp fun hle => ?_, rfl, hnear, ?_⟩
          · have hat := (hover'.mp hle).1
            omega
          · -- The coefficient is a power of ten, so that the digit dropped is a zero.
            obtain ⟨k, hk⟩ := Nat.exists_eq_succ_of_ne_zero ctx.prec_pos.ne'
            rw [heq, Numeral.magnitude, hk, Nat.pow_succ, Nat.mul_div_cancel _ (by norm_num), unit,
              zpow_add₀ (by norm_num)]
            push_cast
            ring
      next hcarry =>
        refine Or.inr ⟨_, _, rfl, not_le.mp fun hle => hcarry ?_, rfl, hnear, rfl⟩
        exact (hover'.mp hle).2.ge
    next hkeep =>
      have hwhole := div_unit_of_le (not_lt.mp hkeep)
      have hnear := HalfEven.of_eq hwhole
      refine Or.inr ⟨n, _, rfl, not_le.mp fun hle => ?_, rfl, hnear, ?_⟩
      · have heq := ((bound_le_iff hlast hnear).mp hle).2
        have hless := div_unit_lt ctx n
        rw [hwhole, heq] at hless
        push_cast at hless
        exact lt_irrefl _ hless
      · rw [← hwhole, div_unit_mul]

/-! The whole numbers near a rounded number. -/

theorem abs_sub_rounded_le {r : Nat} (hr : HalfEven r (n.magnitude / unit ctx n)) :
    |n.magnitude - r * unit ctx n| ≤ unit ctx n / 2 := by
  have hpos := unit_pos ctx n
  have hnear := abs_le.mp hr.le
  have hmag := div_unit_mul ctx n
  rw [abs_le]
  constructor <;> nlinarith

/-- A multiple of the unit is left as it is. -/
theorem rounded_eq {r k : Nat} (hr : HalfEven r (n.magnitude / unit ctx n))
    (h : n.magnitude = k * unit ctx n) :
    r * unit ctx n = n.magnitude := by
  have hk : n.magnitude / unit ctx n = k := by
    rw [h, mul_div_cancel_right₀ _ (unit_pos ctx n).ne']
  rw [h, hr.unique (HalfEven.of_eq hk)]

/-- The multiples of the unit are the numbers that have no more digits than the context. -/
theorem multiple_iff (hc : n.coefficient ≠ 0) :
    (∃ k : Nat, n.magnitude = k * unit ctx n) ↔
      ∃ (c : Nat) (e : Int), n.magnitude = c * 10 ^ e ∧ c < 10 ^ ctx.prec ∧ ctx.etiny ≤ e := by
  constructor
  · rintro ⟨k, hk⟩
    refine ⟨k, lastExponent ctx n.coefficient n.exponent, hk, ?_, le_max_right ..⟩
    have hless := div_unit_lt ctx n
    rw [hk, mul_div_cancel_right₀ _ (unit_pos ctx n).ne'] at hless
    exact_mod_cast hless
  · rintro ⟨c, e, hmagnitude, hc', htiny⟩
    have hc'' : (c : Rat) < 10 ^ (ctx.prec : Int) := by
      rw [zpow_natCast]
      exact_mod_cast hc'
    have hless : (10 : Rat) ^ (digits n.coefficient + n.exponent - 1) < 10 ^ (ctx.prec + e) := by
      calc (10 : Rat) ^ (digits n.coefficient + n.exponent - 1) ≤ n.magnitude := le_magnitude hc
        _ = c * 10 ^ e := hmagnitude
        _ < 10 ^ (ctx.prec : Int) * 10 ^ e := mul_lt_mul_of_pos_right hc'' (by positivity)
        _ = 10 ^ (ctx.prec + e) := (zpow_add₀ (by norm_num) ..).symm
    have hexp := (zpow_lt_zpow_iff_right₀ (by norm_num)).mp hless
    have hlast : lastExponent ctx n.coefficient n.exponent ≤ e :=
      max_le (by omega) htiny
    refine ⟨c * 10 ^ (e - lastExponent ctx n.coefficient n.exponent).toNat, ?_⟩
    have hsum : e = (e - lastExponent ctx n.coefficient n.exponent).toNat +
        lastExponent ctx n.coefficient n.exponent := by omega
    push_cast
    rw [hmagnitude, unit, mul_assoc, ← zpow_natCast, ← zpow_add₀ (by norm_num), ← hsum]

/-- What lies within half a unit of a whole number is rounded to a whole number. -/
theorem rounded_whole {r k : Nat} (hr : HalfEven r (n.magnitude / unit ctx n))
    (h : |n.magnitude - k| ≤ unit ctx n / 2) :
    ∃ whole : Nat, r * unit ctx n = whole := by
  have hpos := unit_pos ctx n
  rcases le_or_gt 0 (lastExponent ctx n.coefficient n.exponent) with hlast | hlast
  · obtain ⟨e, he⟩ := Int.eq_ofNat_of_zero_le hlast
    refine ⟨r * 10 ^ e, ?_⟩
    rw [unit, he, zpow_natCast]
    push_cast
    rfl
  · obtain ⟨e, he⟩ := Int.exists_eq_neg_ofNat hlast.le
    have hunit : unit ctx n = (10 ^ e : Rat)⁻¹ := by rw [unit, he, zpow_neg, zpow_natCast]
    have hcancel : (k : Rat) * 10 ^ e * unit ctx n = k := by
      rw [hunit, mul_assoc, mul_inv_cancel₀ (by positivity), mul_one]
    -- The whole number is an even multiple of the unit.
    have heven : HalfEven (k * 10 ^ e) (n.magnitude / unit ctx n) := by
      refine HalfEven.of_even (Even.mul_left (Nat.even_pow.mpr ⟨by decide, by omega⟩) k) ?_
      have hmag := div_unit_mul ctx n
      have hnear := abs_le.mp h
      push_cast
      rw [abs_le]
      constructor <;> nlinarith
    refine ⟨k, ?_⟩
    rw [hr.unique heven]
    push_cast
    exact hcancel

end Rounding

/-! ### Comparing and converting -/

/-- `a < b`. -/
def lt : Decimal → Decimal → Except Signal Bool
  | .nan _, _ => .error .invalidOperation
  | _, .nan _ => .error .invalidOperation
  | .infinity s, .infinity t => .ok (s && !t)
  | .infinity s, .finite _ => .ok s
  | .finite _, .infinity t => .ok !t
  | .finite m, .finite n => .ok (decide (m.value < n.value))

/-- `a <= b`. -/
def le : Decimal → Decimal → Except Signal Bool
  | .nan _, _ => .error .invalidOperation
  | _, .nan _ => .error .invalidOperation
  | .infinity s, .infinity t => .ok (s || !t)
  | .infinity s, .finite _ => .ok s
  | .finite _, .infinity t => .ok !t
  | .finite m, .finite n => .ok (decide (m.value ≤ n.value))

/-- `a == b`, which only a signaling NaN stops. -/
def eq : Decimal → Decimal → Except Signal Bool
  | .nan true, _ => .error .invalidOperation
  | _, .nan true => .error .invalidOperation
  | .nan false, _ => .ok false
  | _, .nan false => .ok false
  | .infinity s, .infinity t => .ok (s == t)
  | .infinity _, .finite _ => .ok false
  | .finite _, .infinity _ => .ok false
  | .finite m, .finite n => .ok (decide (m.value = n.value))

end Decimal

namespace Numeral

/-- The nearest whole number, ties to the even one. -/
def toIntegral (n : Numeral) : Numeral :=
  if 0 ≤ n.exponent then n
  else
    { n with
      coefficient := Decimal.divHalfEven n.coefficient (10 ^ (-n.exponent).toNat), exponent := 0 }

/-- The number without its fraction. -/
def truncate (n : Numeral) : Int :=
  let whole := if 0 ≤ n.exponent then n.coefficient * 10 ^ n.exponent.toNat
    else n.coefficient / 10 ^ (-n.exponent).toNat
  if n.negative then -whole else whole

theorem magnitude_of_nonneg {n : Numeral} (h : 0 ≤ n.exponent) :
    n.magnitude = (n.coefficient * 10 ^ n.exponent.toNat : Nat) := by
  have hexp : n.exponent = n.exponent.toNat := by omega
  push_cast
  rw [magnitude, hexp, zpow_natCast]
  rfl

theorem magnitude_of_neg {n : Numeral} (h : ¬0 ≤ n.exponent) :
    n.magnitude = n.coefficient / (10 ^ (-n.exponent).toNat : Nat) := by
  have hexp : n.exponent = -((-n.exponent).toNat : Int) := by omega
  push_cast
  rw [magnitude, div_eq_mul_inv, ← zpow_natCast, ← zpow_neg, ← hexp]

theorem value_eq_iff {m n : Numeral} (h : m.negative = n.negative) :
    m.value = n.value ↔ m.magnitude = n.magnitude := by
  unfold value
  rw [h]
  split
  · exact neg_inj
  · rfl

/-- A number is equal to its nearest whole number when it is whole. -/
theorem eq_toIntegral_iff {n : Numeral} :
    n.value = n.toIntegral.value ↔ ∃ whole : Nat, n.magnitude = whole := by
  unfold toIntegral
  split
  next h => exact iff_of_true rfl ⟨_, magnitude_of_nonneg h⟩
  next h =>
    rw [value_eq_iff (m := n) (n := ⟨n.negative, _, 0⟩) rfl]
    constructor
    · intro heq
      exact ⟨_, heq.trans (magnitude_of_nonneg le_rfl)⟩
    · rintro ⟨whole, hwhole⟩
      have hnear := Decimal.divHalfEven_spec n.coefficient
        (d := 10 ^ (-n.exponent).toNat) (by positivity)
      rw [← magnitude_of_neg h] at hnear
      rw [magnitude_of_nonneg (n := ⟨_, _, 0⟩) le_rfl, hwhole,
        hnear.unique (Decimal.HalfEven.of_eq hwhole)]
      simp

theorem truncate_eq {n : Numeral} {whole : Nat} (h : n.magnitude = whole) :
    n.truncate = if n.negative then -(whole : Int) else whole := by
  unfold truncate
  split
  next hexp =>
    rw [magnitude_of_nonneg hexp] at h
    rw [Nat.cast_injective h]
  next hexp =>
    rw [magnitude_of_neg hexp, div_eq_iff (by positivity)] at h
    have hmul : n.coefficient = whole * 10 ^ (-n.exponent).toNat := by exact_mod_cast h
    rw [hmul, Nat.mul_div_cancel _ (by positivity)]

end Numeral

namespace Decimal

/-- `a.to_integral_value()`. -/
def toIntegralValue : Decimal → Except Signal Decimal
  | .nan true => .error .invalidOperation
  | .nan false => .ok (.nan false)
  | .infinity s => .ok (.infinity s)
  | .finite n => .ok (.finite n.toIntegral)

/-! ### Reading -/

section Reading

/-- An optional sign, and what follows it. -/
def readSign : List Char → Bool × List Char
  | '+' :: cs => (false, cs)
  | '-' :: cs => (true, cs)
  | cs => (false, cs)

def natOfDigits (cs : List Char) : Nat := cs.foldl (fun n c => 10 * n + (c.toNat - 48)) 0

/-- The exponent at the end of a numeral, if there is one. -/
def readExponent : List Char → Option Int
  | [] => some 0
  | c :: cs =>
    let (negative, ds) := readSign cs
    if c.toLower = 'e' ∧ ds ≠ [] ∧ ds.all Char.isDigit = true then
      some (if negative then -(natOfDigits ds : Int) else natOfDigits ds)
    else none

/-- Digits with at most one point in them, and an exponent. -/
def readNumber (negative : Bool) (cs : List Char) : Option Numeral :=
  let whole := cs.takeWhile Char.isDigit
  let (fraction, rest) := match cs.dropWhile Char.isDigit with
    | '.' :: rest => (rest.takeWhile Char.isDigit, rest.dropWhile Char.isDigit)
    | rest => ([], rest)
  if whole ++ fraction = [] then none
  else
    (readExponent rest).map fun exponent =>
      { negative
        coefficient := natOfDigits (whole ++ fraction)
        exponent := exponent - fraction.length }

/-- A decimal in ASCII characters: a number, an infinity or a NaN with digits behind it. -/
def readDecimal (cs : List Char) : Option Decimal :=
  let (negative, cs) := readSign cs
  let word := cs.map Char.toLower
  if word = "inf".toList ∨ word = "infinity".toList then some (.infinity negative)
  else if word.take 3 = "nan".toList then
    if (word.drop 3).all Char.isDigit then some (.nan false) else none
  else if word.take 4 = "snan".toList then
    if (word.drop 4).all Char.isDigit then some (.nan true) else none
  else (readNumber negative cs).map .finite

/-- A decimal, with underscores anywhere and the decimal digits of any script. -/
def readText (decimal : Char → Option (Fin 10)) (cs : List Char) : Option Decimal :=
  ((cs.filter (· ≠ '_')).mapM fun c =>
    if 0 < c.toNat ∧ c.toNat ≤ 127 then some c
    else (decimal c).map fun d => Nat.digitChar d).bind readDecimal

end Reading

end Decimal

end FetchTask

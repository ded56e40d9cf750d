import FetchTask.Lib.Decimal
import FetchTask.Runtime

/-!
Amounts of points as they are typed (`app/billing.py`).

`points_to_units` reads a decimal number of points and answers in tenths. It refuses
what is no positive multiple of a tenth, but it looks at the product with ten that the
context has rounded to 28 digits, and it compares before it asks whether there is a
number at all. The condition under which it reads a text as it is meant is `Legible`.
-/

namespace FetchTask.Billing

open Decimal (Context)

def pointScale : Nat := 10

/-- The default context; it traps invalid operations and overflows. -/
def defaultContext : Context where
  prec := 28
  emin := -999999
  emax := 999999
  prec_pos := by decide
  emin_le_emax := by decide

/-- The texts of numbers. -/
structure Numerals extends Chars where
  /-- `unicodedata.decimal`. -/
  decimal : Char → Option (Fin 10)

/-- What a text denotes. -/
def Numerals.denoted (u : Numerals) (text : String) : Option Decimal :=
  Decimal.readText u.decimal (u.strip text).toList

/-- The exponents are those that a decimal can have at all. -/
def isRepresentable : Decimal → Bool
  | .finite n =>
    decide (Decimal.digits n.coefficient + n.exponent - 1 ≤ 999999999999999999) &&
      decide (-1999999999999999997 ≤ n.exponent)
  | _ => true

/-- `Decimal(text)`; `none` is `InvalidOperation`. -/
def Numerals.toDecimal (u : Numerals) (text : String) : Option Decimal :=
  (u.denoted text).filter isRepresentable

inductive PointsError
  | valueError (message : String)
  | signal (s : Decimal.Signal)
  | overflowError
  deriving DecidableEq

/-- `int(units)`. -/
def toInt : Decimal → Except PointsError Int
  | .nan _ => .error (.valueError "cannot convert NaN to integer")
  | .infinity _ => .error .overflowError
  | .finite n => .ok n.truncate

def decimalOfNat (n : Nat) : Decimal := .finite ⟨false, n, 0⟩

/-- `tooLow(points) or units != units.to_integral_value()`. -/
def isRefused (tooLow : Decimal → Except Decimal.Signal Bool) (points units : Decimal) :
    Except Decimal.Signal Bool := do
  if ← tooLow points then return true
  let whole ← units.toIntegralValue
  return !(← units.eq whole)

/-- The units of a decimal. -/
def unitsOf (tooLow : Decimal → Except Decimal.Signal Bool) (message : String) (points : Decimal) :
    Except PointsError Int :=
  match points.mul defaultContext (decimalOfNat pointScale) with
  | .error s => .error (.signal s)
  | .ok units =>
    match isRefused tooLow points units with
    | .error s => .error (.signal s)
    | .ok true => .error (.valueError message)
    | .ok false => toInt units

/-- The body of the two functions, which differ in the comparison and its message. -/
def parsePoints (u : Numerals) (tooLow : Decimal → Except Decimal.Signal Bool) (message value : String) :
    Except PointsError Int :=
  match u.toDecimal value with
  | none => .error (.valueError "积分格式无效")
  | some points => unitsOf tooLow message points

/-- `points_to_units`. -/
def pointsToUnits (u : Numerals) : String → Except PointsError Int :=
  parsePoints u (·.le (decimalOfNat 0)) "积分必须为正数且精确到0.1"

/-- `nonnegative_points_to_units`. -/
def nonnegativePointsToUnits (u : Numerals) : String → Except PointsError Int :=
  parsePoints u (·.lt (decimalOfNat 0)) "积分必须大于等于 0 且精确到 0.1"

/-! ### What the functions are for -/

section Meaning

variable (u : Numerals) (admits : Rat → Prop) (text : String)

/-- The text is that of a finite number. -/
def Denotes (p : Rat) : Prop := ∃ n, u.denoted text = some (.finite n) ∧ n.value = p

/-- The function answers exactly the admitted multiples of a tenth, and refuses the rest. -/
structure ParsesExactly (parse : String → Except PointsError Int) : Prop where
  answers : ∀ units, parse text = .ok units ↔ ∃ p, Denotes u text p ∧ admits p ∧ 10 * p = units
  refuses : ∀ e, parse text = .error e → ∃ message, e = .valueError message

/-- Ten times a number, before it is rounded. -/
def tenfold (n : Numeral) : Numeral := { n with coefficient := n.coefficient * 10 }

/-- Half a unit of the last of the 28 digits of ten times a number. -/
def halfUnit (n : Numeral) : Rat := Decimal.unit defaultContext (tenfold n) / 2

/-- Ten times the number is below the largest magnitude, and a positive number is a multiple of
the unit of its last digit or away from all whole numbers. -/
structure WithinDigits (n : Numeral) : Prop where
  below : 10 * n.magnitude < Decimal.bound defaultContext
  apart : 0 < n.value → (∃ k : Nat, 10 * n.magnitude = k * Decimal.unit defaultContext (tenfold n)) ∨
    ∀ k : Nat, halfUnit n < |10 * n.magnitude - k|

/-- The texts that the functions read as they are meant. -/
def Legible : Prop :=
  match u.denoted text with
  | none => True
  | some (.nan _) => False
  | some (.infinity negative) => negative = true
  | some (.finite n) =>
    if isRepresentable (.finite n) = true then WithinDigits n
    else ¬(admits n.value ∧ ∃ k : Int, 10 * n.value = k)

end Meaning

/-! ### How a text is read -/

/-- The comparison refuses the numbers that are not admitted, and stops at a NaN. -/
structure Compares (tooLow : Decimal → Except Decimal.Signal Bool) (admits : Rat → Prop) : Prop where
  finite : ∀ n, tooLow (.finite n) = .ok true ∧ ¬admits n.value ∨
    tooLow (.finite n) = .ok false ∧ admits n.value
  infinity : ∀ s, tooLow (.infinity s) = .ok s
  nan : ∀ s, tooLow (.nan s) = .error .invalidOperation
  nonneg : ∀ p, admits p → 0 ≤ p
  pos : ∀ p, 0 < p → admits p

theorem value_zero : (⟨false, 0, 0⟩ : Numeral).value = 0 := by
  simp [Numeral.value, Numeral.magnitude]

theorem compares_le : Compares (·.le (decimalOfNat 0)) (0 < ·) where
  finite n := by
    simp only [decimalOfNat, Decimal.le, value_zero]
    by_cases h : n.value ≤ 0
    · exact Or.inl ⟨congrArg _ (decide_eq_true h), not_lt.mpr h⟩
    · exact Or.inr ⟨congrArg _ (decide_eq_false h), not_le.mp h⟩
  infinity _ := rfl
  nan _ := rfl
  nonneg _ := le_of_lt
  pos _ := id

theorem compares_lt : Compares (·.lt (decimalOfNat 0)) (0 ≤ ·) where
  finite n := by
    simp only [decimalOfNat, Decimal.lt, value_zero]
    by_cases h : n.value < 0
    · exact Or.inl ⟨congrArg _ (decide_eq_true h), not_le.mpr h⟩
    · exact Or.inr ⟨congrArg _ (decide_eq_false h), not_lt.mp h⟩
  infinity _ := rfl
  nan _ := rfl
  nonneg _ := id
  pos _ := le_of_lt

section Reading

variable {u : Numerals} {tooLow : Decimal → Except Decimal.Signal Bool} {admits : Rat → Prop}
variable {message text : String} {n m : Numeral}

theorem Denotes.unique {p q : Rat} (hp : Denotes u text p) (hq : Denotes u text q) : p = q := by
  obtain ⟨n, hn, rfl⟩ := hp
  obtain ⟨m, hm, rfl⟩ := hq
  rw [hn] at hm
  cases hm
  rfl

/-- A function that refuses a text does so rightly when no admitted multiple is denoted. -/
theorem parsesExactly_of_refused {parse : String → Except PointsError Int} {e : PointsError}
    (herror : parse text = .error e) :
    ParsesExactly u admits text parse ↔ (∃ message, e = .valueError message) ∧
      ¬∃ p, Denotes u text p ∧ admits p ∧ ∃ k : Int, 10 * p = k := by
  constructor
  · intro h
    refine ⟨h.refuses e herror, ?_⟩
    rintro ⟨p, hp, hadmits, k, hk⟩
    have hok := (h.answers k).mpr ⟨p, hp, hadmits, hk⟩
    rw [herror] at hok
    cases hok
  · rintro ⟨hvalue, hnone⟩
    refine ⟨fun units => iff_of_false (herror ▸ fun h => nomatch h) ?_, ?_⟩
    · rintro ⟨p, hp, hadmits, hunits⟩
      exact hnone ⟨p, hp, hadmits, units, hunits⟩
    · intro e' he'
      rw [herror] at he'
      cases he'
      exact hvalue

/-- A function that answers does so rightly when the answer is ten times the number. -/
theorem parsesExactly_of_answered {parse : String → Except PointsError Int} {units : Int} {p : Rat}
    (hok : parse text = .ok units) (hp : Denotes u text p) (hadmits : admits p) :
    ParsesExactly u admits text parse ↔ 10 * p = units := by
  constructor
  · intro h
    obtain ⟨q, hq, -, hunits⟩ := (h.answers units).mp hok
    rwa [hp.unique hq]
  · intro hunits
    refine ⟨fun k => ?_, fun e he => ?_⟩
    · rw [hok, Except.ok.injEq]
      constructor
      · rintro rfl
        exact ⟨p, hp, hadmits, hunits⟩
      · rintro ⟨q, hq, -, hk⟩
        rw [← hp.unique hq, hunits] at hk
        exact_mod_cast hk
    · rw [hok] at he
      cases he

theorem mul_ten (n : Numeral) :
    (Decimal.finite n).mul defaultContext (decimalOfNat pointScale) =
      (Decimal.finalize defaultContext (tenfold n)).map .finite := by
  simp [Decimal.mul, decimalOfNat, pointScale, tenfold]

theorem magnitude_tenfold (n : Numeral) : (tenfold n).magnitude = 10 * n.magnitude := by
  simp only [tenfold, Numeral.magnitude]
  push_cast
  ring

theorem parsePoints_of_read (tooLow : Decimal → Except Decimal.Signal Bool) (message : String) {d : Decimal}
    (hread : u.toDecimal text = some d) :
    parsePoints u tooLow message text = unitsOf tooLow message d := by
  simp only [parsePoints, hread]

theorem unitsOf_of_overflow
    (hround : Decimal.finalize defaultContext (tenfold n) = .error .overflow) :
    unitsOf tooLow message (.finite n) = .error (.signal .overflow) := by
  simp only [unitsOf, mul_ten, hround, Except.map]

theorem unitsOf_of_not_admitted (hcompares : Compares tooLow admits)
    (hround : Decimal.finalize defaultContext (tenfold n) = .ok m) (hadmits : ¬admits n.value) :
    unitsOf tooLow message (.finite n) = .error (.valueError message) := by
  have hlow : tooLow (.finite n) = .ok true :=
    (hcompares.finite n).elim And.left fun h => absurd h.2 hadmits
  simp only [unitsOf, mul_ten, hround, Except.map, isRefused, hlow]
  rfl

theorem isRefused_of_admitted (hcompares : Compares tooLow admits) (hadmits : admits n.value) :
    isRefused tooLow (.finite n) (.finite m) = .ok (decide (m.value ≠ m.toIntegral.value)) := by
  have hlow : tooLow (.finite n) = .ok false :=
    (hcompares.finite n).elim (fun h => absurd hadmits h.2) And.left
  simp only [isRefused, hlow, Decimal.toIntegralValue, Decimal.eq, bind, Except.bind, pure,
    Except.pure, Bool.false_eq_true, if_false, decide_not]

theorem unitsOf_of_whole (hcompares : Compares tooLow admits)
    (hround : Decimal.finalize defaultContext (tenfold n) = .ok m) (hadmits : admits n.value)
    {whole : Nat} (hwhole : m.magnitude = whole) :
    unitsOf tooLow message (.finite n) = .ok (if m.negative then -(whole : Int) else whole) := by
  have hsame : m.value = m.toIntegral.value := Numeral.eq_toIntegral_iff.mpr ⟨whole, hwhole⟩
  simp only [unitsOf, mul_ten, hround, Except.map, isRefused_of_admitted hcompares hadmits,
    decide_eq_false (not_not.mpr hsame), toInt, Numeral.truncate_eq hwhole]

theorem unitsOf_of_not_whole (hcompares : Compares tooLow admits)
    (hround : Decimal.finalize defaultContext (tenfold n) = .ok m) (hadmits : admits n.value)
    (hwhole : ¬∃ whole : Nat, m.magnitude = whole) :
    unitsOf tooLow message (.finite n) = .error (.valueError message) := by
  have hother : m.value ≠ m.toIntegral.value := mt Numeral.eq_toIntegral_iff.mp hwhole
  simp only [unitsOf, mul_ten, hround, Except.map, isRefused_of_admitted hcompares hadmits,
    decide_eq_true hother]

theorem finalize_of_zero (hc : n.coefficient = 0) :
    ∃ m, Decimal.finalize defaultContext (tenfold n) = .ok m ∧ m.magnitude = (0 : Nat) := by
  have hten : (tenfold n).coefficient = 0 := mul_eq_zero_of_left hc 10
  refine ⟨_, if_pos hten, ?_⟩
  rw [Nat.cast_zero]
  exact Numeral.magnitude_eq_zero.mpr hten

theorem unitsOf_of_zero (hcompares : Compares tooLow admits) (hc : n.coefficient = 0)
    (hadmits : admits n.value) : unitsOf tooLow message (.finite n) = .ok 0 := by
  obtain ⟨m, hround, hwhole⟩ := finalize_of_zero hc
  rw [unitsOf_of_whole hcompares hround hadmits hwhole]
  simp

theorem withinDigits_iff {r : Nat} (hpos : 0 < n.value)
    (hbelow : (tenfold n).magnitude < Decimal.bound defaultContext)
    (hnear : Decimal.HalfEven r
      ((tenfold n).magnitude / Decimal.unit defaultContext (tenfold n))) :
    WithinDigits n ↔ r * Decimal.unit defaultContext (tenfold n) = (tenfold n).magnitude ∨
      ¬∃ whole : Nat, r * Decimal.unit defaultContext (tenfold n) = whole := by
  constructor
  · rintro ⟨-, hapart⟩
    simp only [← magnitude_tenfold] at hapart
    refine (hapart hpos).imp (fun ⟨k, hk⟩ => Decimal.rounded_eq hnear hk) ?_
    rintro hfar ⟨whole, hwhole⟩
    have hclose := Decimal.abs_sub_rounded_le hnear
    rw [hwhole] at hclose
    exact (hfar whole).not_ge hclose
  · intro hround
    refine ⟨magnitude_tenfold n ▸ hbelow, fun _ => ?_⟩
    simp only [← magnitude_tenfold]
    refine hround.imp (fun h => ⟨r, h.symm⟩) fun hwhole k => ?_
    exact not_le.mp fun hle => hwhole (Decimal.rounded_whole hnear hle)

theorem parsesExactly_of_pos (hcompares : Compares tooLow admits)
    (hdenoted : u.denoted text = some (.finite n)) (hread : u.toDecimal text = some (.finite n))
    (hpos : 0 < n.value) :
    ParsesExactly u admits text (parsePoints u tooLow message) ↔ WithinDigits n := by
  have hadmits := hcompares.pos _ hpos
  obtain ⟨hsign, hc⟩ := Numeral.value_pos.mp hpos
  have hvalue : 10 * n.value = (tenfold n).magnitude := by
    rw [magnitude_tenfold, Numeral.value, hsign]
    rfl
  have hdenotes : Denotes u text n.value := ⟨n, hdenoted, rfl⟩
  have hparse := parsePoints_of_read tooLow message hread
  rcases Decimal.finalize_spec defaultContext (n := tenfold n) (Nat.mul_ne_zero hc (by decide)) with
    ⟨hround, hover⟩ | ⟨m, r, hround, hbelow, hsame, hnear, hmagnitude⟩
  · refine iff_of_false (fun h => ?_) fun h => ?_
    · obtain ⟨message', heq⟩ := h.refuses _ (hparse.trans (unitsOf_of_overflow hround))
      cases heq
    · exact h.below.not_ge (magnitude_tenfold n ▸ hover)
  · rw [withinDigits_iff hpos hbelow hnear, ← hmagnitude]
    by_cases hwhole : ∃ whole : Nat, m.magnitude = whole
    · obtain ⟨whole, hwhole⟩ := hwhole
      have hpositive : m.negative = false := hsame.trans hsign
      rw [parsesExactly_of_answered
        (hparse.trans (unitsOf_of_whole hcompares hround hadmits hwhole)) hdenotes hadmits,
        or_iff_left (not_not.mpr ⟨whole, hwhole⟩), hpositive, hvalue, hwhole]
      exact eq_comm
    · rw [parsesExactly_of_refused (hparse.trans (unitsOf_of_not_whole hcompares hround hadmits hwhole))]
      refine iff_of_true ⟨⟨message, rfl⟩, ?_⟩ (Or.inr hwhole)
      -- A whole number is within half a unit of itself, and would have been rounded to one.
      rintro ⟨p, hp, -, k, hk⟩
      rw [hp.unique hdenotes, hvalue] at hk
      obtain ⟨whole, rfl⟩ := Int.eq_ofNat_of_zero_le
        (a := k) (by exact_mod_cast hk ▸ (tenfold n).magnitude_nonneg)
      have hunit := Decimal.unit_pos defaultContext (tenfold n)
      refine hwhole (hmagnitude ▸ Decimal.rounded_whole hnear (k := whole) ?_)
      rw [hk, Int.cast_natCast, sub_self, abs_zero]
      exact (half_pos hunit).le

theorem parsesExactly_of_not_pos (hcompares : Compares tooLow admits)
    (hdenoted : u.denoted text = some (.finite n)) (hread : u.toDecimal text = some (.finite n))
    (hpos : ¬0 < n.value) :
    ParsesExactly u admits text (parsePoints u tooLow message) ↔ WithinDigits n := by
  have hdenotes : Denotes u text n.value := ⟨n, hdenoted, rfl⟩
  have hparse := parsePoints_of_read tooLow message hread
  have hnone : ¬admits n.value → ¬∃ p, Denotes u text p ∧ admits p ∧ ∃ k : Int, 10 * p = k := by
    rintro hadmits ⟨p, hp, hp', -⟩
    exact hadmits (hp.unique hdenotes ▸ hp')
  by_cases hc : n.coefficient = 0
  · have hzero : n.magnitude = 0 := Numeral.magnitude_eq_zero.mpr hc
    obtain ⟨m, hround, -⟩ := finalize_of_zero hc
    have hwithin : WithinDigits n := by
      refine ⟨?_, fun h => absurd h hpos⟩
      rw [hzero, mul_zero]
      exact Decimal.bound_pos defaultContext
    refine iff_of_true ?_ hwithin
    by_cases hadmits : admits n.value
    · rw [parsesExactly_of_answered (hparse.trans (unitsOf_of_zero hcompares hc hadmits)) hdenotes
        hadmits]
      simp [Numeral.value, hzero]
    · exact (parsesExactly_of_refused
        (hparse.trans (unitsOf_of_not_admitted hcompares hround hadmits))).mpr
          ⟨⟨message, rfl⟩, hnone hadmits⟩
  · -- A number below zero is refused, unless its product overflows before it is compared.
    have hadmits : ¬admits n.value := by
      intro h
      rcases (hcompares.nonneg _ h).eq_or_lt with heq | hlt
      · have hzero : n.magnitude = 0 := by
          unfold Numeral.value at heq
          split at heq
          · exact neg_eq_zero.mp heq.symm
          · exact heq.symm
        exact hc (Numeral.magnitude_eq_zero.mp hzero)
      · exact hpos hlt
    rcases Decimal.finalize_spec defaultContext (n := tenfold n)
      (Nat.mul_ne_zero hc (by decide)) with ⟨hround, hover⟩ | ⟨m, r, hround, hbelow, -⟩
    · refine iff_of_false (fun h => ?_) fun h => h.below.not_ge (magnitude_tenfold n ▸ hover)
      obtain ⟨message', heq⟩ := h.refuses _ (hparse.trans (unitsOf_of_overflow hround))
      cases heq
    · refine iff_of_true ?_ ⟨magnitude_tenfold n ▸ hbelow, fun h => absurd h hpos⟩
      exact (parsesExactly_of_refused
        (hparse.trans (unitsOf_of_not_admitted hcompares hround hadmits))).mpr
          ⟨⟨message, rfl⟩, hnone hadmits⟩

/-- Whichever comparison a function makes, it reads the legible texts exactly, and no others. -/
theorem parsesExactly_iff (hcompares : Compares tooLow admits) :
    ParsesExactly u admits text (parsePoints u tooLow message) ↔ Legible u admits text := by
  unfold Legible
  have hnumber : ∀ {d : Decimal}, u.denoted text = some d → (∀ n, d ≠ .finite n) →
      ¬∃ p, Denotes u text p ∧ admits p ∧ ∃ k : Int, 10 * p = k := by
    rintro d hd hother ⟨p, ⟨n, hn, -⟩, -⟩
    rw [hd] at hn
    cases hn
    exact hother n rfl
  cases hdenoted : u.denoted text with
  | none =>
    have herror : parsePoints u tooLow message text = .error (.valueError "积分格式无效") := by
      simp only [parsePoints, Numerals.toDecimal, hdenoted, Option.filter_none]
    refine iff_of_true ((parsesExactly_of_refused herror).mpr ⟨⟨_, rfl⟩, ?_⟩) trivial
    rintro ⟨p, ⟨n, hn, -⟩, -⟩
    rw [hdenoted] at hn
    cases hn
  | some d =>
    cases d with
    | nan signaling =>
      have hread : u.toDecimal text = some (.nan signaling) := by
        simp only [Numerals.toDecimal, hdenoted, Option.filter_some, isRepresentable, if_true]
      have herror : parsePoints u tooLow message text = .error (.signal .invalidOperation) := by
        cases signaling with
        | true => simp only [parsePoints, unitsOf, hread, Decimal.mul]
        | false =>
          simp only [parsePoints, unitsOf, hread, decimalOfNat, Decimal.mul, isRefused, hcompares.nan]
          rfl
      refine iff_of_false (fun h => ?_) id
      obtain ⟨message', heq⟩ := h.refuses _ herror
      cases heq
    | infinity negative =>
      have hread : u.toDecimal text = some (.infinity negative) := by
        simp only [Numerals.toDecimal, hdenoted, Option.filter_some, isRepresentable, if_true]
      cases negative with
      | true =>
        have herror : parsePoints u tooLow message text = .error (.valueError message) := by
          simp only [parsePoints, unitsOf, hread, decimalOfNat, Decimal.mul, isRefused, hcompares.infinity]
          rfl
        exact iff_of_true ((parsesExactly_of_refused herror).mpr
          ⟨⟨message, rfl⟩, hnumber hdenoted fun n h => nomatch h⟩) rfl
      | false =>
        have herror : parsePoints u tooLow message text = .error .overflowError := by
          simp only [parsePoints, unitsOf, hread, decimalOfNat, Decimal.mul, isRefused, hcompares.infinity]
          rfl
        refine iff_of_false (fun h => ?_) Bool.false_ne_true
        obtain ⟨message', heq⟩ := h.refuses _ herror
        cases heq
    | finite n =>
      by_cases hrep : isRepresentable (.finite n) = true
      · have hread : u.toDecimal text = some (.finite n) := by
          simp only [Numerals.toDecimal, hdenoted, Option.filter_some, hrep, if_true]
        simp only [hrep, if_true]
        by_cases hpos : 0 < n.value
        · exact parsesExactly_of_pos hcompares hdenoted hread hpos
        · exact parsesExactly_of_not_pos hcompares hdenoted hread hpos
      · have herror : parsePoints u tooLow message text = .error (.valueError "积分格式无效") := by
          simp only [parsePoints, Numerals.toDecimal, hdenoted, Option.filter_some, hrep]
          rfl
        simp only [hrep, Bool.false_eq_true, if_false]
        rw [parsesExactly_of_refused herror, and_iff_right ⟨_, rfl⟩]
        have hdenotes : Denotes u text n.value := ⟨n, hdenoted, rfl⟩
        refine not_congr ⟨?_, fun h => ⟨n.value, hdenotes, h⟩⟩
        rintro ⟨p, hp, h⟩
        rwa [hp.unique hdenotes] at h

/-- The whole number is written with 28 digits, and zeros behind them. -/
def HasDigits (units : Nat) : Prop := ∃ c e : Nat, units = c * 10 ^ e ∧ c < 10 ^ 28

theorem hasDigits_iff {units : Nat} (hunits : n.magnitude = units) (hc : n.coefficient ≠ 0) :
    HasDigits units ↔ ∃ k : Nat, n.magnitude = k * Decimal.unit defaultContext n := by
  rw [Decimal.multiple_iff hc]
  constructor
  · rintro ⟨c, e, rfl, hless⟩
    refine ⟨c, e, ?_, hless, (by decide : defaultContext.etiny ≤ 0).trans (Int.natCast_nonneg e)⟩
    rw [hunits, zpow_natCast]
    push_cast
    rfl
  · rintro ⟨c, e, hmagnitude, hless, -⟩
    rcases le_or_gt 0 e with he | he
    · obtain ⟨e, rfl⟩ := Int.eq_ofNat_of_zero_le he
      refine ⟨c, e, ?_, hless⟩
      rw [hunits, zpow_natCast] at hmagnitude
      exact_mod_cast hmagnitude
    · -- A fraction that is whole has no more digits than its coefficient.
      refine ⟨units, 0, (mul_one units).symm, lt_of_le_of_lt ?_ hless⟩
      have hone : (10 : Rat) ^ e ≤ 1 := zpow_le_one_of_nonpos₀ (by norm_num) he.le
      have hle : (units : Rat) ≤ c := by
        rw [← hunits, hmagnitude]
        exact mul_le_of_le_one_right (Nat.cast_nonneg c) hone
      exact_mod_cast hle

/-- A number of points that is whole in units keeps them when they have 28 digits. -/
theorem unitsOf_eq_iff (hcompares : Compares tooLow admits) {units : Nat}
    (hunits : (tenfold n).magnitude = units) (hsign : n.negative = false) (hadmits : admits n.value)
    (hbelow : (units : Rat) < Decimal.bound defaultContext) :
    unitsOf tooLow message (.finite n) = .ok units ↔ HasDigits units := by
  by_cases hc : n.coefficient = 0
  · have hten : (tenfold n).coefficient = 0 := mul_eq_zero_of_left hc 10
    have hzero : units = 0 := by
      rw [Numeral.magnitude_eq_zero.mpr hten] at hunits
      exact_mod_cast hunits.symm
    rw [unitsOf_of_zero hcompares hc hadmits, hzero]
    exact iff_of_true rfl ⟨0, 0, rfl, by decide⟩
  · have hc' : (tenfold n).coefficient ≠ 0 := Nat.mul_ne_zero hc (by decide)
    rcases Decimal.finalize_spec defaultContext hc' with
      ⟨hround, hover⟩ | ⟨m, r, hround, -, hsame, hnear, hmagnitude⟩
    · exact absurd (hunits ▸ hover) hbelow.not_ge
    · have hunit := Decimal.unit_pos defaultContext (tenfold n)
      have hclose : |(tenfold n).magnitude - units| ≤
          Decimal.unit defaultContext (tenfold n) / 2 := by
        rw [hunits, sub_self, abs_zero]
        exact (half_pos hunit).le
      obtain ⟨whole, hwhole⟩ := Decimal.rounded_whole hnear hclose
      have hpositive : m.negative = false := hsame.trans hsign
      rw [unitsOf_of_whole hcompares hround hadmits (hmagnitude.trans hwhole), hpositive,
        hasDigits_iff hunits hc']
      simp only [Bool.false_eq_true, if_false, Except.ok.injEq, Nat.cast_inj]
      constructor
      · rintro rfl
        exact ⟨r, hunits.trans hwhole.symm⟩
      · rintro ⟨k, hk⟩
        have hsame' := (hwhole.symm.trans (Decimal.rounded_eq hnear hk)).trans hunits
        exact_mod_cast hsame'

end Reading

/-- Both functions read exactly the legible texts as they are meant. -/
theorem points_parsed_iff (u : Numerals) (text : String) :
    (ParsesExactly u (0 < ·) text (pointsToUnits u) ↔ Legible u (0 < ·) text) ∧
      (ParsesExactly u (0 ≤ ·) text (nonnegativePointsToUnits u) ↔ Legible u (0 ≤ ·) text) :=
  ⟨parsesExactly_iff compares_le, parsesExactly_iff compares_lt⟩

/-- Texts in ASCII. -/
def asciiNumerals : Numerals := { Chars.ascii with decimal := fun _ => none }

/-- A NaN stops the comparison with an exception of its own. -/
theorem nan_not_refused :
    ¬∀ (u : Numerals) (text : String), ParsesExactly u (0 < ·) text (pointsToUnits u) := by
  intro h
  have hnan : pointsToUnits asciiNumerals "NaN" = .error (.signal .invalidOperation) := by
    decide +kernel
  obtain ⟨message, heq⟩ := (h asciiNumerals "NaN").refuses _ hnan
  cases heq

end FetchTask.Billing

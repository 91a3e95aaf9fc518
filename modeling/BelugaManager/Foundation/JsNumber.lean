import Mathlib.Data.Rat.Floor

/-!
# Numbers of the source language

Floating-point numbers as rationals with two infinities and a value that is no number.
Arithmetic is exact up to a rounding function, which is a parameter; of it is known what
the format guarantees, that integers of up to 53 bits are kept and that no rounded result
passes a number of the format.
-/

namespace Foundation

inductive JsNumber where
  | nan
  | negInfinity
  | finite (value : ℚ)
  | infinity
  deriving DecidableEq

namespace JsNumber

/-- `a < b` -/
def less : JsNumber → JsNumber → Bool
  | .finite a, .finite b => a < b
  | .negInfinity, .finite _ => true
  | .negInfinity, .infinity => true
  | .finite _, .infinity => true
  | _, _ => false

/-- `a <= b` -/
def atMost (a b : JsNumber) : Bool := less a b || decide (a = b ∧ a ≠ .nan)

def isFinite : JsNumber → Bool
  | .finite _ => true
  | _ => false

def neg : JsNumber → JsNumber
  | .nan => .nan
  | .negInfinity => .infinity
  | .finite a => .finite (-a)
  | .infinity => .negInfinity

/-- `Math.ceil` -/
def ceil : JsNumber → JsNumber
  | .finite a => .finite ⌈a⌉
  | other => other

/-- `Math.min(a, b)` -/
def min (a b : JsNumber) : JsNumber :=
  if a = .nan ∨ b = .nan then .nan else if less b a then b else a

/-- `Math.abs` -/
def abs : JsNumber → JsNumber
  | .nan => .nan
  | .finite a => .finite |a|
  | _ => .infinity

/-- The sign of a number, zero for `NaN`. -/
def sign : JsNumber → ℤ
  | .nan => 0
  | .negInfinity => -1
  | .finite a => if a < 0 then -1 else if 0 < a then 1 else 0
  | .infinity => 1

/-- A natural number as a number of the language. -/
def ofNat (n : ℕ) : JsNumber := .finite n

theorem less_irrefl (a : JsNumber) : less a a = false := by
  cases a <;> simp [less]

theorem less_asymm {a b : JsNumber} (isLess : less a b = true) : less b a = false := by
  cases a <;> cases b <;> simp_all [less, le_of_lt]

theorem atMost_finite (a b : ℚ) : atMost (.finite a) (.finite b) = true ↔ a ≤ b := by
  simp [atMost, less, le_iff_lt_or_eq]

theorem less_ofNat (m n : ℕ) : less (ofNat m) (ofNat n) = true ↔ m < n := by
  simp [ofNat, less]

end JsNumber

/-- How exact results become numbers. -/
structure Rounding where
  round : ℚ → JsNumber
  exact : ∀ n : ℤ, |n| ≤ 2 ^ 53 → round n = .finite n
  notBelow : ∀ exactly number : ℚ, exactly ≤ number → round number = .finite number →
    JsNumber.less (.finite number) (round exactly) = false

namespace Rounding

/-- Arithmetic without loss. -/
def lossless : Rounding where
  round := .finite
  exact := fun _ _ => rfl
  notBelow := fun exactly number below _ => by simpa [JsNumber.less] using below

variable (r : Rounding)

/-- `a + b` -/
def add : JsNumber → JsNumber → JsNumber
  | .finite a, .finite b => r.round (a + b)
  | .nan, _ => .nan
  | _, .nan => .nan
  | .infinity, .negInfinity => .nan
  | .negInfinity, .infinity => .nan
  | .infinity, _ => .infinity
  | _, .infinity => .infinity
  | .negInfinity, _ => .negInfinity
  | _, .negInfinity => .negInfinity

/-- `a - b` -/
def sub (a b : JsNumber) : JsNumber := r.add a b.neg

/-- `a * b` -/
def mul : JsNumber → JsNumber → JsNumber
  | .finite a, .finite b => r.round (a * b)
  | .nan, _ => .nan
  | _, .nan => .nan
  | a, b =>
      if a.sign * b.sign < 0 then .negInfinity
      else if 0 < a.sign * b.sign then .infinity
      else .nan

/-- The integers up to a bound are numbers of the format. -/
def Keeps (bound : ℕ) : Prop := ∀ n : ℤ, |n| ≤ bound → r.round n = .finite n

theorem keeps_lossless (bound : ℕ) : lossless.Keeps bound := fun _ _ => rfl

theorem keeps_of_le {bound : ℕ} (small : bound ≤ 2 ^ 53) : r.Keeps bound := by
  intro n inside
  apply r.exact n
  exact le_trans inside (by exact_mod_cast small)

namespace Keeps

variable {r} {bound : ℕ} (keeps : r.Keeps bound) {a b : ℤ}
include keeps

theorem add (inside : |a + b| ≤ bound) :
    r.add (.finite a) (.finite b) = .finite ((a + b : ℤ) : ℚ) := by
  rw [← keeps (a + b) inside, Int.cast_add]
  rfl

theorem sub (inside : |a - b| ≤ bound) :
    r.sub (.finite a) (.finite b) = .finite ((a - b : ℤ) : ℚ) := by
  rw [← keeps (a - b) inside, Int.cast_sub, sub_eq_add_neg]
  rfl

theorem mul (inside : |a * b| ≤ bound) :
    r.mul (.finite a) (.finite b) = .finite ((a * b : ℤ) : ℚ) := by
  rw [← keeps (a * b) inside, Int.cast_mul]
  rfl

end Keeps

theorem add_int {a b : ℤ} (small : |a + b| ≤ 2 ^ 53) :
    r.add (.finite a) (.finite b) = .finite ((a + b : ℤ) : ℚ) :=
  (r.keeps_of_le le_rfl).add (by exact_mod_cast small)

theorem sub_int {a b : ℤ} (small : |a - b| ≤ 2 ^ 53) :
    r.sub (.finite a) (.finite b) = .finite ((a - b : ℤ) : ℚ) :=
  (r.keeps_of_le le_rfl).sub (by exact_mod_cast small)

/-- A sum that exceeds a number exceeds it also before rounding. -/
theorem lt_of_less_add {number a b : ℚ} (isNumber : r.round number = .finite number)
    (less : JsNumber.less (.finite number) (r.add (.finite a) (.finite b)) = true) :
    number < a + b := by
  by_contra notLess
  have passed := r.notBelow (a + b) number (not_lt.mp notLess) isNumber
  exact absurd less (by rw [add, passed]; exact Bool.false_ne_true)

end Rounding

end Foundation

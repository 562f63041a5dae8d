import Mathlib.Algebra.Order.Field.Rat
import Mathlib.Data.Prod.Lex
import Mathlib.Tactic.FieldSimp
import Mathlib.Tactic.Linarith
import Mathlib.Tactic.Positivity
import Onmc.Json

/-! The order of the numbers: floats as the rationals that they are, the infinities below and above them. -/
namespace Onmc

/-- A finite float, as the number it is. -/
def Decimal.toRat (d : Decimal) : ℚ := d.coef / 10 ^ d.scale

theorem Decimal.lt_iff (a b : Decimal) : a.lt b = true ↔ a.toRat < b.toRat := by
  have left : (0 : ℚ) < 10 ^ a.scale := by positivity
  have right : (0 : ℚ) < 10 ^ b.scale := by positivity
  rw [Decimal.lt, decide_eq_true_iff, toRat, toRat, div_lt_div_iff₀ left right]
  norm_cast

namespace Num

/-- Where a number stands; a NaN stands nowhere. -/
def rank (x : Num) : ℤ ×ₗ ℚ :=
  match x with
  | infinity true => toLex (-1, 0)
  | infinity false => toLex (1, 0)
  | nan => toLex (0, 0)
  | int n => toLex (0, (Decimal.ofInt n).toRat)
  | float d => toLex (0, d.toRat)

theorem lt_iff {a b : Num} (first : a ≠ nan) (second : b ≠ nan) : a.lt b = true ↔ a.rank < b.rank := by
  cases a with
  | nan => exact absurd rfl first
  | infinity negative =>
    cases b with
    | nan => exact absurd rfl second
    | infinity negative' => cases negative <;> cases negative' <;> decide
    | int n => cases negative <;> simp [lt, rank, Prod.Lex.toLex_lt_toLex]
    | float d => cases negative <;> simp [lt, rank, Prod.Lex.toLex_lt_toLex]
  | int n =>
    cases b with
    | nan => exact absurd rfl second
    | infinity negative => cases negative <;> simp [lt, rank, Prod.Lex.toLex_lt_toLex]
    | int m => simp [lt, decimal?, rank, Prod.Lex.toLex_lt_toLex, Decimal.lt_iff]
    | float d => simp [lt, decimal?, rank, Prod.Lex.toLex_lt_toLex, Decimal.lt_iff]
  | float d =>
    cases b with
    | nan => exact absurd rfl second
    | infinity negative => cases negative <;> simp [lt, rank, Prod.Lex.toLex_lt_toLex]
    | int m => simp [lt, decimal?, rank, Prod.Lex.toLex_lt_toLex, Decimal.lt_iff]
    | float e => simp [lt, decimal?, rank, Prod.Lex.toLex_lt_toLex, Decimal.lt_iff]

theorem lt_eq_false_iff {a b : Num} (first : a ≠ nan) (second : b ≠ nan) : b.lt a = false ↔ a.rank ≤ b.rank := by
  rw [← not_lt, ← lt_iff second first, Bool.not_eq_true]

end Num
end Onmc

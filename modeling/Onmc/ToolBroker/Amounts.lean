import Onmc.Runtime.Portable
import Onmc.ToolBroker.Models

/-! Amounts: which integers a float holds, and the largest amount a constructor accepts. -/
namespace Onmc.ToolBroker

open Onmc.Runtime (Exact)

/-! An integer that is rounded to itself is a multiple of the last place of a float. -/

theorem roundInt_multiple (n : Int) : ∃ k : Nat, (Num.roundInt n).natAbs = k * 2 ^ (n.natAbs.log2 - 52) := by
  cases n.natAbs.eq_zero_or_pos with
  | inl zero => 
    have hn : n = 0 := Int.natAbs_eq_zero.mp zero
    subst hn
    exact ⟨0, by decide⟩
  | inr positive =>
    have sign : n.sign.natAbs = 1 := Int.natAbs_sign_of_ne_zero (by omega)
    exact ⟨_, by rw [Num.roundInt, Int.natAbs_mul, sign, Nat.one_mul, Int.natAbs_natCast]⟩

theorem bound_of_multiple {u a k : Nat} (bound : a < 2 ^ 54 * u - u) (multiple : a = k * (2 * u)) :
    a ≤ 2 ^ 54 * u - 2 * u := by
  have same : 2 * k * u = a := by rw [multiple, Nat.mul_left_comm, Nat.mul_assoc]
  have small : 2 * k < 2 ^ 54 - 1 := by
    by_contra large
    have reach : (2 ^ 54 - 1) * u ≤ 2 * k * u := Nat.mul_le_mul_right u (Nat.le_of_not_lt large)
    rw [Nat.sub_mul, Nat.one_mul] at reach
    omega
  have even : 2 * k ≤ 2 ^ 54 - 2 := by omega
  have reach : 2 * k * u ≤ (2 ^ 54 - 2) * u := Nat.mul_le_mul_right u even
  rw [Nat.sub_mul] at reach
  omega

theorem log2_of_bounds {a k : Nat} (reach : 2 ^ k ≤ a) (bound : a < 2 ^ (k + 1)) : a.log2 = k := by
  have positive : a ≠ 0 := by
    have power := Nat.two_pow_pos k
    omega
  exact (Nat.log2_eq_iff positive).mpr ⟨reach, bound⟩

theorem exact_bound {a : Nat} (unit : ∃ k : Nat, a = k * 2 ^ (a.log2 - 52)) (h : a < 2 ^ 1024 - 2 ^ 970) :
    a ≤ 2 ^ 1024 - 2 ^ 971 := by
  have whole := Nat.pow_add 2 54 970
  have half := Nat.pow_add 2 53 970
  have twice := Nat.pow_add 2 1 970
  simp only [Nat.reduceAdd, Nat.pow_one] at whole half twice
  have log (reach : 2 ^ 1023 ≤ a) : a.log2 = 1023 := by
    apply log2_of_bounds reach
    simp only [Nat.reduceAdd]
    exact Nat.lt_of_lt_of_le h (Nat.sub_le _ _)
  simp only [whole] at h ⊢
  simp only [twice]
  by_cases low : a < 2 ^ 1023
  · rw [half] at low
    generalize (2 : Nat) ^ 970 = u at low ⊢
    omega
  · obtain ⟨k, multiple⟩ := unit
    rw [log (Nat.le_of_not_lt low)] at multiple
    simp only [Nat.reduceSub] at multiple
    simp only [twice] at multiple
    generalize (2 : Nat) ^ 970 = u at h multiple ⊢
    exact bound_of_multiple h multiple

theorem isfinite_int {n : Int} : isfinite (.int n) = true ↔ n.natAbs < 2 ^ 1024 - 2 ^ 970 := by
  simp only [isfinite, decide_eq_true_eq]

theorem isfinite_float {d : Decimal} :
    isfinite (.float d) = true ↔ d.coef.natAbs ≤ (2 ^ 1024 - 2 ^ 971) * 10 ^ d.scale := by
  simp only [isfinite, decide_eq_true_eq]

/-- An accepted integer that no rounding changes is the same float, and accepted as one. -/
theorem toFloat_exact {n : Int} (finite : isfinite (.int n) = true) (exact : Num.roundInt n = n) :
    (Num.int n).toFloat = .float (.ofInt n) ∧ isfinite (.float (.ofInt n)) = true := by
  have bound := isfinite_int.mp finite
  have unit := roundInt_multiple n
  rw [exact] at unit
  constructor
  · have small : ¬ (2 ^ 1024 - 2 ^ 970) * 10 ^ (Decimal.ofInt n).scale ≤ (Decimal.ofInt n).coef.natAbs := by
      simp only [Decimal.ofInt, Nat.pow_zero, Nat.mul_one]
      exact Nat.not_le_of_lt bound
    rw [Num.toFloat, exact, Num.ofDecimal, if_neg small]
  · apply isfinite_float.mpr
    simp only [Decimal.ofInt, Nat.pow_zero, Nat.mul_one]
    exact exact_bound unit bound

theorem le_decimal {a b c : Num} (hb : b.decimal? = c.decimal?) (some_b : b.decimal?.isSome = true) :
    a.le b = a.le c := by
  cases b with
  | nan => cases some_b
  | infinity negative => cases some_b
  | _ =>
    cases c with
    | nan => cases hb
    | infinity negative => cases hb
    | _ =>
      cases a with
      | nan => rfl
      | infinity negative => rfl
      | _ => simp only [Num.le, Num.lt, hb]

theorem le_ofInt {x y : Num} {a b : Int} (hx : x.decimal? = some (.ofInt a)) (hy : y.decimal? = some (.ofInt b)) :
    x.le y = decide (a ≤ b) := by
  have compare : Decimal.lt (.ofInt b) (.ofInt a) = decide (b < a) := by simp [Decimal.lt, Decimal.ofInt]
  have whole : x.le y = !decide (b < a) := by
    cases x with
    | nan => cases hx
    | infinity negative => cases hx
    | _ =>
      cases y with
      | nan => cases hy
      | infinity negative => cases hy
      | _ => simp only [Num.le, Num.lt, hx, hy, compare]
  rw [whole, ← decide_not]
  exact decide_eq_decide.mpr Int.not_lt

theorem toFloat_int {n : Int} (accepted : amountOk (Num.int n).toFloat = true) :
    (Num.int n).toFloat = .float (.ofInt (Num.roundInt n)) := by
  rcases Num.ofDecimal_cases (.ofInt (Num.roundInt n)) with ⟨negative, infinite⟩ | exact
  · rw [Num.toFloat, infinite] at accepted
    cases accepted
  · exact exact

/-- Rounding a limit changes no comparison exactly when it does not change the limit. -/
theorem same_limit_iff {m : Num} (accepted : amountOk m = true) (again : amountOk m.toFloat = true) :
    (∀ amount, amountOk amount = true → amount.le m.toFloat = amount.le m) ↔ Exact m := by
  cases m with
  | int n =>
    have float := toFloat_int again
    constructor
    · intro same
      by_contra rounded
      rcases Int.lt_or_gt_of_ne rounded with below | above
      · -- the limit itself is no longer within the limit
        have within := same (.int n) accepted
        rw [float, le_ofInt rfl rfl, le_ofInt rfl rfl] at within
        simp at within
        omega
      · -- the rounded limit was not within the limit
        have within := same (.float (.ofInt (Num.roundInt n))) (float ▸ again)
        rw [float, le_ofInt rfl rfl, le_ofInt rfl rfl] at within
        simp at within
        omega
    · intro exact amount _
      rw [float, show Num.roundInt n = n from exact]
      exact le_decimal rfl rfl
  | float d => exact ⟨fun _ => trivial, fun _ _ _ => rfl⟩
  | nan => cases accepted
  | infinity negative => cases accepted

theorem amountOk_exact {m : Num} (accepted : amountOk m = true) (exact : Exact m) : amountOk m.toFloat = true := by
  cases m with
  | int n =>
    simp only [amountOk, Bool.and_eq_true] at accepted ⊢
    obtain ⟨same, finite⟩ := toFloat_exact accepted.1 exact
    have below : (Num.int 0).le (.float (.ofInt n)) = (Num.int 0).le (.int n) := le_decimal rfl rfl
    rw [same, below]
    exact ⟨finite, accepted.2⟩
  | float d => exact accepted
  | nan => cases accepted
  | infinity negative => cases accepted

theorem decimal_toFloat {m : Num} (accepted : amountOk m = true) (exact : Exact m) :
    m.toFloat.decimal? = m.decimal? ∧ m.toFloat.decimal?.isSome = true := by
  cases m with
  | int n =>
    simp only [amountOk, Bool.and_eq_true] at accepted
    rw [(toFloat_exact accepted.1 exact).1]
    exact ⟨rfl, rfl⟩
  | float d => exact ⟨rfl, rfl⟩
  | nan => cases accepted
  | infinity negative => cases accepted

/-! The largest amount. -/

/-- The largest amount that a constructor accepts. -/
def largestAmount : Num := .int ((2 ^ 1024 - 2 ^ 970 - 1 : Nat) : Int)

theorem amountOk_int {n : Int} : amountOk (.int n) = true ↔ 0 ≤ n ∧ n.natAbs < 2 ^ 1024 - 2 ^ 970 := by
  rw [amountOk, Bool.and_eq_true, isfinite_int, le_ofInt rfl rfl, decide_eq_true_iff, and_comm]

theorem float_le_int {d : Decimal} {n : Int} :
    (Num.float d).le (.int n) = true ↔ d.coef ≤ n * 10 ^ d.scale := by
  simp [Num.le, Num.lt, Num.decimal?, Decimal.lt, Decimal.ofInt]

theorem int_le_float {d : Decimal} {n : Int} :
    (Num.int n).le (.float d) = true ↔ n * 10 ^ d.scale ≤ d.coef := by
  simp [Num.le, Num.lt, Num.decimal?, Decimal.lt, Decimal.ofInt]

/-- The largest float is below the largest integer that is accepted. -/
theorem float_below {d : Decimal} (accepted : amountOk (.float d) = true) :
    d.coef < ((2 ^ 1024 - 2 ^ 970 - 1 : Nat) : Int) * 10 ^ d.scale := by
  rw [amountOk, Bool.and_eq_true, isfinite_float] at accepted
  have bound := accepted.1
  have room : 2 ^ 1024 - 2 ^ 971 < 2 ^ 1024 - 2 ^ 970 - 1 := by decide +kernel
  generalize 2 ^ 1024 - 2 ^ 971 = largest at bound room
  generalize 2 ^ 1024 - 2 ^ 970 - 1 = above at room ⊢
  have scaled : largest * 10 ^ d.scale < above * 10 ^ d.scale :=
    Nat.mul_lt_mul_of_pos_right room (Nat.pow_pos (by decide))
  have below : d.coef.natAbs < above * 10 ^ d.scale := Nat.lt_of_le_of_lt bound scaled
  have same : ((above * 10 ^ d.scale : Nat) : Int) = (above : Int) * 10 ^ d.scale := by simp
  rw [← same]
  omega

theorem amountOk_largest : amountOk largestAmount = true := by
  rw [largestAmount, amountOk_int]
  have some_room : 0 < 2 ^ 1024 - 2 ^ 970 := by decide +kernel
  generalize 2 ^ 1024 - 2 ^ 970 = bound at some_room ⊢
  omega

theorem all_le_iff {m : Num} (accepted : amountOk m = true) :
    (∀ x, amountOk x = true → x.le m = true) ↔ m = largestAmount := by
  constructor
  · intro above
    have limit := above largestAmount amountOk_largest
    cases m with
    | int n =>
      have bound := (amountOk_int.mp accepted).2
      rw [largestAmount, le_ofInt rfl rfl, decide_eq_true_iff] at limit
      have same : n = ((2 ^ 1024 - 2 ^ 970 - 1 : Nat) : Int) := by
        generalize 2 ^ 1024 - 2 ^ 970 = bound at bound limit ⊢
        omega
      rw [largestAmount, same]
    | float d => exact absurd (int_le_float.mp limit) (Int.not_le_of_gt (float_below accepted))
    | nan => cases accepted
    | infinity negative => cases accepted
  · rintro rfl x fine
    cases x with
    | int n =>
      have bound := (amountOk_int.mp fine).2
      rw [largestAmount, le_ofInt rfl rfl, decide_eq_true_iff]
      generalize 2 ^ 1024 - 2 ^ 970 = bound at bound ⊢
      omega
    | float d => exact float_le_int.mpr (Int.le_of_lt (float_below fine))
    | nan => cases fine
    | infinity negative => cases fine

end Onmc.ToolBroker

import Mathlib.Algebra.Order.Field.Rat
import Mathlib.Algebra.Order.Floor.Ring
import Mathlib.Algebra.Order.Ring.Abs
import Mathlib.Data.Rat.Floor
import Mathlib.Tactic.Linarith
import Onmc.NumOrder

/-! Floats whose finite values are exact: the rationals, the two infinities and a NaN, with the sum,
the comparison and the rounding that Python has for them. -/
namespace Onmc

inductive ExactFloat where
  | finite (q : ℚ)
  | inf (negative : Bool)
  | nan
  deriving DecidableEq

namespace ExactFloat

def ofNum : Num → ExactFloat
  | .int n => finite n
  | .float d => finite d.toRat
  | .infinity negative => inf negative
  | .nan => nan

def add : ExactFloat → ExactFloat → ExactFloat
  | nan, _ | _, nan => nan
  | finite p, finite q => finite (p + q)
  | inf a, finite _ | finite _, inf a => inf a
  | inf a, inf b => if a = b then inf a else nan

/-- `a * b` -/
def mul : ExactFloat → ExactFloat → ExactFloat
  | nan, _ | _, nan => nan
  | finite p, finite q => finite (p * q)
  | inf a, finite q | finite q, inf a => if q = 0 then nan else inf (a != decide (q < 0))
  | inf a, inf b => inf (a != b)

/-- `a / b` for a positive `b` -/
def div : ExactFloat → ExactFloat → ExactFloat
  | nan, _ | _, nan => nan
  | finite p, finite q => finite (p / q)
  | inf a, finite _ => inf a
  | finite _, inf _ => finite 0
  | inf _, inf _ => nan

/-- `a <= b` -/
def le : ExactFloat → ExactFloat → Bool
  | nan, _ | _, nan => false
  | finite p, finite q => decide (p ≤ q)
  | inf a, finite _ => a
  | finite _, inf b => !b
  | inf a, inf b => a || !b

/-- `max(0.0, a)`: the first argument unless the second is greater. -/
def max0 (a : ExactFloat) : ExactFloat := if le a (finite 0) ∨ a = nan then finite 0 else a

/-- `min(a, max(0.0, b))` for `a` one. -/
def unit (a : ExactFloat) : ExactFloat := if le (finite 1) (max0 a) then finite 1 else max0 a

/-! Rounding. -/

/-- The nearest integer, an even one at a tie. -/
def roundEven (x : ℚ) : ℤ :=
  if x - ⌊x⌋ < 1 / 2 then ⌊x⌋
  else if 1 / 2 < x - ⌊x⌋ then ⌊x⌋ + 1
  else if ⌊x⌋ % 2 = 0 then ⌊x⌋ else ⌊x⌋ + 1

/-- `round(a, digits)` -/
def round (digits : ℕ) : ExactFloat → ExactFloat
  | finite q => finite (roundEven (q * 10 ^ digits) / 10 ^ digits)
  | a => a

theorem roundEven_near (x : ℚ) : x - 1 / 2 ≤ roundEven x ∧ roundEven x ≤ x + 1 / 2 := by
  have below := Int.floor_le x
  have above := Int.lt_floor_add_one x
  unfold roundEven
  split
  · exact ⟨by linarith, by linarith⟩
  · split
    · push_cast
      exact ⟨by linarith, by linarith⟩
    · split
      · exact ⟨by linarith, by linarith⟩
      · push_cast
        exact ⟨by linarith, by linarith⟩

/-- Only an even integer is as far away as one half. -/
theorem roundEven_tie {x : ℚ} (h : (roundEven x : ℚ) = x + 1 / 2 ∨ (roundEven x : ℚ) = x - 1 / 2) :
    roundEven x % 2 = 0 := by
  have below := Int.floor_le x
  have above := Int.lt_floor_add_one x
  unfold roundEven at h ⊢
  split
  · rename_i low
    simp only [low, if_true] at h
    rcases h with h | h <;> linarith
  · rename_i low
    simp only [low, if_false] at h
    split
    · rename_i high
      simp only [high, if_true] at h
      push_cast at h
      rcases h with h | h <;> linarith
    · split
      · assumption
      · omega

theorem roundEven_mono {x y : ℚ} (h : x ≤ y) : roundEven x ≤ roundEven y := by
  by_contra smaller
  have apart : roundEven y + 1 ≤ roundEven x := by omega
  have cast : (roundEven y : ℚ) + 1 ≤ roundEven x := by exact_mod_cast apart
  have nearX := roundEven_near x
  have nearY := roundEven_near y
  have evenX := @roundEven_tie x (.inl (by linarith))
  have evenY := @roundEven_tie y (.inr (by linarith))
  have next : roundEven x = roundEven y + 1 := by
    have : (roundEven x : ℚ) ≤ roundEven y + 1 := by linarith
    have bound : roundEven x ≤ roundEven y + 1 := by exact_mod_cast this
    omega
  omega

theorem roundEven_intCast (z : ℤ) : roundEven z = z := by
  simp [roundEven]

@[simp] theorem roundEven_zero : roundEven 0 = 0 := by
  simpa using roundEven_intCast 0

theorem round_mono (digits : ℕ) {p q : ℚ} (h : p ≤ q) :
    (roundEven (p * 10 ^ digits) : ℚ) / 10 ^ digits ≤ roundEven (q * 10 ^ digits) / 10 ^ digits := by
  have positive : (0 : ℚ) < 10 ^ digits := by positivity
  apply div_le_div_of_nonneg_right _ positive.le
  exact_mod_cast roundEven_mono (mul_le_mul_of_nonneg_right h positive.le)

theorem round_round (digits : ℕ) (a : ExactFloat) : round digits (round digits a) = round digits a := by
  cases a with
  | finite q =>
    have positive : (10 : ℚ) ^ digits ≠ 0 := by positivity
    simp only [round, div_mul_cancel₀ _ positive, roundEven_intCast]
  | inf negative => rfl
  | nan => rfl

theorem round_nonneg (digits : ℕ) {q : ℚ} (h : 0 ≤ q) : (0 : ℚ) ≤ roundEven (q * 10 ^ digits) / 10 ^ digits := by
  simpa using round_mono digits h

theorem round_nonpos (digits : ℕ) {q : ℚ} (h : q ≤ 0) : (roundEven (q * 10 ^ digits) : ℚ) / 10 ^ digits ≤ 0 := by
  simpa using round_mono digits h

/-! Sums. -/

theorem sum_comm (a b : ExactFloat) : add a b = add b a := by
  cases a with
  | finite p => cases b <;> simp [add, add_comm]
  | nan => cases b <;> rfl
  | inf a =>
    cases b with
    | finite q => rfl
    | nan => rfl
    | inf b => cases a <;> cases b <;> rfl

theorem sum_assoc (a b c : ExactFloat) : add (add a b) c = add a (add b c) := by
  cases a with
  | nan => rfl
  | finite p =>
    cases b with
    | nan => rfl
    | finite q => cases c <;> simp [add, add_assoc]
    | inf b => cases c with
      | inf c => cases b <;> cases c <;> rfl
      | _ => rfl
  | inf a =>
    cases b with
    | nan => rfl
    | finite q => cases c <;> rfl
    | inf b => cases c with
      | inf c => cases a <;> cases b <;> cases c <;> rfl
      | _ => cases a <;> cases b <;> rfl

instance : Zero ExactFloat := ⟨finite 0⟩

instance : Add ExactFloat := ⟨add⟩

theorem zero_eq : (0 : ExactFloat) = finite 0 := rfl

theorem add_eq (a b : ExactFloat) : a + b = add a b := rfl

theorem zero_sum (a : ExactFloat) : 0 + a = a := by
  cases a <;> simp [zero_eq, add_eq, add]

instance : AddCommMonoid ExactFloat where
  add_assoc := sum_assoc
  add_comm := sum_comm
  zero_add := zero_sum
  add_zero a := (sum_comm a 0).trans (zero_sum a)
  nsmul := nsmulRec

/-! Amounts that are not negative, and what they do to a sum. -/

def NonNeg (a : ExactFloat) : Prop := le (finite 0) a = true

/-- The rounded amount that is compared with a limit: nothing below zero, and nothing for a NaN. -/
def floored (digits : ℕ) (a : ExactFloat) : ExactFloat := round digits (max0 (round digits a))

theorem max0_finite (q : ℚ) : max0 (finite q) = finite (max 0 q) := by
  rcases le_total q 0 with h | h
  · simp [max0, le, h]
  · rcases h.eq_or_lt with same | h'
    · subst same
      simp [max0, le]
    · simp [max0, le, not_le.mpr h', h]

/-- Adding what is not negative keeps a limit reached. -/
theorem le_floored_add (digits : ℕ) {limit a b : ExactFloat} (nonneg : NonNeg b)
    (h : le limit (floored digits a) = true) : le limit (floored digits (a + b)) = true := by
  rw [add_eq]
  cases b with
  | nan => cases nonneg
  | inf negative =>
    cases negative with
    | true => cases nonneg
    | false =>
      cases a with
      | finite p =>
        have whole : floored digits (add (finite p) (inf false)) = inf false := rfl
        rw [whole]
        cases limit with
        | nan => cases h
        | finite q => rfl
        | inf below => cases below <;> rfl
      | nan => exact h
      | inf below =>
        cases below with
        | false => exact h
        | true => exact h
  | finite q =>
    cases a with
    | nan => exact h
    | inf below => exact h
    | finite p =>
      have grows : p ≤ p + q := by
        have positive : (0 : ℚ) ≤ q := of_decide_eq_true nonneg
        linarith
      have rounded := round_mono digits (max_le_max (le_refl (0 : ℚ)) (round_mono digits grows))
      simp only [floored, add, round, max0_finite] at h ⊢
      cases limit with
      | nan => cases h
      | inf below => exact h
      | finite l =>
        have reached : l ≤ _ := of_decide_eq_true h
        exact decide_eq_true (reached.trans rounded)

theorem floored_eq (digits : ℕ) (a : ExactFloat) : floored digits a = round digits (max0 a) := by
  cases a with
  | nan => rfl
  | inf negative => cases negative <;> rfl
  | finite q =>
    rcases le_total q 0 with h | h
    · have below := round_nonpos digits h
      simp only [floored, round, max0_finite, max_eq_left h, max_eq_left below]
    · have above := round_nonneg digits h
      have kept := round_round digits (finite q)
      simp only [round, ExactFloat.finite.injEq] at kept
      simp only [floored, round, max0_finite, max_eq_right h, max_eq_right above, kept]

theorem nonneg_iff {a : ExactFloat} : NonNeg a ↔ (∃ q, 0 ≤ q ∧ a = finite q) ∨ a = inf false := by
  cases a with
  | nan => simp [NonNeg, le]
  | inf negative => simp [NonNeg, le]
  | finite q => simp [NonNeg, le]

theorem nonneg_zero : NonNeg 0 := rfl

theorem le_inf {a : ExactFloat} (nonneg : NonNeg a) : le a (inf false) = true := by
  rcases nonneg_iff.mp nonneg with ⟨q, -, rfl⟩ | rfl <;> rfl

theorem nonneg_of_le {a b : ExactFloat} (nonneg : NonNeg a) (h : le a b = true) : NonNeg b := by
  rcases nonneg_iff.mp nonneg with ⟨p, positive, rfl⟩ | rfl
  · cases b with
    | nan => cases h
    | inf negative => exact h
    | finite q => exact decide_eq_true (positive.trans (of_decide_eq_true h))
  · cases b with
    | nan => cases h
    | inf negative => exact h
    | finite q => cases h

theorem nonneg_add {a b : ExactFloat} (first : NonNeg a) (second : NonNeg b) : NonNeg (a + b) := by
  rcases nonneg_iff.mp first with ⟨p, left, rfl⟩ | rfl
  · rcases nonneg_iff.mp second with ⟨q, right, rfl⟩ | rfl
    · exact decide_eq_true (add_nonneg left right)
    · rfl
  · rcases nonneg_iff.mp second with ⟨q, -, rfl⟩ | rfl <;> rfl

/-- Between amounts that are not negative, adding keeps the order. -/
theorem add_mono {a b c d : ExactFloat} (first : NonNeg a) (second : NonNeg c) (left : le a b = true)
    (right : le c d = true) : le (a + c) (b + d) = true := by
  have sum := nonneg_add first second
  rcases nonneg_iff.mp (nonneg_of_le first left) with ⟨q, -, rfl⟩ | rfl
  · rcases nonneg_iff.mp (nonneg_of_le second right) with ⟨s, -, rfl⟩ | rfl
    · rcases nonneg_iff.mp first with ⟨p, -, rfl⟩ | rfl
      · rcases nonneg_iff.mp second with ⟨r, -, rfl⟩ | rfl
        · exact decide_eq_true (add_le_add (of_decide_eq_true left) (of_decide_eq_true right))
        · cases right
      · cases left
    · exact le_inf sum
  · rcases nonneg_iff.mp (nonneg_of_le second right) with ⟨s, -, rfl⟩ | rfl
    · exact le_inf sum
    · exact le_inf sum

theorem nonneg_sum {amounts : List ExactFloat} (all : ∀ a ∈ amounts, NonNeg a) : NonNeg amounts.sum := by
  induction amounts with
  | nil => exact nonneg_zero
  | cons a amounts ih =>
    rw [List.sum_cons]
    exact nonneg_add (all a List.mem_cons_self) (ih fun b member => all b (List.mem_cons_of_mem a member))

theorem sum_le_sum {α : Type} {items : List α} {f g : α → ExactFloat} (nonneg : ∀ i ∈ items, NonNeg (f i))
    (below : ∀ i ∈ items, le (f i) (g i) = true) : le (items.map f).sum (items.map g).sum = true := by
  induction items with
  | nil => rfl
  | cons i items ih =>
    rw [List.map_cons, List.sum_cons, List.map_cons, List.sum_cons]
    have rest : ∀ j ∈ items, NonNeg (f j) := fun j member => nonneg j (List.mem_cons_of_mem i member)
    apply add_mono (nonneg i List.mem_cons_self) _ (below i List.mem_cons_self)
    · exact ih rest fun j member => below j (List.mem_cons_of_mem i member)
    · apply nonneg_sum
      intro a member
      obtain ⟨j, held, rfl⟩ := List.mem_map.mp member
      exact rest j held

theorem round_le_round (digits : ℕ) {a b : ExactFloat} (h : le a b = true) :
    le (round digits a) (round digits b) = true := by
  cases a with
  | nan => cases b <;> cases h
  | inf negative =>
    cases b with
    | nan => cases h
    | inf below => exact h
    | finite q => exact h
  | finite p =>
    cases b with
    | nan => cases h
    | inf below => exact h
    | finite q => exact decide_eq_true (round_mono digits (of_decide_eq_true h))

end ExactFloat
end Onmc

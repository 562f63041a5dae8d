import Mathlib.Algebra.Ring.Int.Defs
import Mathlib.Data.String.Basic

/-! JSON values and the key-sorted form that `json.dumps(sort_keys=True)` followed by
`json.loads` yields. A Python dict is compared without regard to its order, so the
sorted form is the one value both directions agree on. -/
namespace Onmc

/-- A finite float in positional form, `coef / 10 ^ scale` with no spare trailing zero. -/
structure Decimal where
  coef : Int
  scale : Nat
  normal : scale = 0 ∨ coef % 10 ≠ 0
deriving DecidableEq

namespace Decimal

/-- Cancel powers of ten that numerator and denominator share. -/
def normalize (coef : Int) : Nat → Decimal
  | 0 => ⟨coef, 0, .inl rfl⟩
  | k + 1 => if h : coef % 10 = 0 then normalize (coef / 10) k else ⟨coef, k + 1, .inr h⟩

theorem normalize_self (d : Decimal) : normalize d.coef d.scale = d := by
  obtain ⟨c, k, h⟩ := d
  cases k with
  | zero => rfl
  | succ k =>
    have hc : ¬ c % 10 = 0 := h.resolve_left (Nat.succ_ne_zero k)
    simp only [normalize, dif_neg hc]

/-- A positional form with one more written zero denotes the same float. -/
theorem normalize_zero_digit (c : Int) (k : Nat) : normalize (c * 10) (k + 1) = normalize c k := by
  have h : c * 10 % 10 = 0 := by omega
  have hd : c * 10 / 10 = c := by omega
  simp only [normalize, dif_pos h, hd]

def add (a b : Decimal) : Decimal :=
  normalize (a.coef * 10 ^ b.scale + b.coef * 10 ^ a.scale) (a.scale + b.scale)

def lt (a b : Decimal) : Bool := decide (a.coef * 10 ^ b.scale < b.coef * 10 ^ a.scale)

def ofInt (n : Int) : Decimal := ⟨n, 0, .inl rfl⟩

end Decimal

/-- The numbers Python's `json` writes: exact integers and floats, the special ones included. -/
inductive Num where
  | int (n : Int)
  | float (d : Decimal)
  | nan
  | infinity (negative : Bool)
deriving DecidableEq

namespace Num

def decimal? : Num → Option Decimal
  | int n => some (.ofInt n)
  | float d => some d
  | nan | infinity _ => none

/-- `a < b`: nothing compares with a NaN. -/
def lt : Num → Num → Bool
  | nan, _ | _, nan => false
  | infinity a, infinity b => a && !b
  | infinity a, _ => a
  | _, infinity b => !b
  | a, b => match a.decimal?, b.decimal? with
    | some a, some b => a.lt b
    | _, _ => false

/-- `a <= b` -/
def le : Num → Num → Bool
  | nan, _ | _, nan => false
  | a, b => !b.lt a

/-- Python's two-argument `min`: the first argument unless the second is smaller. -/
def min (a b : Num) : Num := if b.lt a then b else a

/-- A float beyond the largest double is infinite. -/
def ofDecimal (d : Decimal) : Num :=
  if (2 ^ 1024 - 2 ^ 970) * 10 ^ d.scale ≤ d.coef.natAbs then infinity (decide (d.coef < 0)) else float d

theorem ofDecimal_cases (d : Decimal) : (∃ negative, ofDecimal d = infinity negative) ∨ ofDecimal d = float d := by
  unfold ofDecimal
  split
  · exact .inl ⟨_, rfl⟩
  · exact .inr rfl

/-- The nearest integer with 53 significant bits, a tie going to the even one. -/
def roundInt (n : Int) : Int :=
  let unit := 2 ^ (n.natAbs.log2 - 52)
  let down := n.natAbs / unit
  let rest := 2 * (n.natAbs % unit)
  n.sign * ((if unit < rest ∨ (rest = unit ∧ down % 2 = 1) then down + 1 else down) * unit : Nat)

/-- `float(x)`, infinite where Python raises `OverflowError`. -/
def toFloat : Num → Num
  | int n => ofDecimal (.ofInt (roundInt n))
  | x => x

/-- `a == b` -/
def eq : Num → Num → Bool
  | infinity a, infinity b => a == b
  | a, b => match a.decimal?, b.decimal? with
    | some a, some b => a = b
    | _, _ => false

/-- `x * (2 ** k)`: an integer stays an integer, a float stays a float, and nothing when the
power is too large to be converted to a float. -/
def timesPowTwo : Num → Nat → Option Num
  | int n, k => some (int (n * 2 ^ k))
  | float d, k => if k < 1024 then some (ofDecimal (.normalize (d.coef * 2 ^ k) d.scale)) else none
  | x, k => if k < 1024 then some x else none

end Num

inductive Json where
  | null
  | bool (b : Bool)
  | num (n : Num)
  | str (s : String)
  | arr (items : List Json)
  | obj (fields : List (String × Json))

namespace Json

/-- Put a binding into a key-sorted field list, replacing an equal key. -/
def insertField (k : String) (v : Json) : List (String × Json) → List (String × Json)
  | [] => [(k, v)]
  | f :: fs => if k < f.1 then (k, v) :: f :: fs else if k = f.1 then (k, v) :: fs
               else f :: insertField k v fs

mutual
/-- The value read back after writing with sorted keys. -/
def canonical : Json → Json
  | .null => .null
  | .bool b => .bool b
  | .num n => .num n
  | .str s => .str s
  | .arr items => .arr (canonicalItems items)
  | .obj fields => .obj (canonicalFields fields)
def canonicalItems : List Json → List Json
  | [] => []
  | v :: vs => canonical v :: canonicalItems vs
def canonicalFields : List (String × Json) → List (String × Json)
  | [] => []
  | (k, v) :: fs => insertField k (canonical v) (canonicalFields fs)
end

/-- `d.get(key)`: an absent key and a non-dict both give nothing. -/
def get? : Json → String → Option Json
  | .obj fields, k => fields.lookup k
  | _, _ => none

/-- `{key: value for key, value in d.items() if key != k}` -/
def without (k : String) : Json → Json
  | .obj fields => .obj (fields.filter (fun f => f.1 ≠ k))
  | v => v

def ofOption (f : α → Json) : Option α → Json
  | none => .null
  | some a => f a

@[simp] theorem canonical_null : canonical .null = .null := by simp only [canonical]
@[simp] theorem canonical_bool (b : Bool) : canonical (.bool b) = .bool b := by simp only [canonical]
@[simp] theorem canonical_num (n : Num) : canonical (.num n) = .num n := by simp only [canonical]
@[simp] theorem canonical_str (s : String) : canonical (.str s) = .str s := by simp only [canonical]
@[simp] theorem canonical_arr (vs : List Json) : canonical (.arr vs) = .arr (canonicalItems vs) := by
  simp only [canonical]
@[simp] theorem canonical_obj (fs : List (String × Json)) :
    canonical (.obj fs) = .obj (canonicalFields fs) := by simp only [canonical]

theorem canonicalItems_eq_map (vs : List Json) : canonicalItems vs = vs.map canonical := by
  induction vs with
  | nil => simp only [canonicalItems, List.map_nil]
  | cons v vs ih => simp only [canonicalItems, List.map_cons, ih]

theorem canonicalFields_cons (k : String) (v : Json) (fs : List (String × Json)) :
    canonicalFields ((k, v) :: fs) = insertField k (canonical v) (canonicalFields fs) := by
  simp only [canonicalFields]

theorem lookup_insertField (k j : String) (v : Json) (fs : List (String × Json)) :
    (insertField k v fs).lookup j = if j = k then some v else fs.lookup j := by
  induction fs with
  | nil =>
    by_cases h : j = k
    · simp [insertField, h]
    · simp [insertField, List.lookup_cons, h, beq_eq_false_iff_ne.mpr h]
  | cons f fs ih =>
    obtain ⟨k', v'⟩ := f
    simp only [insertField]
    split
    · by_cases h : j = k
      · simp [h]
      · simp [List.lookup_cons, h, beq_eq_false_iff_ne.mpr h]
    · split
      · rename_i _ he
        by_cases h : j = k
        · simp [h]
        · have hk : j ≠ k' := he ▸ h
          simp [List.lookup_cons, h, beq_eq_false_iff_ne.mpr h, beq_eq_false_iff_ne.mpr hk]
      · rename_i _ hne
        by_cases hk : j = k'
        · have h : j ≠ k := fun e => hne (e.symm.trans hk)
          simp [hk, Ne.symm hne]
        · simp [List.lookup_cons, beq_eq_false_iff_ne.mpr hk, ih]

theorem lookup_canonicalFields (j : String) (fs : List (String × Json)) :
    (canonicalFields fs).lookup j = (fs.lookup j).map canonical := by
  induction fs with
  | nil => simp [canonicalFields]
  | cons f fs ih =>
    obtain ⟨k, v⟩ := f
    rw [canonicalFields_cons, lookup_insertField, ih, List.lookup_cons]
    by_cases h : j = k
    · simp [h]
    · simp [h, beq_eq_false_iff_ne.mpr h]

/-- Sorting keys does not change what a lookup finds. -/
theorem get?_canonical (v : Json) (k : String) : v.canonical.get? k = (v.get? k).map canonical := by
  cases v with
  | obj fs => simp only [canonical_obj, get?, lookup_canonicalFields]
  | _ => simp [get?]

/-! Strictly increasing keys: the shape every sorted object has. -/

def Increasing (fs : List (String × Json)) : Prop := fs.Pairwise (fun a b => a.1 < b.1)

theorem mem_insertField {k : String} {v : Json} {fs : List (String × Json)} {f : String × Json}
    (h : f ∈ insertField k v fs) : f = (k, v) ∨ f ∈ fs := by
  induction fs with
  | nil => exact .inl (by simpa [insertField] using h)
  | cons g fs ih =>
    simp only [insertField] at h
    split at h
    · simpa using h
    · split at h
      · rcases List.mem_cons.mp h with h | h
        · exact .inl h
        · exact .inr (List.mem_cons_of_mem _ h)
      · rcases List.mem_cons.mp h with h | h
        · exact .inr (h ▸ List.mem_cons_self)
        · exact (ih h).imp_right (List.mem_cons_of_mem _)

theorem increasing_insertField (k : String) (v : Json) {fs : List (String × Json)}
    (h : Increasing fs) : Increasing (insertField k v fs) := by
  induction fs with
  | nil => simp [insertField, Increasing]
  | cons g fs ih =>
    obtain ⟨hg, ht⟩ := List.pairwise_cons.mp h
    simp only [insertField]
    split
    · rename_i hlt
      refine List.pairwise_cons.mpr ⟨?_, h⟩
      intro f hf
      rcases List.mem_cons.mp hf with rfl | hf
      · exact hlt
      · exact lt_trans hlt (hg f hf)
    · split
      · rename_i _ he
        exact List.pairwise_cons.mpr ⟨fun f hf => he ▸ hg f hf, ht⟩
      · rename_i hlt hne
        refine List.pairwise_cons.mpr ⟨?_, ih ht⟩
        intro f hf
        rcases mem_insertField hf with rfl | hf
        · exact lt_of_le_of_ne (not_lt.mp hlt) (Ne.symm hne)
        · exact hg f hf

theorem increasing_canonicalFields (fs : List (String × Json)) : Increasing (canonicalFields fs) := by
  induction fs with
  | nil => simp [canonicalFields, Increasing]
  | cons f fs ih =>
    obtain ⟨k, v⟩ := f
    rw [canonicalFields_cons]
    exact increasing_insertField k _ ih

theorem insertField_below {k : String} {v : Json} {fs : List (String × Json)}
    (h : ∀ f ∈ fs, k < f.1) : insertField k v fs = (k, v) :: fs := by
  cases fs with
  | nil => rfl
  | cons f fs => simp only [insertField, if_pos (h f List.mem_cons_self)]

mutual
theorem canonical_canonical : ∀ v : Json, v.canonical.canonical = v.canonical
  | .null => by simp
  | .bool _ => by simp
  | .num _ => by simp
  | .str _ => by simp
  | .arr vs => by simp only [canonical_arr, canonicalItems_canonical vs]
  | .obj fs => by
    simp only [canonical_obj]
    rw [canonicalFields_canonical _ (increasing_canonicalFields fs) (values_canonical fs)]
theorem canonicalItems_canonical : ∀ vs : List Json,
    canonicalItems (canonicalItems vs) = canonicalItems vs
  | [] => by simp only [canonicalItems]
  | v :: vs => by
    simp only [canonicalItems, canonical_canonical v, canonicalItems_canonical vs]
theorem values_canonical : ∀ fs : List (String × Json),
    ∀ f ∈ canonicalFields fs, f.2.canonical = f.2
  | [] => by simp [canonicalFields]
  | (k, v) :: fs => by
    intro f hf
    rw [canonicalFields_cons] at hf
    rcases mem_insertField hf with rfl | hf
    · exact canonical_canonical v
    · exact values_canonical fs f hf
theorem canonicalFields_canonical : ∀ fs : List (String × Json), Increasing fs →
    (∀ f ∈ fs, f.2.canonical = f.2) → canonicalFields fs = fs
  | [], _, _ => by simp only [canonicalFields]
  | (k, v) :: fs, hi, hv => by
    obtain ⟨hk, ht⟩ := List.pairwise_cons.mp hi
    have hvk : v.canonical = v := hv (k, v) List.mem_cons_self
    have hrest := canonicalFields_canonical fs ht (fun f hf => hv f (List.mem_cons_of_mem _ hf))
    rw [canonicalFields_cons, hrest, hvk]
    exact insertField_below hk
end

/-! Dropping a key commutes with sorting. -/

theorem filter_insertField (k k' : String) (v : Json) {fs : List (String × Json)}
    (h : Increasing fs) :
    (insertField k' v fs).filter (fun f => f.1 ≠ k) =
      if k' = k then fs.filter (fun f => f.1 ≠ k)
      else insertField k' v (fs.filter (fun f => f.1 ≠ k)) := by
  induction fs with
  | nil => by_cases hk : k' = k <;> simp [insertField, hk]
  | cons g fs ih =>
    obtain ⟨hg, ht⟩ := List.pairwise_cons.mp h
    have ih := ih ht
    simp only [insertField]
    by_cases hk : k' = k
    · subst hk
      simp only [if_pos] at ih ⊢
      split
      · simp
      · split
        · rename_i _ he
          simp [← he]
        · rename_i _ hne
          simp only [List.filter_cons, ih]
    · simp only [if_neg hk] at ih ⊢
      split
      · rename_i hlt
        have below : ∀ f ∈ (g :: fs).filter (fun f => f.1 ≠ k), k' < f.1 := by
          intro f hf
          rcases List.mem_cons.mp (List.mem_filter.mp hf).1 with rfl | hf
          · exact hlt
          · exact lt_trans hlt (hg f hf)
        rw [insertField_below below, List.filter_cons, if_pos (by simpa using hk)]
      · split
        · rename_i _ he
          have hgk : g.1 ≠ k := he ▸ hk
          simp [hgk, insertField, he]
        · rename_i hlt hne
          by_cases hgk : g.1 = k
          · simp only [List.filter_cons, hgk, ne_eq, not_true_eq_false, decide_false,
              Bool.false_eq_true, if_false]
            simpa using ih
          · simp only [List.filter_cons, hgk, ne_eq, not_false_eq_true, decide_true, if_true,
              insertField, if_neg hlt, if_neg hne]
            simpa using ih

theorem canonicalFields_filter (k : String) (fs : List (String × Json)) :
    canonicalFields (fs.filter (fun f => f.1 ≠ k)) =
      (canonicalFields fs).filter (fun f => f.1 ≠ k) := by
  induction fs with
  | nil => simp [canonicalFields]
  | cons f fs ih =>
    obtain ⟨k', v⟩ := f
    rw [canonicalFields_cons, filter_insertField k k' _ (increasing_canonicalFields fs)]
    by_cases hk : k' = k
    · simpa [List.filter_cons, hk] using ih
    · rw [if_neg hk, ← ih, List.filter_cons, if_pos (by simpa using hk), canonicalFields_cons]

theorem canonical_without (k : String) (v : Json) :
    (v.without k).canonical = v.canonical.without k := by
  cases v with
  | obj fs => simp only [without, canonical_obj, canonicalFields_filter]
  | _ => simp [without]

/-! Comparing dicts as `==` does: `True`, `1` and `1.0` are one value. -/

mutual
def numeric : Json → Json
  | .null => .null
  | .bool b => .num (.int (if b then 1 else 0))
  | .num (.float d) => if d.scale = 0 then .num (.int d.coef) else .num (.float d)
  | .num n => .num n
  | .str s => .str s
  | .arr items => .arr (numericItems items)
  | .obj fields => .obj (numericFields fields)
def numericItems : List Json → List Json
  | [] => []
  | v :: vs => numeric v :: numericItems vs
def numericFields : List (String × Json) → List (String × Json)
  | [] => []
  | (k, v) :: fs => (k, numeric v) :: numericFields fs
end

theorem numericFields_insertField (k : String) (v : Json) (fs : List (String × Json)) :
    numericFields (insertField k v fs) = insertField k (numeric v) (numericFields fs) := by
  induction fs with
  | nil => simp only [insertField, numericFields]
  | cons f fs ih =>
    obtain ⟨j, w⟩ := f
    simp only [insertField, numericFields]
    split
    · simp only [numericFields]
    · split
      · simp only [numericFields]
      · simp only [numericFields, ih]

mutual
theorem numeric_canonical : ∀ v : Json, v.canonical.numeric = v.numeric.canonical
  | .null => by simp only [numeric, canonical_null]
  | .bool b => by simp only [numeric, canonical_bool, canonical_num]
  | .num (.float d) => by
    simp only [numeric, canonical_num]
    split <;> simp only [canonical_num]
  | .num (.int n) => by simp only [numeric, canonical_num]
  | .num .nan => by simp only [numeric, canonical_num]
  | .num (.infinity n) => by simp only [numeric, canonical_num]
  | .str s => by simp only [numeric, canonical_str]
  | .arr items => by simp only [numeric, canonical_arr, numericItems_canonical items]
  | .obj fields => by simp only [numeric, canonical_obj, numericFields_canonical fields]
theorem numericItems_canonical : ∀ vs : List Json,
    numericItems (canonicalItems vs) = canonicalItems (numericItems vs)
  | [] => by simp only [numericItems, canonicalItems]
  | v :: vs => by
    simp only [numericItems, canonicalItems, numeric_canonical v, numericItems_canonical vs]
theorem numericFields_canonical : ∀ fs : List (String × Json),
    numericFields (canonicalFields fs) = canonicalFields (numericFields fs)
  | [] => by simp only [numericFields, canonicalFields]
  | (k, v) :: fs => by
    simp only [numericFields, canonicalFields, numericFields_insertField, numeric_canonical v,
      numericFields_canonical fs]
end

end Json
end Onmc

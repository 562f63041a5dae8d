import Onmc.JsonDict

/-! The built-in conversions of Python on values that came out of JSON. -/
namespace Onmc.PyValue

/-- A float. -/
structure Double where
  num : Num
  float : num.toFloat = num

def Double.ofDecimal (d : Decimal) : Double := ⟨.float d, rfl⟩

theorem toFloat_toFloat (n : Num) : n.toFloat.toFloat = n.toFloat := by
  cases n with
  | int n =>
    simp only [Num.toFloat]
    rcases Num.ofDecimal_cases (.ofInt (Num.roundInt n)) with ⟨negative, infinite⟩ | finite
    · rw [infinite]
    · rw [finite]
  | float d => rfl
  | nan => rfl
  | infinity negative => rfl

def Double.ofNum (n : Num) : Double := ⟨n.toFloat, toFloat_toFloat n⟩

/-- `str` of the values that are not plain text, numbers without a fraction, or truth values; `float` of a text; and
`dict` of a value that is no dict. -/
class Builtins where
  strOther : Json → String
  floatText : String → Option Double
  dictOther : Json → Option JsonDict

variable [Builtins]

/-- `str(value)` -/
def str : Json → String
  | .null => "None"
  | .bool true => "True"
  | .bool false => "False"
  | .num (.int n) => toString n
  | .str text => text
  | value => Builtins.strOther value

/-- `float(value)`, nothing where that raises. -/
def float : Json → Option Double
  | .num (.int n) =>
    match Double.ofNum (.int n) with
    | ⟨.infinity _, _⟩ => none
    | x => some x
  | .num x => some (.ofNum x)
  | .bool b => some (.ofDecimal (.ofInt (if b then 1 else 0)))
  | .str text => Builtins.floatText text
  | _ => none

theorem float_num (x : Double) : float (.num x.num) = some x := by
  obtain ⟨num, isFloat⟩ := x
  cases num with
  | int n =>
    simp only [Num.toFloat] at isFloat
    rcases Num.ofDecimal_cases (.ofInt (Num.roundInt n)) with ⟨negative, infinite⟩ | finite
    · rw [infinite] at isFloat
      cases isFloat
    · rw [finite] at isFloat
      cases isFloat
  | float d => rfl
  | nan => rfl
  | infinity negative => rfl

/-- `dict(value)`, nothing where that raises. -/
def dict (value : Json) : Option JsonDict :=
  match (JsonValue.load value).asDict with
  | some d => some d
  | none => Builtins.dictOther value

end Onmc.PyValue

namespace Onmc.JsonValue

def num (n : Num) : JsonValue := ⟨.num n, rfl⟩

def null : JsonValue := ⟨.null, rfl⟩

/-- `value` or `None` -/
def opt {α : Type} (f : α → JsonValue) : Option α → JsonValue
  | none => null
  | some a => f a

theorem load_json (v : JsonValue) : load v.json = v := by
  obtain ⟨json, canonical⟩ := v
  simp only [load, canonical]

end Onmc.JsonValue

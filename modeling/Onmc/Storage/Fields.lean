import Onmc.Calendar

/-! How the models' fields are written to JSON and read back: enumerations by their values, instants by
their ISO text, floats as finite decimals. A field that a reader does not accept makes the whole
record unreadable. -/
namespace Onmc.Storage

/-- A `StrEnum`: its members, and the text that stands for each of them. -/
class StrEnum (α : Type) where
  members : List α
  value : α → String
  known : ∀ a, members.find? (fun b => value b = value a) = some a

namespace StrEnum

/-- `Kind(text)` -/
def parse (α : Type) [StrEnum α] (text : String) : Option α := members.find? (fun a => value a = text)

@[simp] theorem parse_value {α : Type} [StrEnum α] (a : α) : parse α (value a) = some a := known a

end StrEnum

/-- A float that `Field(ge=0.0, le=1.0)` accepts. -/
structure Confidence where
  value : Decimal
  bounds : 0 ≤ value.coef ∧ value.coef ≤ 10 ^ value.scale
deriving DecidableEq

def Confidence.of? (d : Decimal) : Option Confidence :=
  if h : 0 ≤ d.coef ∧ d.coef ≤ 10 ^ d.scale then some ⟨d, h⟩ else none

@[simp] theorem Confidence.of?_value (c : Confidence) : Confidence.of? c.value = some c := by
  simp [of?, c.bounds]

/-- What pydantic takes for a field besides the JSON form of its own type: a number or an instant written
in another way, a flag given as a word. -/
class Coercions where
  float : Json → Option Decimal
  whole : Json → Option Int
  flag : Json → Option Bool
  instant : Json → Option DateTime

/-- Nothing besides. -/
@[reducible] def Coercions.strict : Coercions := ⟨fun _ => none, fun _ => none, fun _ => none, fun _ => none⟩

/-! Reading one value. -/

section

variable [Coercions]

def text : Json → Option String
  | .str s => some s
  | _ => none

def texts : Json → Option (List String)
  | .arr items => items.mapM text
  | _ => none

def float : Json → Option Decimal
  | .num x =>
    match x.toFloat with
    | .float d => some d
    | _ => none
  | v => Coercions.float v

def whole : Json → Option Int
  | .num (.int n) => some n
  | v => Coercions.whole v

def flag : Json → Option Bool
  | .bool b => some b
  | v => Coercions.flag v

def instant (v : Json) : Option DateTime := ((text v).bind DateTime.ofIso).or (Coercions.instant v)

def member (α : Type) [StrEnum α] (v : Json) : Option α := (text v).bind (StrEnum.parse α)

def unit (v : Json) : Option Confidence := (float v).bind Confidence.of?

end

/-! Reading one field. -/

def required (read : Json → Option α) (key : String) (v : Json) : Option α := (v.get? key).bind read

def withDefault (read : Json → Option α) (default : α) (key : String) (v : Json) : Option α :=
  match v.get? key with
  | none => some default
  | some j => read j

/-- `T | None` -/
def optionally (read : Json → Option α) : Json → Option (Option α)
  | .null => some none
  | j => (read j).map some

def orNone (read : Json → Option α) : String → Json → Option (Option α) := withDefault (optionally read) none

/-! Writing one value. -/

def ofText (s : String) : Json := .str s
def ofTexts (items : List String) : Json := .arr (items.map .str)
def ofFloat (d : Decimal) : Json := .num (.float d)
def ofWhole (n : Int) : Json := .num (.int n)
def ofFlag (b : Bool) : Json := .bool b
def ofInstant (t : DateTime) : Json := .str t.iso
def ofMember [StrEnum α] (a : α) : Json := .str (StrEnum.value a)
def ofUnit (c : Confidence) : Json := ofFloat c.value

theorem canonicalItems_texts (items : List String) :
    Json.canonicalItems (items.map .str) = items.map .str := by
  simp only [Json.canonicalItems_eq_map, List.map_map]
  apply List.map_congr_left
  intro s _
  exact Json.canonical_str s

/-! A reader undoes the writer it is paired with, also when the keys were sorted in between. -/

@[simp] theorem text_ofText (s : String) : text (ofText s).canonical = some s := by
  simp [ofText, text]

@[simp] theorem texts_ofTexts (items : List String) : texts (ofTexts items).canonical = some items := by
  simp only [ofTexts, texts, Json.canonical_arr, canonicalItems_texts]
  induction items with
  | nil => rfl
  | cons s items ih => simp [List.map_cons, List.mapM_cons, text, ih]

@[simp] theorem float_ofFloat [Coercions] (d : Decimal) : float (ofFloat d).canonical = some d := by
  simp [ofFloat, float, Num.toFloat]

@[simp] theorem whole_ofWhole [Coercions] (n : Int) : whole (ofWhole n).canonical = some n := by
  simp [ofWhole, whole]

@[simp] theorem flag_ofFlag [Coercions] (b : Bool) : flag (ofFlag b).canonical = some b := by
  simp [ofFlag, flag]

@[simp] theorem instant_ofInstant [Coercions] (t : DateTime) : instant (ofInstant t).canonical = some t := by
  simp [ofInstant, instant, text]

@[simp] theorem member_ofMember {α : Type} [StrEnum α] (a : α) : member α (ofMember a).canonical = some a := by
  simp [ofMember, member, text]

@[simp] theorem unit_ofUnit [Coercions] (c : Confidence) : unit (ofUnit c).canonical = some c := by
  simp [ofUnit, unit, ofFloat, float, Num.toFloat]

theorem required_canonical (read : Json → Option α) (key : String) (v : Json) :
    required read key v.canonical = (v.get? key).bind (fun j => read j.canonical) := by
  cases h : v.get? key with
  | none => simp [required, Json.get?_canonical, h]
  | some j => simp [required, Json.get?_canonical, h]

theorem withDefault_canonical (read : Json → Option α) (default : α) (key : String) (v : Json) :
    withDefault read default key v.canonical = (v.get? key).elim (some default) (fun j => read j.canonical) := by
  cases h : v.get? key with
  | none => simp [withDefault, Json.get?_canonical, h]
  | some j => simp [withDefault, Json.get?_canonical, h]

theorem optionally_ofOption {read : Json → Option α} {write : α → Json} {a : Option α}
    (back : ∀ a, read (write a).canonical = some a) (present : ∀ a, (write a).canonical ≠ .null) :
    optionally read (.canonical (.ofOption write a)) = some a := by
  cases a with
  | none => simp [Json.ofOption, optionally]
  | some a =>
    unfold optionally
    split
    · rename_i null
      exact absurd null (present a)
    · simp [Json.ofOption, back]

@[simp] theorem optionally_text (a : Option String) :
    optionally text (.canonical (.ofOption ofText a)) = some a :=
  optionally_ofOption text_ofText (fun _ => by simp [ofText])

@[simp] theorem optionally_instant [Coercions] (a : Option DateTime) :
    optionally instant (.canonical (.ofOption ofInstant a)) = some a :=
  optionally_ofOption instant_ofInstant (fun _ => by simp [ofInstant])

@[simp] theorem optionally_member {α : Type} [StrEnum α] (a : Option α) :
    optionally (member α) (.canonical (.ofOption ofMember a)) = some a :=
  optionally_ofOption member_ofMember (fun _ => by simp [ofMember])

@[simp] theorem optionally_unit [Coercions] (a : Option Confidence) :
    optionally unit (.canonical (.ofOption ofUnit a)) = some a :=
  optionally_ofOption unit_ofUnit (fun _ => by simp [ofUnit, ofFloat])

end Onmc.Storage

import Mathlib.Data.List.Basic

/-! Python's string methods, over lists of characters where they look inside a string. -/
namespace Onmc

/-- `str.lower()`. Its tables past ASCII are not reproduced: it is a parameter. -/
class Lowercase where
  lower : String → String

/-- `str.lower()` on ASCII text. -/
@[reducible] def Lowercase.ascii : Lowercase := ⟨fun text => String.ofList (text.toList.map Char.toLower)⟩

namespace PyText

/-- `str.isspace()` of one character. -/
def isSpace (c : Char) : Bool :=
  let n := c.toNat
  (9 ≤ n && n ≤ 13) || (28 ≤ n && n ≤ 32) || n == 133 || n == 160 || n == 5760 ||
    (8192 ≤ n && n ≤ 8202) || n == 8232 || n == 8233 || n == 8239 || n == 8287 || n == 12288

def stripChars (cs : List Char) : List Char :=
  ((cs.dropWhile isSpace).reverse.dropWhile isSpace).reverse

/-- `text.strip()` -/
def strip (text : String) : String := String.ofList (stripChars text.toList)

/-- `text.split(c)` -/
def split (c : Char) (text : String) : List String :=
  (text.toList.splitOn c).map String.ofList

/-- The maximal runs of characters that do not separate: `text.split()`, `re.findall("[...]+", text)`
and the nonempty part of `re.split("[...]+", text)`. -/
def runs (sep : Char → Bool) (cs : List Char) : List (List Char) :=
  (cs.splitOnP sep).filter (fun piece => !piece.isEmpty)

/-- `text.split()` -/
def words (text : String) : List String := (runs isSpace text.toList).map String.ofList

/-- `sep.join(parts)` -/
def join (sep : String) (parts : List String) : String := sep.intercalate parts

/-- `needle in text` -/
def contains (text needle : String) : Bool :=
  text.toList.tails.any (fun rest => needle.toList.isPrefixOf rest)

def startsWith (text start : String) : Bool := start.toList.isPrefixOf text.toList

/-- `text[:n]` -/
def first (n : Nat) (text : String) : String := String.ofList (text.toList.take n)

/-- `list(dict.fromkeys(items))` -/
def fromKeys (items : List String) : List String := items.eraseDups

/-! Stripping twice is stripping once. -/

theorem dropWhile_self {p : Char → Bool} {cs : List Char} (h : ∀ c, cs.head? = some c → p c = false) :
    cs.dropWhile p = cs := by
  cases cs with
  | nil => rfl
  | cons c cs => simp [h c rfl]

theorem head_dropWhile {p : Char → Bool} {cs : List Char} {c : Char} (h : (cs.dropWhile p).head? = some c) :
    p c = false := by
  have first := List.head?_dropWhile_not p cs
  simpa [h] using first

theorem stripChars_prefix (cs : List Char) : stripChars cs <+: cs.dropWhile isSpace := by
  simpa only [stripChars, List.reverse_reverse] using
    List.reverse_prefix.mpr (List.dropWhile_suffix (l := (cs.dropWhile isSpace).reverse) isSpace)

theorem stripChars_stripChars (cs : List Char) : stripChars (stripChars cs) = stripChars cs := by
  have start : (stripChars cs).dropWhile isSpace = stripChars cs := by
    apply dropWhile_self
    intro c hc
    apply @head_dropWhile _ cs
    obtain ⟨rest, split⟩ := stripChars_prefix cs
    cases hs : stripChars cs with
    | nil => simp [hs] at hc
    | cons d ds =>
      simp only [hs, List.head?_cons, Option.some.injEq] at hc
      simp [← split, hs, hc]
  have twice (ds : List Char) : (ds.dropWhile isSpace).dropWhile isSpace = ds.dropWhile isSpace :=
    dropWhile_self fun _ => head_dropWhile
  calc stripChars (stripChars cs)
      = ((stripChars cs).reverse.dropWhile isSpace).reverse := by rw [stripChars, start]
    _ = stripChars cs := by simp only [stripChars, List.reverse_reverse, twice]

end PyText
end Onmc

import Mathlib.Data.List.Basic

/-! Regular expressions whose repetitions are over one class of characters, matched from left to right
with the first alternative and the longest repetition first. -/
namespace Regex

inductive Pattern where
  | empty
  /-- At least `least` and at most `most` characters of a class. -/
  | run (accepts : Char → Bool) (least : Nat) (most : Option Nat)
  /-- Between a word character and none. -/
  | boundary
  | seq (first second : Pattern)
  | alt (first second : Pattern)

namespace Pattern

def seqs : List Pattern → Pattern
  | [] => empty
  | p :: ps => seq p (seqs ps)

/-- One of several, which are at least one. -/
def alts : List Pattern → Pattern
  | [] => empty
  | [p] => p
  | p :: ps => alt p (alts ps)

def opt (p : Pattern) : Pattern := alt p empty

def one (accepts : Char → Bool) : Pattern := run accepts 1 (some 1)

/-- The text read so far ends with the first character, what follows is still to come. -/
abbrev Place := Option Char × List Char

/-- The characters after which a repetition may stop, the longest first. -/
def runs (accepts : Char → Bool) (least : Nat) (most : Option Nat) (place : Place) : List Place :=
  let available := (place.2.takeWhile accepts).length
  let longest := match most with
    | some most => min most available
    | none => available
  (((List.range (longest + 1)).filter (fun n => least ≤ n)).reverse).map (fun n =>
    (if n = 0 then place.1 else place.2[n - 1]?, place.2.drop n))

/-- Where a match may end, in the order in which the ends are tried. -/
def ends (isWord : Char → Bool) : Pattern → Place → List Place
  | empty, place => [place]
  | run accepts least most, place => runs accepts least most place
  | boundary, place => if place.1.any isWord != place.2.head?.any isWord then [place] else []
  | seq first second, place => (first.ends isWord place).flatMap (second.ends isWord)
  | alt first second, place => first.ends isWord place ++ second.ends isWord place

/-- The matches in a text, one after another without overlap; no match is empty in what this is used
for. `skip` counts the characters of the last match that are still to come. -/
def findAll (isWord : Char → Bool) (p : Pattern) : Option Char → Nat → List Char → List (List Char)
  | _, _, [] => []
  | _, skip + 1, c :: rest => findAll isWord p (some c) skip rest
  | prev, 0, c :: rest =>
    match (p.ends isWord (prev, c :: rest)).head? with
    | none => findAll isWord p (some c) 0 rest
    | some stop =>
      let n := (c :: rest).length - stop.2.length
      (c :: rest).take n :: findAll isWord p (some c) (n - 1) rest

end Pattern

/-- The interpreter's own matcher, for patterns that are given as text: whether they compile, and whether a text
holds a match, with or without regard to case. -/
class Engine where
  compiles : String → Bool
  search : (ignoreCase : Bool) → (pattern text : String) → Bool

end Regex

import Mathlib.Data.List.Basic

/-! `fnmatch.fnmatchcase`: shell patterns over whole names. -/
namespace Onmc.Fnmatch

inductive Token where
  | star
  | any
  | one (c : Char)
  | set (negated : Bool) (ranges : List (Char × Char))
deriving DecidableEq

/-- The ranges between brackets. A hyphen at either end stands for itself. -/
def ranges : List Char → List (Char × Char)
  | a :: '-' :: b :: cs => (a, b) :: ranges cs
  | c :: cs => (c, c) :: ranges cs
  | [] => []

/-- What a bracket holds, and what follows it; nothing where the bracket is never closed. The first
character inside closes nothing. -/
def bracket (cs : List Char) : Option (Token × List Char) :=
  let (negated, body) := match cs with
    | '!' :: cs => (true, cs)
    | cs => (false, cs)
  let (first, rest) := match body with
    | ']' :: cs => ([']'], cs)
    | cs => ([], cs)
  match rest.dropWhile (· ≠ ']') with
  | _ :: after => some (.set negated (ranges (first ++ rest.takeWhile (· ≠ ']'))), after)
  | [] => none

/-- The tokens of a pattern; each of them takes at least one character of it. -/
def tokensFrom : Nat → List Char → List Token
  | 0, _ | _, [] => []
  | fuel + 1, '*' :: cs => .star :: tokensFrom fuel cs
  | fuel + 1, '?' :: cs => .any :: tokensFrom fuel cs
  | fuel + 1, '[' :: cs =>
    match bracket cs with
    | some (token, after) => token :: tokensFrom fuel after
    | none => .one '[' :: tokensFrom fuel cs
  | fuel + 1, c :: cs => .one c :: tokensFrom fuel cs

def tokens (pattern : String) : List Token := tokensFrom pattern.length pattern.toList

def Token.accepts (c : Char) : Token → Bool
  | star | any => true
  | one d => c == d
  | set negated ranges => negated != ranges.any (fun (a, b) => decide (a ≤ c) && decide (c ≤ b))

def matchTokens : List Token → List Char → Bool
  | [], cs => cs.isEmpty
  | .star :: tokens, cs => cs.tails.any (matchTokens tokens)
  | token :: tokens, c :: cs => token.accepts c && matchTokens tokens cs
  | _ :: _, [] => false

def fnmatch (name pattern : String) : Bool := matchTokens (tokens pattern) name.toList

example : fnmatch "src/[a].py" "*/[[]?].py" = true ∧ fnmatch "b.py" "[!a-c].py" = false := by decide +kernel

end Onmc.Fnmatch

import Mathlib.Data.List.Basic

/-! `shlex.split`: words as a POSIX shell would split them. -/
namespace Onmc.Shlex

/-- What the reader is inside of. -/
inductive Mode where
  | blank
  | word
  | quoted (quote : Char)
  | escaped
  | escapedQuoted

def isBlank (c : Char) : Bool := c == ' ' || c == '\t' || c == '\r' || c == '\n'

def isQuote (c : Char) : Bool := c == '\'' || c == '"'

/-- The words of the rest of the text, with the word begun. -/
def splitFrom : Mode → List Char → List Char → Except String (List String)
  | .blank, _, [] => .ok []
  | .blank, _, c :: cs =>
    if isBlank c then splitFrom .blank [] cs
    else if c = '\\' then splitFrom .escaped [] cs
    else if isQuote c then splitFrom (.quoted c) [] cs
    else splitFrom .word [c] cs
  | .word, token, [] => .ok [String.ofList token]
  | .word, token, c :: cs =>
    if isBlank c then (splitFrom .blank [] cs).map (String.ofList token :: ·)
    else if isQuote c then splitFrom (.quoted c) token cs
    else if c = '\\' then splitFrom .escaped token cs
    else splitFrom .word (token ++ [c]) cs
  | .quoted _, _, [] => .error "No closing quotation"
  | .quoted quote, token, c :: cs =>
    if c = quote then splitFrom .word token cs
    else if c = '\\' ∧ quote = '"' then splitFrom .escapedQuoted token cs
    else splitFrom (.quoted quote) (token ++ [c]) cs
  | .escaped, _, [] | .escapedQuoted, _, [] => .error "No escaped character"
  | .escaped, token, c :: cs => splitFrom .word (token ++ [c]) cs
  | .escapedQuoted, token, c :: cs =>
    splitFrom (.quoted '"') (if c = '\\' ∨ c = '"' then token ++ [c] else token ++ ['\\', c]) cs

def split (text : String) : Except String (List String) := splitFrom .blank [] text.toList

example : split "pytest -k 'a b' \"c\\\"d\" e\\ f" = .ok ["pytest", "-k", "a b", "c\"d", "e f"] := by decide +kernel

end Onmc.Shlex

import Mathlib.Data.List.Sort
import Onmc.Masking
import Onmc.PyText

/-! Secret redaction of the broker, for the strings that the monitor hands it. -/
namespace Onmc.ToolBroker

/-- `\w` of one character. Its tables past ASCII are not reproduced: it is a parameter. -/
class WordChars where
  isWord : Char → Bool

/-- `\w` on ASCII text. -/
@[reducible] def WordChars.ascii : WordChars := ⟨fun c => c.isAlphanum || c = '_'⟩

namespace Redaction

/-- `REDACTED` -/
def redacted : List Char := "[REDACTED]".toList

section Patterns

variable [WordChars]

/-- `\b` between a character and the text after it. -/
def boundary (prev : Option Char) (text : List Char) : Bool :=
  prev.any WordChars.isWord != text.head?.any WordChars.isWord

/-- How many characters of a class the text starts with. -/
def runLength (accepts : Char → Bool) (text : List Char) : Nat := (text.takeWhile accepts).length

/-- `[A-Za-z0-9._~+/=-]` where case is ignored, which lets four more letters in. -/
def bearerChar (c : Char) : Bool :=
  c.isAlphanum || "._~+/=-".toList.contains c || [0x130, 0x131, 0x17F, 0x212A].contains c.toNat

/-- `(?i)\bBearer\s+[A-Za-z0-9._~+/=-]+` -/
def bearer (prev : Option Char) (text : List Char) : Nat :=
  if boundary prev text && (text.take 6).map Char.toLower = "bearer".toList then
    let rest := text.drop 6
    let spaces := runLength PyText.isSpace rest
    let token := runLength bearerChar (rest.drop spaces)
    if spaces = 0 ∨ token = 0 then 0 else 6 + spaces + token
  else 0

/-- `\bAKIA[0-9A-Z]{16}\b` -/
def accessKey (prev : Option Char) (text : List Char) : Nat :=
  let key := (text.drop 4).take 16
  if boundary prev text && "AKIA".toList.isPrefixOf text && key.length = 16 &&
      key.all (fun c => c.isDigit || c.isUpper) && boundary key.getLast? (text.drop 20) then 20
  else 0

/-- `\bgh[oprsu]_[A-Za-z0-9]{20,}\b`: no shorter run of these characters ends at a word boundary. -/
def githubToken (prev : Option Char) (text : List Char) : Nat :=
  let token := runLength Char.isAlphanum (text.drop 4)
  if boundary prev text && "gh".toList.isPrefixOf text && (text[2]?).any "oprsu".toList.contains &&
      text[3]? = some '_' && 20 ≤ token && boundary text[3 + token]? (text.drop (4 + token)) then 4 + token
  else 0

/-- `\bsk-[A-Za-z0-9_-]{16,}\b`: the longest run that ends at a word boundary. -/
def secretKey (prev : Option Char) (text : List Char) : Nat :=
  let rest := text.drop 3
  let run := runLength (fun c => c.isAlphanum || c = '_' || c = '-') rest
  if boundary prev text && "sk-".toList.isPrefixOf text then
    match (List.range (run + 1)).reverse.find?
        (fun n => 16 ≤ n && boundary rest[n - 1]? (rest.drop n)) with
    | some n => 3 + n
    | none => 0
  else 0

/-- `_VALUE_PATTERNS` -/
def valuePatterns : List (Option Char → List Char → Nat) := [bearer, accessKey, githubToken, secretKey]

end Patterns

/-- What `redact_secrets` makes of its `secret_values`: the nonempty ones, the longest first. -/
def orderedSecrets (secretValues : List String) : List (List Char) :=
  ((secretValues.map String.toList).filter (fun secret => secret ≠ [])).insertionSort
    (fun a b => b.length ≤ a.length)

def maskAll (matchers : List (Option Char → List Char → Nat)) (text : List Char) : List Char :=
  matchers.foldl (fun text matchAt => Masking.mask matchAt redacted none 0 text) text

/-- `redact_secrets` of a string: the known values, then the common token forms. -/
def redactSecrets [WordChars] (secretValues : List String) (value : String) : String :=
  String.ofList (maskAll ((orderedSecrets secretValues).map Masking.literal ++ valuePatterns) value.toList)

theorem infix_of_maskAll {word : List Char} (apart : Masking.Apart word redacted)
    (matchers : List (Option Char → List Char → Nat)) {text : List Char}
    (found : word <:+: maskAll matchers text) : word <:+: text := by
  induction matchers generalizing text with
  | nil => exact found
  | cons matchAt matchers ih => exact Masking.infix_of_mask apart matchAt (ih found)

theorem not_infix_maskAll {word : List Char} (apart : Masking.Apart word redacted)
    {matchers : List (Option Char → List Char → Nat)} (among : Masking.literal word ∈ matchers)
    (text : List Char) : ¬word <:+: maskAll matchers text := by
  obtain ⟨before, after, rfl⟩ := List.append_of_mem among
  intro found
  rw [maskAll, List.foldl_append, List.foldl_cons] at found
  exact Masking.not_infix_mask_literal apart _ (infix_of_maskAll apart after found)

/-- A secret that the marker itself cannot spell is not in what is left of a text. -/
theorem not_infix_redactSecrets [WordChars] {secretValues : List String} {secret : String}
    (known : secret ∈ secretValues) (apart : Masking.Apart secret.toList redacted) (value : String) :
    ¬secret.toList <:+: (redactSecrets secretValues value).toList := by
  have ordered : secret.toList ∈ orderedSecrets secretValues := by
    rw [orderedSecrets, List.mem_insertionSort, List.mem_filter]
    exact ⟨List.mem_map_of_mem known, by simpa using apart.nonempty⟩
  rw [redactSecrets, String.toList_ofList]
  exact not_infix_maskAll apart (List.mem_append_left _ (List.mem_map_of_mem ordered)) _

end Redaction

end Onmc.ToolBroker

import Onmc.JsonText
import Onmc.Lines
import Onmc.Regex
import Onmc.ToolBroker.Redaction
import Onmc.UnifiedDiff

/-! The verification of a diff: what its added lines are taken to be, and the checks on them. -/
namespace Onmc.VerifyDiff

open UnifiedDiff (AddedLine)

structure DiffFinding where
  rule : String
  ok : Bool
  detail : String
  deriving DecidableEq

structure StructuralResult where
  changed : Bool
  tool : String
  detail : String

structure VerifyReport where
  findings : List DiffFinding
  ok : Bool

/-! Parsing. -/

/-- `(?:,\d+)?` at the start of a text: what may be left. -/
def skipCount : List Char → List Char
  | ',' :: rest =>
    match Json.digitsOf rest with
    | ([], _) => ',' :: rest
    | (_, rest) => rest
  | rest => rest

/-- `_HUNK_RE.match(raw)`, and its group as a number. -/
def hunkStart (raw : String) : Option Nat :=
  match raw.toList with
  | '@' :: '@' :: ' ' :: '-' :: rest =>
    match Json.digitsOf rest with
    | ([], _) => none
    | (_, rest) =>
      match skipCount rest with
      | ' ' :: '+' :: rest =>
        match Json.digitsOf rest with
        | ([], _) => none
        | (digits, rest) =>
          match skipCount rest with
          | ' ' :: '@' :: '@' :: _ => some (Nat.ofDigitChars 10 digits 0)
          | _ => none
      | _ => none
  | _ => none

/-- `(.+?)\s*$` -/
def lazyName (cs : List Char) : Option (List Char) :=
  match cs with
  | [] => none
  | c :: _ =>
    let name := (cs.reverse.dropWhile PyText.isSpace).reverse
    some (if name.isEmpty then [c] else name)

/-- The group of `_PLUS_FILE_RE.match(raw)`. -/
def plusName (raw : String) : Option String :=
  match raw.toList with
  | '+' :: '+' :: '+' :: ' ' :: 'b' :: '/' :: rest => ((lazyName rest).or (lazyName ('b' :: '/' :: rest))).map String.ofList
  | '+' :: '+' :: '+' :: ' ' :: rest => (lazyName rest).map String.ofList
  | _ => none

/-- `current_file` after a line with `+++`. -/
def plusFile (raw : String) : String :=
  match plusName raw with
  | none => ""
  | some name => if name = "/dev/null" then "" else name

/-- `current_file` and `new_lineno` -/
structure Cursor where
  file : String
  lineno : Nat

/-- One turn of the loop of `_parse_added_lines`. -/
def readRaw (c : Cursor) (raw : String) : Cursor × List AddedLine :=
  if PyText.startsWith raw "+++" then ({ c with file := plusFile raw }, [])
  else if PyText.startsWith raw "---" then (c, [])
  else
    match hunkStart raw with
    | some n => ({ c with lineno := n }, [])
    | none =>
      if PyText.startsWith raw "+" then
        ({ c with lineno := c.lineno + 1 }, [⟨c.file, c.lineno, String.ofList (raw.toList.drop 1)⟩])
      else if PyText.startsWith raw "-" then (c, [])
      else if c.lineno = 0 then (c, [])
      else ({ c with lineno := c.lineno + 1 }, [])

def readRaws : Cursor → List String → Cursor × List AddedLine
  | c, [] => (c, [])
  | c, raw :: rest =>
    let (c, first) := readRaw c raw
    let (c, others) := readRaws c rest
    (c, first ++ others)

def parseAddedLines (diffText : String) : List AddedLine := (readRaws ⟨"", 0⟩ (Lines.splitlines diffText)).2

/-! The checks. -/

def checkNonEmpty (diffText : String) (added : List AddedLine) : DiffFinding :=
  if PyText.strip diffText ≠ "" ∧ added ≠ [] then
    ⟨"non-empty", true, toString added.length ++ " added line(s) across the diff."⟩
  else
    ⟨"non-empty", false, "Diff is empty — no lines were added.  A passing test suite over an " ++
      "empty change is the false-converge bug this gate exists to catch."⟩

def checkStructural (diffText : String) (runner : Option (String → StructuralResult)) : DiffFinding :=
  match runner with
  | none => ⟨"structural", true, "No structural-diff tool selected — structural check skipped (soft note)."⟩
  | some runner =>
    let result := runner diffText
    let seen := result.tool ++ ": " ++ result.detail
    ⟨"structural", result.changed,
      if result.changed then seen
      else seen ++ " — the change is formatting noise only " ++
        "(no structural/AST difference), a false-converge this gate rejects."⟩

def checkSymbols (added : List AddedLine) (expectSymbols : List String) : List DiffFinding :=
  let addedText := PyText.join "\n" (added.map AddedLine.text)
  expectSymbols.map (fun symbol =>
    let present := PyText.contains addedText symbol
    ⟨"symbol:" ++ symbol, present,
      "Expected symbol `" ++ symbol ++ if present then "` found in added lines." else "` missing from added lines."⟩)

def checkFiles (added : List AddedLine) (expectFiles : List String) : List DiffFinding :=
  let touched := (added.map AddedLine.file).filter (fun file => file ≠ "")
  expectFiles.map (fun rel =>
    let present := touched.contains rel
    ⟨"file:" ++ rel, present,
      "Expected file `" ++ rel ++ if present then "` has added lines." else "` has no added lines in the diff."⟩)

/-- The lines of each file that the tests exercise. -/
abbrev Coverage := List (String × List Nat)

/-- `f"{line.file}:{line.lineno}"` -/
def location (line : AddedLine) : String := line.file ++ ":" ++ toString line.lineno

/-- The place of a hit; a line without a file has its number alone. -/
def place (line : AddedLine) : String := if line.file = "" then "line " ++ toString line.lineno else location line

section

variable [ToolBroker.WordChars]

/-- `str.isalnum()` of one character: what `\w` accepts besides the underscore. -/
def isAlnum (c : Char) : Bool := ToolBroker.WordChars.isWord c && c != '_'

def isCoverable (text : String) : Bool :=
  let stripped := PyText.strip text
  stripped ≠ "" && !PyText.startsWith stripped "#" && stripped.toList.any isAlnum

def isCovered (coverage : Coverage) (line : AddedLine) : Bool :=
  (coverage.lookup line.file).any (fun covered => covered.contains line.lineno)

def uncovered (added : List AddedLine) (coverage : Coverage) : List AddedLine :=
  added.filter (fun line => line.file ≠ "" && isCoverable line.text && !isCovered coverage line)

def checkCoverage (added : List AddedLine) (coverage : Option Coverage) : DiffFinding :=
  match coverage with
  | none => ⟨"coverage", true, "No coverage data supplied — coverage check skipped (soft note)."⟩
  | some coverage =>
    let missing := uncovered added coverage
    if missing = [] then ⟨"coverage", true, "All added executable lines are covered."⟩
    else
      let sample := PyText.join ", " ((missing.take 5).map location)
      let suffix := if missing.length ≤ 5 then "" else " (+" ++ toString (missing.length - 5) ++ " more)"
      ⟨"coverage", false, toString missing.length ++ " added line(s) not covered by tests: " ++ sample ++ suffix ++ "."⟩

end

/-- `_DEFAULT_BANNED` -/
def defaultBanned : List String := ["TODO: remove before merge", "DO NOT COMMIT", "<<<<<<<", ">>>>>>>"]

/-- `_SECRET_PATTERNS` of the audit, each with its rule and its title. -/
def secretPatterns : List (String × String × String) := [
  ("SECRET-001", "Possible AWS access key ID", "AKIA[0-9A-Z]\x7b16\x7d"),
  ("SECRET-002", "Private key PEM block", "-----BEGIN (?:RSA |EC |DSA |OPENSSH |)?PRIVATE KEY-----"),
  ("SECRET-003", "Hardcoded credential assignment",
    "(?i)(?:api[_\\-]?key|secret|token|password)\\s*[:=]\\s*['\"][^'\"]\x7b12,\x7d['\"]"),
  ("SECRET-004", "Possible OAuth / service token",
    "(?:ghp_|ghs_|github_pat_|xoxb-|xoxa-|xoxp-|sk-[A-Za-z0-9]\x7b20,\x7d)[A-Za-z0-9_\\-]\x7b6,\x7d")]

/-- `"; ".join(hits[:5])` behind what they are, or that there are none. -/
def hitsFinding (rule clear found : String) (hits : List String) : DiffFinding :=
  ⟨rule, hits.isEmpty, if hits.isEmpty then clear else found ++ PyText.join "; " (hits.take 5) ++ "."⟩

section

variable [Lowercase]

def holdsBanned (pattern : String) (line : AddedLine) : Bool :=
  PyText.contains (Lowercase.lower line.text) (Lowercase.lower pattern)

def bannedHits (added : List AddedLine) (bannedPatterns : List String) : List String :=
  added.flatMap (fun line => ((defaultBanned ++ bannedPatterns).filter (holdsBanned · line)).map (fun pattern =>
    "`" ++ pattern ++ "` at " ++ place line))

variable [Regex.Engine]

/-- `re.search(pattern, line.text)` -/
def holdsSecret (pattern : String) (line : AddedLine) : Bool := Regex.Engine.search false pattern line.text

def secretHits (added : List AddedLine) : List String :=
  added.flatMap (fun line => (secretPatterns.filter (fun (_, _, pattern) => holdsSecret pattern line)).map
    (fun (ruleId, title, _) => ruleId ++ " (" ++ title ++ ") at " ++ place line))

def checkLawful (added : List AddedLine) (bannedPatterns : List String) : List DiffFinding := [
  hitsFinding "lawful:banned" "No banned substrings in added lines." "Banned substring(s) in added lines: "
    (bannedHits added bannedPatterns),
  hitsFinding "lawful:secret" "No secret/credential patterns in added lines." "Secret pattern(s) in added lines: "
    (secretHits added)]

/-- The options of `verify_diff`. -/
structure Options where
  coverage : Option Coverage
  expectSymbols : List String
  expectFiles : List String
  bannedPatterns : List String
  structuralRunner : Option (String → StructuralResult)

variable [ToolBroker.WordChars]

def verifyDiff (diffText : String) (o : Options) : VerifyReport :=
  let added := parseAddedLines diffText
  let findings := [checkNonEmpty diffText added, checkStructural diffText o.structuralRunner] ++
    checkSymbols added o.expectSymbols ++ checkFiles added o.expectFiles ++ [checkCoverage added o.coverage] ++
    checkLawful added o.bannedPatterns
  ⟨findings, findings.all DiffFinding.ok⟩

end

end Onmc.VerifyDiff

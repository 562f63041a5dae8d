import Onmc.DurableRuntime.Models
import Onmc.WorkingContext.Models

/-! Source anchors: which files a memory points at, their content hashes, and whether they are still
what the memory was written against. -/
namespace Onmc.WorkingContext

def maxFiles : Nat := 16
def maxSources : Nat := 64

/-- The token without `:line` or `:line:column` at its end. -/
def withoutLine (token : List Char) : List Char :=
  let drop (cs : List Char) : Option (List Char) :=
    match cs.dropWhile Char.isDigit with
    | ':' :: rest => if cs.takeWhile Char.isDigit = [] then none else some rest
    | _ => none
  match drop token.reverse with
  | none => token
  | some rest => ((drop rest).getD rest).reverse

def isAsciiLetter (c : Char) : Bool := ('a' ≤ c && c ≤ 'z') || ('A' ≤ c && c ≤ 'Z')

/-- `re.fullmatch(r"[A-Za-z_][A-Za-z0-9_-]*:[A-Za-z0-9_:-]+", token)` -/
def opaqueId (token : List Char) : Bool :=
  let name (c : Char) : Bool := isAsciiLetter c || c.isDigit || c == '_' || c == '-'
  match token.span (fun c => c != ':') with
  | (c :: cs, _ :: rest) =>
    (isAsciiLetter c || c == '_') && cs.all name && !rest.isEmpty && rest.all (fun d => name d || d == ':')
  | _ => false

/-- One token of a source reference, when it names a file. -/
def fileReference (piece : String) : Option String :=
  let token := String.ofList (withoutLine (PyText.strip piece).toList)
  if token ∈ ["manual", "repo_tree", "unknown", ""] then none
  else if ["manual:", "http:", "https:"].any (PyText.startsWith token) then none
  else if opaqueId token.toList then none
  else some token

def fileReferences (sourceRef : String) : Outcome (List String) :=
  if PyText.startsWith sourceRef "unpromoted:" then .ok []
  else
    let references := (PyText.split '|' sourceRef).filterMap fileReference
    if maxFiles < references.length then valueError "Too many source anchors" else .ok references

/-- `Path(value).parts` without the root. -/
def pathParts (value : String) : List String :=
  (PyText.split '/' value).filter (fun part => part ≠ "" ∧ part ≠ ".")

def asPosix (parts : List String) : String := if parts = [] then "." else PyText.join "/" parts

def nulChar : Char := Char.ofNat 0

/-- `_relative` -/
def relative (w : World) (value : String) : Outcome String := do
  raiseIf (value = "" ∨ nulChar ∈ value.toList ∨ '\\' ∈ value.toList) "Invalid repository path"
  raiseIf (".." ∈ pathParts value) "Path traversal is not an evidence anchor"
  match w.resolve value with
  | none => valueError "Evidence anchors must stay inside the repository"
  | some parts =>
    raiseIf (parts = [] ∨ ".git" ∈ parts ∨ ".onmc" ∈ parts)
      "Repository metadata cannot be an evidence anchor"
    return asPosix parts

def anchorPaths (w : World) (sourceRef : String) : Outcome (List String) := do
  let paths ← (← fileReferences sourceRef).mapM (relative w)
  return PyText.fromKeys paths

def hashFile (w : World) (path : String) : Outcome String :=
  match w.file path with
  | .missing => valueError ("Source missing or not a file: " ++ path)
  | .oversized => valueError ("Source exceeds 2 MiB hash limit: " ++ path)
  | .unreadable message => .error ⟨.osError, message⟩
  | .content digest => .ok digest

/-- The loop of `_hash_files` over one packet's cache, which keeps what was hashed before an error. -/
def hashFilesFrom (w : World) (cache result : List (String × String)) :
    List String → List (String × String) × Outcome (List (String × String))
  | [] => (cache, .ok result)
  | value :: values =>
    match relative w value with
    | .error e => (cache, .error e)
    | .ok path =>
      match cache.lookup path with
      | some digest => hashFilesFrom w cache (Dict.setItem path digest result) values
      | none =>
        if maxSources ≤ cache.length then (cache, valueError "Packet source hash budget exhausted")
        else match hashFile w path with
        | .error e => (cache, .error e)
        | .ok digest =>
          hashFilesFrom w (Dict.setItem path digest cache) (Dict.setItem path digest result) values

/-- `_hash_files` with a cache -/
def hashFiles (w : World) (cache : List (String × String)) (paths : List String) :
    List (String × String) × Outcome (List (String × String)) :=
  if maxFiles < paths.length then (cache, valueError "At most 16 file anchors are supported")
  else hashFilesFrom w cache [] paths

/-- `_hash_files` without a cache -/
def hashAnchors (w : World) (paths : List String) : Outcome (List (String × String)) := do
  raiseIf (maxFiles < paths.length) "At most 16 file anchors are supported"
  paths.foldlM (fun result value => do
    let path ← relative w value
    return Dict.setItem path (← hashFile w path) result) []

/-- `_initial_source_fresh`: clean tracked sources older than the memory. -/
def initialSourceFresh (w : World) (memory : MemoryEntry) (paths : List String) : Bool :=
  paths.all (fun path =>
    match w.committed path with
    | none => false
    | some version => version ≤ memory.updatedAt)

def markedStale (memory : MemoryEntry) : Bool :=
  memory.staleness = some .stale ∨ memory.staleness = some .orphaned

/-- What the freshness checks of one packet have gathered. -/
structure Checks where
  bindings : List (String × AnchorBinding)
  hashes : List (String × String)

variable [Sha256]

def memoryDigest (memory : MemoryEntry) : String := Sha256.hexdigest memory.dump

/-- `_freshness`: the label of the memory's sources, or why it is rejected. -/
def freshness (w : World) (checks : Checks) (memory : MemoryEntry) :
    Outcome (Checks × String × Option String) :=
  match anchorPaths w memory.sourceRef with
  | .error e => .ok (checks, "unknown", some ("source_unavailable: " ++ e.message))
  | .ok [] =>
    if markedStale memory then .ok (checks, "unknown", some "marked_stale")
    else .ok (checks, "unanchored", none)
  | .ok paths =>
    match hashFiles w checks.hashes paths with
    | (hashes, .error e) =>
      .ok ({ checks with hashes }, "unknown", some ("source_unavailable: " ++ e.message))
    | (hashes, .ok files) =>
      let checks := { checks with hashes }
      let digest := memoryDigest memory
      let current (binding : AnchorBinding) : Bool :=
        binding.memoryDigest = digest && Dict.same binding.files files
      match w.acknowledged memory.id with
      | none => .error ⟨.validationError, "validation error for AnchorBinding"⟩
      | some explicit =>
        match explicit.filter current with
        | some acknowledged =>
          .ok ({ checks with bindings := Dict.setItem memory.id acknowledged checks.bindings },
            "acknowledged", none)
        | none =>
          match (checks.bindings.lookup memory.id).filter (fun binding => binding.memoryDigest = digest) with
          | some binding =>
            if Dict.same binding.files files then .ok (checks, "unchanged", none)
            else .ok (checks, "changed", some "source_changed")
          | none =>
            if markedStale memory then .ok (checks, "unknown", some "marked_stale")
            else if initialSourceFresh w memory paths = false then
              .ok (checks, "unknown", some "source_unverified")
            else
              .ok ({ checks with bindings := Dict.setItem memory.id ⟨digest, files⟩ checks.bindings },
                "unchanged", none)

end Onmc.WorkingContext

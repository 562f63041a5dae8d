import Mathlib.Data.Rat.Defs
import Onmc.Dict
import Onmc.PyText
import Onmc.JsonText

/-! Versioned working-state and context-delivery contracts. -/
namespace Onmc.WorkingContext

inductive ErrorKind where
  | valueError | validationError | osError
deriving DecidableEq

structure Raised where
  kind : ErrorKind
  message : String
deriving DecidableEq

abbrev Outcome := Except Raised

def valueError (message : String) : Outcome α := .error ⟨.valueError, message⟩

def raiseIf (condition : Prop) [Decidable condition] (message : String) : Outcome Unit :=
  if condition then valueError message else .ok ()

inductive NoteKind where
  | decision | hypothesis | nextStep
deriving DecidableEq

def NoteKind.value : NoteKind → String
  | decision => "decision"
  | hypothesis => "hypothesis"
  | nextStep => "next_step"

structure WorkingConfig where
  enabled : Bool
  budgetChars : Nat
  constraints : List String
  inRange : 1000 ≤ budgetChars ∧ budgetChars ≤ 32000

structure AnchorBinding where
  memoryDigest : String
  files : List (String × String)

structure WorkingNote where
  id : String
  kind : NoteKind
  text : String
  anchors : List (String × String)

/-- `sys.maxsize`: no Python list is longer. -/
def maxSize : Nat := 2 ^ 63 - 1

structure WorkingSession where
  sessionId : String
  goal : String
  constraints : List String
  focus : String
  activeFiles : List String
  notes : List WorkingNote
  prunedNotes : Nat
  revision : Nat
  bindings : List (String × AnchorBinding)
  lastSelected : List String
  lastFingerprint : String
  withdrawals : List (String × String)
  notesFit : notes.length ≤ maxSize

/-- `WorkingSession(session_id=..., goal=..., constraints=..., revision=...)` with the defaults. -/
def WorkingSession.fresh (sessionId goal : String) (constraints : List String) (revision : Nat) : WorkingSession where
  sessionId := sessionId
  goal := goal
  constraints := constraints
  focus := ""
  activeFiles := []
  notes := []
  prunedNotes := 0
  revision := revision
  bindings := []
  lastSelected := []
  lastFingerprint := ""
  withdrawals := []
  notesFit := Nat.zero_le _

structure ContextItem where
  id : String
  kind : String
  text : String
  source : String
  freshness : String
  score : ℚ
  reason : String

structure ContextPacket where
  sessionId : String
  revision : Nat
  markdown : String
  injection : String
  changed : Bool
  budgetChars : Nat
  usedChars : Nat
  estimatedTokens : Nat
  selected : List ContextItem
  excluded : List (String × String)
  withdrawn : List String
  warnings : List String

/-! What the engine reads around it. -/

inductive Staleness where
  | fresh | stale | orphaned | unanchored
deriving DecidableEq

/-- A row of the memory store, with its `model_dump_json()`. Times are microseconds; floats are
exact. -/
structure MemoryEntry where
  id : String
  kind : String
  title : String
  summary : String
  sourceRef : String
  tags : List String
  confidence : ℚ
  feedbackScore : ℚ
  updatedAt : Int
  staleness : Option Staleness
  quarantined : Bool
  dump : String

inductive EdgeType where
  | supersedes | contradicts | relates | duplicateOf
deriving DecidableEq

def EdgeType.value : EdgeType → String
  | supersedes => "supersedes"
  | contradicts => "contradicts"
  | relates => "relates"
  | duplicateOf => "duplicate_of"

structure MemoryEdge where
  fromId : String
  toId : String
  edgeType : EdgeType
  confidence : ℚ

/-- What hashing a path finds. -/
inductive SourceFile where
  | missing
  | oversized
  | unreadable (message : String)
  | content (digest : String)

/-- The repository, the memory store and the switches, as one call finds them. -/
structure World where
  /-- The stored configuration; `none` does not validate. -/
  config : Option WorkingConfig
  learningEnabled : Bool
  /-- The parts of the repository's own path. -/
  repoRoot : List String
  /-- The parts of `(repo_root / path).resolve()` below the repository, `none` outside it. -/
  resolve : String → Option (List String)
  file : String → SourceFile
  /-- The time of the last commit of a path whose content is the committed one, when Git says so in
  time. -/
  committed : String → Option Int
  memories : List MemoryEntry
  edges : List MemoryEdge
  /-- The ids the full-text search ranks for a query. -/
  search : String → List String
  /-- The acknowledged sources of a memory; the outer `none` does not validate. -/
  acknowledged : String → Option (Option AnchorBinding)

/-- `storage.get_memory` -/
def World.getMemory (w : World) (id : String) : Option MemoryEntry := w.memories.find? (fun m => m.id = id)

end Onmc.WorkingContext

import Mathlib.Data.List.Sort
import Onmc.Storage.Rows

/-! The store: its tables with their keys and foreign keys, and the operations on them. An operation that
raises is rolled back; here it gives nothing. -/
namespace Onmc.Storage

open Table (Setter)

structure Store where
  memories : Table String MemoryRow MemoryRow.id
  tasks : Table String TaskRow TaskRow.taskId
  attempts : Table String AttemptRow AttemptRow.attemptId
  memoryArtifacts : Table String MemoryArtifactRow MemoryArtifactRow.memoryId
  skills : Table String SkillRow SkillRow.id
  attemptTask : ∀ a ∈ attempts.rows, tasks.find a.taskId ≠ none
  artifactTask : ∀ a ∈ memoryArtifacts.rows, tasks.find a.taskId ≠ none

namespace Store

def empty : Store := ⟨.empty, .empty, .empty, .empty, .empty, nofun, nofun⟩

/-! Memories. -/

def upsertMemory (s : Store) (entry : MemoryEntry) : Store :=
  { s with memories := s.memories.upsert (memoryRow entry) (conflictSet entry) }

def upsertMemories (s : Store) (entries : List MemoryEntry) : Store := entries.foldl upsertMemory s

/-- Nothing when the row is unreadable. -/
def getMemory (s : Store) (id : String) : Option (Option MemoryEntry) :=
  match s.memories.find id with
  | none => some none
  | some row => (rowToMemory row).map some

/-- `ORDER BY updated_at DESC, title ASC` -/
def memoryOrder (a b : MemoryRow) : Prop := b.updatedAt < a.updatedAt ∨ (a.updatedAt = b.updatedAt ∧ a.title ≤ b.title)

instance : DecidableRel memoryOrder := fun a b => by unfold memoryOrder; infer_instance

def listMemories (s : Store) : Option (List MemoryEntry) :=
  (s.memories.rows.insertionSort memoryOrder).mapM rowToMemory

def updateMemory (s : Store) (memory : MemoryEntry) : Store :=
  { s with memories := s.memories.update memory.id (memorySet memory) }

def stalenessSet (staleness verifiedAt : String) : Setter MemoryRow.id where
  set old := { old with staleness := some staleness, lastVerifiedAt := some verifiedAt }
  keeps _ := rfl

def setMemoryStaleness (s : Store) (memoryId staleness verifiedAt : String) : Store :=
  { s with memories := s.memories.update memoryId (stalenessSet staleness verifiedAt) }

def protectedSource (row : MemoryRow) : Bool :=
  row.sourceType = StrEnum.value SourceType.manual || row.sourceType = StrEnum.value SourceType.manualSeed

def deleteOrphanedGeneratedMemories (s : Store) : Store :=
  { s with memories := s.memories.keep fun row =>
      !(row.staleness = some (StrEnum.value StalenessLabel.orphaned) && !protectedSource row) }

/-- The source references each once, as `dict.fromkeys` leaves them: deleting twice is deleting once. -/
def deleteGeneratedMemoriesBySourceRefs (s : Store) (sourceRefs : List String) : Store :=
  { s with memories := s.memories.keep fun row => !(!protectedSource row && sourceRefs.contains row.sourceRef) }

/-! Tasks. -/

def createTask (s : Store) (task : TaskRecord) : Option Store :=
  if fresh : s.tasks.find (taskRow task).taskId = none then
    some { s with
      tasks := s.tasks.insert (taskRow task) fresh
      attemptTask := fun a ha => Table.find_insert_present (s.attemptTask a ha) _ fresh
      artifactTask := fun a ha => Table.find_insert_present (s.artifactTask a ha) _ fresh }
  else none

def updateTask (s : Store) (task : TaskRecord) : Store :=
  { s with
    tasks := s.tasks.update task.taskId (taskSet task)
    attemptTask := fun a ha => Table.find_update_present (s.attemptTask a ha) _ _
    artifactTask := fun a ha => Table.find_update_present (s.artifactTask a ha) _ _ }

def getTask (s : Store) (taskId : String) : Option (Option TaskRecord) :=
  match s.tasks.find taskId with
  | none => some none
  | some row => (rowToTask row).map some

def statusRank : String → Nat
  | "active" => 0
  | "blocked" => 1
  | "open" => 2
  | "solved" => 3
  | _ => 4

/-- `ORDER BY CASE status … END, rowid DESC` -/
def listTasks (s : Store) : Option (List TaskRecord) :=
  (s.tasks.rows.reverse.insertionSort (fun a b => statusRank a.status ≤ statusRank b.status)).mapM rowToTask

/-! Attempts. -/

def createAttempt (s : Store) (attempt : AttemptRecord) : Option Store :=
  if h : s.attempts.find (attemptRow attempt).attemptId = none ∧ s.tasks.find attempt.taskId ≠ none then
    some { s with
      attempts := s.attempts.insert (attemptRow attempt) h.1
      attemptTask := by
        intro a ha
        rcases List.mem_append.mp ha with ha | ha
        · exact s.attemptTask a ha
        · rw [List.mem_singleton.mp ha]
          exact h.2 }
  else none

def updateAttempt (s : Store) (attempt : AttemptRecord) : Option Store :=
  if h : s.attempts.find attempt.attemptId = none ∨ s.tasks.find attempt.taskId ≠ none then
    some { s with
      attempts := s.attempts.update attempt.attemptId (attemptSet attempt)
      attemptTask := Table.forall_update s.attemptTask fun old found same => by
        rcases h with missing | known
        · exact absurd (Table.find_iff.mpr ⟨found, same⟩) (by simp [missing])
        · exact known }
  else none

def getAttempt (s : Store) (attemptId : String) : Option (Option AttemptRecord) :=
  match s.attempts.find attemptId with
  | none => some none
  | some row => (rowToAttempt row).map some

/-- `ORDER BY created_at DESC, rowid DESC` -/
def listAttemptsForTask (s : Store) (taskId : String) : Option (List AttemptRecord) :=
  ((s.attempts.rows.filter (fun row => row.taskId = taskId)).reverse.insertionSort
    (fun a b => b.createdAt ≤ a.createdAt)).mapM rowToAttempt

/-! Memory artifacts. -/

def createMemoryArtifact (s : Store) (artifact : MemoryArtifactRecord) : Option Store :=
  if h : s.memoryArtifacts.find (memoryArtifactRow artifact).memoryId = none ∧ s.tasks.find artifact.taskId ≠ none then
    some { s with
      memoryArtifacts := s.memoryArtifacts.insert (memoryArtifactRow artifact) h.1
      artifactTask := by
        intro a ha
        rcases List.mem_append.mp ha with ha | ha
        · exact s.artifactTask a ha
        · rw [List.mem_singleton.mp ha]
          exact h.2 }
  else none

def updateMemoryArtifact (s : Store) (artifact : MemoryArtifactRecord) : Option Store :=
  if h : s.memoryArtifacts.find artifact.memoryId = none ∨ s.tasks.find artifact.taskId ≠ none then
    some { s with
      memoryArtifacts := s.memoryArtifacts.update artifact.memoryId (memoryArtifactSet artifact)
      artifactTask := Table.forall_update s.artifactTask fun old found same => by
        rcases h with missing | known
        · exact absurd (Table.find_iff.mpr ⟨found, same⟩) (by simp [missing])
        · exact known }
  else none

def getMemoryArtifact (s : Store) (memoryId : String) : Option (Option MemoryArtifactRecord) :=
  match s.memoryArtifacts.find memoryId with
  | none => some none
  | some row => (rowToMemoryArtifact row).map some

def listMemoryArtifactsForTask (s : Store) (taskId : String) : Option (List MemoryArtifactRecord) :=
  ((s.memoryArtifacts.rows.filter (fun row => row.taskId = taskId)).reverse.insertionSort
    (fun a b => b.createdAt ≤ a.createdAt)).mapM rowToMemoryArtifact

/-! Skills. -/

def addSkill (s : Store) (skill : Skill) : Option Store :=
  if fresh : s.skills.find (skillRow skill).id = none then some { s with skills := s.skills.insert (skillRow skill) fresh }
  else none

def updateSkill (s : Store) (skill : Skill) : Option Store :=
  if s.skills.find skill.id = none then none
  else some { s with skills := s.skills.update skill.id (skillSet skill) }

def getSkill (s : Store) (skillId : String) : Option (Option Skill) :=
  match s.skills.find skillId with
  | none => some none
  | some row => (rowToSkill row).map some

/-- `ORDER BY confidence DESC, name ASC` -/
def skillOrder (a b : SkillRow) : Prop :=
  b.confidence.lt a.confidence = true ∨ (a.confidence.lt b.confidence = false ∧ a.name ≤ b.name)

instance : DecidableRel skillOrder := fun a b => by unfold skillOrder; infer_instance

def listSkills (s : Store) : Option (List Skill) := (s.skills.rows.insertionSort skillOrder).mapM rowToSkill

end Store
end Onmc.Storage

import Onmc.Storage.Sqlite

/-! The `.agent-memory/` directory: its files and the records in them. -/
namespace Onmc.Sync

open Onmc.Storage

/-- What is in a file: its text, or nothing when its bytes are not UTF-8. -/
abbrev Content := Option String

/-- The files below a directory by their paths from there. -/
abbrev Folder := Table (List String) (List String × Content) Prod.fst

/-- A folder is nothing when it does not exist. -/
structure Directory where
  manifest : Option Content
  memories : Option Folder
  tasks : Option Folder
  skills : Option Folder

/-- `name` matches `*.json`. -/
def isJson (name : String) : Bool := ".json".toList.isSuffixOf name.toList

/-- `sorted(folder.glob("*/…/*.json"))` with `depth` parts. -/
def globJson (depth : Nat) : Option Folder → List (List String × Content)
  | none => []
  | some folder =>
    (folder.rows.filter (fun file => file.1.length = depth && file.1.getLast?.any isJson)).insertionSort
      (fun a b => a.1 ≤ b.1)

/-- `json.loads(path.read_text(encoding="utf-8"))` -/
def readJson (content : Content) : Option Json := content.bind Json.loads

/-- A list of records. -/
def listOf (load : Json → Option α) : Json → Option (List α)
  | .arr items => items.mapM load
  | _ => none

def ofList (dump : α → Json) (items : List α) : Json := .arr (items.map dump)

theorem mapM_canonical {load : Json → Option α} {dump : α → Json} {items : List α}
    (back : ∀ a ∈ items, load (dump a).canonical = some a) :
    (items.map (fun a => (dump a).canonical)).mapM load = some items := by
  induction items with
  | nil => rfl
  | cons a items ih =>
    have first := back a (List.mem_cons_self ..)
    have rest := ih fun b hb => back b (List.mem_cons_of_mem a hb)
    simp [List.mapM_cons, first, rest]

theorem listOf_ofList {load : Json → Option α} {dump : α → Json} {items : List α}
    (back : ∀ a ∈ items, load (dump a).canonical = some a) :
    listOf load (ofList dump items).canonical = some items := by
  simp only [ofList, listOf, Json.canonical_arr, Json.canonicalItems_eq_map, List.map_map]
  exact mapM_canonical back

structure ExportCounts where
  memories : Int
  tasks : Int
  attempts : Int
  artifacts : Int
  skills : Int

structure SyncManifest where
  version : String
  repoRoot : String
  exportedAt : DateTime
  onmcVersion : String
  counts : ExportCounts

structure ExportedMemoryRecord where
  memory : MemoryEntry
  unpromoted : Bool

structure ExportedTaskRecord where
  task : TaskRecord
  attempts : List AttemptRecord
  artifacts : List MemoryArtifactRecord

structure SkillProvenanceItem where
  memoryId : String
  title : String
  kind : String

structure ExportedSkillRecord where
  skill : Skill
  provenance : List SkillProvenanceItem

/-! `model_dump(mode="json")` -/

def ExportCounts.dump (c : ExportCounts) : Json := .obj [
  ("memories", ofWhole c.memories), ("tasks", ofWhole c.tasks), ("attempts", ofWhole c.attempts),
  ("artifacts", ofWhole c.artifacts), ("skills", ofWhole c.skills)]

def SyncManifest.dump (m : SyncManifest) : Json := .obj [
  ("version", ofText m.version), ("repo_root", ofText m.repoRoot), ("exported_at", ofInstant m.exportedAt),
  ("onmc_version", ofText m.onmcVersion), ("counts", m.counts.dump)]

def ExportedMemoryRecord.dump (r : ExportedMemoryRecord) : Json := .obj [
  ("memory", r.memory.dump), ("unpromoted", ofFlag r.unpromoted)]

def ExportedTaskRecord.dump (r : ExportedTaskRecord) : Json := .obj [
  ("task", r.task.dump), ("attempts", ofList AttemptRecord.dump r.attempts),
  ("artifacts", ofList MemoryArtifactRecord.dump r.artifacts)]

def SkillProvenanceItem.dump (i : SkillProvenanceItem) : Json := .obj [
  ("memory_id", ofText i.memoryId), ("title", ofText i.title), ("kind", ofText i.kind)]

def ExportedSkillRecord.dump (r : ExportedSkillRecord) : Json := .obj [
  ("skill", r.skill.dump), ("provenance", ofList SkillProvenanceItem.dump r.provenance)]

/-! `model_validate` -/

section

variable [Coercions]

def ExportCounts.load (v : Json) : Option ExportCounts := do
  let memories ← required whole "memories" v
  let tasks ← required whole "tasks" v
  let attempts ← required whole "attempts" v
  let artifacts ← required whole "artifacts" v
  let skills ← withDefault whole 0 "skills" v
  return ⟨memories, tasks, attempts, artifacts, skills⟩

def SyncManifest.load (v : Json) : Option SyncManifest := do
  let version ← withDefault text "1" "version" v
  let repoRoot ← required text "repo_root" v
  let exportedAt ← required instant "exported_at" v
  let onmcVersion ← required text "onmc_version" v
  let counts ← required ExportCounts.load "counts" v
  return ⟨version, repoRoot, exportedAt, onmcVersion, counts⟩

def ExportedMemoryRecord.load (v : Json) : Option ExportedMemoryRecord := do
  let memory ← required MemoryEntry.load "memory" v
  let unpromoted ← withDefault flag false "unpromoted" v
  return ⟨memory, unpromoted⟩

def ExportedTaskRecord.load (v : Json) : Option ExportedTaskRecord := do
  let task ← required TaskRecord.load "task" v
  let attempts ← withDefault (listOf AttemptRecord.load) [] "attempts" v
  let artifacts ← withDefault (listOf MemoryArtifactRecord.load) [] "artifacts" v
  return ⟨task, attempts, artifacts⟩

def SkillProvenanceItem.load (v : Json) : Option SkillProvenanceItem := do
  let memoryId ← required text "memory_id" v
  let title ← required text "title" v
  let kind ← required text "kind" v
  return ⟨memoryId, title, kind⟩

def ExportedSkillRecord.load (v : Json) : Option ExportedSkillRecord := do
  let skill ← required Skill.load "skill" v
  let provenance ← withDefault (listOf SkillProvenanceItem.load) [] "provenance" v
  return ⟨skill, provenance⟩

theorem SyncManifest.load_dump (m : SyncManifest) : load m.dump.canonical = some m := by
  have counts : ExportCounts.load m.counts.dump.canonical = some m.counts := by
    simp only [ExportCounts.load, required_canonical, withDefault_canonical]
    simp [ExportCounts.dump, Json.get?, List.lookup_cons]
  simp only [load, required_canonical, withDefault_canonical]
  simp [dump, Json.get?, List.lookup_cons, counts]

theorem ExportedMemoryRecord.load_dump (r : ExportedMemoryRecord) (valid : r.memory.validated = r.memory) :
    load r.dump.canonical = some r := by
  simp only [load, required_canonical, withDefault_canonical]
  simp [dump, Json.get?, List.lookup_cons, MemoryEntry.load_dump, valid]

theorem ExportedTaskRecord.load_dump (r : ExportedTaskRecord) : load r.dump.canonical = some r := by
  have attempts := listOf_ofList fun (a : AttemptRecord) (_ : a ∈ r.attempts) => a.load_dump
  have artifacts := listOf_ofList fun (a : MemoryArtifactRecord) (_ : a ∈ r.artifacts) => a.load_dump
  simp only [load, required_canonical, withDefault_canonical]
  simp [dump, Json.get?, List.lookup_cons, TaskRecord.load_dump, attempts, artifacts]

omit [Coercions] in
theorem SkillProvenanceItem.load_dump (i : SkillProvenanceItem) : load i.dump.canonical = some i := by
  simp only [load, required_canonical]
  simp [dump, Json.get?, List.lookup_cons]

theorem ExportedSkillRecord.load_dump (r : ExportedSkillRecord) : load r.dump.canonical = some r := by
  have provenance := listOf_ofList fun (i : SkillProvenanceItem) (_ : i ∈ r.provenance) => i.load_dump
  simp only [load, required_canonical, withDefault_canonical]
  simp [dump, Json.get?, List.lookup_cons, Skill.load_dump, provenance]

end
end Onmc.Sync

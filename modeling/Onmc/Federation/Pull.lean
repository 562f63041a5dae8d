import Onmc.Sync.Schema

/-! Federation: another repository's `.agent-memory/` is imported into the local store. A file is whatever the
sender put there. An exception leaves the store as it is at that moment. -/
namespace Onmc.Federation

open Onmc.Storage Onmc.Sync

/-- The `source_dir` argument: the parts of its path, what is in it and in its `.agent-memory`. -/
structure Source where
  path : List String
  direct : Directory
  nested : Directory

/-- The export that is read, with its path. -/
def resolveAgentMemoryDir (source : Source) : Option (List String × Directory) :=
  if source.direct.manifest.isSome then some (source.path, source.direct)
  else if source.nested.manifest.isSome then some (source.path ++ [".agent-memory"], source.nested)
  else none

/-- `path.name` -/
def nameOf (path : List String) : String := path.getLast?.getD ""

def repoLabelFromPath (agentMemoryDir : List String) : String :=
  let label := nameOf agentMemoryDir.dropLast
  if label = "" then nameOf agentMemoryDir else label

def federationTag (repoLabel : String) : String := "federated:" ++ repoLabel

def stampFederated (memory : MemoryEntry) (repoLabel : String) : MemoryEntry :=
  let tag := federationTag repoLabel
  { memory with
    tags := if memory.tags.contains tag then memory.tags else memory.tags ++ [tag]
    sourceRef := addUnpromotedPrefix memory.sourceRef }

structure PullResult where
  repoLabel : String
  imported : Nat
  skipped : Nat

section

variable [Coercions]

def readRecord (content : Content) : Option ExportedMemoryRecord :=
  (readJson content).bind ExportedMemoryRecord.load

/-- The loop over the files, with the number imported and the number skipped. -/
def pullFiles (label : String) : Store → List (List String × Content) → Store × Option (Nat × Nat)
  | s, [] => (s, some (0, 0))
  | s, file :: files =>
    match readRecord file.2 with
    | none => (s, none)
    | some exported =>
      match s.getMemory exported.memory.id with
      | none => (s, none)
      | some (some _) =>
        let rest := pullFiles label s files
        (rest.1, rest.2.map fun (imported, skipped) => (imported, skipped + 1))
      | some none =>
        let rest := pullFiles label (s.upsertMemory (stampFederated exported.memory label)) files
        (rest.1, rest.2.map fun (imported, skipped) => (imported + 1, skipped))

def resolvedLabel (repoLabel : Option String) (path : List String) : String :=
  match repoLabel with
  | none | some "" => repoLabelFromPath path
  | some label => label

/-- The files that a pull considers. -/
def considered (directory : Directory) : List (List String × Content) := globJson 2 directory.memories

def pullMemories (s : Store) (source : Source) (repoLabel : Option String) : Store × Option PullResult :=
  match resolveAgentMemoryDir source with
  | none => (s, none)
  | some (path, directory) =>
    match (directory.manifest.bind readJson).bind SyncManifest.load with
    | none => (s, none)
    | some _ =>
      let label := resolvedLabel repoLabel path
      let pulled := pullFiles label s (considered directory)
      (pulled.1, pulled.2.map fun (imported, skipped) => ⟨label, imported, skipped⟩)

end

/-! What one import does. -/

theorem stamped_marked (memory : MemoryEntry) (label : String) :
    hasUnpromotedPrefix (stampFederated memory label).sourceRef = true :=
  hasUnpromotedPrefix_add memory.sourceRef

theorem stamped_tagged (memory : MemoryEntry) (label : String) :
    federationTag label ∈ (stampFederated memory label).tags := by
  dsimp only [stampFederated]
  split
  · rename_i present
    simpa using present
  · simp

/-- A row that a pull with this label writes. -/
def Federated (label : String) (row : MemoryRow) : Prop :=
  ∃ memory : MemoryEntry, row = memoryRow (stampFederated memory label)

theorem rowToMemory_memoryRow (entry : MemoryEntry) :
    rowToMemory (memoryRow entry) = some { entry.stored with staleness := none, lastVerifiedAt := none } :=
  rowToMemory_fullRow { entry with staleness := none, lastVerifiedAt := none }

/-- Such a row says in its column, and is read back as, a quarantined entry with the tag of its source. -/
theorem Federated.quarantined {label : String} {row : MemoryRow} (h : Federated label row) :
    row.promotionState = StrEnum.value PromotionState.quarantined ∧
      ∃ entry, rowToMemory row = some entry ∧ entry.promotionState = .quarantined ∧
        hasUnpromotedPrefix entry.sourceRef = true ∧ federationTag label ∈ entry.tags := by
  obtain ⟨memory, rfl⟩ := h
  have marked := stamped_marked memory label
  refine ⟨?_, _, rowToMemory_memoryRow _, ?_, ?_, stamped_tagged memory label⟩
  · simp only [memoryRow, memoryProvenanceValues, provenanceOf, marked, if_true]
  · simp only [MemoryEntry.stored, memoryProvenanceValues, provenanceOf, marked, if_true]
  · simp only [MemoryEntry.stored, marked, if_true, hasUnpromotedPrefix_add]

/-- The new store keeps every row and every other table; its new rows are federated. -/
structure Grows (label : String) (s t : Store) : Prop where
  kept : ∀ id row, s.memories.find id = some row → t.memories.find id = some row
  new : ∀ id row, s.memories.find id = none → t.memories.find id = some row → Federated label row
  tasks : t.tasks = s.tasks
  attempts : t.attempts = s.attempts
  memoryArtifacts : t.memoryArtifacts = s.memoryArtifacts
  skills : t.skills = s.skills

theorem Grows.refl (label : String) (s : Store) : Grows label s s where
  kept _ _ h := h
  new id row missing found := by simp [missing] at found
  tasks := rfl
  attempts := rfl
  memoryArtifacts := rfl
  skills := rfl

theorem Grows.trans {label : String} {s t u : Store} (first : Grows label s t) (then' : Grows label t u) :
    Grows label s u where
  kept id row h := then'.kept id row (first.kept id row h)
  new id row missing found := by
    cases between : t.memories.find id with
    | none => exact then'.new id row between found
    | some old =>
      have same := then'.kept id old between
      rw [found] at same
      cases same
      exact first.new id row missing between
  tasks := then'.tasks.trans first.tasks
  attempts := then'.attempts.trans first.attempts
  memoryArtifacts := then'.memoryArtifacts.trans first.memoryArtifacts
  skills := then'.skills.trans first.skills

theorem find_of_getMemory {s : Store} {id : String} (h : s.getMemory id = some none) :
    s.memories.find id = none := by
  cases found : s.memories.find id with
  | none => rfl
  | some row =>
    cases read : rowToMemory row with
    | none => simp [Store.getMemory, found, read] at h
    | some entry => simp [Store.getMemory, found, read] at h

theorem find_of_getMemory_some {s : Store} {id : String} {entry : MemoryEntry}
    (h : s.getMemory id = some (some entry)) : ∃ row, s.memories.find id = some row := by
  cases found : s.memories.find id with
  | none => simp [Store.getMemory, found] at h
  | some row => exact ⟨row, rfl⟩

theorem getMemory_of_find {s : Store} {id : String} {row : MemoryRow} (found : s.memories.find id = some row) :
    s.getMemory id = (rowToMemory row).map some := by
  simp only [Store.getMemory, found]

theorem find_import {s : Store} {memory : MemoryEntry} {label : String}
    (missing : s.memories.find memory.id = none) (id : String) :
    (s.upsertMemory (stampFederated memory label)).memories.find id =
      if id = memory.id then some (memoryRow (stampFederated memory label)) else s.memories.find id := by
  simp only [Store.upsertMemory, Table.find_upsert]
  by_cases same : id = memory.id
  · simp [same, memoryRow, stampFederated, missing]
  · simp [same, memoryRow, stampFederated]

theorem length_import {s : Store} (memory : MemoryEntry) (label : String)
    (missing : s.memories.find memory.id = none) :
    (s.upsertMemory (stampFederated memory label)).memories.rows.length = s.memories.rows.length + 1 := by
  have fresh : s.memories.find (memoryRow (stampFederated memory label)).id = none := missing
  simp [Store.upsertMemory, Table.upsert_fresh fresh, Table.insert]

theorem grows_import {s : Store} {memory : MemoryEntry} {label : String}
    (missing : s.memories.find memory.id = none) :
    Grows label s (s.upsertMemory (stampFederated memory label)) where
  kept id row found := by
    have other : id ≠ memory.id := by
      rintro rfl
      simp [missing] at found
    simp only [find_import missing, if_neg other, found]
  new id row absent found := by
    simp only [find_import missing] at found
    split at found
    · cases found
      exact ⟨memory, rfl⟩
    · simp [absent] at found
  tasks := rfl
  attempts := rfl
  memoryArtifacts := rfl
  skills := rfl

/-! The loop. -/

section

variable [Coercions]

theorem pullFiles_grows (label : String) (s : Store) (files : List (List String × Content)) :
    Grows label s (pullFiles label s files).1 := by
  induction files generalizing s with
  | nil => exact .refl label s
  | cons file files ih =>
    simp only [pullFiles]
    split
    · exact .refl label s
    · split
      · exact .refl label s
      · exact ih s
      · rename_i missing
        exact (grows_import (find_of_getMemory missing)).trans (ih _)

theorem pullFiles_counts {label : String} {s : Store} {files : List (List String × Content)} {counts : Nat × Nat}
    (h : (pullFiles label s files).2 = some counts) :
    counts.1 + counts.2 = files.length ∧
      (pullFiles label s files).1.memories.rows.length = s.memories.rows.length + counts.1 := by
  induction files generalizing s counts with
  | nil => cases h; exact ⟨rfl, rfl⟩
  | cons file files ih =>
    simp only [pullFiles] at h ⊢
    split at h
    · cases h
    · split at h
      · cases h
      · obtain ⟨rest, read, rfl⟩ := Option.map_eq_some_iff.mp h
        obtain ⟨total, rows⟩ := ih read
        refine ⟨?_, rows⟩
        simp only [List.length_cons]
        omega
      · rename_i exported _ _ missing
        obtain ⟨rest, read, rfl⟩ := Option.map_eq_some_iff.mp h
        obtain ⟨total, rows⟩ := ih read
        have one := length_import exported.memory label (find_of_getMemory missing)
        simp only [List.length_cons]
        omega

/-- Every entry of a pull that ends is in the store afterwards. -/
theorem pullFiles_imports {label : String} {s : Store} {files : List (List String × Content)} {counts : Nat × Nat}
    (h : (pullFiles label s files).2 = some counts) :
    ∀ file ∈ files, ∃ exported, readRecord file.2 = some exported ∧
      (pullFiles label s files).1.memories.find exported.memory.id ≠ none := by
  induction files generalizing s counts with
  | nil => nofun
  | cons file files ih =>
    simp only [pullFiles] at h ⊢
    split at h
    · cases h
    · rename_i exported read
      split at h
      · cases h
      · rename_i entry present
        obtain ⟨rest, later, rfl⟩ := Option.map_eq_some_iff.mp h
        obtain ⟨row, found⟩ := find_of_getMemory_some present
        simp only [List.forall_mem_cons]
        refine ⟨⟨exported, read, ?_⟩, ih later⟩
        simp [(pullFiles_grows label s files).kept _ _ found]
      · rename_i missing
        obtain ⟨rest, later, rfl⟩ := Option.map_eq_some_iff.mp h
        have found := @find_import s exported.memory label (find_of_getMemory missing) exported.memory.id
        simp only [if_true] at found
        simp only [List.forall_mem_cons]
        refine ⟨⟨exported, read, ?_⟩, ih later⟩
        simp [(pullFiles_grows label _ files).kept _ _ found]

/-- A store that holds all that a pull left is not changed by the same pull. -/
theorem pullFiles_again {label : String} {s t : Store} {files : List (List String × Content)}
    (holds : ∀ id row, (pullFiles label s files).1.memories.find id = some row → t.memories.find id = some row) :
    pullFiles label t files = (t, (pullFiles label s files).2.map fun (imported, skipped) => (0, imported + skipped)) := by
  induction files generalizing s with
  | nil => rfl
  | cons file files ih =>
    simp only [pullFiles] at holds ⊢
    cases read : readRecord file.2 with
    | none => simp
    | some exported =>
      simp only [read] at holds ⊢
      cases before : s.getMemory exported.memory.id with
      | none =>
        simp only [before] at holds ⊢
        have unread : t.getMemory exported.memory.id = none := by
          cases found : s.memories.find exported.memory.id with
          | none => simp [Store.getMemory, found] at before
          | some row =>
            rw [getMemory_of_find (holds _ _ found), ← getMemory_of_find found]
            exact before
        simp [unread]
      | some old =>
        cases old with
        | some entry =>
          simp only [before] at holds ⊢
          obtain ⟨row, found⟩ := find_of_getMemory_some before
          have kept := (pullFiles_grows label s files).kept _ _ found
          have present : t.getMemory exported.memory.id = some (some entry) := by
            rw [getMemory_of_find (holds _ _ kept), ← getMemory_of_find found]
            exact before
          simp only [present, ih holds]
          cases (pullFiles label s files).2 with
          | none => rfl
          | some counts => simp; omega
        | none =>
          simp only [before] at holds ⊢
          have found := @find_import s exported.memory label (find_of_getMemory before) exported.memory.id
          simp only [if_true] at found
          have kept := (pullFiles_grows label _ files).kept _ _ found
          obtain ⟨entry, present⟩ : ∃ entry, t.getMemory exported.memory.id = some (some entry) := by
            rw [getMemory_of_find (holds _ _ kept), rowToMemory_memoryRow]
            exact ⟨_, rfl⟩
          simp only [present, ih holds]
          cases (pullFiles label (s.upsertMemory (stampFederated exported.memory label)) files).2 with
          | none => rfl
          | some counts => simp; omega

/-! The pull. -/

theorem pullMemories_cases (s : Store) (source : Source) (repoLabel : Option String) :
    pullMemories s source repoLabel = (s, none) ∨
      ∃ path directory, resolveAgentMemoryDir source = some (path, directory) ∧
        ∀ t, pullMemories t source repoLabel =
          ((pullFiles (resolvedLabel repoLabel path) t (considered directory)).1,
            (pullFiles (resolvedLabel repoLabel path) t (considered directory)).2.map fun (imported, skipped) =>
              ⟨resolvedLabel repoLabel path, imported, skipped⟩) := by
  unfold pullMemories
  cases resolveAgentMemoryDir source with
  | none => exact .inl rfl
  | some resolved =>
    obtain ⟨path, directory⟩ := resolved
    cases manifest : (directory.manifest.bind readJson).bind SyncManifest.load with
    | none => exact .inl (by simp [manifest])
    | some m => exact .inr ⟨path, directory, rfl, fun t => by simp [manifest]⟩

end

end Onmc.Federation

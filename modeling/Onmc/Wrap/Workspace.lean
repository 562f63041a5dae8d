import Mathlib.Data.Finset.Sort
import Mathlib.Data.String.Basic

/-! A repository's workspace and its fingerprint: what `git diff HEAD` shows of the tracked files, and what
is hashed of the untracked ones. -/
namespace Onmc.Wrap

abbrev Bytes := List UInt8

/-- A file or a symbolic link. -/
inductive Node where
  | regular (content : Bytes)
  | link (target : Bytes)
  deriving DecidableEq

/-- Finitely many paths and what is at them. -/
structure Tree where
  paths : Finset String
  node : String → Option Node
  mem_paths : ∀ p, p ∈ paths ↔ (node p).isSome

structure Workspace where
  /-- Neither git nor a file fails to answer. -/
  readable : Bool
  /-- The tree of the last commit, if there is one. -/
  head : Option Tree
  /-- The paths that git tracks. -/
  index : Finset String
  files : Tree
  ignored : String → Bool

/-- `path.startswith(_CONTROL_PATH_PREFIXES)` -/
def isControl (path : String) : Bool :=
  ".onmc/".toList.isPrefixOf path.toList || ".agent-memory/".toList.isPrefixOf path.toList

/-- `_UNTRACKED_HASH_LIMIT_BYTES` -/
def untrackedHashLimitBytes : Nat := 8 * 1024 * 1024

/-- A path that differs from the last commit, with both versions. -/
abbrev Change := String × Option Node × Option Node

/-- An untracked path, and of a regular file its size and the bytes that are read. -/
abbrev Entry := String × Option (Nat × Bytes)

def utf8 (text : String) : Bytes := text.toUTF8.toList

namespace Workspace

/-- The version of a tracked path that the last commit is compared with. -/
def tracked (w : Workspace) (path : String) : Option Node := if path ∈ w.index then w.files.node path else none

/-- What `git diff HEAD` has to show; without a commit it fails. -/
def changes (w : Workspace) : List Change :=
  match w.head with
  | none => []
  | some tree => ((tree.paths ∪ w.index).sort).filterMap (fun path =>
      if tree.node path = w.tracked path then none else some (path, tree.node path, w.tracked path))

/-- `git ls-files --others --exclude-standard`, less the paths of onmc itself. -/
def candidates (w : Workspace) : Finset String :=
  w.files.paths.filter (fun path => path ∉ w.index ∧ w.ignored path = false ∧ isControl path = false)

/-- What is read of an untracked path. -/
def entry (w : Workspace) (path : String) : Entry :=
  (path, match w.files.node path with
    | some (.regular content) => some (content.length, content.take untrackedHashLimitBytes)
    | _ => none)

def entries (w : Workspace) : List Entry := w.candidates.sort.map w.entry

/-- What git and the untracked files show of the workspace. -/
def shown (w : Workspace) : List Change × List Entry := (w.changes, w.entries)

/-- The files of the workspace: the tracked ones, and the others that are neither ignored nor of onmc. -/
def content (w : Workspace) (path : String) : Option Node :=
  if path ∈ w.index ∨ (w.ignored path = false ∧ isControl path = false) then w.files.node path else none

end Workspace

def entryBytes (e : Entry) : Bytes :=
  utf8 e.1 ++ match e.2 with
    | some (size, content) => utf8 (toString size) ++ content
    | none => []

/-! Workspaces on one commit, with the same paths tracked. -/

/-- Untracked files are regular, and read to their end. -/
def Workspace.Plain (w : Workspace) : Prop :=
  ∀ path ∈ w.candidates, ∃ content, w.files.node path = some (.regular content) ∧
    content.length ≤ untrackedHashLimitBytes

namespace Workspace

theorem mem_candidates {w : Workspace} {path : String} :
    path ∈ w.candidates ↔ path ∉ w.index ∧ (w.content path).isSome = true := by
  simp only [candidates, Finset.mem_filter, w.files.mem_paths, content]
  by_cases tracked : path ∈ w.index
  · simp [tracked]
  · by_cases shows : w.ignored path = false ∧ isControl path = false
    · simp [tracked, shows]
    · rw [if_neg (by simpa [tracked] using shows)]
      simp only [tracked, not_false_eq_true, true_and, Option.isSome_none, Bool.false_eq_true, iff_false]
      exact fun found => shows found.2

theorem content_candidate {w : Workspace} {path : String} (candidate : path ∈ w.candidates) :
    w.content path = w.files.node path := by
  simp only [candidates, Finset.mem_filter] at candidate
  rw [content, if_pos (.inr candidate.2.2)]

theorem content_tracked {w : Workspace} {path : String} (tracked : path ∈ w.index) :
    w.content path = w.tracked path := by
  rw [content, if_pos (.inl tracked), Workspace.tracked, if_pos tracked]

theorem mem_changes {w : Workspace} {tree : Tree} (committed : w.head = some tree) {path : String}
    {versions : Option Node × Option Node} :
    (path, versions) ∈ w.changes ↔
      path ∈ tree.paths ∪ w.index ∧ tree.node path ≠ w.tracked path ∧
        versions = (tree.node path, w.tracked path) := by
  simp only [changes, committed, List.mem_filterMap, Finset.mem_sort]
  constructor
  · rintro ⟨found, listed, same⟩
    split at same
    · cases same
    · obtain ⟨rfl, rfl⟩ := Prod.mk.inj (Option.some.inj same)
      exact ⟨listed, ‹_›, rfl⟩
  · rintro ⟨listed, differs, rfl⟩
    exact ⟨path, listed, by rw [if_neg differs]⟩

/-- On one commit and with the same paths tracked, what is shown tells the contents apart. -/
theorem shown_eq_iff {w w' : Workspace} {tree : Tree} (committed : w.head = some tree)
    (committed' : w'.head = some tree) (staged : w.index = w'.index) (plain : w.Plain) (plain' : w'.Plain) :
    w.shown = w'.shown ↔ w.content = w'.content := by
  constructor
  · intro same
    obtain ⟨changes, entries⟩ := Prod.ext_iff.mp same
    simp only [shown] at changes entries
    have candidates_same : w.candidates = w'.candidates := by
      have sorted := congrArg (List.map Prod.fst) entries
      simp only [Workspace.entries, List.map_map] at sorted
      have paths : ∀ w : Workspace, w.candidates.sort.map (Prod.fst ∘ w.entry) = w.candidates.sort :=
        fun w => List.map_id _
      rw [paths, paths] at sorted
      ext path
      rw [← Finset.mem_sort (· ≤ ·), sorted, Finset.mem_sort]
    funext path
    by_cases tracked : path ∈ w.index
    · rw [content_tracked tracked, content_tracked (staged ▸ tracked)]
      by_cases first : tree.node path = w.tracked path
      · by_contra differs
        have there : (path, tree.node path, w'.tracked path) ∈ w.changes := by
          rw [changes, mem_changes committed']
          exact ⟨Finset.mem_union_right _ (staged ▸ tracked), fun second => differs (first.symm.trans second), rfl⟩
        exact ((mem_changes committed).mp there).2.1 first
      · have here : (path, tree.node path, w.tracked path) ∈ w'.changes := by
          rw [← changes, mem_changes committed]
          exact ⟨Finset.mem_union_right _ tracked, first, rfl⟩
        exact (Prod.mk.inj ((mem_changes committed').mp here).2.2).2
    · by_cases candidate : path ∈ w.candidates
      · obtain ⟨bytes, found, small⟩ := plain path candidate
        obtain ⟨bytes', found', small'⟩ := plain' path (candidates_same ▸ candidate)
        have entry_same : w.entry path = w'.entry path := by
          rw [Workspace.entries, Workspace.entries, ← candidates_same] at entries
          exact List.map_inj_left.mp entries path ((Finset.mem_sort _).mpr candidate)
        simp only [entry, found, found', Prod.mk.injEq, Option.some.injEq, true_and, List.take_of_length_le small,
          List.take_of_length_le small'] at entry_same
        rw [content_candidate candidate, content_candidate (candidates_same ▸ candidate), found, found',
          entry_same.2]
      · have gone : ∀ w : Workspace, path ∉ w.index → path ∉ w.candidates → w.content path = none := by
          intro w untracked missing
          by_contra there
          exact missing (mem_candidates.mpr ⟨untracked, Option.isSome_iff_ne_none.mpr there⟩)
        rw [gone w tracked candidate, gone w' (staged ▸ tracked) (candidates_same ▸ candidate)]
  · intro same
    have candidates_same : w.candidates = w'.candidates := by
      ext path
      rw [mem_candidates, mem_candidates, staged, same]
    have tracked_same : ∀ path, w.tracked path = w'.tracked path := by
      intro path
      by_cases tracked : path ∈ w.index
      · rw [← content_tracked tracked, ← content_tracked (staged ▸ tracked), same]
      · rw [Workspace.tracked, if_neg tracked, Workspace.tracked, if_neg (staged ▸ tracked)]
    have entries_same : w.entries = w'.entries := by
      rw [entries, entries, ← candidates_same]
      apply List.map_congr_left
      intro path listed
      have candidate := (Finset.mem_sort _).mp listed
      have node_same : w.files.node path = w'.files.node path := by
        rw [← content_candidate candidate, ← content_candidate (candidates_same ▸ candidate), same]
      rw [entry, entry, node_same]
    simp only [shown, entries_same, changes, committed, committed', staged, tracked_same]

end Workspace


/-! The fingerprint. -/

/-- git and the hash. -/
class Tools where
  /-- The output of `git diff --binary HEAD --` for the changes. -/
  gitDiff : List Change → Bytes
  /-- `hashlib.sha256(…).hexdigest()` -/
  sha256 : Bytes → String

/-- What is known of the two: no output without a change, and a hash of its own for all bytes. -/
class LawfulTools [Tools] : Prop where
  diff_nil : Tools.gitDiff [] = []
  sha256_injective : Function.Injective Tools.sha256
  sha256_ne : ∀ bytes, Tools.sha256 bytes ≠ ""

variable [Tools]

namespace Workspace

/-- The standard output of `git diff`. -/
def diffOutput (w : Workspace) : Bytes :=
  match w.head with
  | none => []
  | some _ => Tools.gitDiff w.changes

/-- All bytes that go into the hash. -/
def hashed (w : Workspace) : Bytes := w.diffOutput ++ w.entries.flatMap entryBytes

end Workspace

/-- `workspace_fingerprint` -/
def workspaceFingerprint (w : Workspace) : String := if w.readable then Tools.sha256 w.hashed else ""

section
variable [LawfulTools]

theorem hashed_of_shown {w w' : Workspace} (same : w.shown = w'.shown) : w.hashed = w'.hashed := by
  obtain ⟨changes, entries⟩ := Prod.ext_iff.mp same
  have output : ∀ w : Workspace, w.diffOutput = Tools.gitDiff w.changes := by
    intro w
    unfold Workspace.diffOutput
    split
    · rename_i uncommitted
      rw [Workspace.changes, uncommitted, LawfulTools.diff_nil]
    · rfl
  simp only [Workspace.shown] at changes entries
  rw [Workspace.hashed, Workspace.hashed, output, output, changes, entries]

/-- A readable workspace has another fingerprint exactly if it gives other bytes. -/
theorem fingerprint_tells {w w' : Workspace} (readable : w.readable = true) :
    (workspaceFingerprint w ≠ "" ∧ workspaceFingerprint w ≠ workspaceFingerprint w') ↔
      (w'.readable = true → w.hashed ≠ w'.hashed) := by
  simp only [workspaceFingerprint, readable, if_true]
  cases other : w'.readable with
  | false => simp [LawfulTools.sha256_ne]
  | true =>
    simp only [if_true, ne_eq, LawfulTools.sha256_injective.eq_iff, LawfulTools.sha256_ne, not_false_eq_true,
      true_and, forall_const]

end

end Onmc.Wrap

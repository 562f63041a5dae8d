import Onmc.Codegraph.Relations

/-! The graph is exact on the trees whose names are not taken over: by a file that comes earlier
under the same name, by one outside the package, or by the cleaning of a query. -/
namespace Onmc.Codegraph

open PurePath (Part)

/-- The package that the dots of a relative import lead to from a file's own, if there is one. -/
def reachedPackage (path : String) (level : Nat) : Option (List Part) :=
  let package := packageParts path
  if level - 1 ≤ package.length then some (package.take (package.length - (level - 1))) else none

/-- A file lies in the package that a relative import of another one names. -/
def Inside (path : String) (level : Nat) (target : String) : Prop :=
  ∃ package, reachedPackage path level = some package ∧ package <+: packageParts target

section

variable [Lowercase] (repo : Repo) (maxFiles : Nat)

/-- A name that an import of a Python file asks for, and the level of the import if it is relative. -/
def AsksFor (path : String) (level : Nat) (raw : String) : Prop :=
  path ∈ discoverSourceFiles repo maxFiles ∧ isPython path ∧
    ∃ tree, repo.safeParse path = some tree ∧ ∃ statement ∈ tree.imports,
      raw ∈ statement.rawNames (packageParts path) ∧
        match statement with
        | .names _ => level = 0
        | .importFrom dots _ _ => level = dots

/-- A Python file whose own dotted path is a name. -/
structure Owns (raw path : String) : Prop where
  carries : Carries (discoverSourceFiles repo maxFiles) raw path
  own : raw = dotted (moduleParts path)

/-- The relations of the graph of a repository are exact. -/
structure Exact : Prop where
  dependents : ∀ path other, other ∈ Dict.listed (buildCodegraph repo maxFiles).dependents path ↔
    ∃ node, (buildCodegraph repo maxFiles).nodes.lookup other = some node ∧ path ∈ node.imports
  tests : ∀ path other, other ∈ Dict.listed (buildCodegraph repo maxFiles).fileTests path ↔
    other ∈ Dict.listed (buildCodegraph repo maxFiles).dependents path ∧ isTestPath other
  named : ∀ path level raw, AsksFor repo maxFiles path level raw → ∀ module, Owns repo maxFiles raw module →
    (moduleIndex (discoverSourceFiles repo maxFiles)).lookup raw = some module
  relative : ∀ path level raw, AsksFor repo maxFiles path level raw → 0 < level → ∀ target,
    (moduleIndex (discoverSourceFiles repo maxFiles)).lookup raw = some target → Inside path level target
  target : ∀ path ∈ discoverSourceFiles repo maxFiles,
    (neighbors (buildCodegraph repo maxFiles) path).targetFiles = [path]

/-- A path that a query finds again: cleaning leaves it as it is; or what is left is no file, and the
path is the only one that the text of the query stands for, as a symbol or as the end of a path. -/
def Addressed (path : String) : Prop :=
  normalise path = path ∨
    normalise path ∉ discoverSourceFiles repo maxFiles ∧
      ((∃ other ∈ discoverSourceFiles repo maxFiles, Defines repo path other) →
        ∀ other ∈ discoverSourceFiles repo maxFiles, Defines repo path other ↔ other = path) ∧
      ((∀ other ∈ discoverSourceFiles repo maxFiles, ¬ Defines repo path other) →
        ∀ other ∈ discoverSourceFiles repo maxFiles, matchesPath (normalise path) other ↔ other = path)

/-- No name that is imported, and no path, is taken over. -/
structure Untaken : Prop where
  named : ∀ path level raw, AsksFor repo maxFiles path level raw → ∀ module, Owns repo maxFiles raw module →
    ∀ other, Carries (discoverSourceFiles repo maxFiles) raw other → module ≤ other
  relative : ∀ path level raw, AsksFor repo maxFiles path level raw → 0 < level → ∀ outer,
    Carries (discoverSourceFiles repo maxFiles) raw outer → ¬ Inside path level outer →
      ∃ other, Carries (discoverSourceFiles repo maxFiles) raw other ∧ other < outer
  addressed : ∀ path ∈ discoverSourceFiles repo maxFiles, Addressed repo maxFiles path

variable {repo maxFiles} {path : String}

theorem lookup_index {raw : String} :
    (moduleIndex (discoverSourceFiles repo maxFiles)).lookup raw = some path ↔
      Carries (discoverSourceFiles repo maxFiles) raw path ∧
        ∀ other, Carries (discoverSourceFiles repo maxFiles) raw other → path ≤ other :=
  lookup_moduleIndex (discoverSourceFiles_sorted repo maxFiles)

/-- A name that can be imported leads to a file. -/
theorem lookup_index_of_carries {raw other : String} (h : Carries (discoverSourceFiles repo maxFiles) raw other) :
    ∃ path, (moduleIndex (discoverSourceFiles repo maxFiles)).lookup raw = some path := by
  cases found : (moduleIndex (discoverSourceFiles repo maxFiles)).lookup raw with
  | some path => exact ⟨path, rfl⟩
  | none =>
    rw [moduleIndex_find] at found
    have absent := List.find?_eq_none.mp found other (List.mem_filter.mpr ⟨h.indexed, h.python⟩)
    exact absurd h.goes (by simpa using absent)

theorem dependents_exact (repo : Repo) (maxFiles : Nat) (path other : String) :
    other ∈ Dict.listed (buildCodegraph repo maxFiles).dependents path ↔
      ∃ node, (buildCodegraph repo maxFiles).nodes.lookup other = some node ∧ path ∈ node.imports := by
  rw [mem_dependents, lookup_nodes]
  by_cases member : other ∈ discoverSourceFiles repo maxFiles
  · simp [member, nodeOf]
  · simp [member]

theorem targetFiles_resolveTarget :
    (neighbors (buildCodegraph repo maxFiles) path).targetFiles = [path] ↔
      resolveTarget (buildCodegraph repo maxFiles) path = [path] := by
  constructor
  · intro h
    have perm := List.perm_insertionSort (· ≤ ·) (resolveTarget (buildCodegraph repo maxFiles) path)
    rw [show (resolveTarget (buildCodegraph repo maxFiles) path).insertionSort (· ≤ ·) = [path] from h] at perm
    exact List.perm_singleton.mp perm.symm
  · intro h
    simp [neighbors, h]

/-- A path that reads as a symbol stands for the files that define it. -/
theorem symbol_target_iff (indexed : path ∈ discoverSourceFiles repo maxFiles) {files : List String}
    (found : (buildCodegraph repo maxFiles).symbolsByName.lookup path = some files) :
    (∃ other ∈ discoverSourceFiles repo maxFiles, Defines repo path other) ∧
      (files = [path] ↔ ∀ other ∈ discoverSourceFiles repo maxFiles, Defines repo path other ↔ other = path) := by
  have listed : Dict.listed (buildCodegraph repo maxFiles).symbolsByName path = files := by
    rw [Dict.listed, found, Option.getD_some]
  have definers (other : String) :
      other ∈ files ↔ other ∈ discoverSourceFiles repo maxFiles ∧ Defines repo path other :=
    listed ▸ mem_symbolsByName
  have once : files.Nodup := listed ▸ nodup_symbolsByName path
  obtain ⟨file, member⟩ := List.exists_mem_of_ne_nil files (symbolsByName_ne_nil found)
  exact ⟨⟨file, (definers file).mp member⟩, eq_singleton_iff once definers indexed⟩

/-- Any other path stands for the files whose paths end in what is left of it. -/
theorem suffix_target_iff (indexed : path ∈ discoverSourceFiles repo maxFiles) (normalised : String) :
    ((Dict.keys (buildCodegraph repo maxFiles).nodes).filter (matchesPath normalised)).insertionSort (· ≤ ·) = [path] ↔
      ∀ other ∈ discoverSourceFiles repo maxFiles, matchesPath normalised other ↔ other = path := by
  have perm := List.perm_insertionSort (· ≤ ·)
    ((Dict.keys (buildCodegraph repo maxFiles).nodes).filter (matchesPath normalised))
  refine eq_singleton_iff (perm.nodup_iff.mpr (nodup_keys_nodes.filter _)) (fun other => ?_) indexed
  rw [perm.mem_iff, List.mem_filter, mem_keys_nodes]

/-- What a query for an indexed path finds. -/
theorem targetFiles_iff (indexed : path ∈ discoverSourceFiles repo maxFiles) :
    (neighbors (buildCodegraph repo maxFiles) path).targetFiles = [path] ↔ Addressed repo maxFiles path := by
  rw [targetFiles_resolveTarget, resolveTarget]
  by_cases clean : normalise path ∈ discoverSourceFiles repo maxFiles
  · have kept : normalise path ∈ Dict.keys (buildCodegraph repo maxFiles).nodes := mem_keys_nodes.mpr clean
    rw [if_pos kept, List.cons.injEq, Addressed]
    constructor
    · intro h
      exact Or.inl h.1
    · rintro (h | ⟨gone, -⟩)
      · exact ⟨h, rfl⟩
      · exact absurd clean gone
  · have changed : normalise path ≠ path := by
      intro same
      rw [same] at clean
      exact clean indexed
    have unkept : normalise path ∉ Dict.keys (buildCodegraph repo maxFiles).nodes :=
      fun known => clean (mem_keys_nodes.mp known)
    rw [if_neg unkept, Addressed, or_iff_right changed, and_iff_right clean]
    cases found : (buildCodegraph repo maxFiles).symbolsByName.lookup path with
    | some files =>
      obtain ⟨some, alone⟩ := symbol_target_iff indexed found
      have defined : ¬ ∀ other ∈ discoverSourceFiles repo maxFiles, ¬ Defines repo path other := by
        obtain ⟨other, known, defines⟩ := some
        exact fun none => none other known defines
      rw [alone]
      exact ⟨fun h => ⟨fun _ => h, fun none => absurd none defined⟩, fun h => h.1 some⟩
    | none =>
      have undefined : ∀ other ∈ discoverSourceFiles repo maxFiles, ¬ Defines repo path other := by
        intro other known defines
        have member := mem_symbolsByName.mpr ⟨known, defines⟩
        rw [Dict.listed, found] at member
        cases member
      rw [suffix_target_iff indexed]
      refine ⟨fun h => ⟨fun some => ?_, fun _ => h⟩, fun h => h.2 undefined⟩
      obtain ⟨other, known, defines⟩ := some
      exact absurd defines (undefined other known)

/-- The dependents are always the inverse of the imports, and the tests of a file the test files
among them; names and paths are exact when none is taken over. -/
theorem exact_iff (repo : Repo) (maxFiles : Nat) : Exact repo maxFiles ↔ Untaken repo maxFiles := by
  constructor
  · intro exact
    refine ⟨?_, ?_, fun path indexed => (targetFiles_iff indexed).mp (exact.target path indexed)⟩
    · intro path level raw asks module owns other carries
      exact (lookup_index.mp (exact.named path level raw asks module owns)).2 other carries
    · intro path level raw asks dots outer carries outside
      obtain ⟨first, found⟩ := lookup_index_of_carries carries
      obtain ⟨held, least⟩ := lookup_index.mp found
      refine ⟨first, held, lt_of_le_of_ne (least outer carries) ?_⟩
      rintro rfl
      exact outside (exact.relative path level raw asks dots first found)
  · intro untaken
    refine ⟨dependents_exact repo maxFiles, fun path other => mem_fileTests, ?_, ?_,
      fun path indexed => (targetFiles_iff indexed).mpr (untaken.addressed path indexed)⟩
    · intro path level raw asks module owns
      exact lookup_index.mpr ⟨owns.carries, untaken.named path level raw asks module owns⟩
    · intro path level raw asks dots target found
      obtain ⟨held, least⟩ := lookup_index.mp found
      by_contra outside
      obtain ⟨other, carries, before⟩ := untaken.relative path level raw asks dots target held outside
      exact absurd (least other carries) (not_le.mpr before)

end

section

attribute [local instance] Lowercase.ascii

/-- `main.py` has `import x`, and `pkg/m.py` has `from .util import f`. -/
def takenOver : Repo where
  tree := .mk [("main.py", false), ("x.py", false)]
    [("lib", .mk [("x.py", false)] [("pkg", .mk [("util.py", false)] [])]), ("pkg", .mk [("m.py", false)] []),
      (".hooks", .mk [("y.py", false)] [])]
  safeParse path :=
    if path = "main.py" then some ⟨[], [.names ["x"]]⟩
    else if path = "pkg/m.py" then some ⟨[], [.importFrom 1 (some "util") ["f"]]⟩
    else some ⟨[], []⟩
  parse _ := ⟨[], []⟩
  treesitterAvailable := false

/-- The file `x.py` loses its name to `lib/x.py`, the relative import leaves its package, and the path
below a dotted directory is not found. -/
theorem takenOver_inexact :
    (resolved takenOver (discoverSourceFiles takenOver 5000) "main.py" = ["lib/x.py"] ∧
      resolved takenOver (discoverSourceFiles takenOver 5000) "pkg/m.py" = ["lib/pkg/util.py"] ∧
      (neighbors (buildCodegraph takenOver 5000) ".hooks/y.py").targetFiles = []) ∧
    ¬ Exact takenOver 5000 := by
  have unfound : (neighbors (buildCodegraph takenOver 5000) ".hooks/y.py").targetFiles = [] := by decide
  refine ⟨⟨by decide, by decide, unfound⟩, ?_⟩
  intro exact
  have found := exact.target ".hooks/y.py" (by decide)
  rw [unfound] at found
  cases found

end

end Onmc.Codegraph

import Onmc.Codegraph.Builder
import Onmc.Ranking

/-! The relations of the graph: what the lists of dependents and tests hold, which file an import
resolves to, and when a path is its own target. -/
namespace Onmc.Codegraph

open PurePath (Part)

/-- A Python file that can be imported under a name. -/
structure Carries (files : List String) (name path : String) : Prop where
  indexed : path ∈ files
  python : isPython path
  goes : name ∈ moduleNamesFor path

/-! The index of the module names. -/

theorem lookup_flatMap_names (names : String → List String) (files : List String) (raw : String) :
    (files.flatMap (fun path => (names path).map (fun name => (name, path)))).lookup raw =
      files.find? (fun path => raw ∈ names path) := by
  induction files with
  | nil => rfl
  | cons path files ih =>
    have own : ((names path).map (fun name => (name, path))).lookup raw =
        if raw ∈ names path then some path else none := by
      induction names path with
      | nil => rfl
      | cons name rest ih =>
        by_cases same : raw = name
        · simp [same]
        · simp [List.lookup_cons, beq_eq_false_iff_ne.mpr same, same, ih]
    rw [List.flatMap_cons, List.lookup_append, own, ih, List.find?_cons]
    by_cases held : raw ∈ names path
    · simp [held]
    · simp [held]

theorem moduleIndex_find (files : List String) (raw : String) :
    (moduleIndex files).lookup raw = (files.filter isPython).find? (fun path => raw ∈ moduleNamesFor path) := by
  rw [moduleIndex, Dict.lookup_foldl_setDefault, ← lookup_flatMap_names]
  rfl

/-- The first file, in the order of the paths, that can be imported under the name. -/
theorem lookup_moduleIndex {files : List String} (sorted : files.Pairwise (· ≤ ·)) {raw path : String} :
    (moduleIndex files).lookup raw = some path ↔
      Carries files raw path ∧ ∀ other, Carries files raw other → path ≤ other := by
  rw [moduleIndex_find, Ranking.find?_sorted (sorted.filter isPython)]
  constructor
  · rintro ⟨member, goes, least⟩
    obtain ⟨indexed, python⟩ := List.mem_filter.mp member
    refine ⟨⟨indexed, python, by simpa using goes⟩, ?_⟩
    intro other carries
    exact least other (List.mem_filter.mpr ⟨carries.indexed, carries.python⟩) (by simpa using carries.goes)
  · rintro ⟨carries, least⟩
    refine ⟨List.mem_filter.mpr ⟨carries.indexed, carries.python⟩, by simpa using carries.goes, ?_⟩
    intro other member goes
    obtain ⟨indexed, python⟩ := List.mem_filter.mp member
    exact least other ⟨indexed, python, by simpa using goes⟩

/-! Lists of edges, sorted by key. -/

theorem keys_sortedItems_perm (items : List (String × List String)) :
    (items.insertionSort (fun a b => a.1 ≤ b.1)).Perm items := List.perm_insertionSort _ _

theorem mem_listed_sortedItems {items : List (String × List String)} (once : (Dict.keys items).Nodup)
    {key a : String} : a ∈ Dict.listed (sortedItems items) key ↔ a ∈ Dict.listed items key := by
  have mapped : sortedItems items = Dict.mapValues (fun _ listed => listed.insertionSort (· ≤ ·))
      (items.insertionSort (fun a b => a.1 ≤ b.1)) := rfl
  rw [Dict.listed, mapped, Dict.lookup_mapValues, Dict.lookup_perm once (keys_sortedItems_perm items).symm]
  cases held : items.lookup key with
  | none => simp [Dict.listed, held]
  | some listed => simp [Dict.listed, held, List.mem_insertionSort]

theorem mem_sortedSet {items : List String} {a : String} : a ∈ sortedSet items ↔ a ∈ items := by
  rw [sortedSet, List.mem_insertionSort, List.mem_eraseDups]

/-! Dicts filled from a list of files. -/

section

variable {α : Type} (value : String → α) (files : List String)

theorem keys_filled (items : List (String × α)) (key : String) :
    key ∈ Dict.keys (files.foldl (fun items path => Dict.setItem path (value path) items) items) ↔
      key ∈ files ∨ key ∈ Dict.keys items := by
  induction files generalizing items with
  | nil => simp
  | cons path files ih =>
    rw [List.foldl_cons, ih, Dict.mem_keys_setItem, List.mem_cons]
    constructor
    · rintro (h | h | h)
      · exact .inl (.inr h)
      · exact .inl (.inl h)
      · exact .inr h
    · rintro ((h | h) | h)
      · exact .inr (.inl h)
      · exact .inl h
      · exact .inr (.inr h)

theorem nodup_keys_filled {items : List (String × α)} (once : (Dict.keys items).Nodup) :
    (Dict.keys (files.foldl (fun items path => Dict.setItem path (value path) items) items)).Nodup := by
  induction files generalizing items with
  | nil => exact once
  | cons path files ih => exact ih (Dict.nodup_keys_setItem once)

theorem lookup_filled (items : List (String × α)) (key : String) :
    (files.foldl (fun items path => Dict.setItem path (value path) items) items).lookup key =
      if key ∈ files then some (value key) else items.lookup key := by
  induction files generalizing items with
  | nil => simp
  | cons path files ih =>
    rw [List.foldl_cons, ih, Dict.lookup_setItem]
    by_cases same : key = path
    · subst same
      simp
    · simp [same]

end

/-! The files that define a name. -/

theorem listed_nameSymbol (byName : List (String × List String)) (symbol : Symbol) (name : String) :
    Dict.listed (nameSymbol byName symbol) name =
      if name = symbol.name ∧ symbol.file ∉ Dict.listed byName name then Dict.listed byName name ++ [symbol.file]
      else Dict.listed byName name := by
  by_cases same : name = symbol.name
  · subst same
    by_cases known : symbol.file ∈ Dict.listed byName symbol.name
    · simp [Dict.listed, nameSymbol]
    · simp [Dict.listed, nameSymbol]
  · simp [Dict.listed, nameSymbol, same]

theorem mem_listed_nameSymbol {byName : List (String × List String)} {symbol : Symbol} {name file : String} :
    file ∈ Dict.listed (nameSymbol byName symbol) name ↔
      symbol.name = name ∧ symbol.file = file ∨ file ∈ Dict.listed byName name := by
  rw [listed_nameSymbol]
  by_cases added : name = symbol.name ∧ symbol.file ∉ Dict.listed byName name
  · obtain ⟨rfl, fresh⟩ := added
    simp [fresh, or_comm, @eq_comm _ file]
  · rw [if_neg added]
    constructor
    · exact .inr
    · rintro (⟨rfl, rfl⟩ | held)
      · exact not_not.mp fun fresh => added ⟨rfl, fresh⟩
      · exact held

theorem mem_listed_foldl_nameSymbol (symbols : List Symbol) (byName : List (String × List String)) {name file : String} :
    file ∈ Dict.listed (symbols.foldl nameSymbol byName) name ↔
      (∃ s ∈ symbols, s.name = name ∧ s.file = file) ∨ file ∈ Dict.listed byName name := by
  induction symbols generalizing byName with
  | nil => simp
  | cons symbol symbols ih =>
    rw [List.foldl_cons, ih, mem_listed_nameSymbol]
    constructor
    · rintro (⟨s, member, here⟩ | here | h)
      · exact .inl ⟨s, List.mem_cons_of_mem _ member, here⟩
      · exact .inl ⟨symbol, List.mem_cons_self, here⟩
      · exact .inr h
    · rintro (⟨s, member, here⟩ | h)
      · rcases List.mem_cons.mp member with rfl | member
        · exact .inr (.inl here)
        · exact .inl ⟨s, member, here⟩
      · exact .inr (.inr h)

theorem nodup_listed_nameSymbol {byName : List (String × List String)} {symbol : Symbol}
    (once : ∀ name, (Dict.listed byName name).Nodup) (name : String) :
    (Dict.listed (nameSymbol byName symbol) name).Nodup := by
  rw [listed_nameSymbol]
  split
  · rename_i added
    refine List.nodup_append.mpr ⟨once name, List.nodup_singleton _, ?_⟩
    intro a held b single equal
    rw [List.mem_singleton] at single
    exact added.2 (single ▸ equal ▸ held)
  · exact once name

theorem nodup_listed_foldl_nameSymbol (symbols : List Symbol) {byName : List (String × List String)}
    (once : ∀ name, (Dict.listed byName name).Nodup) (name : String) :
    (Dict.listed (symbols.foldl nameSymbol byName) name).Nodup := by
  induction symbols generalizing byName with
  | nil => exact once name
  | cons symbol symbols ih => exact ih (nodup_listed_nameSymbol once)

/-- A name that is in the dict has a file. -/
theorem named_foldl_nameSymbol (symbols : List Symbol) {byName : List (String × List String)}
    (full : ∀ name files, byName.lookup name = some files → files ≠ []) {name : String} {files : List String}
    (held : (symbols.foldl nameSymbol byName).lookup name = some files) : files ≠ [] := by
  induction symbols generalizing byName with
  | nil => exact full name files held
  | cons symbol symbols ih =>
    refine ih ?_ held
    intro other listed found
    by_cases same : other = symbol.name
    · subst same
      have member : symbol.file ∈ Dict.listed (nameSymbol byName symbol) symbol.name :=
        mem_listed_nameSymbol.mpr (.inl ⟨rfl, rfl⟩)
      rw [Dict.listed, found] at member
      exact List.ne_nil_of_mem member
    · rw [nameSymbol, Dict.lookup_setItem, if_neg same] at found
      exact full other listed found

/-- The files with a property are one file alone. -/
theorem eq_singleton_iff {found files : List String} {p : String → Prop} (once : found.Nodup)
    (members : ∀ other, other ∈ found ↔ other ∈ files ∧ p other) {path : String} (indexed : path ∈ files) :
    found = [path] ↔ ∀ other ∈ files, p other ↔ other = path := by
  constructor
  · rintro rfl other known
    simpa [known] using (members other).symm
  · intro alone
    apply List.perm_singleton.mp
    apply (List.perm_ext_iff_of_nodup once (List.nodup_singleton path)).mpr
    intro other
    rw [members other, List.mem_singleton]
    constructor
    · rintro ⟨known, held⟩
      exact (alone other known).mp held
    · rintro rfl
      exact ⟨indexed, (alone other indexed).mpr rfl⟩

theorem mem_foldl_addSymbol {s : Symbol} (declared held : List Symbol) (h : s ∈ declared.foldl addSymbol held) :
    s ∈ held ∨ s ∈ declared := by
  induction declared generalizing held with
  | nil => exact .inl h
  | cons d declared ih =>
    rcases ih _ h with h | h
    · unfold addSymbol at h
      split at h
      · exact .inl h
      · rcases List.mem_append.mp h with h | h
        · exact .inl h
        · exact .inr (List.mem_singleton.mp h ▸ List.mem_cons_self)
    · exact .inr (List.mem_cons_of_mem d h)

section

variable [Lowercase] {repo : Repo} {maxFiles : Nat} {path other : String}

theorem extractSymbols_file {s : Symbol} (h : s ∈ extractSymbols repo path) : s.file = path := by
  unfold extractSymbols at h
  split at h
  · cases h
  · rcases mem_foldl_addSymbol _ _ h with none | declared
    · cases none
    · obtain ⟨d, _, rfl⟩ := List.mem_map.mp declared
      rfl

theorem parseFile_file {s : Symbol} (h : s ∈ (parseFile repo path).symbols) : s.file = path := by
  simp only [parseFile] at h
  split at h
  · split at h
    · cases h
    · obtain ⟨d, _, rfl⟩ := List.mem_map.mp h
      rfl
  · exact extractSymbols_file h

/-! The graph that is built. -/

theorem discoverSourceFiles_sorted (repo : Repo) (maxFiles : Nat) :
    (discoverSourceFiles repo maxFiles).Pairwise (· ≤ ·) := List.pairwise_insertionSort _ _

theorem lookup_nodes (repo : Repo) (maxFiles : Nat) (path : String) :
    (buildCodegraph repo maxFiles).nodes.lookup path =
      if path ∈ discoverSourceFiles repo maxFiles then some (nodeOf repo (discoverSourceFiles repo maxFiles) path)
      else none :=
  lookup_filled (nodeOf repo (discoverSourceFiles repo maxFiles)) _ [] path

theorem mem_keys_nodes : path ∈ Dict.keys (buildCodegraph repo maxFiles).nodes ↔
    path ∈ discoverSourceFiles repo maxFiles := by
  refine (keys_filled (nodeOf repo (discoverSourceFiles repo maxFiles)) _ [] path).trans ?_
  simp [Dict.keys]

theorem nodup_keys_nodes : (Dict.keys (buildCodegraph repo maxFiles).nodes).Nodup :=
  nodup_keys_filled (nodeOf repo (discoverSourceFiles repo maxFiles)) _ Dict.nodup_keys_nil

theorem mem_edges {files known : List String} :
    (path, other) ∈ files.flatMap (edges repo known) ↔ other ∈ files ∧ path ∈ resolved repo known other := by
  simp only [edges, List.mem_flatMap, List.mem_map, Prod.mk.injEq]
  constructor
  · rintro ⟨importer, member, target, found, rfl, rfl⟩
    exact ⟨member, found⟩
  · rintro ⟨member, found⟩
    exact ⟨other, member, path, found, rfl, rfl⟩

theorem mem_dependents : other ∈ Dict.listed (buildCodegraph repo maxFiles).dependents path ↔
    other ∈ discoverSourceFiles repo maxFiles ∧
      path ∈ resolved repo (discoverSourceFiles repo maxFiles) other := by
  have unlinked : Dict.listed ((discoverSourceFiles repo maxFiles).foldl
      (fun links path => Dict.setItem path ([] : List String) links) []) path = [] := by
    rw [Dict.listed, lookup_filled (fun _ => []) _ [] path]
    split <;> rfl
  simp only [buildCodegraph]
  rw [mem_listed_sortedItems (Dict.nodup_keys_foldl_addTo _ (nodup_keys_filled (fun _ => []) _ Dict.nodup_keys_nil)),
    Dict.mem_listed_foldl_addTo, unlinked, mem_edges]
  simp

theorem mem_fileTests : other ∈ Dict.listed (buildCodegraph repo maxFiles).fileTests path ↔
    other ∈ Dict.listed (buildCodegraph repo maxFiles).dependents path ∧ isTestPath other := by
  rw [mem_dependents]
  simp only [buildCodegraph]
  rw [mem_listed_sortedItems (Dict.nodup_keys_foldl_addTo _ Dict.nodup_keys_nil), Dict.mem_listed_foldl_addTo, mem_edges]
  simp [Dict.listed, nodeOf, parseFile, and_right_comm]

/-- A file defines a name at its top level. -/
def Defines (repo : Repo) (name path : String) : Prop := ∃ s ∈ (parseFile repo path).symbols, s.name = name

theorem mem_symbolsByName : other ∈ Dict.listed (buildCodegraph repo maxFiles).symbolsByName path ↔
    other ∈ discoverSourceFiles repo maxFiles ∧ Defines repo path other := by
  simp only [buildCodegraph]
  rw [mem_listed_foldl_nameSymbol]
  simp only [List.mem_flatMap, nodeOf, Defines]
  constructor
  · rintro (⟨s, ⟨file, member, held⟩, named, rfl⟩ | none)
    · rw [parseFile_file held]
      exact ⟨member, s, held, named⟩
    · simp [Dict.listed] at none
  · rintro ⟨member, s, held, named⟩
    exact .inl ⟨s, ⟨other, member, held⟩, named, parseFile_file held⟩

theorem nodup_symbolsByName (name : String) :
    (Dict.listed (buildCodegraph repo maxFiles).symbolsByName name).Nodup := by
  apply nodup_listed_foldl_nameSymbol
  exact fun _ => List.nodup_nil

theorem symbolsByName_ne_nil {name : String} {files : List String}
    (h : (buildCodegraph repo maxFiles).symbolsByName.lookup name = some files) : files ≠ [] := by
  apply named_foldl_nameSymbol _ _ h
  intro _ _ none
  cases none

end

end Onmc.Codegraph

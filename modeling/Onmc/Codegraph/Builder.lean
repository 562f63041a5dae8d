import Mathlib.Data.List.Sort
import Mathlib.Data.String.Basic
import Onmc.Dict
import Onmc.PurePath
import Onmc.PyText

/-! The graph of a repository's source files: who imports whom, which tests exercise a file, and
what a query for a file or a symbol gives. Files are their paths below the root. -/
namespace Onmc.Codegraph

open PurePath (Part partsOf suffix stem)

inductive SymbolKind where
  | func | «class»
  deriving DecidableEq

structure Symbol where
  name : String
  kind : SymbolKind
  file : String
  lineno : Nat
  deriving DecidableEq

structure GraphNode where
  file : String
  symbols : List Symbol
  imports : List String
  isTest : Bool
  deriving DecidableEq

structure CodeGraph where
  nodes : List (String × GraphNode)
  symbols : List Symbol
  symbolsByName : List (String × List String)
  dependents : List (String × List String)
  fileTests : List (String × List String)
  fileCount : Nat

structure Neighbors where
  target : String
  targetFiles : List String
  importers : List String
  dependents : List String
  tests : List String
  imports : List String
  deriving DecidableEq

/-- `sorted(set(items))` -/
def sortedSet (items : List String) : List String := items.eraseDups.insertionSort (· ≤ ·)

/-! What the files hold: the parsers' results. -/

structure Definition where
  name : String
  kind : SymbolKind
  lineno : Nat

/-- `ast.Import` and `ast.ImportFrom` -/
inductive Import where
  | names (aliases : List String)
  | importFrom (level : Nat) (module : Option String) (aliases : List String)

/-- A Python file: the definitions of its top level, and its import statements as `ast.walk` meets them. -/
structure Module where
  body : List Definition
  imports : List Import

/-- Another file: its named declarations, and the specifiers of its import statements. -/
structure Parse where
  declarations : List Definition
  specifiers : List String

/-- A directory; links to directories are not among its directories, as they are not followed. -/
inductive Dir where
  | mk (files : List (String × Bool)) (dirs : List (String × Dir))

/-- A repository: its tree, what `_safe_parse` and tree-sitter make of its files, and whether
tree-sitter is there. -/
structure Repo where
  tree : Dir
  safeParse : String → Option Module
  parse : String → Parse
  treesitterAvailable : Bool

/-! Discovery. -/

def excludeDirs : List String :=
  [".git", ".venv", "venv", ".onmc", "__pycache__", ".mypy_cache", ".pytest_cache", ".ruff_cache",
    "node_modules", ".tox", "build", "dist", ".eggs", "site-packages"]

/-- `_EXT_TO_LANGUAGE` -/
def extToLanguage : List (String × String) :=
  [(".js", "javascript"), (".mjs", "javascript"), (".cjs", "javascript"), (".jsx", "javascript"),
    (".ts", "typescript"), (".mts", "typescript"), (".cts", "typescript"), (".tsx", "tsx"),
    (".go", "go"), (".rs", "rust"), (".java", "java")]

def indexableExtensions (available : Bool) : List String :=
  if available then ".py" :: Dict.keys extToLanguage else [".py"]

mutual

/-- `os.walk`, from the top: the files to keep, then those of the directories to enter, by name. -/
def Dir.walk (keep : String × Bool → Bool) : Dir → List String
  | .mk files dirs =>
    ((files.filter keep).map Prod.fst).insertionSort (· ≤ ·) ++
      (((Dir.walks keep dirs).filter (fun dir => dir.1 ∉ excludeDirs ∧ !PyText.startsWith dir.1 ".git")).insertionSort
        (fun a b => a.1 ≤ b.1)).flatMap (fun dir => dir.2.map (fun path => dir.1 ++ "/" ++ path))

def Dir.walks (keep : String × Bool → Bool) : List (String × Dir) → List (String × List String)
  | [] => []
  | dir :: dirs => (dir.1, Dir.walk keep dir.2) :: Dir.walks keep dirs

end

section

variable [Lowercase]

/-- `Path(path).suffix.lower()` -/
def extension (path : String) : String :=
  Lowercase.lower (String.ofList (suffix ((partsOf path.toList).getLast?.getD [])))

/-- The files of the tree; the cap is looked at after a file is taken. -/
def discoverSourceFiles (repo : Repo) (maxFiles : Nat) : List String :=
  let keep := fun file : String × Bool =>
    (indexableExtensions repo.treesitterAvailable).contains (extension file.1) && !file.2
  ((repo.tree.walk keep).take (max maxFiles 1)).insertionSort (· ≤ ·)

def isPython (path : String) : Bool := ['.', 'p', 'y'].isSuffixOf path.toList

/-- `is_test_path` -/
def isTestPath (path : String) : Bool :=
  let lowered := Lowercase.lower path
  let filename := Lowercase.lower (String.ofList ((partsOf path.toList).getLast?.getD []))
  PyText.contains lowered "/tests/" || PyText.startsWith lowered "tests/" ||
    PyText.startsWith filename "test_" ||
    ["_test.py", ".spec.ts", ".test.ts", ".spec.tsx", ".test.tsx", ".spec.js", ".test.js"].any
      (fun ending => ending.toList.isSuffixOf filename.toList)

/-! Parsing. -/

def languageForPath (path : String) : Option String := extToLanguage.lookup (extension path)

/-- `seen`: one symbol of a name on a line. -/
def addSymbol (symbols : List Symbol) (s : Symbol) : List Symbol :=
  if symbols.any (fun t => t.name = s.name ∧ t.lineno = s.lineno) then symbols else symbols ++ [s]

/-- `extract_symbols` -/
def extractSymbols (repo : Repo) (path : String) : List Symbol :=
  match languageForPath path with
  | none => []
  | some _ =>
    (((repo.parse path).declarations.filter (fun d => d.name ≠ "")).map
      (fun d => (⟨d.name, d.kind, path, d.lineno⟩ : Symbol))).foldl addSymbol []

/-- `_parse_file` -/
def parseFile (repo : Repo) (path : String) : GraphNode where
  file := path
  symbols :=
    if isPython path then
      match repo.safeParse path with
      | none => []
      | some tree => tree.body.map (fun d => ⟨d.name, d.kind, path, d.lineno⟩)
    else extractSymbols repo path
  imports := []
  isTest := isTestPath path

end

/-! Names of modules. -/

/-- `".".join(parts)` -/
def dotted (parts : List Part) : String := String.ofList (['.'].intercalate parts)

/-- `Path(path).with_suffix("").parts` -/
def bareParts (path : String) : List Part :=
  match (partsOf path.toList).getLast? with
  | none => []
  | some name => (partsOf path.toList).dropLast ++ [stem name]

/-- The parts of a module's own dotted path; a package is named by its directory. -/
def moduleParts (path : String) : List Part :=
  let parts := bareParts path
  if parts.getLast? = some "__init__".toList then parts.dropLast else parts

/-- `_module_names_for` -/
def moduleNamesFor (path : String) : List String :=
  PyText.fromKeys ((List.range (moduleParts path).length).map (fun start => dotted ((moduleParts path).drop start)))

def packageParts (path : String) : List Part := (bareParts path).dropLast

/-! Imports. -/

/-- `parts[:stop]` -/
def upTo (stop : Int) (parts : List Part) : List Part :=
  if 0 ≤ stop then parts.take stop.toNat else parts.take (parts.length + stop).toNat

/-- A module and the names asked of it, each as a module of its own. -/
def named (base : String) (aliases : List String) : List String :=
  let start := if base = "" then "" else base ++ "."
  ((if base = "" then [] else [base]) ++ aliases.map (start ++ ·)).filter (fun name => name ≠ "")

/-- `anchor` -/
def anchor (level : Nat) (module : Option String) (package : List Part) : List Part :=
  upTo (package.length - (level - 1)) package ++
    match module with
    | none => []
    | some name => if name = "" then [] else name.toList.splitOn '.'

/-- `_resolve_import_from` -/
def resolveImportFrom (level : Nat) (module : Option String) (aliases : List String) (package : List Part) :
    List String :=
  if level = 0 then named (module.getD "") aliases else named (dotted (anchor level module package)) aliases

def Import.rawNames (package : List Part) : Import → List String
  | .names aliases => aliases
  | .importFrom level module aliases => resolveImportFrom level module aliases package

/-- `_raw_imports` -/
def rawImports (repo : Repo) (path : String) : List String :=
  match repo.safeParse path with
  | none => []
  | some tree => PyText.fromKeys (tree.imports.flatMap (Import.rawNames (packageParts path)))

/-- `_resolve_relative_specifier`: climbing past the root stays at the root. -/
def settle (parts : List Part) (part : Part) : List Part := if part = ['.', '.'] then parts.dropLast else parts ++ [part]

section

variable [Lowercase]

def resolveRelativeSpecifier (path specifier : String) : List String :=
  let raw := (partsOf path.toList).dropLast ++ partsOf specifier.toList
  let reached := String.ofList (['/'].intercalate (raw.foldl settle []))
  let extensions := [".ts", ".tsx", ".js", ".jsx", ".mjs", ".cjs", ".mts", ".cts"]
  if reached = "" then []
  else if (Dict.keys extToLanguage).contains (extension reached) then [reached]
  else extensions.map (reached ++ ·) ++ extensions.map (reached ++ "/index" ++ ·)

/-- `extract_import_targets` -/
def extractImportTargets (repo : Repo) (path : String) : List String :=
  if languageForPath path ∈ [some "javascript", some "typescript", some "tsx"] then
    PyText.fromKeys (((repo.parse path).specifiers.filter
      (fun spec => PyText.startsWith spec "./" || PyText.startsWith spec "../")).flatMap (resolveRelativeSpecifier path))
  else []

/-! The graph. -/

/-- Every Python file asks for its names in turn, and the first one is given it. -/
def moduleIndex (files : List String) : List (String × String) :=
  ((files.filter isPython).flatMap (fun path => (moduleNamesFor path).map (fun name => (name, path)))).foldl
    (fun index pair => Dict.setDefault pair.1 pair.2 index) []

/-- The sorted targets of a file's imports, itself left out. -/
def resolved (repo : Repo) (files : List String) (path : String) : List String :=
  sortedSet
    (if isPython path then
      ((rawImports repo path).filterMap (fun raw => (moduleIndex files).lookup raw)).filter (· ≠ path)
    else (extractImportTargets repo path).filter (fun target => target ∈ files ∧ target ≠ path))

def nodeOf (repo : Repo) (files : List String) (path : String) : GraphNode :=
  { parseFile repo path with imports := resolved repo files path }

/-- Each target with the file that imports it. -/
def edges (repo : Repo) (files : List String) (path : String) : List (String × String) :=
  (resolved repo files path).map (fun target => (target, path))

/-- `{path: sorted(listed) for path, listed in sorted(items)}` -/
def sortedItems (items : List (String × List String)) : List (String × List String) :=
  (items.insertionSort (fun a b => a.1 ≤ b.1)).map (fun item => (item.1, item.2.insertionSort (· ≤ ·)))

/-- `symbols_by_name` -/
def nameSymbol (byName : List (String × List String)) (symbol : Symbol) : List (String × List String) :=
  let held := Dict.listed byName symbol.name
  Dict.setItem symbol.name (if held.contains symbol.file then held else held ++ [symbol.file]) byName

def buildCodegraph (repo : Repo) (maxFiles : Nat) : CodeGraph :=
  let files := discoverSourceFiles repo maxFiles
  let nodes := files.foldl (fun nodes path => Dict.setItem path (nodeOf repo files path) nodes) []
  let symbols := files.flatMap (fun path => (nodeOf repo files path).symbols)
  let unlinked := files.foldl (fun links path => Dict.setItem path [] links) []
  let all := files.flatMap (edges repo files)
  let tested := (files.filter (fun path => (nodeOf repo files path).isTest)).flatMap (edges repo files)
  { nodes := nodes
    symbols := symbols
    symbolsByName := symbols.foldl nameSymbol []
    dependents := sortedItems (all.foldl (fun links edge => Dict.addTo edge.1 edge.2 links) unlinked)
    fileTests := sortedItems (tested.foldl (fun links edge => Dict.addTo edge.1 edge.2 links) [])
    fileCount := files.length }

end

/-! Queries. -/

/-- `target.strip().replace("\\", "/").lstrip("./")` -/
def normalise (target : String) : String :=
  String.ofList (((PyText.strip target).toList.map (fun c => if c = '\\' then '/' else c)).dropWhile
    (fun c => c == '.' || c == '/'))

/-- `path == normalised or path.endswith("/" + normalised)` -/
def matchesPath (normalised path : String) : Bool :=
  path = normalised || ('/' :: normalised.toList).isSuffixOf path.toList

/-- `_resolve_target` -/
def resolveTarget (graph : CodeGraph) (target : String) : List String :=
  if normalise target ∈ Dict.keys graph.nodes then [normalise target]
  else
    match graph.symbolsByName.lookup target with
    | some files => files
    | none => ((Dict.keys graph.nodes).filter (matchesPath (normalise target))).insertionSort (· ≤ ·)

def neighbors (graph : CodeGraph) (target : String) : Neighbors :=
  let targetFiles := resolveTarget graph target
  let importers := targetFiles.flatMap (Dict.listed graph.dependents)
  let tests := targetFiles.flatMap (Dict.listed graph.fileTests)
  let imports := targetFiles.flatMap (fun file => ((graph.nodes.lookup file).map GraphNode.imports).getD [])
  { target := target
    targetFiles := targetFiles.insertionSort (· ≤ ·)
    importers := sortedSet importers
    dependents := sortedSet (importers ++ tests)
    tests := sortedSet tests
    imports := sortedSet (imports.filter (· ∉ targetFiles)) }

end Onmc.Codegraph

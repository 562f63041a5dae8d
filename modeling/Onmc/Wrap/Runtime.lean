import Onmc.Json
import Onmc.PyText
import Onmc.ToolBroker.Redaction
import Onmc.Wrap.Workspace

/-! The completion contract of an interactive session: a prompt arms a mission, and a Stop is refused until
the workspace has changed and the verifier passes, within a budget. -/
namespace Onmc.Wrap

open ToolBroker (WordChars)

inductive MissionStatus where
  | active
  | verified
  | exhausted
  deriving DecidableEq

structure InteractiveMission where
  sessionId : String
  goal : String
  verifier : String
  baselineFingerprint : String
  status : MissionStatus
  blocksUsed : Nat
  maxBlocks : Nat
  /-- Times are microseconds since the epoch. -/
  startedAt : Int
  deadlineAtEpoch : Int
  lastReason : String
  runtimeContract : Option Json
  runtimeContractDigest : String

structure CompletionDecision where
  block : Bool
  reason : String
  status : MissionStatus

def defaultMaxBlocks : Nat := 6

/-- 45 minutes. -/
def defaultMaxRuntime : Int := 45 * 60 * 1000000

/-! Which prompts arm. -/

def actionWords : List String := ["add", "build", "change", "create", "debug", "fix", "implement", "migrate",
  "refactor", "remove", "repair", "ship", "test", "update", "write"]

def codeWords : List String := ["api", "app", "auth", "authentication", "backend", "bug", "ci", "class", "cli", "code",
  "component", "database", "endpoint", "feature", "frontend", "function", "gateway", "integration", "login",
  "module", "package", "payment", "pr", "repo", "repository", "schema", "service", "test", "tests", "ui", "webhook"]

/-- `re.search(r"\b(…)\b", text, re.IGNORECASE)`: a whole run of word characters is one of the words. -/
def hasWord [WordChars] (words : List String) (text : String) : Bool :=
  (PyText.runs (fun c => !WordChars.isWord c) text.toList).any (fun run =>
    words.contains (String.ofList (run.map Char.toLower)))

def promptIsCodingWork [WordChars] (prompt : String) : Bool :=
  let text := PyText.strip prompt
  text ≠ "" && hasWord actionWords text && hasWord codeWords text

/-- What `detect_verifier` looks at. -/
structure Project where
  isFile : String → Bool
  /-- What `package.json` is read as. -/
  packageJson : Json
  makefile : String

/-- `(?m)^test\s*:` somewhere in the text. -/
def hasTestTarget (text : String) : Bool :=
  (PyText.split '\n' text).tails.any (fun lines =>
    let rest := (PyText.join "\n" lines).toList
    "test".toList.isPrefixOf rest && ((rest.drop 4).dropWhile PyText.isSpace).head? == some ':')

/-- `scripts.test` of `package.json` is a string. -/
def hasTestScript (packageJson : Json) : Bool :=
  match (packageJson.get? "scripts").bind (·.get? "test") with
  | some (.str _) => true
  | _ => false

def detectVerifier (p : Project) : Option String :=
  if p.isFile "pyproject.toml" || p.isFile "pytest.ini" then some "pytest"
  else if p.isFile "package.json" && hasTestScript p.packageJson then some "npm test"
  else if p.isFile "Cargo.toml" then some "cargo test"
  else if p.isFile "go.mod" then some "go test ./..."
  else if p.isFile "Makefile" && hasTestTarget p.makefile then some "make test"
  else none

/-! Arming and stopping. -/

/-- The contract that the harness planner compiles for a goal and a verifier, with its digest. -/
class Planner where
  compile : String → String → Option (Json × String)

/-- The workspace, and the mission files. -/
structure State where
  workspace : Workspace
  missions : String → Option InteractiveMission

/-- `_write_mission` -/
def State.write (s : State) (key : String) (mission : InteractiveMission) : State :=
  { s with missions := fun k => if k = key then some mission else s.missions k }

variable [Tools]

/-- `_mission_key` -/
def missionKey (sessionId : String) : String := PyText.first 24 (Tools.sha256 (utf8 sessionId))

def State.load (s : State) (sessionId : String) : Option InteractiveMission := s.missions (missionKey sessionId)

section
variable [WordChars] [Planner]

/-- The mission that a prompt starts. -/
def newMission (w : Workspace) (sessionId prompt verifier : String) (now : Int) : InteractiveMission where
  sessionId := sessionId
  goal := PyText.strip prompt
  verifier := verifier
  baselineFingerprint := workspaceFingerprint w
  status := .active
  blocksUsed := 0
  maxBlocks := defaultMaxBlocks
  startedAt := now
  deadlineAtEpoch := now + defaultMaxRuntime
  lastReason := ""
  runtimeContract := (Planner.compile (PyText.strip prompt) verifier).map Prod.fst
  runtimeContractDigest := ((Planner.compile (PyText.strip prompt) verifier).map Prod.snd).getD ""

/-- The file after a prompt, and the mission it leaves. -/
def armMission (s : State) (sessionId prompt : String) (strict : Bool) (now : Int) (project : Project) :
    State × Option InteractiveMission :=
  if !strict || sessionId == "" || !promptIsCodingWork prompt then (s, none)
  else
    match (s.load sessionId).filter (fun m => m.status = .active) with
    | some existing => (s, some existing)
    | none =>
      match detectVerifier project with
      | none => (s, none)
      | some verifier =>
        let mission := newMission s.workspace sessionId prompt verifier now
        (s.write (missionKey sessionId) mission, some mission)

end

/-- Whether the Stop finds the mission's contract satisfied, and the evidence. -/
def examine (w : Workspace) (m : InteractiveMission) (verifierRunner : String → Bool × String) : Bool × String :=
  let current := workspaceFingerprint w
  if current = "" ∨ current = m.baselineFingerprint then
    (false, "No repository change was observed after the mission started.")
  else
    let (passed, output) := verifierRunner m.verifier
    (passed, if passed then "Verifier `" ++ m.verifier ++ "` passed."
      else "Verifier `" ++ m.verifier ++ "` failed:\n" ++ (if output = "" then "(no output)" else output))

def exhaustedReason (m : InteractiveMission) : String :=
  "ONMC runtime budget exhausted before verified completion. Last evidence: " ++
    (if m.lastReason = "" then "none" else m.lastReason)

def blockedReason (m : InteractiveMission) (evidence : String) : String :=
  "ONMC completion contract is not satisfied for: " ++ m.goal ++ "\n" ++ evidence ++ "\n" ++
    "Continue autonomously: inspect the evidence, make the smallest correct " ++
    "change, rerun the relevant tests, and do not ask the user for low-risk implementation choices."

/-- A Stop of a mission that is active. -/
def judge (w : Workspace) (m : InteractiveMission) (now : Int) (verifierRunner : String → Bool × String) :
    InteractiveMission × CompletionDecision :=
  if m.maxBlocks ≤ m.blocksUsed ∨ m.deadlineAtEpoch ≤ now then
    ({ m with status := .exhausted, lastReason := exhaustedReason m }, ⟨false, exhaustedReason m, .exhausted⟩)
  else
    let (passed, evidence) := examine w m verifierRunner
    if passed then ({ m with status := .verified, lastReason := evidence }, ⟨false, "", .verified⟩)
    else
      ({ m with blocksUsed := m.blocksUsed + 1, lastReason := evidence },
        ⟨true, blockedReason m evidence, .active⟩)

def evaluateCompletion (s : State) (sessionId : String) (strict : Bool) (now : Int)
    (verifierRunner : String → Bool × String) : State × Option CompletionDecision :=
  if !strict || sessionId == "" then (s, none)
  else
    match (s.load sessionId).filter (fun m => m.status = .active) with
    | none => (s, none)
    | some mission =>
      let (mission', decision) := judge s.workspace mission now verifierRunner
      (s.write (missionKey sessionId) mission', some decision)

end Onmc.Wrap

import Mathlib.Algebra.Order.Field.Rat
import Onmc.DurableRuntime.Store
import Onmc.Fnmatch
import Onmc.Interact.Program
import Onmc.Lines
import Onmc.Loop.Routing
import Onmc.Service.ManualMemory

/-! The agent loop, as a program over the agent, the verifier, the working tree, the memories and the
checkpoints. A crash may come between any two of its requests. -/
namespace Onmc

/-- `a + b` of two floats, the first of them finite sums -/
def Num.plus (a b : Num) : Num :=
  match a.decimal?, b.decimal? with
  | some a, some b => .float (a.add b)
  | _, _ =>
    match a, b with
    | nan, _ | _, nan => nan
    | infinity a, infinity b => if a = b then infinity a else nan
    | infinity a, _ => infinity a
    | _, b => b

namespace Loop

open Interact
open Onmc.DurableRuntime (pyRepr)
open Onmc.Service (Digest stableId)
open Onmc.Sha256 (sha256)
open Onmc.Storage (Confidence MemoryEntry MemoryKind StrEnum)

structure LoopGoal extends LoopSpec where
  successCriteria : String := ""

/-- The settings of a run. -/
structure RunConfig extends LoopConfig where
  isolate : Bool := false
  allowedPaths : List String := []
  protectedPaths : List String := []

/-- Output from one agent invocation. -/
structure AgentRunResult where
  output : String
  prediction : String
  filesTouched : List String
  tokens : Option Int := none
  costUsd : Option Num := none
  error : Option String := none

structure VerifyOutcome where
  passed : Bool
  output : String

/-- `LoopResult`, as the engine returns it. -/
structure EngineResult where
  iterations : List RoutedContract
  converged : Bool
  stopReason : String
  recordedMemoryIds : List String
  totalTokens : Int
  totalCostUsd : Option Num
  wallSeconds : ℚ

/-! The scope gate. -/

/-- `text.split(mark, 1)[1]`, if the mark is there. -/
def afterMark (mark : List Char) : List Char → Option (List Char)
  | [] => none
  | c :: cs => if mark.isPrefixOf (c :: cs) then some ((c :: cs).drop mark.length) else afterMark mark cs

/-- The path that a line of `git status --porcelain` names. -/
def statusPath (line : String) : Option String :=
  if PyText.startsWith line "##" ∨ line.toList.length < 4 then none
  else
    let path := PyText.stripChars (line.toList.drop 3)
    let path := match afterMark " -> ".toList path with
      | some renamed => PyText.stripChars renamed
      | none => path
    if path = [] then none else some (String.ofList path)

/-- `_files_from_git_status` -/
def filesFromGitStatus (statusOutput : String) : List String :=
  ((Lines.splitlines statusOutput).filterMap statusPath).eraseDups

/-- `_changed_files_delta`: the lines before are no lines of the status after. -/
def changedFilesDelta (preStatus postStatus : String) : List String :=
  let preLines := Lines.splitlines preStatus
  filesFromGitStatus (PyText.join "\n" ((Lines.splitlines postStatus).filter (fun line => ¬ line ∈ preLines)))

/-- `_scope_violation` -/
def scopeViolation (changedFiles allowedPaths protectedPaths : List String) : Option String :=
  let sorted := changedFiles.insertionSort (· ≤ ·)
  let touched := sorted.filter (fun path => protectedPaths.any (Fnmatch.fnmatch path))
  let outside := if allowedPaths = [] then []
    else sorted.filter (fun path => !allowedPaths.any (Fnmatch.fnmatch path))
  let violations := touched.map (fun path => "protected file modified: " ++ pyRepr path) ++
    outside.map (fun path => "out-of-scope file modified: " ++ pyRepr path ++ " (not in allowed_paths)")
  if violations = [] then none else some (PyText.join "; " violations)

/-! What the verifier and the agent say. -/

def maxVerifyOutput : Nat := 2000

/-- `text.lstrip()` -/
def lstrip (text : String) : String := String.ofList (text.toList.dropWhile PyText.isSpace)

/-- `_verifier_unavailable` -/
def verifierUnavailable (output : String) : Bool :=
  ["[verify error:", "[verify timed out]"].any (PyText.startsWith (lstrip output))

def agentUnavailableStops : List (String × String) :=
  [("[credentials-error]", "agent-credentials"), ("[transient-infra]", "agent-unavailable")]

/-- `_agent_error_stop_reason` -/
def agentErrorStopReason (error : String) : String :=
  match agentUnavailableStops.find? (fun stop => PyText.startsWith (lstrip error) stop.1) with
  | some stop => stop.2
  | none => "agent-error"

def permissionBlockMarkers : List String :=
  ["blocked pending your approval", "blocked pending approval", "pending your approval", "requested permissions",
    "requires approval", "permission to write", "haven't granted"]

def permissionBlockHint : String :=
  "[hint] The agent's output suggests its file writes were blocked by permission prompts — a headless agent cannot " ++
  "answer interactive approval dialogs, so it completes without changing anything. Pre-approve the tools it needs in " ++
  "the repo's .claude/settings.json permissions allowlist, e.g. " ++
  "\x7b\"permissions\": \x7b\"allow\": [\"Edit\", \"Write\", \"Bash(pytest:*)\"]\x7d\x7d, then re-run."

def envPatterns : List String :=
  ["permission denied", "permission approval", "pending permission", "file-write blocked", "file-writes blocked",
    "not granted", "network error", "network timeout", "connection error", "connection refused", "connection reset",
    "connection timed out", "read timed out", "request timed out", "rate limit", "rate-limit", "too many requests",
    "http 429", "status 429", "status code 429", "error 429", "429 too many requests", "out of memory", " oom",
    "command not found", "env: pytest: no such file or directory", "executable file not found", "[agent-error]",
    "[scope-unverifiable]"]

inductive FailureCause where
  | environment | approach
  deriving DecidableEq

/-- `_iteration_signature` -/
def iterationSignature (contract : IterationContract) : String :=
  let files := PyText.join "," (contract.filesTouched.insertionSort (· ≤ ·))
  PyText.first 16 (sha256 (files ++ "||" ++ PyText.first 200 contract.verifyOutput))

/-- `_verify_output_head` -/
def verifyOutputHead (output : String) : String := PyText.first 200 output

section

variable [Lowercase]

/-- `_detect_permission_block` -/
def detectPermissionBlock (agentOutput : String) : Bool :=
  permissionBlockMarkers.any (PyText.contains (Lowercase.lower agentOutput))

/-- `_classify_failure_cause` -/
def classifyFailureCause (verifyOutput : String) : FailureCause :=
  if envPatterns.any (PyText.contains (Lowercase.lower verifyOutput)) then .environment else .approach

/-! The verdict on an iteration. -/

structure Judgement where
  verifyPassed : Bool
  outcome : Outcome
  verifyOutput : String
  vacuous : Bool

/-- Whether what is seen has changed, if it can be told. -/
def changed (before after : Option String) : Option Bool :=
  match before, after with
  | some before, some after => some (decide (after ≠ before))
  | _, _ => none

/-- `vacuous_pass` -/
def vacuousPass (runStart pre post : Option String) (outcome : VerifyOutcome) : Bool :=
  outcome.passed && (match changed runStart post with
    | some runMadeChanges => !runMadeChanges
    | none => changed pre post = some false)

/-- The vacuous-pass gate. -/
def vacuousGate (runStart pre post : Option String) (agentOutput : String) (outcome : VerifyOutcome) : Judgement :=
  if vacuousPass runStart pre post outcome then
    ⟨false, .loss, "[no-op] this run produced no net file changes; the verify command passed but the result is " ++
      "vacuous — it reflects pre-existing state, not that the goal was addressed.\n\n" ++
      (if detectPermissionBlock agentOutput then permissionBlockHint ++ "\n\n" else "") ++ outcome.output, true⟩
  else ⟨outcome.passed, if outcome.passed then .win else .loss, outcome.output, false⟩

/-- The scope gate, on a verdict. -/
def scopeGate (config : RunConfig) (pre post : Option String) (j : Judgement) : Judgement :=
  if j.outcome = .win ∧ (config.allowedPaths ≠ [] ∨ config.protectedPaths ≠ []) then
    match pre, post with
    | some pre, some post =>
      match scopeViolation (changedFilesDelta pre post) config.allowedPaths config.protectedPaths with
      | some violation =>
        { j with verifyPassed := false, outcome := .loss
                 verifyOutput := "[scope-violation] " ++ violation ++ ". The verify command passed but the agent " ++
                   "modified files outside the declared scope.\n\n" ++ j.verifyOutput }
      | none => j
    | _, _ =>
      { j with verifyPassed := false, outcome := .loss
               verifyOutput := "[scope-unverifiable] scope constraints are declared (allowed_paths/protected_paths) " ++
                 "but the working-tree change probe is unavailable, so the change set cannot be confirmed to stay in " ++
                 "scope; failing safe.\n\n" ++ j.verifyOutput }
  else j

def judge (config : RunConfig) (runStart pre post : Option String) (agentOutput : String) (outcome : VerifyOutcome) :
    Judgement :=
  scopeGate config pre post (vacuousGate runStart pre post agentOutput outcome)

end

/-- What is recorded of an iteration. -/
def contractOf (i : Nat) (result : AgentRunResult) (route : JsonDict) (verifyPassed : Bool) (verifyOutput : String)
    (outcome : Outcome) : RoutedContract where
  iteration := i
  prediction := result.prediction
  actionSummary := PyText.first 400 result.output
  filesTouched := result.filesTouched
  verifyPassed := verifyPassed
  verifyOutput := PyText.first maxVerifyOutput verifyOutput
  outcome := outcome
  tokens := result.tokens
  routeDecision := some route

/-! The requests of the loop. -/

inductive Request where
  | clock
  | shouldContinue
  | promptRecall (goal : String)
  | deadEnds (goal : String)
  | probe
  | agent (prompt : String) (escalationLevel : Int)
  | verify (command : String)
  | upsert (entry : MemoryEntry)
  | load (sha8 : String)
  | save (sha8 : String) (state : CheckpointState)
  | clear (sha8 : String)
  | setup
  | teardown (keep : Bool)

/-- The agent, the verifier and the storage may raise; the texts of the brief are missing where building them does. -/
abbrev Request.Reply : Request → Type
  | clock => ℚ
  | shouldContinue => Bool
  | promptRecall _ | deadEnds _ => Option String
  | probe => Option String
  | agent _ _ => Except String AgentRunResult
  | verify _ => Except String VerifyOutcome
  | upsert _ => Except String Unit
  | load _ => Option CheckpointState
  | save _ _ | clear _ | teardown _ => Unit
  | setup => Bool

@[reducible] def engine : Interface where
  Request := Request
  Reply := Request.Reply
  Task := Empty
  Value := Empty
  Failure := String

abbrev Code (α : Type) := Program engine α

def ask (request : Request) : Code request.Reply := Program.request (I := engine) request

def ofExcept (outcome : Except String α) : Code α := Program.ofExcept (I := engine) outcome

def whenever (condition : Bool) (code : Code Unit) : Code Unit := if condition then code else .ret ()

/-- The arguments of `run_loop`: whether a checkpoint store and a `should_continue` are given, and the rest. -/
structure RunArgs where
  spec : LoopGoal
  config : RunConfig
  now : DateTime
  checkpoints : Bool
  resume : Bool
  watched : Bool

def RunArgs.sha8 (a : RunArgs) : String := loopSpecSha8 sha256 a.spec.goal a.config.verifyCommand

/-- The variables of the loop. The signature of the tree as the run began is there once it has been seen. -/
structure Progress extends LoopState where
  consecutiveNoops : Int := 0
  runStart : Option (Option String) := none

/-- `_save_checkpoint` -/
def saveCheckpoint (a : RunArgs) (p : Progress) : Code Unit :=
  whenever a.checkpoints (ask (.save a.sha8 (p.checkpoint a.spec.goal a.config.verifyCommand)))

/-- `_make_result` -/
def makeResult (a : RunArgs) (wallStart : ℚ) (worktree : Bool) (p : Progress) (converged : Bool) (stopReason : String) :
    Code EngineResult := do
  whenever worktree (ask (.teardown converged))
  whenever (a.checkpoints && !resumableStops.contains stopReason) (ask (.clear a.sha8))
  let now ← ask .clock
  return { iterations := p.iterations, converged, stopReason, recordedMemoryIds := p.recordedMemoryIds
           totalTokens := p.totalTokens
           totalCostUsd := if Num.lt (.int 0) p.totalCostUsd then some p.totalCostUsd else none
           wallSeconds := max 0 (now - wallStart) }

def overdue (a : RunArgs) (wallStart : ℚ) : Code Bool :=
  match a.config.maxWallSeconds with
  | none => .ret false
  | some limit => do
    let now ← ask .clock
    return decide (now - wallStart ≥ limit)

def continues (a : RunArgs) : Code Bool := if a.watched then ask .shouldContinue else .ret true

/-- The checks before an iteration. -/
def limitReached (a : RunArgs) (wallStart : ℚ) (p : Progress) : Code (Option String) :=
  if a.config.budgetTokens.any (fun budget => decide (p.totalTokens ≥ budget)) then .ret (some "budget")
  else if a.config.maxCostUsd.any (fun limit => Num.le (.float limit) p.totalCostUsd) then .ret (some "cost")
  else do
    let late ← overdue a wallStart
    if late then return some "wall-time"
    else do
      let goes ← continues a
      return if goes then none else some "aborted"

/-- What is added to the variables when the next episode is routed, with the receipt of the routing. -/
def routed (a : RunArgs) (i : Nat) (p : Progress) : Except String (TrajectoryRouteDecision × JsonDict × Progress) := do
  let decision := routeNextIteration ⟨i, p.escalationLevel, p.consecutiveLosses, a.config.escalationThreshold,
    p.consecutiveNoops, p.consecutiveSameError, p.totalTokens, p.totalCostUsd, p.lastLoss⟩
  let advice ← shadowModelAdvice p.toLoopState p.consecutiveNoops a.config.budgetTokens
    (a.config.maxCostUsd.map .float)
  let receipt := match advice with
    | some advice => decision.toDict.set "shadow_model_advice" (.dict advice.toDict)
    | none => decision.toDict
  let escalations := if advice.any (fun advice => advice.action = .recommendEscalation) then 1 else 0
  return (decision, receipt, { p with
    shadowEscalations := p.shadowEscalations + escalations
    escalationLevel := decision.escalationLevel
    consecutiveLosses := if decision.resetConsecutiveLosses then 0 else p.consecutiveLosses })

/-- `_build_brief` -/
def buildBrief (goal : String) (lastLoss : Option RoutedContract) (escalationLevel : Int) : Code String := do
  let recalled ← ask (.promptRecall goal)
  let guarded ← ask (.deadEnds goal)
  let failure := lastLoss.map fun loss =>
    "## Last attempt failed\n\n**What was tried:** " ++ loss.actionSummary ++ "\n\n**Prediction that failed:** " ++
      loss.prediction ++ "\n\n**Verify output (truncated):**\n```\n" ++ PyText.first 500 loss.verifyOutput ++ "\n```\n"
  let escalation := if escalationLevel > 0 then
      some ("## Escalation level " ++ toString escalationLevel ++ "\n\nPrevious strategies failed multiple times in a " ++
        "row. Try a fundamentally different approach — do not repeat the pattern of prior attempts.")
    else none
  return PyText.join "\n\n" ((recalled.filter (· ≠ "")).toList ++ guarded.toList ++ failure.toList ++ escalation.toList)

def promptOf (spec : LoopGoal) (routePrompt brief : String) : String :=
  "## Goal\n\n" ++ spec.goal ++ "\n\n" ++
    (if spec.successCriteria = "" then "" else "## Success criteria\n\n" ++ spec.successCriteria ++ "\n\n") ++
    (if routePrompt = "" then "" else routePrompt ++ "\n\n") ++ brief

/-- What a reply of the agent adds to the spending. -/
def Progress.charge (p : Progress) (result : AgentRunResult) : Progress :=
  { p with
    totalTokens := p.totalTokens + result.tokens.getD 0
    tokenTelemetryComplete := p.tokenTelemetryComplete && result.tokens.isSome
    totalCostUsd := match result.costUsd with
      | some cost => p.totalCostUsd.plus cost
      | none => p.totalCostUsd
    costTelemetryComplete := p.costTelemetryComplete && result.costUsd.isSome }

def Progress.append (p : Progress) (contract : RoutedContract) : Progress :=
  { p with iterations := p.iterations ++ [contract] }

/-! What is remembered. -/

def winConfidence : Confidence := ⟨.normalize 85 2, by decide⟩
def lossConfidence : Confidence := ⟨.normalize 9 1, by decide⟩

section

variable [Digest]

/-- `_record_win` -/
def winEntry (goal : String) (contract : IterationContract) (now : DateTime) : MemoryEntry :=
  let summary := "Approach that worked for goal: " ++ PyText.first 120 goal ++ ". Action: " ++
    PyText.first 200 contract.actionSummary ++ "."
  MemoryEntry.validated {
    id := stableId [StrEnum.value MemoryKind.decision, "loop-win:" ++ PyText.first 80 goal, summary, "loop:engine"] "loop"
    kind := .decision
    title := "Loop win: " ++ PyText.first 80 goal
    summary
    details := "Prediction: " ++ contract.prediction ++ "\nFiles touched: " ++ PyText.join ", " contract.filesTouched
    sourceType := .session
    sourceRef := "loop:engine"
    tags := ["loop-win", "loop"]
    confidence := winConfidence
    feedbackScore := .ofInt 0
    createdAt := now
    updatedAt := now
    staleness := none
    lastVerifiedAt := none
    promotionState := .injectable }

/-- The memory of `_record_loss` -/
def lossEntry (goal : String) (contract : IterationContract) (now : DateTime) : MemoryEntry :=
  let summary := "Failed approach for goal: " ++ PyText.first 120 goal ++ ". Tried: " ++
    PyText.first 200 contract.actionSummary ++ ". Prediction was: " ++ PyText.first 100 contract.prediction ++ "."
  let source := "loop:iter:" ++ toString contract.iteration
  MemoryEntry.validated {
    id := stableId [StrEnum.value MemoryKind.failedApproach, "loop-deadend:" ++ PyText.first 80 goal, summary, source]
      "loop"
    kind := .failedApproach
    title := "Loop dead-end (iter " ++ toString contract.iteration ++ "): " ++ PyText.first 60 goal
    summary
    details := "Verify output:\n" ++ PyText.first 800 contract.verifyOutput ++ "\n\nFiles touched: " ++
      PyText.join ", " contract.filesTouched
    sourceType := .session
    sourceRef := source
    tags := ["loop-deadend", "loop", "failed_approach"]
    confidence := lossConfidence
    feedbackScore := .ofInt 0
    createdAt := now
    updatedAt := now
    staleness := none
    lastVerifiedAt := none
    promotionState := .injectable }

def remember (entry : MemoryEntry) (p : Progress) : Code Progress := do
  let stored ← ask (.upsert entry)
  ofExcept stored
  return { p with recordedMemoryIds := p.recordedMemoryIds ++ [entry.id] }

variable [Lowercase]

/-- `_record_loss` -/
def recordLoss (a : RunArgs) (contract : RoutedContract) (p : Progress) : Code Progress :=
  match classifyFailureCause contract.verifyOutput with
  | .environment => .ret p
  | .approach => remember (lossEntry a.spec.goal contract.toIterationContract a.now) p

/-! One iteration. -/

inductive Turn where
  | stop (p : Progress) (converged : Bool) (stopReason : String)
  | next (p : Progress)

/-- An iteration in which nothing was verified: it is recorded, and the run stops. -/
def stopUnverified (a : RunArgs) (contract : RoutedContract) (p : Progress) (stopReason : String) : Code Turn := do
  let p ← recordLoss a contract (p.append contract)
  saveCheckpoint a p
  return .stop p false stopReason

def countOf (counts : JsonDict) (signature : String) : Int := ((counts.get signature).bind JsonValue.asInt).getD 0

/-- The circuit breakers after a loss: the variables that they leave, and why the run stops. -/
def breakers (config : RunConfig) (contract : RoutedContract) (vacuous : Bool) (p : Progress) :
    Progress × Option String :=
  let p := { p with consecutiveLosses := p.consecutiveLosses + 1, lastLoss := some contract,
                    consecutiveNoops := if vacuous then p.consecutiveNoops + 1 else 0 }
  if vacuous ∧ config.noChangeLimit > 0 ∧ p.consecutiveNoops ≥ config.noChangeLimit then (p, some "no-changes")
  else
    let signature := iterationSignature contract.toIterationContract
    let count := countOf p.signatureCounts signature + 1
    let p := { p with signatureCounts := p.signatureCounts.set signature (.int count) }
    if config.duplicateActionLimit > 0 ∧ count ≥ config.duplicateActionLimit then (p, some "duplicate-action")
    else
      let head := verifyOutputHead contract.verifyOutput
      let same := if config.repeatedErrorLimit > 0 then
          if p.lastErrorHead = some head then p.consecutiveSameError + 1 else 1
        else p.consecutiveSameError
      let p := { p with consecutiveSameError := same, lastErrorHead := some head }
      if config.repeatedErrorLimit > 0 ∧ same ≥ config.repeatedErrorLimit then (p, some "repeated-error")
      else if count ≥ config.noProgressWindow then (p, some "no-progress")
      else (p, none)

/-- What follows the verdict. -/
def settle (a : RunArgs) (contract : RoutedContract) (vacuous : Bool) (p : Progress) : Code Turn :=
  match contract.outcome with
  | .win => do
    let p ← remember (winEntry a.spec.goal contract.toIterationContract a.now)
      { p.append contract with consecutiveNoops := 0 }
    saveCheckpoint a p
    return .stop p true "converged"
  | .loss => do
    let p ← recordLoss a contract (p.append contract)
    let (p, stopReason) := breakers a.config contract vacuous p
    saveCheckpoint a p
    return match stopReason with
      | some stopReason => .stop p false stopReason
      | none => .next p

/-- The agent has replied. -/
def verified (a : RunArgs) (i : Nat) (route : JsonDict) (pre : Option String) (result : AgentRunResult) (p : Progress) :
    Code Turn :=
  match result.error with
  | some error =>
    stopUnverified a (contractOf i result route false ("[agent-error] " ++ error) .loss) p (agentErrorStopReason error)
  | none => do
    let reply ← ask (.verify a.config.verifyCommand)
    let outcome ← ofExcept reply
    if verifierUnavailable outcome.output then
      stopUnverified a (contractOf i result route false outcome.output .loss) p "verifier-unavailable"
    else do
      let post ← ask .probe
      let j := judge a.config (p.runStart.getD pre) pre post result.output outcome
      settle a (contractOf i result route j.verifyPassed j.verifyOutput j.outcome) j.vacuous p

def iteration (a : RunArgs) (i : Nat) (p : Progress) : Code Turn := do
  let (decision, route, p) ← ofExcept (routed a i p)
  let brief ← buildBrief a.spec.goal p.lastLoss p.escalationLevel
  let pre ← ask .probe
  let p := { p with runStart := some (p.runStart.getD pre) }
  let reply ← ask (.agent (promptOf a.spec (renderRoutePrompt decision) brief) p.escalationLevel)
  let result ← ofExcept reply
  verified a i route pre result (p.charge result)

/-- The loop, over the iterations that are left. -/
def iterate (a : RunArgs) (wallStart : ℚ) (worktree : Bool) : Nat → Nat → Progress → Code EngineResult
  | 0, _, p => do
    saveCheckpoint a p
    makeResult a wallStart worktree p false "max-iterations"
  | n + 1, i, p => do
    let limit ← limitReached a wallStart p
    match limit with
    | some stopReason => makeResult a wallStart worktree p false stopReason
    | none => do
      let turn ← iteration a i p
      match turn with
      | .stop p converged stopReason => makeResult a wallStart worktree p converged stopReason
      | .next p => iterate a wallStart worktree n (i + 1) p

/-- The state in which the loop is entered. -/
def begin_ (a : RunArgs) : Code LoopState :=
  if a.resume && a.checkpoints then do
    let saved ← ask (.load a.sha8)
    return match saved with
      | some saved => .restore saved
      | none => .fresh
  else .ret .fresh

def isolated (a : RunArgs) : Code Bool := if a.config.isolate then ask .setup else .ret false

def runLoop (a : RunArgs) : Code EngineResult := do
  let worktree ← isolated a
  let start ← begin_ a
  let wallStart ← ask .clock
  iterate a wallStart worktree (a.config.maxIterations + 1 - start.resumeFrom).toNat start.resumeFrom { start with }

end

end Loop
end Onmc

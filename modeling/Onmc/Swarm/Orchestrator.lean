import Onmc.Loop.Receipt
import Onmc.Runtime.NativeBackend
import Onmc.Swarm.RuntimeContract

/-! The swarm orchestrator: the handler that runs the loop of one unit, and the result that is put
together once the graph has been executed. -/
namespace Onmc.Swarm

open Onmc.Loop (LoopResult)
open Onmc.Runtime (Checked EvidenceRef HandlerError NodeResult NodeResultStatus NodeSpec RunResult
  RunResultStatus orDefault)

/-- Result for a single swarm unit. -/
structure SwarmUnitResult where
  unitId : String
  status : String
  loopResult : Option LoopResult
  receiptPath : Option String
  costUsd : Num
  error : Option String := none
  worktreePath : Option String := none
  branch : Option String := none
  verifyOutput : Option String := none

/-- What running a unit comes to, if no exception ends it: an abort or the cost cap keeps it from
starting, its loop raises, or its loop returns. -/
inductive LoopRun where
  | refused
  | raised (text : String) (worktreePath branch : Option String)
  | finished (result : LoopResult) (abortRequested : Bool) (receiptPath worktreePath branch : Option String)

def zeroCost : Num := .float (.ofInt 0)

def loopStatus (result : LoopResult) (abortRequested : Bool) : String :=
  if result.stopReason = "aborted" ∨ (abortRequested ∧ result.converged = false) then "aborted"
  else if result.converged then "done"
  else "failed"

/-- `_run_one` -/
def runOne (preserveFailedWorktrees : Bool) (unitId : String) : LoopRun → SwarmUnitResult
  | .refused =>
    { unitId, status := "aborted", loopResult := none, receiptPath := none, costUsd := zeroCost }
  | .raised text worktreePath branch =>
    { unitId, status := "failed", loopResult := none, receiptPath := none, costUsd := zeroCost
      error := some text
      worktreePath := if preserveFailedWorktrees then worktreePath else none
      branch := if preserveFailedWorktrees then branch else none }
  | .finished result abortRequested receiptPath worktreePath branch =>
    let status := loopStatus result abortRequested
    let preserved := result.converged || preserveFailedWorktrees
    { unitId, status, loopResult := some result, receiptPath
      costUsd := match result.totalCostUsd with
        | some cost => .float cost
        | none => zeroCost
      error := if status = "failed" then some ("loop stopped: " ++ result.stopReason) else none
      worktreePath := if preserved then worktreePath else none
      branch := if preserved then branch else none
      verifyOutput := result.iterations.getLast?.map (·.verifyOutput) }

/-- What one call of a unit's handler meets. The receipt is read twice, each time as the digest of the
file, if it is there; each reading may raise, and so may the rewriting of the manifest. -/
structure Attempt where
  run : Except HandlerError LoopRun
  receipt : Except HandlerError (Option String)
  rewriting : Option HandlerError
  reread : Except HandlerError (Option String)

/-- A `RuntimeContractError` in a handler. -/
def contractual (checked : Checked α) : Except HandlerError α :=
  checked.mapError (fun message => ⟨.runtimeContract, message⟩)

section Handler

variable (swarmId : String) (preserveFailedWorktrees : Bool) (unitId : String)

/-- `_receipt_evidence` -/
def receiptEvidence (result : SwarmUnitResult) (read : Except HandlerError (Option String)) :
    Except HandlerError (List EvidenceRef) :=
  match result.receiptPath with
  | none => .ok []
  | some path => do
    let found ← read
    match found with
    | none => return []
    | some digest => do
      let evidence ← contractual (Runtime.construct EvidenceRef.postInit
        ⟨swarmId ++ ":" ++ result.unitId ++ ":receipt", if result.status = "done" then "completion" else "receipt",
          path, some ("sha256:" ++ digest)⟩)
      return [evidence.1]

/-- `_unit_result_output` -/
def unitResultOutput (result : SwarmUnitResult) : List (String × Json) :=
  [("branch", .ofOption .str result.branch), ("cost_usd", .num result.costUsd),
    ("error", .ofOption .str result.error), ("receipt_path", .ofOption .str result.receiptPath),
    ("total_tokens", .num (.int (match result.loopResult with
      | some loop => loop.totalTokens
      | none => 0))),
    ("unit_status", .str result.status), ("verify_output", .ofOption .str result.verifyOutput),
    ("worktree_path", .ofOption .str result.worktreePath)]

/-- The handler up to the entry it makes in `live_unit_results`. -/
def settle (attempt : Attempt) : Except HandlerError SwarmUnitResult := do
  let run ← attempt.run
  let result := runOne preserveFailedWorktrees unitId run
  let evidence ← receiptEvidence swarmId result attempt.receipt
  if result.status = "done" ∧ evidence = [] then
    match attempt.rewriting with
    | some e => throw e
    | none => return { result with
        status := "failed", error := some "verified worker did not produce a digest-backed receipt" }
  else return result

def nodeStatus (status : String) : NodeResultStatus :=
  if status = "done" then .succeeded else if status = "aborted" then .skipped else .failed

/-- What the handler returns after that. -/
def answer (node : NodeSpec) (result : SwarmUnitResult) (attempt : Attempt) : Except HandlerError NodeResult := do
  let evidence ← receiptEvidence swarmId result attempt.reread
  contractual (NodeResult.construct
    ⟨node.nodeId, nodeStatus result.status, orDefault node.idempotencyKey (swarmId ++ ":unit:" ++ unitId),
      unitResultOutput result, evidence,
      if nodeStatus result.status = .succeeded then none
      else some (orDefault result.error ("swarm unit " ++ unitId ++ " " ++ result.status))⟩)

/-- `_handler`: the live entry it makes, if it comes to that, and what it returns or raises. -/
def handler (node : NodeSpec) (attempt : Attempt) : Option SwarmUnitResult × Except HandlerError NodeResult :=
  match settle swarmId preserveFailedWorktrees unitId attempt with
  | .error e => (none, .error e)
  | .ok result => (some result, answer swarmId unitId node result attempt)

end Handler

/-! The result of a swarm. -/

/-- `output.get(key)` where it is a text. -/
def outputText (result : NodeResult) (key : String) : Option String :=
  match result.output.lookup key with
  | some (.str text) => some text
  | _ => none

/-- `_unit_result_from_node_result` -/
def unitResultFromNodeResult (result : NodeResult) : SwarmUnitResult where
  unitId := result.nodeId
  status := (outputText result "unit_status").getD "failed"
  loopResult := none
  receiptPath := outputText result "receipt_path"
  costUsd := match result.output.lookup "cost_usd" with
    | some (.num cost) => cost.toFloat
    | some (.bool b) => .float (.ofInt (if b then 1 else 0))
    | _ => zeroCost
  error := (outputText result "error").or result.error
  worktreePath := outputText result "worktree_path"
  branch := outputText result "branch"
  verifyOutput := outputText result "verify_output"

/-- `persisted`: the results but the fan-in's, by node id. -/
def persisted (results : List NodeResult) : List (String × NodeResult) :=
  (results.filter (fun result => result.nodeId ≠ "fan-in")).foldl
    (fun items result => Dict.setItem result.nodeId result items) []

def notExecuted (unitId : String) : SwarmUnitResult where
  unitId := unitId
  status := "aborted"
  loopResult := none
  receiptPath := none
  costUsd := zeroCost
  error := some "not executed because a dependency failed or the parent run stopped"

/-- The result of a unit: what its handler noted in this process, else its persisted result. -/
def unitResult (live : Option SwarmUnitResult) (results : List NodeResult) (unitId : String) : SwarmUnitResult :=
  match live, (persisted results).lookup unitId with
  | some result, _ => result
  | none, some result => unitResultFromNodeResult result
  | none, none => notExecuted unitId

def countStatus (results : List SwarmUnitResult) (status : String) : Nat :=
  results.countP (fun result => result.status = status)

def stopReason (capped abortRequested : Bool) (status : RunResultStatus) (failed : Nat) : String :=
  if capped then "cost-cap"
  else if abortRequested ∨ status = .cancelled then "aborted"
  else if status = .failed ∨ failed ≠ 0 then "failed"
  else "completed"

/-- `total_tokens` of a node result, where it is an integer. -/
def outputTokens (result : NodeResult) : Int :=
  match result.output.lookup "total_tokens" with
  | some (.num (.int tokens)) => tokens
  | some (.bool b) => if b then 1 else 0
  | _ => 0

/-- Aggregated result for a completed swarm run. -/
structure SwarmResult where
  swarmId : String
  unitResults : List SwarmUnitResult
  totalTokens : Int
  stopReason : String
  unitsDone : Nat
  unitsFailed : Nat
  unitsAborted : Nat

/-- `run_swarm` once the graph has been executed, with the live results as they are read. -/
def assemble (swarmId : String) (units : List SwarmContractUnit) (live : String → Option SwarmUnitResult)
    (run : RunResult) (capped abortRequested : Bool) : SwarmResult :=
  let results := units.map (fun unit => unitResult (live unit.unitId) run.results unit.unitId)
  { swarmId
    unitResults := results
    totalTokens := ((persisted run.results).map (fun item => outputTokens item.2)).sum
    stopReason := stopReason capped abortRequested run.status (countStatus results "failed")
    unitsDone := countStatus results "done"
    unitsFailed := countStatus results "failed"
    unitsAborted := countStatus results "aborted" }

/-! The handler. -/

def SwarmUnitResult.Counted (result : SwarmUnitResult) : Prop :=
  result.status = "done" ∨ result.status = "failed" ∨ result.status = "aborted"

/-- The loop converged, and the evidence of its receipt carried a digest. -/
def Attempt.Verified (attempt : Attempt) : Prop :=
  ∃ result abortRequested path worktreePath branch digest,
    attempt.run = .ok (.finished result abortRequested (some path) worktreePath branch) ∧
    result.converged = true ∧ attempt.receipt = .ok (some digest)

variable {swarmId unitId : String} {preserve : Bool}

theorem loopStatus_counted (result : LoopResult) (abortRequested : Bool) :
    loopStatus result abortRequested = "done" ∨ loopStatus result abortRequested = "failed" ∨
      loopStatus result abortRequested = "aborted" := by
  unfold loopStatus
  split
  · exact .inr (.inr rfl)
  · split
    · exact .inl rfl
    · exact .inr (.inl rfl)

theorem loopStatus_done {result : LoopResult} {abortRequested : Bool}
    (h : loopStatus result abortRequested = "done") : result.converged = true := by
  unfold loopStatus at h
  split at h
  · simp at h
  · split at h
    · assumption
    · simp at h

theorem runOne_counted (run : LoopRun) : (runOne preserve unitId run).Counted := by
  cases run with
  | refused => exact .inr (.inr rfl)
  | raised text worktreePath branch => exact .inr (.inl rfl)
  | finished result abortRequested receiptPath worktreePath branch => exact loopStatus_counted result abortRequested

@[simp] theorem runOne_unitId (run : LoopRun) : (runOne preserve unitId run).unitId = unitId := by
  cases run <;> rfl

theorem runOne_done {run : LoopRun} (h : (runOne preserve unitId run).status = "done") :
    ∃ result abortRequested worktreePath branch,
      run = .finished result abortRequested (runOne preserve unitId run).receiptPath worktreePath branch ∧
        result.converged = true := by
  cases run with
  | refused => simp [runOne] at h
  | raised text worktreePath branch => simp [runOne] at h
  | finished result abortRequested receiptPath worktreePath branch =>
    exact ⟨result, abortRequested, worktreePath, branch, rfl, loopStatus_done h⟩

/-- Evidence of a receipt is the digest of its file. -/
theorem receiptEvidence_found {result : SwarmUnitResult} {read : Except HandlerError (Option String)}
    {evidence : List EvidenceRef} (h : receiptEvidence swarmId result read = .ok evidence) (some_ : evidence ≠ []) :
    ∃ path digest, result.receiptPath = some path ∧ read = .ok (some digest) := by
  unfold receiptEvidence at h
  cases there : result.receiptPath with
  | none =>
    simp only [there, Except.ok.injEq] at h
    exact absurd h.symm some_
  | some path =>
    simp only [there] at h
    obtain ⟨found, hf, h⟩ := Except.bind_ok.mp h
    cases found with
    | none => exact absurd (Except.ok.inj h).symm some_
    | some digest => exact ⟨path, digest, rfl, hf⟩

/-- What a handler notes is counted once, and it is done only when the attempt is verified. -/
theorem settle_ok {attempt : Attempt} {result : SwarmUnitResult}
    (h : settle swarmId preserve unitId attempt = .ok result) :
    result.unitId = unitId ∧ result.Counted ∧ (result.status = "done" → attempt.Verified) := by
  obtain ⟨run, hr, h⟩ := Except.bind_ok.mp h
  obtain ⟨evidence, he, h⟩ := Except.bind_ok.mp h
  split at h
  · cases rewriting : attempt.rewriting with
    | some e => simp [rewriting, throw, throwThe, MonadExceptOf.throw] at h
    | none =>
      simp only [rewriting] at h
      cases h
      refine ⟨runOne_unitId run, .inr (.inl rfl), ?_⟩
      intro done
      simp at done
  · rename_i backed
    cases h
    refine ⟨runOne_unitId run, runOne_counted run, ?_⟩
    intro done
    obtain ⟨result, abortRequested, worktreePath, branch, same, converged⟩ := runOne_done done
    obtain ⟨path, digest, there, read⟩ := receiptEvidence_found he (fun none => backed ⟨done, none⟩)
    rw [there] at same
    exact ⟨result, abortRequested, path, worktreePath, branch, digest, same ▸ hr, converged, read⟩

theorem nodeStatus_succeeded {status : String} : nodeStatus status = .succeeded ↔ status = "done" := by
  unfold nodeStatus
  split
  · simp [*]
  · split <;> simp [*]

/-- A node result reads back as the unit result it was made of. -/
theorem answer_ok {node : NodeSpec} {result : SwarmUnitResult} {attempt : Attempt} {reply : NodeResult}
    (h : answer swarmId unitId node result attempt = .ok reply) :
    reply.nodeId = node.nodeId ∧ (unitResultFromNodeResult reply).status = result.status ∧
      (reply.status = .succeeded ↔ result.status = "done") := by
  obtain ⟨evidence, _, h⟩ := Except.bind_ok.mp h
  unfold contractual NodeResult.construct at h
  cases passed : NodeResult.postInit _ with
  | error message =>
    rw [passed] at h
    cases h
  | ok u =>
    rw [passed] at h
    cases h
    exact ⟨rfl, rfl, nodeStatus_succeeded⟩

end Onmc.Swarm

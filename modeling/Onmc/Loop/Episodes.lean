import Onmc.Loop.Engine

/-! What a run of the loop has done, read off what it was told: the episodes it went through, and the state of the
loop after them. -/
namespace Onmc.Loop

open Interact

/-! Histories. -/

def act : Mark engine → Option (Mark engine)
  | .asked .probe reply => some (.asked .probe reply)
  | .asked (.agent prompt level) reply => some (.asked (.agent prompt level) reply)
  | .asked (.verify command) reply => some (.asked (.verify command) reply)
  | _ => none

/-- What was done with the agent, the verifier and the working tree. -/
def acts (h : List (Mark engine)) : List (Mark engine) := h.filterMap act

def reading : Mark engine → Option ℚ
  | .asked .clock now => some now
  | _ => none

def clocks (h : List (Mark engine)) : List ℚ := h.filterMap reading

def goAhead : Mark engine → Option Bool
  | .asked .shouldContinue reply => some reply
  | _ => none

def goAheads (h : List (Mark engine)) : List Bool := h.filterMap goAhead

def found : Mark engine → Option CheckpointState
  | .asked (.load _) (some saved) => some saved
  | _ => none

/-- The state that the run began in: what it loaded, or a fresh one. -/
def begun (h : List (Mark engine)) : LoopState :=
  match h.findSome? found with
  | some saved => .restore saved
  | none => .fresh

/-! Episodes. -/

/-- How an episode ends: the agent failed, the verifier could not run, or there is a verdict. -/
inductive Ending where
  | erred (error : String)
  | unavailable (outcome : VerifyOutcome)
  | judged (outcome : VerifyOutcome) (post : Option String)

structure Episode where
  pre : Option String
  prompt : String
  level : Int
  result : AgentRunResult
  ending : Ending

section

variable (a : RunArgs)

def Ending.marks : Ending → List (Mark engine)
  | erred _ => []
  | unavailable outcome => [.asked (.verify a.config.verifyCommand) (.ok outcome)]
  | judged outcome post => [.asked (.verify a.config.verifyCommand) (.ok outcome), .asked .probe post]

def Episode.marks (e : Episode) : List (Mark engine) :=
  .asked .probe e.pre :: .asked (.agent e.prompt e.level) (.ok e.result) :: e.ending.marks a

end

/-- The variables once the agent has replied. -/
def Progress.told (p : Progress) (pre : Option String) (result : AgentRunResult) : Progress :=
  Progress.charge { p with runStart := some (p.runStart.getD pre) } result

def Progress.remembering (p : Progress) (id : String) : Progress :=
  { p with recordedMemoryIds := p.recordedMemoryIds ++ [id] }

theorem routed_runStart {a : RunArgs} {i : Nat} {p p₁ : Progress} {decision : TrajectoryRouteDecision} {route : JsonDict}
    (routed : routed a i p = .ok (decision, route, p₁)) : p₁.runStart = p.runStart := by
  obtain ⟨advice, _, made⟩ := Except.bind_ok.mp routed
  cases made
  rfl

variable [Service.Digest] [Lowercase]

/-- The variables once a loss is recorded. -/
def Progress.recordingLoss (p : Progress) (a : RunArgs) (contract : RoutedContract) : Progress :=
  match classifyFailureCause contract.verifyOutput with
  | .environment => p.append contract
  | .approach => (p.append contract).remembering (lossEntry a.spec.goal contract.toIterationContract a.now).id

def Progress.recordingWin (p : Progress) (a : RunArgs) (contract : RoutedContract) : Progress :=
  Progress.remembering { p.append contract with consecutiveNoops := 0 }
    (winEntry a.spec.goal contract.toIterationContract a.now).id

/-- The turn that a verdict leads to. -/
def settled (a : RunArgs) (contract : RoutedContract) (vacuous : Bool) (p : Progress) : Turn :=
  match contract.outcome with
  | .win => .stop (p.recordingWin a contract) true "converged"
  | .loss =>
    let (p, stopReason) := breakers a.config contract vacuous (p.recordingLoss a contract)
    match stopReason with
    | some stopReason => .stop p false stopReason
    | none => .next p

/-- What an episode of iteration `i` makes of the variables. -/
inductive Takes (a : RunArgs) (i : Nat) (p : Progress) (e : Episode) : Turn → Prop
  | erred {decision : TrajectoryRouteDecision} {route : JsonDict} {p₁ : Progress} {error : String}
      (routed : routed a i p = .ok (decision, route, p₁)) (failed : e.result.error = some error)
      (ending : e.ending = .erred error) :
      Takes a i p e (.stop
        ((p₁.told e.pre e.result).recordingLoss a (contractOf i e.result route false ("[agent-error] " ++ error) .loss)) false
        (agentErrorStopReason error))
  | unavailable {decision : TrajectoryRouteDecision} {route : JsonDict} {p₁ : Progress} {outcome : VerifyOutcome}
      (routed : routed a i p = .ok (decision, route, p₁)) (replied : e.result.error = none)
      (ending : e.ending = .unavailable outcome) (stuck : verifierUnavailable outcome.output = true) :
      Takes a i p e (.stop ((p₁.told e.pre e.result).recordingLoss a (contractOf i e.result route false outcome.output .loss)) false
        "verifier-unavailable")
  | judged {decision : TrajectoryRouteDecision} {route : JsonDict} {p₁ : Progress} {outcome : VerifyOutcome}
      {post : Option String} {j : Judgement}
      (routed : routed a i p = .ok (decision, route, p₁)) (replied : e.result.error = none)
      (ending : e.ending = .judged outcome post) (ran : verifierUnavailable outcome.output = false)
      (judged : judge a.config (p.runStart.getD e.pre) e.pre post e.result.output outcome = j) :
      Takes a i p e (settled a (contractOf i e.result route j.verifyPassed j.verifyOutput j.outcome) j.vacuous
        (p₁.told e.pre e.result))

/-- The variables after some episodes, none of which has stopped the run. -/
inductive Reaches (a : RunArgs) (start : LoopState) : List Episode → Progress → Prop
  | start : Reaches a start [] { start with }
  | next {es : List Episode} {p p' : Progress} {e : Episode} (reaches : Reaches a start es p)
      (takes : Takes a (start.resumeFrom + es.length) p e (.next p')) : Reaches a start (es ++ [e]) p'

/-! What the program asks for, and how it ends. -/

/-- The checks before an iteration let it go ahead. -/
structure GoesAhead (a : RunArgs) (h : List (Mark engine)) (p : Progress) : Prop where
  tokens : ∀ budget, a.config.budgetTokens = some budget → p.totalTokens < budget
  cost : ∀ limit, a.config.maxCostUsd = some limit → Num.le (.float limit) p.totalCostUsd = false
  time : ∀ limit, a.config.maxWallSeconds = some limit →
    ∃ first now, (clocks h).head? = some first ∧ (clocks h).getLast? = some now ∧ now - first < limit
  watched : a.watched = true → (goAheads h).getLast? = some true

/-- The agent is asked in the state that the episodes so far have led to, within the limits. -/
def Allowed (a : RunArgs) (h : List (Mark engine)) : Prop :=
  ∃ es p pre, Reaches a (begun h) es p ∧ acts h = es.flatMap (Episode.marks a) ++ [.asked .probe pre] ∧
    (((begun h).resumeFrom + es.length : Nat) : Int) ≤ a.config.maxIterations ∧ GoesAhead a h p

/-- The result is read off the variables. -/
structure Reports (h : List (Mark engine)) (p : Progress) (converged : Bool) (stopReason : String) (r : EngineResult) :
    Prop where
  iterations : r.iterations = p.iterations
  converged : r.converged = converged
  stopReason : r.stopReason = stopReason
  recorded : r.recordedMemoryIds = p.recordedMemoryIds
  tokens : r.totalTokens = p.totalTokens
  cost : r.totalCostUsd = if Num.lt (.int 0) p.totalCostUsd then some p.totalCostUsd else none
  wall : ∃ first now, (clocks h).head? = some first ∧ (clocks h).getLast? = some now ∧ r.wallSeconds = max 0 (now - first)

/-- A check before an iteration stops the run. -/
inductive Halts (a : RunArgs) (h : List (Mark engine)) (p : Progress) : String → Prop
  | tokens {budget : Int} (set : a.config.budgetTokens = some budget) (spent : budget ≤ p.totalTokens) :
      Halts a h p "budget"
  | cost {limit : Decimal} (set : a.config.maxCostUsd = some limit)
      (spent : Num.le (.float limit) p.totalCostUsd = true) : Halts a h p "cost"
  | time {limit : Int} {first now : ℚ} (set : a.config.maxWallSeconds = some limit)
      (began : (clocks h).head? = some first) (member : now ∈ clocks h) (passed : limit ≤ now - first) :
      Halts a h p "wall-time"
  | aborted (watched : a.watched = true) (last : (goAheads h).getLast? = some false) : Halts a h p "aborted"

/-- How a run ends: between two iterations, after the last one, or in one. -/
inductive Ended (a : RunArgs) (h : List (Mark engine)) (r : EngineResult) : Prop
  | between {es : List Episode} {p : Progress} {stopReason : String} (reaches : Reaches a (begun h) es p)
      (acts : acts h = es.flatMap (Episode.marks a)) (halts : Halts a h p stopReason)
      (reports : Reports h p false stopReason r)
  | exhausted {es : List Episode} {p : Progress} (reaches : Reaches a (begun h) es p)
      (acts : acts h = es.flatMap (Episode.marks a))
      (last : a.config.maxIterations < (((begun h).resumeFrom + es.length : Nat) : Int))
      (reports : Reports h p false "max-iterations" r)
  | within {es : List Episode} {p p' : Progress} {e : Episode} {converged : Bool} {stopReason : String}
      (reaches : Reaches a (begun h) es p) (acts : acts h = (es ++ [e]).flatMap (Episode.marks a))
      (takes : Takes a ((begun h).resumeFrom + es.length) p e (.stop p' converged stopReason))
      (reports : Reports h p' converged stopReason r)

end Onmc.Loop

import Onmc.Loop.Soundness

/-! The limits of a run, the accounts that it keeps, and the reasons for which it stops. -/
namespace Onmc.Loop

open Interact

/-! What was spent. -/

def replied : Mark engine → Option AgentRunResult
  | .asked (.agent _ _) (.ok result) => some result
  | _ => none

def replies (h : List (Mark engine)) : List AgentRunResult := (acts h).filterMap replied

def addTokens (total : Int) (result : AgentRunResult) : Int := total + result.tokens.getD 0

def addCost (total : Num) (result : AgentRunResult) : Num :=
  match result.costUsd with
  | some cost => total.plus cost
  | none => total

def spentTokens (h : List (Mark engine)) : Int := (replies h).foldl addTokens (begun h).totalTokens

def spentCost (h : List (Mark engine)) : Num := (replies h).foldl addCost (begun h).totalCostUsd

theorem replied_marks (a : RunArgs) (e : Episode) : (e.marks a).filterMap replied = [e.result] := by
  obtain ⟨pre, prompt, level, result, ending⟩ := e
  cases ending <;> rfl

theorem replied_episodes (a : RunArgs) (es : List Episode) :
    (es.flatMap (Episode.marks a)).filterMap replied = es.map Episode.result := by
  induction es with
  | nil => rfl
  | cons e es ih =>
    rw [List.flatMap_cons, List.filterMap_append, replied_marks, ih, List.map_cons, List.singleton_append]

theorem replies_eq {a : RunArgs} {h : List (Mark engine)} {es : List Episode}
    (seen : acts h = es.flatMap (Episode.marks a)) : replies h = es.map Episode.result := by
  rw [replies, seen, replied_episodes]

/-! What an episode leaves. -/

/-- What an iteration records of a reply of the agent. -/
def Tells (contract : RoutedContract) (result : AgentRunResult) : Prop :=
  contract.prediction = result.prediction ∧ contract.actionSummary = PyText.first 400 result.output ∧
    contract.filesTouched = result.filesTouched ∧ contract.tokens = result.tokens

/-- The variables after iteration `i`: it is recorded, and what the agent spent in it is added. -/
structure Charges (i : Nat) (p : Progress) (result : AgentRunResult) (p' : Progress) : Prop where
  tokens : p'.totalTokens = addTokens p.totalTokens result
  cost : p'.totalCostUsd = addCost p.totalCostUsd result
  recorded : ∃ contract, p'.iterations = p.iterations ++ [contract] ∧ contract.iteration = i ∧ Tells contract result

def Turn.progress : Turn → Progress
  | stop p _ _ | next p => p

/-- Two states of the loop that agree on what was spent and on what is recorded. -/
structure SameAccounts (p p' : Progress) : Prop where
  tokens : p'.totalTokens = p.totalTokens
  cost : p'.totalCostUsd = p.totalCostUsd
  iterations : p'.iterations = p.iterations

theorem routed_accounts {a : RunArgs} {i : Nat} {p p₁ : Progress} {decision : TrajectoryRouteDecision} {route : JsonDict}
    (routed : routed a i p = .ok (decision, route, p₁)) : SameAccounts p p₁ := by
  obtain ⟨advice, _, made⟩ := Except.bind_ok.mp routed
  cases made
  exact ⟨rfl, rfl, rfl⟩

theorem charges_of {i : Nat} {p p₁ p' : Progress} {pre : Option String} {result : AgentRunResult}
    {contract : RoutedContract} (before : SameAccounts p p₁)
    (after : SameAccounts ((p₁.told pre result).append contract) p')
    (index : contract.iteration = i) (tells : Tells contract result) : Charges i p result p' where
  tokens := by
    rw [after.tokens, addTokens, ← before.tokens]
    rfl
  cost := by
    rw [after.cost, addCost, ← before.cost]
    rfl
  recorded := by
    refine ⟨contract, ?_, index, tells⟩
    rw [after.iterations, ← before.iterations]
    rfl

section

variable [Service.Digest] [Lowercase] {a : RunArgs} {start : LoopState} {es : List Episode} {e : Episode} {i : Nat}
  {p p' : Progress} {turn : Turn} {h : List (Mark engine)}

theorem recordingLoss_accounts (contract : RoutedContract) :
    SameAccounts (p.append contract) (p.recordingLoss a contract) := by
  unfold Progress.recordingLoss
  split <;> exact ⟨rfl, rfl, rfl⟩

theorem Settles.accounts {contract : RoutedContract} {vacuous : Bool} (settles : Settles a contract vacuous p turn) :
    SameAccounts (p.append contract) turn.progress := by
  have recorded := recordingLoss_accounts (p := p) (a := a) contract
  have kept := breakers_kept a.config contract vacuous (p.recordingLoss a contract)
  have whole : SameAccounts (p.append contract) (breakers a.config contract vacuous (p.recordingLoss a contract)).1 :=
    ⟨kept.tokens.trans recorded.tokens, kept.cost.trans recorded.cost, kept.iterations.trans recorded.iterations⟩
  cases settles with
  | win won => exact ⟨rfl, rfl, rfl⟩
  | stopped lost left =>
    rw [left] at whole
    exact whole
  | passed lost left =>
    rw [left] at whole
    exact whole

theorem takes_charges (takes : Takes a i p e turn) : Charges i p e.result turn.progress := by
  cases takes with
  | erred routed failed ending =>
    exact charges_of (routed_accounts routed) (recordingLoss_accounts _) rfl ⟨rfl, rfl, rfl, rfl⟩
  | unavailable routed replied ending stuck =>
    exact charges_of (routed_accounts routed) (recordingLoss_accounts _) rfl ⟨rfl, rfl, rfl, rfl⟩
  | judged routed replied ending ran judged =>
    exact charges_of (routed_accounts routed) (settled_settles rfl).accounts rfl ⟨rfl, rfl, rfl, rfl⟩

theorem takes_replied (takes : Takes a i p e turn) (next : turn = .next p') : e.result.error = none := by
  cases takes with
  | erred routed failed ending => cases next
  | unavailable routed replied ending stuck => cases next
  | judged routed replied ending ran judged => exact replied

/-- The variables after these replies of the agent, one an iteration. -/
structure Charged (start : LoopState) (results : List AgentRunResult) (p : Progress) : Prop where
  tokens : p.totalTokens = results.foldl addTokens start.totalTokens
  cost : p.totalCostUsd = results.foldl addCost start.totalCostUsd
  recorded : ∃ contracts, p.iterations = start.iterations ++ contracts ∧
    contracts.map (·.iteration) = List.range' start.resumeFrom results.length ∧ List.Forall₂ Tells contracts results

omit [Service.Digest] [Lowercase] in
theorem Charged.next {results : List AgentRunResult} {result : AgentRunResult} (charged : Charged start results p)
    (charges : Charges (start.resumeFrom + results.length) p result p') : Charged start (results ++ [result]) p' where
  tokens := by rw [charges.tokens, charged.tokens, List.foldl_append]; rfl
  cost := by rw [charges.cost, charged.cost, List.foldl_append]; rfl
  recorded := by
    obtain ⟨contracts, before, numbers, tell⟩ := charged.recorded
    obtain ⟨contract, after, index, tells⟩ := charges.recorded
    refine ⟨contracts ++ [contract], by rw [after, before, List.append_assoc], ?_, ?_⟩
    · rw [List.map_append, numbers, List.length_append, List.length_singleton, List.range'_concat, List.map_singleton,
        index, Nat.one_mul]
    · exact List.rel_append tell (.cons tells .nil)

theorem reaches_charged (reaches : Reaches a start es p) : Charged start (es.map Episode.result) p := by
  induction reaches with
  | start => exact ⟨rfl, rfl, [], (List.append_nil _).symm, rfl, .nil⟩
  | next reaches takes ih =>
    rw [List.map_append]
    exact ih.next (by rw [List.length_map]; exact takes_charges takes)

theorem reaches_replied (reaches : Reaches a start es p) : ∀ result ∈ es.map Episode.result, result.error = none := by
  induction reaches with
  | start => exact fun _ none => absurd none List.not_mem_nil
  | next reaches takes ih =>
    intro result member
    rw [List.map_append] at member
    rcases List.mem_append.mp member with old | new
    · exact ih result old
    · rw [List.mem_singleton.mp new]
      exact takes_replied takes rfl

/-! The limits. -/

/-- The agent may be asked once more: there is an iteration left, what was spent before is below the limits, the time
is not over, the caller has said to go on, and the agent has not failed. -/
structure WithinLimits (a : RunArgs) (h : List (Mark engine)) : Prop where
  iterations : (((begun h).resumeFrom + (replies h).length : Nat) : Int) ≤ a.config.maxIterations
  tokens : ∀ budget, a.config.budgetTokens = some budget → spentTokens h < budget
  cost : ∀ limit, a.config.maxCostUsd = some limit → Num.le (.float limit) (spentCost h) = false
  time : ∀ limit, a.config.maxWallSeconds = some limit →
    ∃ first now, (clocks h).head? = some first ∧ (clocks h).getLast? = some now ∧ now - first < limit
  watched : a.watched = true → (goAheads h).getLast? = some true
  replied : ∀ result ∈ replies h, result.error = none

/-- Wherever a run asks the agent, it is within its limits. -/
theorem asks_within_limits {prompt : String} {level : Int} {next : Except String AgentRunResult → Code EngineResult}
    (follows : Follows (runLoop a) h (.ask (I := engine) (Request.agent prompt level) next)) : WithinLimits a h := by
  obtain ⟨es, p, pre, reaches, seen, room, ahead⟩ := ((gives_runLoop a).follows follows).1 prompt level rfl
  have said : replies h = es.map Episode.result := by
    rw [replies, seen, List.filterMap_append, replied_episodes]
    exact List.append_nil _
  have charged := reaches_charged reaches
  constructor
  · rwa [said, List.length_map]
  · intro budget set
    rw [spentTokens, said, ← charged.tokens]
    exact ahead.tokens budget set
  · intro limit set
    rw [spentCost, said, ← charged.cost]
    exact ahead.cost limit set
  · exact ahead.time
  · exact ahead.watched
  · rw [said]
    exact reaches_replied reaches

/-! The result. -/

/-- The result accounts for what the agent has said: every reply is an iteration, numbered in turn, and its tokens and
cost are added to those that the run began with. -/
structure Accounts (h : List (Mark engine)) (r : EngineResult) : Prop where
  tokens : r.totalTokens = spentTokens h
  cost : r.totalCostUsd = if Num.lt (.int 0) (spentCost h) then some (spentCost h) else none
  recorded : ∃ contracts, r.iterations = (begun h).iterations ++ contracts ∧
    contracts.map (·.iteration) = List.range' (begun h).resumeFrom (replies h).length ∧
    List.Forall₂ Tells contracts (replies h)

omit [Service.Digest] [Lowercase] in
theorem Charged.accounts {r : EngineResult} {converged : Bool} {stopReason : String}
    (charged : Charged (begun h) (replies h) p) (reports : Reports h p converged stopReason r) : Accounts h r where
  tokens := reports.tokens.trans charged.tokens
  cost := by rw [reports.cost, charged.cost, spentCost]
  recorded := by
    rw [reports.iterations]
    exact charged.recorded

theorem within_charged (reaches : Reaches a (begun h) es p) (seen : acts h = (es ++ [e]).flatMap (Episode.marks a))
    (takes : Takes a ((begun h).resumeFrom + es.length) p e turn) : Charged (begun h) (replies h) turn.progress := by
  rw [replies_eq seen, List.map_append]
  exact (reaches_charged reaches).next (by rw [List.length_map]; exact takes_charges takes)

theorem result_accounts {r : EngineResult} (follows : Follows (runLoop a) h (.ret r)) : Accounts h r := by
  have ended : Ended a h r := (gives_runLoop a).follows follows r rfl
  cases ended with
  | between reaches seen halts reports => exact (replies_eq seen ▸ reaches_charged reaches).accounts reports
  | exhausted reaches seen last reports => exact (replies_eq seen ▸ reaches_charged reaches).accounts reports
  | within reaches seen takes reports => exact (within_charged reaches seen takes).accounts reports

/-- What is so when a run stops, by the reason it gives. -/
inductive Justified (a : RunArgs) (h : List (Mark engine)) : String → Prop
  | converged (well : EndsWell a h) : Justified a h "converged"
  | budget {budget : Int} (set : a.config.budgetTokens = some budget) (spent : budget ≤ spentTokens h) :
      Justified a h "budget"
  | cost {limit : Decimal} (set : a.config.maxCostUsd = some limit)
      (spent : Num.le (.float limit) (spentCost h) = true) : Justified a h "cost"
  | wallTime {limit : Int} {first now : ℚ} (set : a.config.maxWallSeconds = some limit)
      (began : (clocks h).head? = some first) (read : now ∈ clocks h) (passed : limit ≤ now - first) :
      Justified a h "wall-time"
  | aborted (watched : a.watched = true) (last : (goAheads h).getLast? = some false) : Justified a h "aborted"
  | maxIterations (last : a.config.maxIterations < (((begun h).resumeFrom + (replies h).length : Nat) : Int)) :
      Justified a h "max-iterations"
  | agent {result : AgentRunResult} {error : String} (last : (replies h).getLast? = some result)
      (failed : result.error = some error) : Justified a h (agentErrorStopReason error)
  | verifier {outcome : VerifyOutcome}
      (last : (acts h).getLast? = some (.asked (.verify a.config.verifyCommand) (.ok outcome)))
      (stuck : verifierUnavailable outcome.output = true) : Justified a h "verifier-unavailable"
  | breaker {stopReason : String} (breaker : Breaker a.config stopReason) (lost : ¬ EndsWell a h) :
      Justified a h stopReason

theorem halts_justified {stopReason : String} (reaches : Reaches a (begun h) es p)
    (seen : acts h = es.flatMap (Episode.marks a)) (halts : Halts a h p stopReason) : Justified a h stopReason := by
  have charged : Charged (begun h) (replies h) p := replies_eq seen ▸ reaches_charged reaches
  have tokens : p.totalTokens = spentTokens h := charged.tokens
  have cost : p.totalCostUsd = spentCost h := charged.cost
  cases halts with
  | tokens set spent => exact .budget set (tokens ▸ spent)
  | cost set spent => exact .cost set (cost ▸ spent)
  | time set began read passed => exact .wallTime set began read passed
  | aborted watched last => exact .aborted watched last

theorem takes_justified {converged : Bool} {stopReason : String} (reaches : Reaches a (begun h) es p)
    (seen : acts h = (es ++ [e]).flatMap (Episode.marks a)) (takes : Takes a i p e turn)
    (stop : turn = .stop p' converged stopReason) : Justified a h stopReason := by
  have said := replies_eq seen
  have well := (endsWell_iff reaches seen).trans (takes_converged takes).symm
  cases takes with
  | erred routed failed ending =>
    simp only [Turn.stop.injEq] at stop
    rw [← stop.2.2]
    refine .agent ?_ failed
    rw [said, List.map_append]
    exact List.getLast?_concat
  | unavailable routed replied ending stuck =>
    simp only [Turn.stop.injEq] at stop
    rw [← stop.2.2]
    refine .verifier ?_ stuck
    rw [seen, List.flatMap_append, List.flatMap_singleton, Episode.marks, ending]
    simp [Ending.marks]
  | judged routed replied ending ran judged =>
    cases settled_settles stop with
    | win won => exact .converged (well.mpr ⟨_, _, stop⟩)
    | stopped lost left =>
      refine .breaker (breakers_stopReason (congrArg Prod.snd left)) fun ends => ?_
      obtain ⟨_, _, won⟩ := well.mp ends
      rw [stop] at won
      cases won

/-- A run gives the true reason for its stop. -/
theorem stop_justified {r : EngineResult} (follows : Follows (runLoop a) h (.ret r)) : Justified a h r.stopReason := by
  have ended : Ended a h r := (gives_runLoop a).follows follows r rfl
  cases ended with
  | between reaches seen halts reports => exact reports.stopReason ▸ halts_justified reaches seen halts
  | exhausted reaches seen last reports =>
    refine reports.stopReason ▸ .maxIterations ?_
    rwa [replies_eq seen, List.length_map]
  | within reaches seen takes reports => exact reports.stopReason ▸ takes_justified reaches seen takes rfl

end

/-! The checkpoints. -/

def stored : Mark engine → Option String
  | .asked (.upsert entry) (.ok _) => some entry.id
  | _ => none

/-- The memories that the run has stored. -/
def memories (h : List (Mark engine)) : List String := h.filterMap stored

/-- Nothing that is accounted for has been added. -/
structure Still (h h' : List (Mark engine)) : Prop where
  begun : begun h' = begun h
  replies : replies h' = replies h
  memories : memories h' = memories h

/-- The state accounts for all that the run was told: what the agent spent, its replies, and the memories stored. -/
structure Ledger (h : List (Mark engine)) (iterations : List RoutedContract) (memoryIds : List String) (tokens : Int)
    (cost : Num) : Prop where
  iterations : iterations.length = (begun h).iterations.length + (replies h).length
  memories : memoryIds = (begun h).recordedMemoryIds ++ memories h
  tokens : tokens = spentTokens h
  cost : cost = spentCost h

def Progress.Balanced (p : Progress) (h : List (Mark engine)) : Prop :=
  Ledger h p.iterations p.recordedMemoryIds p.totalTokens p.totalCostUsd

/-- Whatever is saved accounts for all that the run was told before. -/
def bookkeeping : Promise engine :=
  ⟨fun h request => ∀ sha8 state, request = .save sha8 state →
    Ledger h state.iterations state.recordedMemoryIds state.totalTokens state.totalCostUsd,
    fun _ _ => False, fun _ => True⟩

@[simp] theorem replies_concat (h : List (Mark engine)) (mark : Mark engine) :
    replies (h ++ [mark]) = replies h ++ ((act mark).bind replied).toList := by
  rw [replies, acts_concat, List.filterMap_append, ← replies]
  cases act mark with
  | none => rfl
  | some done => cases said : replied done <;> simp [said]

@[simp] theorem memories_concat (h : List (Mark engine)) (mark : Mark engine) :
    memories (h ++ [mark]) = memories h ++ (stored mark).toList := by
  simp only [memories, List.filterMap_append, List.append_cancel_left_eq]
  cases here : stored mark <;> simp [here]

theorem Still.refl (h : List (Mark engine)) : Still h h := ⟨rfl, rfl, rfl⟩

theorem Still.concat {h h' : List (Mark engine)} (still : Still h h') {mark : Mark engine} (other : found mark = none)
    (silent : (act mark).bind replied = none) (unstored : stored mark = none) : Still h (h' ++ [mark]) where
  begun := (begun_concat h' other).trans still.begun
  replies := by rw [replies_concat, silent, still.replies]; exact List.append_nil _
  memories := by rw [memories_concat, unstored, still.memories]; exact List.append_nil _

section Ledgers

variable {h h' : List (Mark engine)} {p p' : Progress}

theorem Still.balanced (still : Still h h') (balanced : p.Balanced h) : p.Balanced h' where
  iterations := by rw [still.begun, still.replies]; exact balanced.iterations
  memories := by rw [still.begun, still.memories]; exact balanced.memories
  tokens := by rw [spentTokens, still.begun, still.replies]; exact balanced.tokens
  cost := by rw [spentCost, still.begun, still.replies]; exact balanced.cost

structure Stores (h h' : List (Mark engine)) (p p' : Progress) : Prop where
  begun : begun h' = begun h
  replies : replies h' = replies h
  memories : ∃ new, p'.recordedMemoryIds = p.recordedMemoryIds ++ new ∧ memories h' = memories h ++ new
  accounts : SameAccounts p p'

theorem Stores.refl (h : List (Mark engine)) (p : Progress) : Stores h h p p :=
  ⟨rfl, rfl, ⟨[], (List.append_nil _).symm, (List.append_nil _).symm⟩, ⟨rfl, rfl, rfl⟩⟩

theorem Stores.balanced (stores : Stores h h' p p') (balanced : p.Balanced h) : p'.Balanced h' where
  iterations := by rw [stores.begun, stores.replies, stores.accounts.iterations]; exact balanced.iterations
  memories := by
    obtain ⟨new, listed, added⟩ := stores.memories
    rw [listed, added, stores.begun, balanced.memories, List.append_assoc]
  tokens := by rw [spentTokens, stores.begun, stores.replies, stores.accounts.tokens]; exact balanced.tokens
  cost := by rw [spentCost, stores.begun, stores.replies, stores.accounts.cost]; exact balanced.cost

/-- The last reply is charged, and its iteration is still to be recorded. -/
def Owing (p : Progress) (h : List (Mark engine)) : Prop := ∀ contract, (p.append contract).Balanced h

theorem owing_told {pre : Option String} {prompt : String} {level : Int} {result : AgentRunResult}
    (balanced : p.Balanced h) : Owing (p.told pre result) (h ++ [.asked (.agent prompt level) (.ok result)]) := by
  have same : begun (h ++ [.asked (.agent prompt level) (.ok result)]) = begun h := begun_concat h rfl
  have said : replies (h ++ [.asked (.agent prompt level) (.ok result)]) = replies h ++ [result] := replies_concat h _
  intro contract
  constructor
  · rw [same, said]
    have before := balanced.iterations
    simp only [Progress.append, List.length_append, List.length_singleton]
    exact (congrArg (· + 1) before).trans (Nat.add_assoc _ _ _)
  · rw [same, memories_concat]
    exact balanced.memories.trans (congrArg _ (List.append_nil _).symm)
  · rw [spentTokens, same, said, List.foldl_append, ← spentTokens, ← balanced.tokens]
    rfl
  · rw [spentCost, same, said, List.foldl_append, ← spentCost, ← balanced.cost]
    rfl

end Ledgers

section Books

variable [Service.Digest] [Lowercase] {a : RunArgs} {h : List (Mark engine)} {p : Progress} {i : Nat}

omit [Service.Digest] [Lowercase] in
theorem books_saveCheckpoint (balanced : p.Balanced h) :
    Gives bookkeeping (fun h' _ => Still h h') (saveCheckpoint a p) h := by
  refine gives_whenever (fun _ => gives_request ?_ fun _ => (Still.refl h).concat rfl rfl rfl) fun _ => .refl h
  intro sha8 state same
  rw [← (Request.save.inj same).2]
  exact balanced

omit [Service.Digest] [Lowercase] in
theorem books_remember (entry : Storage.MemoryEntry) :
    Gives bookkeeping (fun h' p' => Stores h h' p p') (remember entry p) h := by
  refine gives_ask (by rintro _ _ ⟨⟩) fun reply => gives_ok fun _ ok => gives_ret ?_
  subst ok
  exact ⟨begun_concat h rfl, (replies_concat h _).trans (List.append_nil _), ⟨[entry.id], rfl, memories_concat h _⟩,
    ⟨rfl, rfl, rfl⟩⟩

theorem books_recordLoss (contract : RoutedContract) :
    Gives bookkeeping (fun h' p' => Stores h h' p p') (recordLoss a contract p) h := by
  unfold recordLoss
  cases classifyFailureCause contract.verifyOutput with
  | environment => exact gives_ret (.refl h p)
  | approach => exact books_remember _

theorem books_stopUnverified {contract : RoutedContract} {stopReason : String} (owing : Owing p h) :
    Gives bookkeeping (fun h' turn => turn.progress.Balanced h') (stopUnverified a contract p stopReason) h := by
  refine gives_bind (books_recordLoss contract) fun h₁ p₁ stores => ?_
  have balanced := stores.balanced (owing contract)
  exact gives_bind (books_saveCheckpoint balanced) fun h₂ _ still => gives_ret (still.balanced balanced)

omit [Service.Digest] [Lowercase] in
theorem breakers_balanced (config : RunConfig) (contract : RoutedContract) (vacuous : Bool) (balanced : p.Balanced h) :
    (breakers config contract vacuous p).1.Balanced h := by
  have kept := breakers_kept config contract vacuous p
  constructor
  · rw [kept.iterations]
    exact balanced.iterations
  · rw [kept.memories]
    exact balanced.memories
  · rw [kept.tokens]
    exact balanced.tokens
  · rw [kept.cost]
    exact balanced.cost

theorem books_settle {contract : RoutedContract} {vacuous : Bool} (owing : Owing p h) :
    Gives bookkeeping (fun h' turn => turn.progress.Balanced h') (settle a contract vacuous p) h := by
  unfold settle
  cases contract.outcome with
  | win =>
    refine gives_bind (books_remember _) fun h₁ p₁ stores => ?_
    have opening : Progress.Balanced { p.append contract with consecutiveNoops := 0 } h := owing contract
    have balanced := stores.balanced opening
    exact gives_bind (books_saveCheckpoint balanced) fun h₂ _ still => gives_ret (still.balanced balanced)
  | loss =>
    refine gives_bind (books_recordLoss contract) fun h₁ p₁ stores => ?_
    have balanced := breakers_balanced a.config contract vacuous (stores.balanced (owing contract))
    simp only
    revert balanced
    rcases breakers a.config contract vacuous p₁ with ⟨p₂, _ | stopReason⟩
    · intro balanced
      exact gives_bind (books_saveCheckpoint balanced) fun h₂ _ still => gives_ret (still.balanced balanced)
    · intro balanced
      exact gives_bind (books_saveCheckpoint balanced) fun h₂ _ still => gives_ret (still.balanced balanced)

theorem books_verified {route : JsonDict} {pre : Option String} {result : AgentRunResult} (owing : Owing p h) :
    Gives bookkeeping (fun h' turn => turn.progress.Balanced h') (verified a i route pre result p) h := by
  unfold verified
  cases result.error with
  | some error => exact books_stopUnverified owing
  | none =>
    refine gives_ask (by rintro _ _ ⟨⟩) fun reply => gives_ok fun outcome _ => ?_
    have still : Still h (h ++ [.asked (.verify a.config.verifyCommand) reply]) := (Still.refl h).concat rfl rfl rfl
    split
    · exact books_stopUnverified fun contract => still.balanced (owing contract)
    · refine gives_ask (by rintro _ _ ⟨⟩) fun post => ?_
      exact books_settle fun contract => (still.concat rfl rfl rfl).balanced (owing contract)

/-- From iteration to iteration, the variables account for all that the run was told. -/
theorem books_iteration (balanced : p.Balanced h) :
    Gives bookkeeping (fun h' turn => turn.progress.Balanced h') (iteration a i p) h := by
  refine gives_ok ?_
  rintro ⟨decision, route, p₁⟩ routed
  have balanced₁ : p₁.Balanced h := by
    obtain ⟨advice, _, made⟩ := Except.bind_ok.mp routed
    cases made
    exact balanced
  have briefed : Gives bookkeeping (fun h' _ => Still h h')
      (buildBrief a.spec.goal p₁.lastLoss p₁.escalationLevel) h := by
    refine gives_ask (by rintro _ _ ⟨⟩) fun recalled => gives_ask (by rintro _ _ ⟨⟩) fun guarded => gives_ret ?_
    exact ((Still.refl h).concat rfl rfl rfl).concat rfl rfl rfl
  refine gives_bind briefed fun h₁ brief still => ?_
  refine gives_ask (by rintro _ _ ⟨⟩) fun pre => gives_ask (by rintro _ _ ⟨⟩) fun reply => gives_ok fun result ok => ?_
  subst ok
  exact books_verified (owing_told ((still.concat rfl rfl rfl).balanced balanced₁))

omit [Service.Digest] [Lowercase] in
theorem books_limitReached {first : ℚ} :
    Gives bookkeeping (fun h' _ => Still h h') (limitReached a first p) h := by
  have late : Gives bookkeeping (fun h' _ => Still h h') (overdue a first) h := by
    unfold overdue
    cases a.config.maxWallSeconds with
    | none => exact gives_ret (.refl h)
    | some limit =>
      exact gives_ask (by rintro _ _ ⟨⟩) fun now => gives_ret ((Still.refl h).concat rfl rfl rfl)
  unfold limitReached
  split
  · exact gives_ret (.refl h)
  · split
    · exact gives_ret (.refl h)
    · refine gives_bind late fun h₁ passed still => ?_
      split
      · exact gives_ret still
      · unfold continues
        split
        · exact gives_ask (by rintro _ _ ⟨⟩) fun goes => gives_ret (still.concat rfl rfl rfl)
        · exact gives_ret still

/-- The memories that a result lists are those that the run began with and those that it has stored. -/
def Lists (h : List (Mark engine)) (r : EngineResult) : Prop :=
  r.recordedMemoryIds = (begun h).recordedMemoryIds ++ memories h

omit [Service.Digest] [Lowercase] in
theorem books_makeResult {first : ℚ} {worktree converged : Bool} {stopReason : String} (balanced : p.Balanced h) :
    Gives bookkeeping Lists (makeResult a first worktree p converged stopReason) h := by
  have removed : Gives bookkeeping (fun h' _ => Still h h') (whenever worktree (ask (.teardown converged))) h :=
    gives_whenever (fun _ => gives_request (by rintro _ _ ⟨⟩) fun _ => (Still.refl h).concat rfl rfl rfl)
      fun _ => .refl h
  refine gives_bind removed fun h₁ _ still => ?_
  refine gives_bind (Q := fun h' _ => Still h h') (gives_whenever (fun _ => ?_) fun _ => still) fun h₂ _ still => ?_
  · exact gives_request (by rintro _ _ ⟨⟩) fun _ => still.concat rfl rfl rfl
  · exact gives_ask (by rintro _ _ ⟨⟩) fun now => gives_ret ((still.concat rfl rfl rfl).balanced balanced).memories

theorem books_iterate {first : ℚ} {worktree : Bool} {n : Nat} (balanced : p.Balanced h) :
    Gives bookkeeping Lists (iterate a first worktree n i p) h := by
  induction n generalizing h p i with
  | zero =>
    exact gives_bind (books_saveCheckpoint balanced) fun h₁ _ still => books_makeResult (still.balanced balanced)
  | succ n ih =>
    refine gives_bind books_limitReached fun h₁ limit still => ?_
    cases limit with
    | some stopReason => exact books_makeResult (still.balanced balanced)
    | none =>
      refine gives_bind (books_iteration (still.balanced balanced)) fun h₂ turn balanced₂ => ?_
      cases turn with
      | stop p' converged stopReason => exact books_makeResult balanced₂
      | next p' => exact ih balanced₂

theorem books_runLoop (a : RunArgs) : Gives bookkeeping Lists (runLoop a) [] := by
  have isolated : Gives bookkeeping (fun h _ => Still [] h ∧ h.findSome? found = none) (isolated a) [] := by
    unfold Loop.isolated
    cases a.config.isolate with
    | true => exact gives_request (by rintro _ _ ⟨⟩) fun _ => ⟨(Still.refl []).concat rfl rfl rfl, rfl⟩
    | false => exact gives_ret ⟨.refl [], rfl⟩
  refine gives_bind isolated ?_
  rintro h₁ worktree ⟨still, unread⟩
  have entered : Gives bookkeeping (fun h start => begun h = start ∧ replies h = [] ∧ memories h = [])
      (begin_ a) h₁ := by
    unfold begin_
    cases a.resume && a.checkpoints with
    | false => exact gives_ret ⟨by rw [begun, unread], still.replies, still.memories⟩
    | true =>
      refine gives_ask (by rintro _ _ ⟨⟩) fun saved => gives_ret ⟨?_, ?_, ?_⟩
      · rw [begun, List.findSome?_append, unread]
        cases saved <;> rfl
      · rw [replies_concat, still.replies]
        rfl
      · rw [memories_concat, still.memories]
        rfl
  refine gives_bind entered ?_
  rintro h₂ start ⟨rfl, silent, unstored⟩
  refine gives_ask (by rintro _ _ ⟨⟩) fun first => books_iterate ?_
  refine ((Still.refl h₂).concat rfl rfl rfl).balanced ⟨?_, ?_, ?_, ?_⟩
  · rw [silent]
    rfl
  · rw [unstored]
    exact (List.append_nil _).symm
  · rw [spentTokens, silent]
    rfl
  · rw [spentCost, silent]
    rfl

/-- Whatever a run saves accounts for all that it was told before. -/
theorem saves_account {sha8 : String} {state : CheckpointState} {next : Unit → Code EngineResult}
    (follows : Follows (runLoop a) h (.ask (I := engine) (Request.save sha8 state) next)) :
    Ledger h state.iterations state.recordedMemoryIds state.totalTokens state.totalCostUsd :=
  ((books_runLoop a).follows follows).1 sha8 state rfl

theorem result_memories {r : EngineResult} (follows : Follows (runLoop a) h (.ret r)) : Lists h r :=
  (books_runLoop a).follows follows r rfl

/-! The sessions of one mission. -/

/-- A mission has saved this state: a run began fresh, or resumed from what a run before it had saved, and went on to
save it. The mission was told all that the agent said before each of these saves, and stored the memories. -/
inductive Saved : List AgentRunResult → List String → CheckpointState → Prop
  | fresh {a : RunArgs} {h : List (Mark engine)} {sha8 : String} {state : CheckpointState}
      {next : Unit → Code EngineResult} (began : begun h = .fresh)
      (follows : Follows (runLoop a) h (.ask (I := engine) (Request.save sha8 state) next)) :
      Saved (replies h) (memories h) state
  | resumed {said : List AgentRunResult} {ids : List String} {last : CheckpointState} (saved : Saved said ids last)
      {a : RunArgs} {h : List (Mark engine)} {sha8 : String} {state : CheckpointState}
      {next : Unit → Code EngineResult} (began : begun h = .restore last)
      (follows : Follows (runLoop a) h (.ask (I := engine) (Request.save sha8 state) next)) :
      Saved (said ++ replies h) (ids ++ memories h) state

/-- The totals of a mission, over all its sessions. -/
structure Totals (said : List AgentRunResult) (ids : List String) (iterations : Nat) (memoryIds : List String)
    (tokens : Int) (cost : Num) : Prop where
  iterations : iterations = said.length
  memories : memoryIds = ids
  tokens : tokens = said.foldl addTokens 0
  cost : cost = said.foldl addCost LoopState.fresh.totalCostUsd

omit [Service.Digest] [Lowercase] in
theorem totals_fresh {iterations : List RoutedContract} {memoryIds : List String} {tokens : Int} {cost : Num}
    (ledger : Ledger h iterations memoryIds tokens cost) (began : begun h = .fresh) :
    Totals (replies h) (memories h) iterations.length memoryIds tokens cost where
  iterations := by rw [ledger.iterations, began]; exact Nat.zero_add _
  memories := by rw [ledger.memories, began]; rfl
  tokens := by rw [ledger.tokens, spentTokens, began]; rfl
  cost := by rw [ledger.cost, spentCost, began]

omit [Service.Digest] [Lowercase] in
theorem totals_resumed {said : List AgentRunResult} {ids : List String} {last : CheckpointState}
    {iterations : List RoutedContract} {memoryIds : List String} {tokens : Int} {cost : Num}
    (ledger : Ledger h iterations memoryIds tokens cost) (began : begun h = .restore last)
    (totals : Totals said ids last.iterations.length last.recordedMemoryIds last.totalTokens last.totalCostUsd) :
    Totals (said ++ replies h) (ids ++ memories h) iterations.length memoryIds tokens cost where
  iterations := by
    rw [ledger.iterations, began, List.length_append, ← totals.iterations]
    rfl
  memories := by
    rw [ledger.memories, began, ← totals.memories]
    rfl
  tokens := by
    rw [ledger.tokens, spentTokens, began, List.foldl_append, ← totals.tokens]
    rfl
  cost := by
    rw [ledger.cost, spentCost, began, List.foldl_append, ← totals.cost]
    rfl

/-- What a mission saves accounts for all that its sessions were told, however often it crashed after a save. -/
theorem saved_totals {said : List AgentRunResult} {ids : List String} {state : CheckpointState}
    (saved : Saved said ids state) :
    Totals said ids state.iterations.length state.recordedMemoryIds state.totalTokens state.totalCostUsd := by
  induction saved with
  | fresh began follows => exact totals_fresh (saves_account follows) began
  | resumed saved began follows ih => exact totals_resumed (saves_account follows) began ih

end Books

section Example

attribute [local instance] Service.plainDigest Lowercase.ascii

theorem asks_within_limits_oneShot : ∃ h : List (Mark engine), h ≠ [] ∧ WithinLimits oneShot h := by
  have started := (Follows.refl (runLoop oneShot)).ask (0 : ℚ)
  have probed := ((started.ask none).ask none).ask (some "")
  exact ⟨_, by simp, asks_within_limits probed⟩

theorem result_accounts_oneShot : ∃ (h : List (Mark engine)) (r : EngineResult), r.converged = true ∧ Accounts h r := by
  obtain ⟨h, r, follows, converged⟩ := oneShot_run
  exact ⟨h, r, converged, result_accounts follows⟩

theorem stop_justified_oneShot :
    ∃ (h : List (Mark engine)) (r : EngineResult), r.converged = true ∧ Justified oneShot h r.stopReason := by
  obtain ⟨h, r, follows, converged⟩ := oneShot_run
  exact ⟨h, r, converged, stop_justified follows⟩

theorem result_memories_oneShot : ∃ (h : List (Mark engine)) (r : EngineResult), r.converged = true ∧ Lists h r := by
  obtain ⟨h, r, follows, converged⟩ := oneShot_run
  exact ⟨h, r, converged, result_memories follows⟩

def oneShotSaved : RunArgs := { oneShot with checkpoints := true }

theorem saves_account_oneShot : ∃ (h : List (Mark engine)) (state : CheckpointState), memories h ≠ [] ∧
    Ledger h state.iterations state.recordedMemoryIds state.totalTokens state.totalCostUsd := by
  have started := (Follows.refl (runLoop oneShotSaved)).ask (0 : ℚ)
  have probed := ((started.ask none).ask none).ask (some "")
  have verified := (probed.ask (.ok edited)).ask (.ok ⟨true, "1 passed"⟩)
  have remembered := (verified.ask (some " M a.py")).ask (.ok ())
  refine ⟨_, _, ?_, saves_account remembered⟩
  exact List.cons_ne_nil _ _

theorem saved_totals_oneShot : ∃ (said : List AgentRunResult) (ids : List String) (state : CheckpointState), ids ≠ [] ∧
    Totals said ids state.iterations.length state.recordedMemoryIds state.totalTokens state.totalCostUsd := by
  have started := (Follows.refl (runLoop oneShotSaved)).ask (0 : ℚ)
  have probed := ((started.ask none).ask none).ask (some "")
  have verified := (probed.ask (.ok edited)).ask (.ok ⟨true, "1 passed"⟩)
  have remembered := (verified.ask (some " M a.py")).ask (.ok ())
  refine ⟨_, _, _, ?_, saved_totals (.fresh rfl remembered)⟩
  exact List.cons_ne_nil _ _

end Example

end Onmc.Loop

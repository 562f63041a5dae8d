import Onmc.Loop.Limits

/-! What the circuit breakers count. -/
namespace Onmc.Loop

open Interact

/-! The breakers, one after the other. -/

def breakerStops : List String := ["no-changes", "duplicate-action", "repeated-error", "no-progress"]

theorem Breaker.mem {config : RunConfig} {stopReason : String} (breaker : Breaker config stopReason) :
    stopReason ∈ breakerStops := by
  cases breaker <;> decide

theorem halts_plain {a : RunArgs} {h : List (Mark engine)} {p : Progress} {stopReason : String}
    (halts : Halts a h p stopReason) : stopReason ∉ breakerStops := by
  cases halts <;> decide

theorem agentErrorStopReason_plain (error : String) : agentErrorStopReason error ∉ breakerStops := by
  have others : ∀ stop ∈ agentUnavailableStops, stop.2 ∉ breakerStops := by decide
  unfold agentErrorStopReason
  cases there : agentUnavailableStops.find? (fun stop => PyText.startsWith (lstrip error) stop.1) with
  | none => decide
  | some stop => exact others stop (List.mem_of_find?_eq_some there)

/-- Two states of the loop that agree on the counters of the circuit breakers. -/
structure SameCounters (p p' : Progress) : Prop where
  iterations : p'.iterations = p.iterations
  noops : p'.consecutiveNoops = p.consecutiveNoops
  signatures : p'.signatureCounts = p.signatureCounts
  sameError : p'.consecutiveSameError = p.consecutiveSameError
  lastHead : p'.lastErrorHead = p.lastErrorHead

theorem routed_counters {a : RunArgs} {i : Nat} {p p₁ : Progress} {decision : TrajectoryRouteDecision} {route : JsonDict}
    (routed : routed a i p = .ok (decision, route, p₁)) (pre : Option String) (result : AgentRunResult) :
    SameCounters p (p₁.told pre result) := by
  obtain ⟨advice, _, made⟩ := Except.bind_ok.mp routed
  cases made
  exact ⟨rfl, rfl, rfl, rfl, rfl⟩

def signatureOf (contract : RoutedContract) : String := iterationSignature contract.toIterationContract

def headOf (contract : RoutedContract) : String := verifyOutputHead contract.verifyOutput

/-- How many errors in a row are the same, once this head is seen. -/
def sameErrors (p : Progress) (head : String) : Int :=
  if p.lastErrorHead = some head then p.consecutiveSameError + 1 else 1

/-- The variables once all circuit breakers have let a loss pass. -/
structure Passes (config : RunConfig) (contract : RoutedContract) (vacuous : Bool) (p p' : Progress) : Prop where
  iterations : p'.iterations = p.iterations
  noops : p'.consecutiveNoops = if vacuous then p.consecutiveNoops + 1 else 0
  signatures : p'.signatureCounts =
    p.signatureCounts.set (signatureOf contract) (.int (countOf p.signatureCounts (signatureOf contract) + 1))
  lastHead : p'.lastErrorHead = some (headOf contract)
  sameError : config.repeatedErrorLimit > 0 → p'.consecutiveSameError = sameErrors p (headOf contract)

/-- What the circuit breakers do about a loss. -/
inductive Trips (config : RunConfig) (contract : RoutedContract) (vacuous : Bool) (p : Progress) :
    Progress × Option String → Prop
  | noChanges {p' : Progress} (idle : vacuous = true) (many : config.noChangeLimit ≤ p.consecutiveNoops + 1) :
      Trips config contract vacuous p (p', some "no-changes")
  | duplicateAction {p' : Progress}
      (many : config.duplicateActionLimit ≤ countOf p.signatureCounts (signatureOf contract) + 1) :
      Trips config contract vacuous p (p', some "duplicate-action")
  | repeatedError {p' : Progress} (on : config.repeatedErrorLimit > 0)
      (many : config.repeatedErrorLimit ≤ sameErrors p (headOf contract)) :
      Trips config contract vacuous p (p', some "repeated-error")
  | noProgress {p' : Progress}
      (many : config.noProgressWindow ≤ countOf p.signatureCounts (signatureOf contract) + 1) :
      Trips config contract vacuous p (p', some "no-progress")
  | passes {p' : Progress} (passes : Passes config contract vacuous p p') : Trips config contract vacuous p (p', none)

theorem breakers_trips (config : RunConfig) (contract : RoutedContract) (vacuous : Bool) (p : Progress) :
    Trips config contract vacuous p (breakers config contract vacuous p) := by
  unfold breakers
  simp only
  generalize counted : (if vacuous = true then p.consecutiveNoops + 1 else 0) = noops
  split
  · rename_i idle
    refine .noChanges idle.1 ?_
    have many := idle.2.2
    rwa [← counted, if_pos idle.1] at many
  · split
    · rename_i duplicate
      exact .duplicateAction duplicate.2
    · generalize same : (if config.repeatedErrorLimit > 0 then _ else _) = errors
      have repeated : config.repeatedErrorLimit > 0 → errors = sameErrors p (headOf contract) := by
        intro on
        rw [← same, if_pos on]
        rfl
      split
      · rename_i many
        exact .repeatedError many.1 (repeated many.1 ▸ many.2)
      · split
        · rename_i many
          exact .noProgress many
        · exact .passes ⟨rfl, counted.symm, rfl, rfl, repeated⟩

/-! What the counters stand for. -/

/-- The verifier passed on a tree without a net change. -/
inductive Idle (start : Option String) (e : Episode) : Prop
  | idle {outcome : VerifyOutcome} {post : Option String} (ending : e.ending = .judged outcome post)
      (passed : outcome.passed = true) (unchanged : ¬ NetChange start e.pre post)

/-- How often a signature was counted, by the state that the run began in and the iterations since. -/
def seenTimes (start : LoopState) (new : List RoutedContract) (signature : String) : Int :=
  countOf start.signatureCounts signature + (new.countP fun contract => signatureOf contract = signature : Nat)

/-- The head is that of so many iterations in a row, these last: those since some iteration of this run, or all of this
run and those counted before it. -/
inductive SameHead (start : LoopState) (new : List RoutedContract) (head : Option String) (count : Int) : Prop
  | resumed (before : start.lastErrorHead = head) (all : ∀ contract ∈ new, some (headOf contract) = head)
      (counted : count = start.consecutiveSameError + new.length)
  | since {earlier last : List RoutedContract} (parts : new = earlier ++ last)
      (all : ∀ contract ∈ last, some (headOf contract) = head) (counted : count = last.length)

/-- The last episodes, so many of them, were idle. -/
def IdleSince (first : Option (Option String)) (es : List Episode) (count : Int) : Prop :=
  ∃ earlier last, es = earlier ++ last ∧ count = (last.length : Int) ∧
    ∀ start, first = some start → ∀ e ∈ last, Idle start e

/-- What the counters stand for after the episodes `es`, in which the iterations `new` were recorded. -/
structure Counts (a : RunArgs) (start : LoopState) (es : List Episode) (new : List RoutedContract) (p : Progress) :
    Prop where
  iterations : p.iterations = start.iterations ++ new
  signatures : ∀ signature, countOf p.signatureCounts signature = seenTimes start new signature
  heads : a.config.repeatedErrorLimit > 0 → SameHead start new p.lastErrorHead p.consecutiveSameError
  idle : IdleSince ((es.flatMap (Episode.marks a)).findSome? probed) es p.consecutiveNoops

theorem counts_start (a : RunArgs) (start : LoopState) : Counts a start [] [] { start with } where
  iterations := (List.append_nil _).symm
  signatures _ := (Int.add_zero _).symm
  heads _ := .resumed rfl (fun _ none => absurd none List.not_mem_nil) (Int.add_zero _).symm
  idle := ⟨[], [], rfl, rfl, fun _ _ _ none => absurd none List.not_mem_nil⟩

theorem countOf_set (counts : JsonDict) (signature other : String) (n : Int) :
    countOf (counts.set signature (.int n)) other = if signature = other then n else countOf counts other := by
  unfold countOf
  split
  · rename_i same
    rw [same, JsonDict.get_set_self]
    rfl
  · rename_i apart
    rw [JsonDict.get_set_other _ _ (Ne.symm apart)]

theorem seenTimes_concat (start : LoopState) (new : List RoutedContract) (contract : RoutedContract)
    (signature : String) : seenTimes start (new ++ [contract]) signature =
      if signatureOf contract = signature then seenTimes start new signature + 1 else seenTimes start new signature := by
  unfold seenTimes
  rw [List.countP_append, List.countP_singleton]
  by_cases same : signatureOf contract = signature
  · simp only [same, decide_true, if_true]
    omega
  · simp only [same, decide_false, Bool.false_eq_true, if_false]
    omega

theorem SameHead.next {start : LoopState} {new : List RoutedContract} {p : Progress} (contract : RoutedContract)
    (heads : SameHead start new p.lastErrorHead p.consecutiveSameError) :
    SameHead start (new ++ [contract]) (some (headOf contract)) (sameErrors p (headOf contract)) := by
  unfold sameErrors
  split
  · rename_i same
    rw [same] at heads
    have appended : ∀ contracts : List RoutedContract, (∀ c ∈ contracts, some (headOf c) = some (headOf contract)) →
        ∀ c ∈ contracts ++ [contract], some (headOf c) = some (headOf contract) := by
      intro contracts all c member
      rcases List.mem_append.mp member with old | new
      · exact all c old
      · rw [List.mem_singleton.mp new]
    cases heads with
    | resumed before all counted =>
      refine .resumed before (appended new all) ?_
      rw [counted, List.length_append, List.length_singleton]
      omega
    | since parts all counted =>
      rename_i earlier last
      have parts' : new ++ [contract] = earlier ++ (last ++ [contract]) := by rw [parts, List.append_assoc]
      refine .since parts' (appended last all) ?_
      rw [counted, List.length_append, List.length_singleton]
      omega
  · have parts : new ++ [contract] = new ++ [contract] := rfl
    exact .since parts (fun c member => by rw [List.mem_singleton.mp member]) rfl

theorem IdleSince.next {first : Option (Option String)} {es : List Episode} {count : Int} {e : Episode}
    {start : Option String} (idle : IdleSince first es count) (kept : first = none ∨ first = some start)
    (fresh : first = none → es = []) (idles : Idle start e) : IdleSince (some start) (es ++ [e]) (count + 1) := by
  obtain ⟨earlier, last, parts, counted, all⟩ := idle
  refine ⟨earlier, last ++ [e], by rw [parts, List.append_assoc], ?_, ?_⟩
  · rw [counted, List.length_append, List.length_singleton]
    omega
  · rintro _ ⟨⟩ e' member
    rcases List.mem_append.mp member with old | new
    · rcases kept with none | same
      · rw [fresh none] at parts
        obtain ⟨_, rfl⟩ := List.append_eq_nil_iff.mp parts.symm
        cases old
      · exact all start same e' old
    · rwa [List.mem_singleton.mp new]

section

variable [Service.Digest] [Lowercase] {a : RunArgs} {start : LoopState} {es : List Episode} {e : Episode} {i : Nat}
  {p p' q : Progress} {turn : Turn} {h : List (Mark engine)} {new : List RoutedContract} {contract : RoutedContract}
  {vacuous : Bool}

omit [Service.Digest] in
theorem judge_vacuous {config : RunConfig} {start pre post : Option String} {said : String} {outcome : VerifyOutcome}
    (vacuous : (judge config start pre post said outcome).vacuous = true) :
    outcome.passed = true ∧ ¬ NetChange start pre post := by
  have kept : ∀ j : Judgement, (scopeGate config pre post j).vacuous = j.vacuous := by
    intro j
    unfold scopeGate
    split
    · split
      · split <;> rfl
      · rfl
    · rfl
  rw [judge, kept, vacuousGate] at vacuous
  cases passes : vacuousPass start pre post outcome with
  | false => simp [passes] at vacuous
  | true =>
    have passed : outcome.passed = true := (Bool.and_eq_true_iff.mp passes).1
    refine ⟨passed, fun change => ?_⟩
    rw [(vacuousPass_eq_false_iff start pre post passed).mpr change] at passes
    cases passes

/-- An episode is lost by a verdict: the circuit breakers find its iteration recorded, and the counters as they were. -/
structure Loses (p : Progress) (e : Episode) (contract : RoutedContract) (vacuous : Bool) (q : Progress) : Prop where
  iterations : q.iterations = p.iterations ++ [contract]
  noops : q.consecutiveNoops = p.consecutiveNoops
  signatures : q.signatureCounts = p.signatureCounts
  sameError : q.consecutiveSameError = p.consecutiveSameError
  lastHead : q.lastErrorHead = p.lastErrorHead
  idle : vacuous = true → Idle (p.runStart.getD e.pre) e

theorem recordingLoss_loses {p₁ : Progress} (contract : RoutedContract) (same : SameCounters p p₁)
    (idle : vacuous = true → Idle (p.runStart.getD e.pre) e) :
    Loses p e contract vacuous (p₁.recordingLoss a contract) := by
  have recorded : p₁.iterations ++ [contract] = p.iterations ++ [contract] := congrArg (· ++ [contract]) same.iterations
  unfold Progress.recordingLoss
  split <;> exact ⟨recorded, same.noops, same.signatures, same.sameError, same.lastHead, idle⟩

inductive Led (config : RunConfig) (contract : RoutedContract) (vacuous : Bool) (q : Progress) : Turn → Prop
  | stopped {p' : Progress} {stopReason : String} (left : breakers config contract vacuous q = (p', some stopReason)) :
      Led config contract vacuous q (.stop p' false stopReason)
  | passed {p' : Progress} (left : breakers config contract vacuous q = (p', none)) :
      Led config contract vacuous q (.next p')

/-- An episode stops the run for a reason of its own, or comes before the circuit breakers. -/
theorem takes_loses (takes : Takes a i p e turn) :
    (∃ p' converged stopReason, turn = .stop p' converged stopReason ∧ ¬ Breaker a.config stopReason) ∨
      ∃ contract vacuous q, Loses p e contract vacuous q ∧ Led a.config contract vacuous q turn := by
  cases takes with
  | erred routed failed ending => exact .inl ⟨_, _, _, rfl, fun breaker => agentErrorStopReason_plain _ breaker.mem⟩
  | unavailable routed replied ending stuck =>
    exact .inl ⟨_, _, _, rfl, fun breaker => absurd breaker.mem (by decide)⟩
  | judged routed replied ending ran judged =>
    rename_i decision route p₁ outcome post j
    have idle : j.vacuous = true → Idle (p.runStart.getD e.pre) e := by
      intro vacuous
      subst judged
      obtain ⟨passed, unchanged⟩ := judge_vacuous vacuous
      exact .idle ending passed unchanged
    have loses := recordingLoss_loses (a := a) (contractOf i e.result route j.verifyPassed j.verifyOutput j.outcome)
      (routed_counters routed e.pre e.result) idle
    generalize verdict : settled a _ _ _ = turn
    cases settled_settles verdict with
    | win won => exact .inl ⟨_, _, _, rfl, fun breaker => breaker.ne rfl⟩
    | stopped lost left => exact .inr ⟨_, _, _, loses, .stopped left⟩
    | passed lost left => exact .inr ⟨_, _, _, loses, .passed left⟩

theorem Counts.idles (counts : Counts a start es new p) (reaches : Reaches a start es p)
    (idle : Idle (p.runStart.getD e.pre) e) :
    IdleSince (some (p.runStart.getD e.pre)) (es ++ [e]) (p.consecutiveNoops + 1) := by
  refine counts.idle.next ?_ ?_ idle
  · rw [← reaches_runStart reaches]
    cases p.runStart with
    | none => exact .inl rfl
    | some start => exact .inr rfl
  · intro unseen
    cases es with
    | nil => rfl
    | cons e' es => simp [Episode.marks, probed] at unseen

/-- The counters stand for the same after an episode that the circuit breakers let pass. -/
theorem Counts.next (counts : Counts a start es new p) (reaches : Reaches a start es p)
    (loses : Loses p e contract vacuous q) (passes : Passes a.config contract vacuous q p') :
    Counts a start (es ++ [e]) (new ++ [contract]) p' where
  iterations := by rw [passes.iterations, loses.iterations, counts.iterations, List.append_assoc]
  signatures signature := by
    rw [passes.signatures, countOf_set, loses.signatures, seenTimes_concat, counts.signatures, counts.signatures]
    split
    · rename_i same
      rw [same]
    · rfl
  heads on := by
    have heads := (counts.heads on).next contract
    rw [passes.lastHead, passes.sameError on]
    unfold sameErrors at heads ⊢
    rwa [loses.lastHead, loses.sameError]
  idle := by
    have first : ((es ++ [e]).flatMap (Episode.marks a)).findSome? probed = some (p.runStart.getD e.pre) := by
      rw [List.flatMap_append, List.findSome?_append, ← reaches_runStart reaches]
      cases p.runStart <;> rfl
    rw [first, passes.noops, loses.noops]
    cases vacuous with
    | false => exact ⟨es ++ [e], [], (List.append_nil _).symm, rfl, fun _ _ _ none => absurd none List.not_mem_nil⟩
    | true =>
      exact counts.idles reaches (loses.idle rfl)

theorem reaches_counts (reaches : Reaches a start es p) : ∃ new, Counts a start es new p := by
  induction reaches with
  | start => exact ⟨[], counts_start a start⟩
  | next reaches takes ih =>
    obtain ⟨new, counts⟩ := ih
    rcases takes_loses takes with ⟨_, _, _, stopped, _⟩ | ⟨contract, vacuous, q, loses, led⟩
    · cases stopped
    · cases led with
      | passed left =>
        have trips := breakers_trips a.config contract vacuous q
        rw [left] at trips
        cases trips with
        | passes passes => exact ⟨_, counts.next reaches loses passes⟩

/-- What is so when a circuit breaker stops a run, by the reason it gives. -/
inductive Tripped (a : RunArgs) (h : List (Mark engine)) (new : List RoutedContract) : String → Prop
  | noChanges {earlier last : List Episode} {start : Option String}
      (seen : acts h = (earlier ++ last).flatMap (Episode.marks a)) (first : firstProbe h = some start)
      (idle : ∀ e ∈ last, Idle start e) (many : a.config.noChangeLimit ≤ last.length) : Tripped a h new "no-changes"
  | duplicateAction {contract : RoutedContract} (last : new.getLast? = some contract)
      (many : a.config.duplicateActionLimit ≤ seenTimes (begun h) new (signatureOf contract)) :
      Tripped a h new "duplicate-action"
  | repeatedError {contract : RoutedContract} {count : Int} (last : new.getLast? = some contract)
      (same : SameHead (begun h) new (some (headOf contract)) count) (many : a.config.repeatedErrorLimit ≤ count) :
      Tripped a h new "repeated-error"
  | noProgress {contract : RoutedContract} (last : new.getLast? = some contract)
      (many : a.config.noProgressWindow ≤ seenTimes (begun h) new (signatureOf contract)) : Tripped a h new "no-progress"

theorem led_tripped {converged : Bool} {stopReason : String} (reaches : Reaches a (begun h) es p)
    (counts : Counts a (begun h) es new p) (seen : acts h = (es ++ [e]).flatMap (Episode.marks a))
    (loses : Loses p e contract vacuous q) (led : Led a.config contract vacuous q (.stop p' converged stopReason)) :
    p'.iterations = (begun h).iterations ++ (new ++ [contract]) ∧ Tripped a h (new ++ [contract]) stopReason := by
  have times : countOf q.signatureCounts (signatureOf contract) + 1 =
      seenTimes (begun h) (new ++ [contract]) (signatureOf contract) := by
    rw [loses.signatures, counts.signatures, seenTimes_concat, if_pos rfl]
  cases led with
  | stopped left =>
    have kept := (breakers_kept a.config contract vacuous q).iterations
    have trips := breakers_trips a.config contract vacuous q
    rw [left] at kept trips
    refine ⟨by rw [kept, loses.iterations, counts.iterations, List.append_assoc], ?_⟩
    cases trips with
    | noChanges idle many =>
      obtain ⟨earlier, last, parts, counted, all⟩ := counts.idles reaches (loses.idle idle)
      rw [loses.noops, counted] at many
      exact .noChanges (parts ▸ seen) (firstProbe_eq reaches seen) (all _ rfl) many
    | duplicateAction many => exact .duplicateAction List.getLast?_concat (times ▸ many)
    | repeatedError on many =>
      refine .repeatedError List.getLast?_concat ((counts.heads on).next contract) ?_
      unfold sameErrors at many ⊢
      rwa [loses.lastHead, loses.sameError] at many
    | noProgress many => exact .noProgress List.getLast?_concat (times ▸ many)

/-- Where a circuit breaker stops a run, it has counted what its reason says. -/
theorem breaker_tripped {r : EngineResult} (follows : Follows (runLoop a) h (.ret r))
    (breaker : Breaker a.config r.stopReason) :
    ∃ new, r.iterations = (begun h).iterations ++ new ∧ Tripped a h new r.stopReason := by
  have ended : Ended a h r := (gives_runLoop a).follows follows r rfl
  cases ended with
  | between reaches seen halts reports => exact absurd (reports.stopReason ▸ breaker.mem) (halts_plain halts)
  | exhausted reaches seen last reports => exact absurd (reports.stopReason ▸ breaker.mem) (by decide)
  | within reaches seen takes reports =>
    rw [reports.stopReason] at breaker
    rw [reports.iterations, reports.stopReason]
    rcases takes_loses takes with ⟨_, _, _, stopped, other⟩ | ⟨contract, vacuous, q, loses, led⟩
    · cases stopped
      exact absurd breaker other
    · obtain ⟨new, counts⟩ := reaches_counts reaches
      exact ⟨new ++ [contract], led_tripped reaches counts seen loses led⟩

end

section Example

attribute [local instance] Service.plainDigest Lowercase.ascii

def impatient : RunArgs where
  spec := { goal := "fix" }
  config := { noProgressWindow := 1 }
  now := ⟨0, DateTime.zero_inRange⟩
  checkpoints := false
  resume := false
  watched := false

theorem impatient_run : ∃ h r, Follows (runLoop impatient) h (.ret r) ∧ r.stopReason = "no-progress" := by
  have started := (Follows.refl (runLoop impatient)).ask (0 : ℚ)
  have probed := ((started.ask none).ask none).ask (some "")
  have verified := (probed.ask (.ok edited)).ask (.ok ⟨false, "network error"⟩)
  exact ⟨_, _, (verified.ask (some " M a.py")).ask (1 : ℚ), rfl⟩

theorem breaker_tripped_impatient :
    ∃ (h : List (Mark engine)) (r : EngineResult) (new : List RoutedContract),
      r.iterations = (begun h).iterations ++ new ∧ Tripped impatient h new "no-progress" := by
  obtain ⟨h, r, follows, reason⟩ := impatient_run
  obtain ⟨new, iterations, tripped⟩ := breaker_tripped follows (reason ▸ .noProgress)
  exact ⟨h, r, new, iterations, reason ▸ tripped⟩

end Example

end Onmc.Loop

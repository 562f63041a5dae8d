import Onmc.Loop.Conduct

/-! What it takes that a run of the loop converges. -/
namespace Onmc.Loop

open Interact

/-! The verdict on an episode. -/

/-- The tree is not the one that the run began with; where that one is not known, not the one before the episode. -/
structure NetChange (start pre post : Option String) : Prop where
  run : ∀ s t, start = some s → post = some t → t ≠ s
  episode : start = none → ∀ s t, pre = some s → post = some t → t ≠ s

/-- Where a scope is declared, the change of the episode can be seen, and all of it lies within the scope. -/
def InScope (config : RunConfig) (pre post : Option String) : Prop :=
  config.allowedPaths ≠ [] ∨ config.protectedPaths ≠ [] → ∃ s t, pre = some s ∧ post = some t ∧
    ∀ path ∈ changedFilesDelta s t, (∀ pattern ∈ config.protectedPaths, Fnmatch.fnmatch path pattern = false) ∧
      (config.allowedPaths ≠ [] → ∃ pattern ∈ config.allowedPaths, Fnmatch.fnmatch path pattern = true)

theorem scopeViolation_eq_none_iff (files allowed forbidden : List String) :
    scopeViolation files allowed forbidden = none ↔
      ∀ path ∈ files, (∀ pattern ∈ forbidden, Fnmatch.fnmatch path pattern = false) ∧
        (allowed ≠ [] → ∃ pattern ∈ allowed, Fnmatch.fnmatch path pattern = true) := by
  unfold scopeViolation
  by_cases unlimited : allowed = []
  · simp [unlimited, List.filter_eq_nil_iff]
  · simp [unlimited, List.filter_eq_nil_iff, forall_and]

theorem vacuousPass_eq_false_iff (start pre post : Option String) {outcome : VerifyOutcome}
    (passed : outcome.passed = true) : vacuousPass start pre post outcome = false ↔ NetChange start pre post := by
  unfold vacuousPass
  rw [passed, Bool.true_and]
  cases post with
  | none =>
    refine iff_of_true (by cases start <;> cases pre <;> rfl) ⟨?_, ?_⟩
    · rintro _ _ _ ⟨⟩
    · rintro _ _ _ _ ⟨⟩
  | some t =>
    cases start with
    | some s =>
      constructor
      · intro real
        refine ⟨?_, by rintro ⟨⟩⟩
        rintro _ _ ⟨⟩ ⟨⟩
        simpa [changed] using real
      · intro change
        simpa [changed] using change.run s t rfl rfl
    | none =>
      cases pre with
      | none =>
        refine iff_of_true rfl ⟨by rintro _ _ ⟨⟩, ?_⟩
        rintro _ _ _ ⟨⟩
      | some s =>
        constructor
        · intro real
          refine ⟨by rintro _ _ ⟨⟩, ?_⟩
          rintro _ _ _ ⟨⟩ ⟨⟩
          simpa [changed] using real
        · intro change
          simpa [changed] using change.episode rfl s t rfl rfl

/-- What the scope gate makes of a win where a scope is declared. -/
theorem scopeGate_limited (config : RunConfig) (pre post : Option String) {j : Judgement} (won : j.outcome = .win)
    (limited : config.allowedPaths ≠ [] ∨ config.protectedPaths ≠ []) :
    scopeGate config pre post j = j ∧ InScope config pre post ∨
      (scopeGate config pre post j).outcome = .loss ∧ ¬ InScope config pre post := by
  unfold scopeGate
  rw [if_pos ⟨won, limited⟩]
  have blind : pre = none ∨ post = none → ¬ InScope config pre post := by
    intro unseen within
    obtain ⟨s, t, rfl, rfl, _⟩ := within limited
    simp at unseen
  cases pre with
  | none => exact .inr ⟨rfl, blind (.inl rfl)⟩
  | some s =>
    cases post with
    | none => exact .inr ⟨rfl, blind (.inr rfl)⟩
    | some t =>
      simp only
      split
      · rename_i text violation
        refine .inr ⟨rfl, fun within => ?_⟩
        obtain ⟨_, _, ⟨⟩, ⟨⟩, inside⟩ := within limited
        rw [(scopeViolation_eq_none_iff _ _ _).mpr inside] at violation
        cases violation
      · rename_i clean
        exact .inl ⟨rfl, fun _ => ⟨s, t, rfl, rfl, (scopeViolation_eq_none_iff _ _ _).mp clean⟩⟩

theorem scopeGate_free (config : RunConfig) (pre post : Option String) {j : Judgement}
    (free : ¬ (j.outcome = .win ∧ (config.allowedPaths ≠ [] ∨ config.protectedPaths ≠ []))) :
    scopeGate config pre post j = j := by
  unfold scopeGate
  rw [if_neg free]

theorem scopeGate_win_iff (config : RunConfig) (pre post : Option String) (j : Judgement) :
    (scopeGate config pre post j).outcome = .win ↔ j.outcome = .win ∧ InScope config pre post := by
  by_cases won : j.outcome = .win
  · by_cases limited : config.allowedPaths ≠ [] ∨ config.protectedPaths ≠ []
    · rcases scopeGate_limited config pre post won limited with ⟨same, within⟩ | ⟨lost, outside⟩
      · rw [same]
        exact ⟨fun _ => ⟨won, within⟩, fun _ => won⟩
      · simp [lost, outside]
    · rw [scopeGate_free config pre post fun both => limited both.2]
      exact ⟨fun _ => ⟨won, fun declared => absurd declared limited⟩, fun _ => won⟩
  · rw [scopeGate_free config pre post fun both => won both.1]
    simp [won]

theorem scopeGate_eq (config : RunConfig) (pre post : Option String) (j : Judgement)
    (won : (scopeGate config pre post j).outcome = .win) : scopeGate config pre post j = j := by
  by_cases both : j.outcome = .win ∧ (config.allowedPaths ≠ [] ∨ config.protectedPaths ≠ [])
  · rcases scopeGate_limited config pre post both.1 both.2 with ⟨same, _⟩ | ⟨lost, _⟩
    · exact same
    · rw [lost] at won
      cases won
  · exact scopeGate_free config pre post both

/-! What it means that a run ends well. -/

def probed : Mark engine → Option (Option String)
  | .asked .probe reply => some reply
  | _ => none

/-- What the run saw of the tree when it first looked at it. -/
def firstProbe (h : List (Mark engine)) : Option (Option String) := (acts h).findSome? probed

/-- The agent did not fail, and the verifier ran and passed, on a net change of the tree that lies within the scope. -/
inductive Wins (config : RunConfig) (start : Option String) (e : Episode) : Prop
  | wins {outcome : VerifyOutcome} {post : Option String} (replied : e.result.error = none)
      (ending : e.ending = .judged outcome post) (ran : verifierUnavailable outcome.output = false)
      (passed : outcome.passed = true) (change : NetChange start e.pre post) (scope : InScope config e.pre post)

/-- The last that was done is an episode that wins. -/
def EndsWell (a : RunArgs) (h : List (Mark engine)) : Prop :=
  ∃ before start e, acts h = before ++ Episode.marks a e ∧ firstProbe h = some start ∧ Wins a.config start e

/-- An episode that was judged can be read off its marks. -/
theorem marks_back {a : RunArgs} {before before' : List (Mark engine)} {e e' : Episode} {outcome : VerifyOutcome}
    {post : Option String} (judged : e'.ending = .judged outcome post)
    (same : before ++ Episode.marks a e = before' ++ Episode.marks a e') : before = before' ∧ e = e' := by
  obtain ⟨pre, prompt, level, result, ending⟩ := e
  obtain ⟨pre', prompt', level', result', ending'⟩ := e'
  cases judged
  have last := congrArg List.getLast? same
  cases ending with
  | erred error => simp [Episode.marks, Ending.marks] at last
  | unavailable outcome => simp [Episode.marks, Ending.marks] at last
  | judged outcome₁ post₁ =>
    obtain ⟨same, marks⟩ := List.append_inj' same rfl
    simp only [Episode.marks, Ending.marks, List.cons.injEq, Mark.asked.injEq, Request.agent.injEq] at marks
    simp_all

/-- Two states of the loop that differ in the counters of the circuit breakers alone. -/
structure Kept (p p' : Progress) : Prop where
  runStart : p'.runStart = p.runStart
  iterations : p'.iterations = p.iterations
  memories : p'.recordedMemoryIds = p.recordedMemoryIds
  tokens : p'.totalTokens = p.totalTokens
  cost : p'.totalCostUsd = p.totalCostUsd

theorem breakers_kept (config : RunConfig) (contract : RoutedContract) (vacuous : Bool) (p : Progress) :
    Kept p (breakers config contract vacuous p).1 := by
  unfold breakers
  simp only
  repeat' split
  all_goals exact ⟨rfl, rfl, rfl, rfl, rfl⟩

/-- The circuit breakers that are on, by the reasons they give. -/
inductive Breaker (config : RunConfig) : String → Prop
  | noChanges (on : config.noChangeLimit > 0) : Breaker config "no-changes"
  | duplicateAction (on : config.duplicateActionLimit > 0) : Breaker config "duplicate-action"
  | repeatedError (on : config.repeatedErrorLimit > 0) : Breaker config "repeated-error"
  | noProgress : Breaker config "no-progress"

theorem breakers_stopReason {config : RunConfig} {contract : RoutedContract} {vacuous : Bool} {p : Progress}
    {stopReason : String} (stopped : (breakers config contract vacuous p).2 = some stopReason) :
    Breaker config stopReason := by
  unfold breakers at stopped
  simp only at stopped
  generalize (if vacuous = true then p.consecutiveNoops + 1 else 0) = noops at stopped
  split at stopped
  · rename_i noops
    cases stopped
    exact .noChanges noops.2.1
  · split at stopped
    · rename_i duplicate
      cases stopped
      exact .duplicateAction duplicate.1
    · generalize (if config.repeatedErrorLimit > 0 then _ else _) = same at stopped
      split at stopped
      · rename_i repeated
        cases stopped
        exact .repeatedError repeated.1
      · split at stopped
        · cases stopped
          exact .noProgress
        · cases stopped

theorem Breaker.ne {config : RunConfig} {stopReason : String} (breaker : Breaker config stopReason) :
    stopReason ≠ "converged" := by
  cases breaker <;> decide

theorem agentErrorStopReason_ne (error : String) : agentErrorStopReason error ≠ "converged" := by
  have others : ∀ stop ∈ agentUnavailableStops, stop.2 ≠ "converged" := by decide
  unfold agentErrorStopReason
  cases there : agentUnavailableStops.find? (fun stop => PyText.startsWith (lstrip error) stop.1) with
  | none => decide
  | some stop => exact others stop (List.mem_of_find?_eq_some there)

theorem halts_ne {a : RunArgs} {h : List (Mark engine)} {p : Progress} {stopReason : String}
    (halts : Halts a h p stopReason) : stopReason ≠ "converged" := by
  cases halts <;> decide

/-- The last iteration that is recorded was won, by a verifier that passed. -/
def LastWon (iterations : List RoutedContract) : Prop :=
  ∃ contract, iterations.getLast? = some contract ∧ contract.outcome = .win ∧ contract.verifyPassed = true

/-- A turn that stops the run says why: it has converged if that is the reason, and then it records a win. -/
structure Stops (p : Progress) (converged : Bool) (stopReason : String) : Prop where
  reason : stopReason = "converged" ↔ converged = true
  won : converged = true → LastWon p.iterations

theorem stops_short (p : Progress) {stopReason : String} (other : stopReason ≠ "converged") :
    Stops p false stopReason :=
  ⟨iff_of_false other Bool.false_ne_true, fun impossible => absurd impossible Bool.false_ne_true⟩

section

variable [Lowercase]

theorem vacuousGate_win_iff (start pre post : Option String) (said : String) (outcome : VerifyOutcome) :
    (vacuousGate start pre post said outcome).outcome = .win ↔ outcome.passed = true ∧ NetChange start pre post := by
  by_cases passed : outcome.passed = true
  · rw [← vacuousPass_eq_false_iff start pre post passed]
    unfold vacuousGate
    cases vacuousPass start pre post outcome <;> simp [passed]
  · have real : vacuousPass start pre post outcome = false := by simp [vacuousPass, passed]
    simp [vacuousGate, real, passed]

/-- An episode is won by a verifier that passed, a net change, and a change within the scope. -/
theorem judge_win_iff (config : RunConfig) (start pre post : Option String) (said : String) (outcome : VerifyOutcome) :
    (judge config start pre post said outcome).outcome = .win ↔
      outcome.passed = true ∧ NetChange start pre post ∧ InScope config pre post := by
  rw [judge, scopeGate_win_iff, vacuousGate_win_iff, and_assoc]

theorem judge_verifyPassed (config : RunConfig) (start pre post : Option String) (said : String)
    (outcome : VerifyOutcome) (won : (judge config start pre post said outcome).outcome = .win) :
    (judge config start pre post said outcome).verifyPassed = true := by
  obtain ⟨passed, change, _⟩ := (judge_win_iff config start pre post said outcome).mp won
  rw [judge, scopeGate_eq config pre post _ won, vacuousGate,
    (vacuousPass_eq_false_iff start pre post passed).mpr change]
  exact passed

end

/-! The turns of a run. -/

section

variable [Service.Digest] [Lowercase] {a : RunArgs} {start : LoopState} {es : List Episode} {e : Episode} {i : Nat}
  {p p' : Progress} {turn : Turn} {h : List (Mark engine)}

/-- What a verdict leads to: the run converges, a circuit breaker stops it, or it goes on. -/
inductive Settles (a : RunArgs) (contract : RoutedContract) (vacuous : Bool) (p : Progress) : Turn → Prop
  | win (won : contract.outcome = .win) :
      Settles a contract vacuous p (.stop (p.recordingWin a contract) true "converged")
  | stopped {p' : Progress} {stopReason : String} (lost : contract.outcome = .loss)
      (left : breakers a.config contract vacuous (p.recordingLoss a contract) = (p', some stopReason)) :
      Settles a contract vacuous p (.stop p' false stopReason)
  | passed {p' : Progress} (lost : contract.outcome = .loss)
      (left : breakers a.config contract vacuous (p.recordingLoss a contract) = (p', none)) :
      Settles a contract vacuous p (.next p')

theorem settled_settles {contract : RoutedContract} {vacuous : Bool} (same : settled a contract vacuous p = turn) :
    Settles a contract vacuous p turn := by
  subst same
  unfold settled
  cases outcome : contract.outcome with
  | win => exact .win outcome
  | loss =>
    simp only
    rcases left : breakers a.config contract vacuous (p.recordingLoss a contract) with ⟨p', _ | stopReason⟩
    · exact .passed outcome left
    · exact .stopped outcome left

theorem Settles.converged {contract : RoutedContract} {vacuous : Bool} (settles : Settles a contract vacuous p turn) :
    (∃ p' stopReason, turn = .stop p' true stopReason) ↔ contract.outcome = .win := by
  cases settles with
  | win won => exact iff_of_true ⟨_, _, rfl⟩ won
  | stopped lost left => simp [lost]
  | passed lost left => simp [lost]

theorem takes_converged (takes : Takes a i p e turn) :
    (∃ p' stopReason, turn = .stop p' true stopReason) ↔ Wins a.config (p.runStart.getD e.pre) e := by
  cases takes with
  | erred routed failed ending =>
    refine iff_of_false (by simp) ?_
    rintro ⟨replied, _⟩
    rw [failed] at replied
    cases replied
  | unavailable routed replied ending stuck =>
    refine iff_of_false (by simp) ?_
    rintro ⟨_, judged, _⟩
    rw [ending] at judged
    cases judged
  | judged routed replied ending ran judged =>
    refine (settled_settles rfl).converged.trans ?_
    subst judged
    refine (judge_win_iff _ _ _ _ _ _).trans ⟨fun ⟨passed, change, scope⟩ => ?_, ?_⟩
    · exact .wins replied ending ran passed change scope
    · rintro ⟨_, there, _, passed, change, scope⟩
      rw [ending] at there
      cases there
      exact ⟨passed, change, scope⟩

theorem recordingLoss_runStart (contract : RoutedContract) : (p.recordingLoss a contract).runStart = p.runStart := by
  unfold Progress.recordingLoss
  split <;> rfl

theorem Settles.runStart {contract : RoutedContract} {vacuous : Bool}
    (settles : Settles a contract vacuous p (.next p')) : p'.runStart = p.runStart := by
  cases settles with
  | passed lost left =>
    have kept := breakers_kept a.config contract vacuous (p.recordingLoss a contract)
    rw [left] at kept
    exact kept.runStart.trans (recordingLoss_runStart contract)

theorem takes_runStart (takes : Takes a i p e turn) (next : turn = .next p') :
    p'.runStart = some (p.runStart.getD e.pre) := by
  cases takes with
  | erred routed failed ending => cases next
  | unavailable routed replied ending stuck => cases next
  | judged routed replied ending ran judged =>
    rw [(settled_settles next).runStart, ← routed_runStart routed]
    rfl

theorem reaches_runStart (reaches : Reaches a start es p) :
    p.runStart = (es.flatMap (Episode.marks a)).findSome? probed := by
  induction reaches with
  | start => rfl
  | next reaches takes ih =>
    rw [takes_runStart takes rfl, List.flatMap_append, List.findSome?_append, ← ih]
    rename_i p _ _
    cases p.runStart <;> rfl

theorem firstProbe_eq (reaches : Reaches a start es p) (seen : acts h = (es ++ [e]).flatMap (Episode.marks a)) :
    firstProbe h = some (p.runStart.getD e.pre) := by
  rw [firstProbe, seen, List.flatMap_append, List.findSome?_append, ← reaches_runStart reaches]
  cases p.runStart <;> rfl

theorem endsWell_iff (reaches : Reaches a start es p) (seen : acts h = (es ++ [e]).flatMap (Episode.marks a)) :
    EndsWell a h ↔ Wins a.config (p.runStart.getD e.pre) e := by
  have first := firstProbe_eq reaches seen
  rw [List.flatMap_append, List.flatMap_singleton] at seen
  constructor
  · rintro ⟨before, start', e', seen', first', wins⟩
    have same : start' = p.runStart.getD e.pre := Option.some.inj (first'.symm.trans first)
    obtain ⟨_, ending, _⟩ := id wins
    obtain ⟨_, rfl⟩ := marks_back ending (seen.symm.trans seen')
    exact same ▸ wins
  · exact fun wins => ⟨_, _, e, seen, first, wins⟩

theorem not_endsWell (reaches : Reaches a start es p) (seen : acts h = es.flatMap (Episode.marks a)) :
    ¬ EndsWell a h := by
  cases reaches with
  | start =>
    rintro ⟨before, _, e, seen', _⟩
    rw [seen] at seen'
    simp [Episode.marks] at seen'
  | next reaches takes =>
    rw [endsWell_iff reaches seen, ← takes_converged takes]
    simp

theorem Settles.stops {contract : RoutedContract} {vacuous converged : Bool} {stopReason : String}
    (settles : Settles a contract vacuous p (.stop p' converged stopReason))
    (verified : contract.outcome = .win → contract.verifyPassed = true) : Stops p' converged stopReason := by
  cases settles with
  | win won => exact ⟨iff_of_true rfl rfl, fun _ => ⟨contract, List.getLast?_concat, won, verified won⟩⟩
  | stopped lost left => exact stops_short _ (breakers_stopReason (congrArg Prod.snd left)).ne

theorem takes_stops {converged : Bool} {stopReason : String} (takes : Takes a i p e turn)
    (stop : turn = .stop p' converged stopReason) : Stops p' converged stopReason := by
  cases takes with
  | erred routed failed ending =>
    simp only [Turn.stop.injEq] at stop
    obtain ⟨_, rfl, rfl⟩ := stop
    exact stops_short _ (agentErrorStopReason_ne _)
  | unavailable routed replied ending stuck =>
    simp only [Turn.stop.injEq] at stop
    obtain ⟨_, rfl, rfl⟩ := stop
    exact stops_short _ (by decide)
  | judged routed replied ending ran judged =>
    refine (settled_settles stop).stops fun won => ?_
    subst judged
    exact judge_verifyPassed _ _ _ _ _ _ won

/-- A run converges just if the last that it did was an episode that wins. It gives convergence as its reason then
and only then, and the last iteration of its result is the win. -/
theorem converged_sound {r : EngineResult} (follows : Follows (runLoop a) h (.ret r)) :
    (r.converged = true ↔ EndsWell a h) ∧ (r.stopReason = "converged" ↔ r.converged = true) ∧
      (r.converged = true → LastWon r.iterations) := by
  have ended : Ended a h r := (gives_runLoop a).follows follows r rfl
  cases ended with
  | between reaches seen halts reports =>
    have stops := stops_short ‹_› (halts_ne halts)
    rw [reports.converged, reports.stopReason, reports.iterations]
    exact ⟨iff_of_false Bool.false_ne_true (not_endsWell reaches seen), stops.reason, stops.won⟩
  | exhausted reaches seen last reports =>
    have stops := stops_short ‹_› (by decide : "max-iterations" ≠ "converged")
    rw [reports.converged, reports.stopReason, reports.iterations]
    exact ⟨iff_of_false Bool.false_ne_true (not_endsWell reaches seen), stops.reason, stops.won⟩
  | within reaches seen takes reports =>
    have stops := takes_stops takes rfl
    rw [reports.converged, reports.stopReason, reports.iterations]
    refine ⟨?_, stops.reason, stops.won⟩
    rw [endsWell_iff reaches seen, ← takes_converged takes]
    simp

end

section Example

attribute [local instance] Service.plainDigest Lowercase.ascii

def oneShot : RunArgs where
  spec := { goal := "fix" }
  config := { maxIterations := 1, budgetTokens := some 100, allowedPaths := ["*.py"] }
  now := ⟨0, DateTime.zero_inRange⟩
  checkpoints := false
  resume := false
  watched := false

def edited : AgentRunResult where
  output := "edited"
  prediction := "passes"
  filesTouched := ["a.py"]
  tokens := some 7

theorem oneShot_run : ∃ h r, Follows (runLoop oneShot) h (.ret r) ∧ r.converged = true := by
  have started := (Follows.refl (runLoop oneShot)).ask (0 : ℚ)
  have briefed := (started.ask none).ask none
  have probed := briefed.ask (some "")
  have verified := (probed.ask (.ok edited)).ask (.ok ⟨true, "1 passed"⟩)
  have remembered := (verified.ask (some " M a.py")).ask (.ok ())
  exact ⟨_, _, remembered.ask (1 : ℚ), rfl⟩

theorem converged_sound_oneShot :
    ∃ (h : List (Mark engine)) (r : EngineResult), r.converged = true ∧ EndsWell oneShot h ∧ LastWon r.iterations := by
  obtain ⟨h, r, follows, converged⟩ := oneShot_run
  exact ⟨h, r, converged, (converged_sound follows).1.mp converged, (converged_sound follows).2.2 converged⟩

end Example

end Onmc.Loop

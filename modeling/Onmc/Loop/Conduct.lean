import Onmc.Loop.Episodes

/-! Every run of the loop goes from episode to episode: where it asks the agent, and how it ends, follows from the
episodes alone. -/
namespace Onmc.Loop

open Interact

section Histories

variable (h : List (Mark engine)) (mark : Mark engine)

@[simp] theorem acts_concat : acts (h ++ [mark]) = acts h ++ (act mark).toList := by
  simp only [acts, List.filterMap_append, List.append_cancel_left_eq]
  cases here : act mark <;> simp [here]

@[simp] theorem clocks_concat : clocks (h ++ [mark]) = clocks h ++ (reading mark).toList := by
  simp only [clocks, List.filterMap_append, List.append_cancel_left_eq]
  cases here : reading mark <;> simp [here]

@[simp] theorem goAheads_concat : goAheads (h ++ [mark]) = goAheads h ++ (goAhead mark).toList := by
  simp only [goAheads, List.filterMap_append, List.append_cancel_left_eq]
  cases here : goAhead mark <;> simp [here]

theorem begun_concat {mark : Mark engine} (other : found mark = none) : begun (h ++ [mark]) = begun h := by
  simp [begun, other]

end Histories

/-- What was added concerns the memories, the checkpoints and the worktree alone. -/
structure Aside (h h' : List (Mark engine)) : Prop where
  acts : acts h' = acts h
  clocks : clocks h' = clocks h
  goAheads : goAheads h' = goAheads h
  begun : begun h' = begun h

theorem Aside.refl (h : List (Mark engine)) : Aside h h := ⟨rfl, rfl, rfl, rfl⟩

theorem Aside.trans {h h' h'' : List (Mark engine)} (first : Aside h h') (second : Aside h' h'') : Aside h h'' :=
  ⟨second.acts.trans first.acts, second.clocks.trans first.clocks, second.goAheads.trans first.goAheads,
    second.begun.trans first.begun⟩

theorem Aside.concat {h h' : List (Mark engine)} (first : Aside h h') {mark : Mark engine} (quiet : act mark = none)
    (timeless : reading mark = none) (silent : goAhead mark = none) (other : found mark = none) :
    Aside h (h' ++ [mark]) where
  acts := by simp [first.acts, quiet]
  clocks := by simp [first.clocks, timeless]
  goAheads := by simp [first.goAheads, silent]
  begun := (begun_concat h' other).trans first.begun

/-- The clock has been read once more, and all else is as it was. -/
structure Timed (h h' : List (Mark engine)) (now : ℚ) : Prop where
  acts : acts h' = acts h
  clocks : clocks h' = clocks h ++ [now]
  goAheads : goAheads h' = goAheads h
  begun : begun h' = begun h

theorem Aside.timed {h h' : List (Mark engine)} (aside : Aside h h') (now : ℚ) :
    Timed h (h' ++ [.asked .clock now]) now where
  acts := by simp [aside.acts, act]
  clocks := by simp [aside.clocks, reading]
  goAheads := by simp [aside.goAheads, goAhead]
  begun := (begun_concat h' rfl).trans aside.begun

theorem GoesAhead.later {a : RunArgs} {p : Progress} {h h' : List (Mark engine)} (goes : GoesAhead a h p)
    (times : clocks h' = clocks h) (signals : goAheads h' = goAheads h) : GoesAhead a h' p where
  tokens := goes.tokens
  cost := goes.cost
  time := by
    rw [times]
    exact goes.time
  watched := by
    rw [signals]
    exact goes.watched

theorem Halts.later {a : RunArgs} {p : Progress} {h h' : List (Mark engine)} {stopReason : String} {now : ℚ}
    (halts : Halts a h p stopReason) (timed : Timed h h' now) : Halts a h' p stopReason := by
  cases halts with
  | tokens set spent => exact .tokens set spent
  | cost set spent => exact .cost set spent
  | time set began member passed =>
    refine .time set ?_ ?_ passed
    · rw [timed.clocks, List.head?_append, began]
      rfl
    · rw [timed.clocks]
      exact List.mem_append_left _ member
  | aborted watched last => exact .aborted watched (timed.goAheads ▸ last)

/-- Whatever it is told, the code keeps the promise, and what it returns is as stated. -/
def Gives (P : Promise engine) (Q : List (Mark engine) → α → Prop) (code : Code α) (h : List (Mark engine)) : Prop :=
  Keeps P (fun h' outcome => ∀ x, outcome = .ok x → Q h' x) code h

section Rules

variable {P : Promise engine} {h : List (Mark engine)} {request : Request}

theorem gives_ret {Q : List (Mark engine) → α → Prop} {x : α} (holds : Q h x) : Gives P Q (.ret x) h := by
  rintro _ ⟨⟩
  exact holds

theorem gives_ofExcept {Q : List (Mark engine) → α → Prop} {outcome : Except String α}
    (holds : ∀ x, outcome = .ok x → Q h x) : Gives P Q (ofExcept outcome) h :=
  Keeps.ofExcept holds

theorem gives_bind {Q : List (Mark engine) → α → Prop} {Q' : List (Mark engine) → β → Prop} {code : Code α}
    {next : α → Code β} (first : Gives P Q code h) (rest : ∀ h' x, Q h' x → Gives P Q' (next x) h') :
    Gives P Q' (code >>= next) h := by
  refine .bind (first.mono ?_)
  intro h' outcome holds
  cases outcome with
  | ok x => exact rest h' x (holds x rfl)
  | error e => rintro _ ⟨⟩

theorem gives_ask {Q : List (Mark engine) → α → Prop} {next : request.Reply → Code α}
    (allowed : P.asks h request)
    (rest : ∀ reply, Gives P Q (next reply) (h ++ [.asked request reply])) : Gives P Q (ask request >>= next) h :=
  ⟨allowed, rest⟩

/-- An exception goes to the caller. -/
theorem gives_ok {Q : List (Mark engine) → β → Prop} {outcome : Except String α} {next : α → Code β}
    (rest : ∀ x, outcome = .ok x → Gives P Q (next x) h) : Gives P Q (ofExcept outcome >>= next) h := by
  cases outcome with
  | ok x => exact rest x rfl
  | error e => rintro _ ⟨⟩

theorem gives_request {Q : List (Mark engine) → request.Reply → Prop}
    (allowed : P.asks h request) (holds : ∀ reply, Q (h ++ [.asked request reply]) reply) :
    Gives P Q (ask request) h := by
  refine ⟨allowed, fun reply => ?_⟩
  rintro _ ⟨⟩
  exact holds reply

theorem gives_mono {Q Q' : List (Mark engine) → α → Prop} {code : Code α} (gives : Gives P Q code h)
    (weaker : ∀ h' x, Q h' x → Q' h' x) : Gives P Q' code h :=
  gives.mono fun h' _ holds x same => weaker h' x (holds x same)

theorem gives_whenever {Q : List (Mark engine) → Unit → Prop} {condition : Bool} {code : Code Unit}
    (done : condition = true → Gives P Q code h) (skipped : condition = false → Q h ()) :
    Gives P Q (whenever condition code) h := by
  cases condition with
  | true => exact done rfl
  | false => exact gives_ret (skipped rfl)

end Rules

variable [Service.Digest] [Lowercase]

/-- The agent is asked where it is allowed; nothing else matters. -/
def promise (a : RunArgs) : Promise engine :=
  ⟨fun h request => ∀ prompt level, request = .agent prompt level → Allowed a h, fun _ _ => False, fun _ => True⟩

section Parts

variable {a : RunArgs} {h : List (Mark engine)} {p : Progress}

theorem gives_saveCheckpoint : Gives (promise a) (fun h' _ => Aside h h') (saveCheckpoint a p) h := by
  refine gives_whenever (fun _ => gives_request (by rintro _ _ ⟨⟩) fun reply => ?_) fun _ => .refl h
  exact (Aside.refl h).concat rfl rfl rfl rfl

theorem gives_remember (entry : Storage.MemoryEntry) :
    Gives (promise a) (fun h' p' => Aside h h' ∧ p' = p.remembering entry.id) (remember entry p) h := by
  refine gives_ask (by rintro _ _ ⟨⟩) fun stored => ?_
  refine gives_bind (Q := fun h' _ => Aside h h') (gives_ofExcept fun _ _ => ?_) fun h' _ aside => ?_
  · exact (Aside.refl h).concat rfl rfl rfl rfl
  · exact gives_ret ⟨aside, rfl⟩

theorem gives_recordLoss (contract : RoutedContract) :
    Gives (promise a) (fun h' p' => Aside h h' ∧ p' = p.recordingLoss a contract) (recordLoss a contract (p.append contract)) h := by
  unfold recordLoss Progress.recordingLoss
  cases classifyFailureCause contract.verifyOutput with
  | environment => exact gives_ret ⟨.refl h, rfl⟩
  | approach => exact gives_remember _

theorem gives_buildBrief (goal : String) (lastLoss : Option RoutedContract) (level : Int) :
    Gives (promise a) (fun h' _ => Aside h h') (buildBrief goal lastLoss level) h := by
  refine gives_ask (by rintro _ _ ⟨⟩) fun recalled => gives_ask (by rintro _ _ ⟨⟩) fun guarded => gives_ret ?_
  exact ((Aside.refl h).concat rfl rfl rfl rfl).concat rfl rfl rfl rfl

theorem gives_makeResult {first : ℚ} (began : (clocks h).head? = some first) (worktree converged : Bool)
    (stopReason : String) :
    Gives (promise a) (fun h' r => (∃ now, Timed h h' now) ∧ Reports h' p converged stopReason r)
      (makeResult a first worktree p converged stopReason) h := by
  have removed : Gives (promise a) (fun h' _ => Aside h h') (whenever worktree (ask (.teardown converged))) h :=
    gives_whenever (fun _ => gives_request (by rintro _ _ ⟨⟩) fun _ => (Aside.refl h).concat rfl rfl rfl rfl)
      fun _ => .refl h
  refine gives_bind removed fun h₁ _ aside => ?_
  refine gives_bind (Q := fun h' _ => Aside h h') (gives_whenever (fun _ => ?_) fun _ => aside) fun h₂ _ aside => ?_
  · exact gives_request (by rintro _ _ ⟨⟩) fun _ => aside.concat rfl rfl rfl rfl
  · refine gives_ask (by rintro _ _ ⟨⟩) fun now => gives_ret ⟨⟨now, aside.timed now⟩, ?_⟩
    have times := (aside.timed now).clocks
    refine ⟨rfl, rfl, rfl, rfl, rfl, rfl, first, now, ?_, ?_, rfl⟩
    · rw [times, List.head?_append, began]
      rfl
    · rw [times, List.getLast?_concat]

/-- The checks have looked at the clock and at the signal alone, and time began with `first`. -/
structure Looked (first : ℚ) (h h' : List (Mark engine)) : Prop where
  acts : acts h' = acts h
  begun : begun h' = begun h
  began : (clocks h').head? = some first

theorem gives_overdue {first : ℚ} (began : (clocks h).head? = some first) :
    Gives (promise a) (fun h' late => Looked first h h' ∧
      (late = true → Halts a h' p "wall-time") ∧
      (late = false → ∀ limit, a.config.maxWallSeconds = some limit →
        ∃ now, (clocks h').getLast? = some now ∧ now - first < limit)) (overdue a first) h := by
  unfold overdue
  cases set : a.config.maxWallSeconds with
  | none =>
    refine gives_ret ⟨⟨rfl, rfl, began⟩, ?_, ?_⟩
    · rintro ⟨⟩
    · rintro _ _ ⟨⟩
  | some limit =>
    refine gives_ask (by rintro _ _ ⟨⟩) fun now => gives_ret ?_
    have timed := (Aside.refl h).timed now
    have last : (clocks (h ++ [.asked .clock now])).getLast? = some now := by rw [timed.clocks, List.getLast?_concat]
    have head : (clocks (h ++ [.asked .clock now])).head? = some first := by
      rw [timed.clocks, List.head?_append, began]
      rfl
    refine ⟨⟨timed.acts, timed.begun, head⟩, ?_, ?_⟩
    · intro late
      exact .time set head (List.mem_of_getLast? last) (of_decide_eq_true late)
    · rintro early _ ⟨⟩
      exact ⟨now, last, not_le.mp (of_decide_eq_false early)⟩

theorem gives_continues : Gives (promise a) (fun h' goes => acts h' = acts h ∧ begun h' = begun h ∧ clocks h' = clocks h ∧
    (a.watched = true → (goAheads h').getLast? = some goes) ∧ (a.watched = false → goes = true)) (continues a) h := by
  unfold continues
  cases watched : a.watched with
  | true =>
    refine gives_request (by rintro _ _ ⟨⟩) fun goes => ?_
    refine ⟨by simp [act], begun_concat h rfl, by simp [reading], fun _ => by simp [goAhead], by rintro ⟨⟩⟩
  | false => exact gives_ret ⟨rfl, rfl, rfl, by rintro ⟨⟩, fun _ => rfl⟩

/-- What the checks before an iteration come to. -/
theorem gives_limitReached {first : ℚ} (began : (clocks h).head? = some first) :
    Gives (promise a) (fun h' reason => Looked first h h' ∧ match reason with
      | some stopReason => Halts a h' p stopReason
      | none => GoesAhead a h' p) (limitReached a first p) h := by
  have here : Looked first h h := ⟨rfl, rfl, began⟩
  unfold limitReached
  split
  · rename_i spent
    obtain ⟨budget, set, spent⟩ := (Option.any_eq_true _ _).mp spent
    exact gives_ret ⟨here, .tokens set (of_decide_eq_true spent)⟩
  · rename_i unspent
    split
    · rename_i spent
      obtain ⟨limit, set, spent⟩ := (Option.any_eq_true _ _).mp spent
      exact gives_ret ⟨here, .cost set spent⟩
    · rename_i cheap
      refine gives_bind (gives_overdue (p := p) began) ?_
      rintro h₁ passed ⟨looked, late, early⟩
      cases passed with
      | true =>
        exact gives_ret ⟨looked, late rfl⟩
      | false =>
        refine gives_bind gives_continues ?_
        rintro h₂ goes ⟨same, begun, clocks, watched, unwatched⟩
        have looked' : Looked first h h₂ := ⟨same.trans looked.acts, begun.trans looked.begun, clocks ▸ looked.began⟩
        cases goes with
        | true =>
          refine gives_ret ⟨looked', ?_, ?_, ?_, watched⟩
          · intro budget set
            simpa [set] using unspent
          · intro limit set
            simpa [set] using cheap
          · intro limit set
            obtain ⟨now, read, soon⟩ := early rfl limit set
            exact ⟨first, now, looked'.began, clocks ▸ read, soon⟩
        | false =>
          refine gives_ret ⟨looked', ?_⟩
          cases seen : a.watched with
          | true => exact .aborted seen (watched seen)
          | false => exact absurd (unwatched seen) Bool.false_ne_true

end Parts

section Iteration

variable {a : RunArgs} {h : List (Mark engine)} {i : Nat} {p p₁ : Progress}
  {decision : TrajectoryRouteDecision} {route : JsonDict}

theorem gives_stopUnverified (contract : RoutedContract) (stopReason : String) :
    Gives (promise a) (fun h' turn => Aside h h' ∧ turn = .stop (p.recordingLoss a contract) false stopReason)
      (stopUnverified a contract p stopReason) h := by
  refine gives_bind (gives_recordLoss contract) ?_
  rintro h₁ _ ⟨aside, rfl⟩
  refine gives_bind gives_saveCheckpoint fun h₂ _ aside' => ?_
  exact gives_ret ⟨aside.trans aside', rfl⟩

theorem gives_settle (contract : RoutedContract) (vacuous : Bool) :
    Gives (promise a) (fun h' turn => Aside h h' ∧ turn = settled a contract vacuous p) (settle a contract vacuous p) h := by
  unfold settle settled
  cases contract.outcome with
  | win =>
    refine gives_bind (gives_remember _) ?_
    rintro h₁ _ ⟨aside, rfl⟩
    refine gives_bind gives_saveCheckpoint fun h₂ _ aside' => ?_
    exact gives_ret ⟨aside.trans aside', rfl⟩
  | loss =>
    refine gives_bind (gives_recordLoss contract) ?_
    rintro h₁ _ ⟨aside, rfl⟩
    simp only
    obtain ⟨p₂, stopReason⟩ := breakers a.config contract vacuous (p.recordingLoss a contract)
    refine gives_bind gives_saveCheckpoint fun h₂ _ aside' => gives_ret ⟨aside.trans aside', ?_⟩
    cases stopReason <;> rfl

/-- The episode under way has ended as `e` says, and nothing else was done meanwhile. -/
def Finished (a : RunArgs) (past h : List (Mark engine)) (i : Nat) (p : Progress) (e : Episode)
    (h' : List (Mark engine)) (turn : Turn) : Prop :=
  acts h' = past ++ e.marks a ∧ clocks h' = clocks h ∧ begun h' = begun h ∧ Takes a i p e turn

theorem gives_verified {past : List (Mark engine)} {pre : Option String} {prompt : String} {level : Int}
    {result : AgentRunResult} (routed : routed a i p = .ok (decision, route, p₁))
    (seen : acts h = past ++ [.asked .probe pre, .asked (.agent prompt level) (.ok result)]) :
    Gives (promise a) (fun h' turn => ∃ ending, Finished a past h i p ⟨pre, prompt, level, result, ending⟩ h' turn)
      (verified a i route pre result (p₁.told pre result)) h := by
  unfold verified
  cases failed : result.error with
  | some error =>
    refine gives_mono (gives_stopUnverified _ _) ?_
    rintro h' _ ⟨aside, rfl⟩
    exact ⟨.erred error, aside.acts.trans seen, aside.clocks, aside.begun, .erred routed failed rfl⟩
  | none =>
    refine gives_ask (by rintro _ _ ⟨⟩) fun reply => gives_ok ?_
    rintro outcome rfl
    have seen' : acts (h ++ [.asked (.verify a.config.verifyCommand) (.ok outcome)]) =
        past ++ Episode.marks a ⟨pre, prompt, level, result, .unavailable outcome⟩ := by
      simp [seen, act, Episode.marks, Ending.marks]
    by_cases stuck : verifierUnavailable outcome.output = true
    · rw [if_pos stuck]
      refine gives_mono (gives_stopUnverified _ _) ?_
      rintro h' _ ⟨aside, rfl⟩
      refine ⟨.unavailable outcome, aside.acts.trans seen', ?_, ?_, .unavailable routed failed rfl stuck⟩
      · exact aside.clocks.trans (by simp [reading])
      · exact aside.begun.trans (begun_concat h rfl)
    · rw [if_neg stuck]
      refine gives_ask (by rintro _ _ ⟨⟩) fun post => ?_
      refine gives_mono (gives_settle _ _) ?_
      rintro h' _ ⟨aside, rfl⟩
      have baseline : (p₁.told pre result).runStart.getD pre = p.runStart.getD pre := by
        rw [← routed_runStart routed]
        rfl
      rw [baseline]
      refine ⟨.judged outcome post, aside.acts.trans ?_, ?_, ?_,
        .judged routed failed rfl (Bool.eq_false_iff.mpr stuck) rfl⟩
      · rw [acts_concat, seen']
        simp [act, Episode.marks, Ending.marks]
      · rw [aside.clocks, clocks_concat, clocks_concat]
        simp [reading]
      · exact aside.begun.trans ((begun_concat _ rfl).trans (begun_concat h rfl))

/-- An iteration is one more episode. -/
theorem gives_iteration {es : List Episode} (reaches : Reaches a (begun h) es p)
    (seen : acts h = es.flatMap (Episode.marks a))
    (room : (((begun h).resumeFrom + es.length : Nat) : Int) ≤ a.config.maxIterations) (goes : GoesAhead a h p) :
    Gives (promise a) (fun h' turn => ∃ e, Finished a (acts h) h ((begun h).resumeFrom + es.length) p e h' turn)
      (iteration a ((begun h).resumeFrom + es.length) p) h := by
  refine gives_ok ?_
  rintro ⟨decision, route, p₁⟩ routed
  refine gives_bind (gives_buildBrief _ _ _) fun h₁ brief aside => ?_
  refine gives_ask (by rintro _ _ ⟨⟩) fun pre => ?_
  have seen₁ : acts (h₁ ++ [.asked .probe pre]) = acts h ++ [.asked .probe pre] := by
    rw [acts_concat, aside.acts]
    rfl
  have same : begun (h₁ ++ [.asked .probe pre]) = begun h := (begun_concat h₁ rfl).trans aside.begun
  have times : clocks (h₁ ++ [.asked .probe pre]) = clocks h := by
    rw [clocks_concat, aside.clocks]
    simp [reading]
  have signals : goAheads (h₁ ++ [.asked .probe pre]) = goAheads h := by
    rw [goAheads_concat, aside.goAheads]
    simp [goAhead]
  refine gives_ask ?_ fun reply => gives_ok ?_
  · rintro prompt level -
    refine ⟨es, p, pre, same ▸ reaches, ?_, same ▸ room, goes.later times signals⟩
    rw [seen₁, seen]
  rintro result rfl
  have seen₂ : acts (h₁ ++ [.asked .probe pre] ++
      [.asked (.agent (promptOf a.spec (renderRoutePrompt decision) brief) p₁.escalationLevel) (.ok result)]) =
      acts h ++ [.asked .probe pre,
        .asked (.agent (promptOf a.spec (renderRoutePrompt decision) brief) p₁.escalationLevel) (.ok result)] := by
    rw [acts_concat, seen₁]
    simp [act]
  refine gives_mono (gives_verified routed seen₂) ?_
  rintro h' turn ⟨ending, acted, timed, begun', takes⟩
  refine ⟨_, acted, ?_, ?_, takes⟩
  · rw [timed, clocks_concat, times]
    simp [reading]
  · rw [begun', begun_concat _ rfl, same]

/-- The loop is entered after the episodes so far, with so many iterations left. -/
theorem gives_iterate {first : ℚ} {worktree : Bool} {n i : Nat} {es : List Episode}
    (index : i = (begun h).resumeFrom + es.length) (left : (a.config.maxIterations + 1 - i).toNat = n)
    (began : (clocks h).head? = some first) (reaches : Reaches a (begun h) es p)
    (seen : acts h = es.flatMap (Episode.marks a)) : Gives (promise a) (Ended a) (iterate a first worktree n i p) h := by
  induction n generalizing h p es i with
  | zero =>
    refine gives_bind gives_saveCheckpoint fun h₁ _ aside => ?_
    refine gives_mono (gives_makeResult (aside.clocks ▸ began) _ _ _) ?_
    rintro h' r ⟨⟨now, timed⟩, reports⟩
    have same : begun h' = begun h := timed.begun.trans aside.begun
    exact .exhausted (same ▸ reaches) ((timed.acts.trans aside.acts).trans seen) (by rw [same]; omega) reports
  | succ n ih =>
    refine gives_bind (gives_limitReached began) ?_
    rintro h₁ limit ⟨looked, checked⟩
    cases limit with
    | some stopReason =>
      refine gives_mono (gives_makeResult looked.began _ _ _) ?_
      rintro h' r ⟨⟨now, timed⟩, reports⟩
      have same : begun h' = begun h := timed.begun.trans looked.begun
      exact .between (same ▸ reaches) ((timed.acts.trans looked.acts).trans seen) (checked.later timed) reports
    | none =>
      have index₁ : i = (begun h₁).resumeFrom + es.length := looked.begun ▸ index
      have room : (((begun h₁).resumeFrom + es.length : Nat) : Int) ≤ a.config.maxIterations := by omega
      have reaches₁ : Reaches a (begun h₁) es p := looked.begun ▸ reaches
      refine gives_bind (index₁ ▸ gives_iteration reaches₁ (looked.acts.trans seen) room checked) ?_
      rintro h₂ turn ⟨e, acted, timed, begun₂, takes⟩
      have seen₂ : acts h₂ = (es ++ [e]).flatMap (Episode.marks a) := by
        rw [acted, looked.acts, seen]
        simp
      have began₂ : (clocks h₂).head? = some first := timed ▸ looked.began
      cases turn with
      | stop p' converged stopReason =>
        refine gives_mono (gives_makeResult began₂ _ _ _) ?_
        rintro h' r ⟨⟨now, timed'⟩, reports⟩
        have same : begun h' = begun h₁ := timed'.begun.trans begun₂
        exact .within (same ▸ reaches₁) (timed'.acts.trans seen₂) (by rwa [same, ← index₁]) reports
      | next p' =>
        have reaches₂ : Reaches a (begun h₂) (es ++ [e]) p' := begun₂ ▸ .next reaches₁ (index₁ ▸ takes)
        have index₂ : i + 1 = (begun h₂).resumeFrom + (es ++ [e]).length := by
          rw [begun₂, index₁, List.length_append]
          rfl
        exact ih index₂ (by omega) began₂ reaches₂ seen₂

/-- Nothing has been done yet, and the run has loaded this state. -/
structure Opening (start : LoopState) (h : List (Mark engine)) : Prop where
  acts : acts h = []
  clocks : clocks h = []
  begun : begun h = start

theorem gives_isolated :
    Gives (promise a) (fun h _ => acts h = [] ∧ clocks h = [] ∧ h.findSome? found = none) (isolated a) [] := by
  unfold isolated
  cases a.config.isolate with
  | true => exact gives_request (by rintro _ _ ⟨⟩) fun _ => ⟨rfl, rfl, rfl⟩
  | false => exact gives_ret ⟨rfl, rfl, rfl⟩

theorem gives_begin (idle : acts h = []) (timeless : clocks h = []) (unread : h.findSome? found = none) :
    Gives (promise a) (fun h start => Opening start h) (begin_ a) h := by
  unfold begin_
  cases a.resume && a.checkpoints with
  | false => exact gives_ret ⟨idle, timeless, by rw [begun, unread]⟩
  | true =>
    refine gives_ask (by rintro _ _ ⟨⟩) fun saved => gives_ret ⟨?_, ?_, ?_⟩
    · rw [acts_concat, idle]
      rfl
    · rw [clocks_concat, timeless]
      rfl
    · rw [begun, List.findSome?_append, unread]
      cases saved <;> rfl

end Iteration

/-- A run asks the agent where it is allowed, and ends as its episodes say. -/
theorem gives_runLoop (a : RunArgs) : Gives (promise a) (Ended a) (runLoop a) [] := by
  refine gives_bind gives_isolated ?_
  rintro h₁ worktree ⟨idle, timeless, unread⟩
  refine gives_bind (gives_begin idle timeless unread) fun h₂ start opening => ?_
  refine gives_ask (by rintro _ _ ⟨⟩) fun first => ?_
  have timed := (Aside.refl h₂).timed first
  have same : begun (h₂ ++ [.asked .clock first]) = start := timed.begun.trans opening.begun
  have reaches : Reaches a (begun (h₂ ++ [.asked .clock first])) [] { start with } := same ▸ .start
  refine gives_iterate ?_ rfl ?_ reaches (timed.acts.trans opening.acts)
  · rw [same]
    rfl
  · rw [timed.clocks, opening.clocks]
    rfl

end Onmc.Loop

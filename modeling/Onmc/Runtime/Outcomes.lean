import Onmc.Interact.Views
import Onmc.Runtime.Graph
import Onmc.Runtime.Sights

/-! What `execute` comes to when no node of the run needs an approval: what a completed run has shown of
each of its nodes, and what the other runs have not. -/
namespace Onmc.Runtime

open DurableRuntime Interact

/-- What is kept true of a run: nothing awaits an approval, and what is closed as a success has a result
that says so. Each persisted result is of the kind that handlers return. A node is submitted once, after
what it depends on has succeeded, and it has no persisted result until it has been awaited. -/
structure Kept (spec : RunSpec) (Fine : NodeResult → Prop) (v : Sight) (l : Submissions backend) : Prop where
  run : v.run ≠ some .awaitingApproval
  node : ∀ nodeId, v.node nodeId ≠ some .awaitingApproval
  succeeded : ∀ nodeId, v.node nodeId = some .succeeded →
    ∃ result, v.results.lookup nodeId = some result ∧ result.status = .succeeded
  completed : v.run = some .completed → ∀ node ∈ spec.nodes,
    ∃ result, v.results.lookup node.nodeId = some result ∧ result.status = .succeeded
  fine : ∀ nodeId result, v.results.lookup nodeId = some result → result.nodeId = nodeId ∧ Fine result
  once : (l.map (fun entry => entry.1.nodeId)).Nodup
  pending : ∀ node, (node, none) ∈ l → v.results.lookup node.nodeId = none
  ready : ∀ node seen, (node, seen) ∈ l → ∀ dependency ∈ node.dependencies, v.node dependency = some .succeeded

/-- The results that an exception carries are fine. -/
def Clean (Fine : NodeResult → Prop) (failure : Failure) : Prop :=
  ∀ results, failure.results = some results → ∀ result ∈ results, Fine result

/-- What the task of a node returns. -/
def Returns (spec : RunSpec) (Fine : NodeResult → Prop) (node : NodeSpec) : Except Failure NodeResult → Prop
  | .ok result => result.nodeId = node.nodeId ∧ (node ∈ spec.nodes → Fine result)
  | .error failure => Clean Fine failure

/-- The main thread leaves the handlers to the tasks. -/
def terms (spec : RunSpec) (Fine : NodeResult → Prop) : Terms backend Sight where
  asks := fun request => ∀ node, request ≠ .invoke node
  effect := Sight.Effect
  returns := Returns spec Fine
  keeps := Kept spec Fine

/-- The persisted results are those of before, and the nodes that had finished stay as they were. -/
structure Same (v v' : Sight) : Prop where
  results : v'.results = v.results
  final : ∀ nodeId state, v.node nodeId = some state → state.terminal = true → v'.node nodeId = some state

theorem same_steady : Steady Same where
  refl _ := ⟨rfl, fun _ _ found _ => found⟩
  trans _ _ _ first second := ⟨second.results.trans first.results,
    fun nodeId state found terminal => second.final nodeId state (first.final nodeId state found terminal) terminal⟩

/-- An operation that neither closes a success nor asks for an approval. -/
structure Plain (op : Operation) : Prop where
  run : ∀ target reason approvedBy, op.command = .transitionRun target reason approvedBy →
    target ≠ .completed ∧ target ≠ .awaitingApproval
  node : ∀ nodeId target reason approvedBy, op.command = .transitionNode nodeId target reason approvedBy →
    target ≠ .succeeded ∧ target ≠ .awaitingApproval

theorem plain_run {op : Operation} {target : RunState} {reason approvedBy : Option String}
    (made : op.command = .transitionRun target reason approvedBy)
    (fine : target ≠ .completed ∧ target ≠ .awaitingApproval) : Plain op where
  run := by
    intro _ _ _ made'
    cases made.symm.trans made'
    exact fine
  node := by
    intro _ _ _ _ made'
    cases made.symm.trans made'

theorem plain_node {op : Operation} {nodeId : String} {target : NodeState} {reason approvedBy : Option String}
    (made : op.command = .transitionNode nodeId target reason approvedBy)
    (fine : target ≠ .succeeded ∧ target ≠ .awaitingApproval) : Plain op where
  run := by
    intro _ _ _ made'
    cases made.symm.trans made'
  node := by
    intro _ _ _ _ made'
    cases made.symm.trans made'
    exact fine

section

variable {spec : RunSpec} {Fine : NodeResult → Prop} {v v' : Sight} {l : Submissions backend}

theorem clean_fresh (fault : Fault) : Clean Fine ⟨fault, none⟩ := by
  rintro results ⟨⟩

/-- An operation keeps the run in order where it closes only what it may close. -/
theorem Kept.moves (kept : Kept spec Fine v l) {command : Command} (moves : v.Moves v' command)
    (run : ∀ target reason approvedBy, command = .transitionRun target reason approvedBy →
      target ≠ .awaitingApproval ∧ (target = .completed → ∀ node ∈ spec.nodes,
        ∃ result, v.results.lookup node.nodeId = some result ∧ result.status = .succeeded))
    (node : ∀ nodeId target reason approvedBy, command = .transitionNode nodeId target reason approvedBy →
      target ≠ .awaitingApproval ∧ (target = .succeeded →
        ∃ result, v.results.lookup nodeId = some result ∧ result.status = .succeeded)) : Kept spec Fine v' l where
  run := by
    rcases moves.run with same | ⟨target, reason, by_, made, reached⟩
    · rw [same]
      exact kept.run
    · rw [reached]
      exact fun here => (run target reason by_ made).1 (Option.some.inj here)
  node := by
    intro nodeId awaiting
    rcases moves.node nodeId _ awaiting with was | closed | ⟨reason, by_, made⟩
    · exact kept.node nodeId was
    · cases closed
    · exact (node nodeId _ reason by_ made).1 rfl
  succeeded := by
    intro nodeId done
    rw [moves.results]
    rcases moves.node nodeId _ done with was | closed | ⟨reason, by_, made⟩
    · exact kept.succeeded nodeId was
    · cases closed
    · exact (node nodeId _ reason by_ made).2 rfl
  completed := by
    intro done
    rw [moves.results]
    rcases moves.run with same | ⟨target, reason, by_, made, reached⟩
    · exact kept.completed (same ▸ done)
    · exact (run target reason by_ made).2 (Option.some.inj (reached.symm.trans done))
  fine := by
    rw [moves.results]
    exact kept.fine
  once := kept.once
  pending := by
    rw [moves.results]
    exact kept.pending
  ready := fun node seen listed dependency needed =>
    moves.final dependency _ (kept.ready node seen listed dependency needed) rfl

theorem Kept.plain (kept : Kept spec Fine v l) {op : Operation} (plain : Plain op) (moves : v.Moves v' op.command) :
    Kept spec Fine v' l := by
  refine kept.moves moves ?_ ?_
  · intro target reason by_ made
    obtain ⟨open_, closed⟩ := plain.run target reason by_ made
    exact ⟨closed, fun done => absurd done open_⟩
  · intro nodeId target reason by_ made
    obtain ⟨open_, closed⟩ := plain.node nodeId target reason by_ made
    exact ⟨closed, fun done => absurd done open_⟩

/-- A result is written for a node that has none and is not awaited any more. -/
theorem Kept.written (kept : Kept spec Fine v l) {result : NodeResult} (fine : Fine result)
    (new : v.results.lookup result.nodeId = none) (awaited : ∀ node, (node, none) ∈ l → node.nodeId ≠ result.nodeId) :
    Kept spec Fine { v with results := Dict.setItem result.nodeId result v.results } l where
  run := kept.run
  node := kept.node
  succeeded := by
    intro nodeId done
    obtain ⟨stored, found, success⟩ := kept.succeeded nodeId done
    have other : nodeId ≠ result.nodeId := by
      rintro rfl
      rw [new] at found
      cases found
    exact ⟨stored, by simp [other, found], success⟩
  completed := by
    intro done node member
    obtain ⟨stored, found, success⟩ := kept.completed done node member
    have other : node.nodeId ≠ result.nodeId := by
      intro same
      rw [same, new] at found
      cases found
    exact ⟨stored, by simp [other, found], success⟩
  fine := by
    intro nodeId stored found
    simp only [Dict.lookup_setItem] at found
    split at found
    · cases found
      exact ⟨(by assumption : nodeId = result.nodeId).symm, fine⟩
    · exact kept.fine nodeId stored found
  once := kept.once
  pending := by
    intro node listed
    simp only [Dict.lookup_setItem, if_neg (awaited node listed)]
    exact kept.pending node listed
  ready := kept.ready

/-! The parts of `execute` that close nothing as a success. -/

/-- Such a part raises only clean exceptions and leaves the persisted results alone. -/
abbrev Quiet (spec : RunSpec) (Fine : NodeResult → Prop) (code : Code α) : Prop :=
  Within (terms spec Fine) Same (Clean Fine) code

theorem quiet_ret (a : α) : Quiet spec Fine (.ret a) := .ret same_steady a

theorem quiet_fail (fault : Fault) : Quiet spec Fine (fail fault : Code α) := .raise same_steady (clean_fresh fault)

theorem quiet_bind {code : Code α} {next : α → Code β} (first : Quiet spec Fine code)
    (rest : ∀ a, Quiet spec Fine (next a)) : Quiet spec Fine (code >>= next) := .bind same_steady first rest

theorem quiet_ofOutcome (outcome : Outcome α) : Quiet spec Fine (ofOutcome outcome) := by
  cases outcome with
  | ok a => exact quiet_ret a
  | error e => exact quiet_fail _

theorem quiet_ofChecked (checked : Checked α) : Quiet spec Fine (ofChecked checked) := by
  cases checked with
  | ok a => exact quiet_ret a
  | error message => exact quiet_fail _

theorem quiet_expect (read : Value → Option α) (outcome : Outcome Value) : Quiet spec Fine (expect read outcome) := by
  unfold expect
  cases outcome with
  | error e => exact quiet_fail _
  | ok value =>
    simp only
    split
    · exact quiet_ret _
    · exact quiet_fail _

/-- A request that leaves everything that is seen as it is. -/
theorem quiet_still {request : Request} (asks : ∀ node, request ≠ .invoke node)
    (still : ∀ v v' reply, Sight.Effect v request v' reply → v' = v) : Quiet spec Fine (ask request) := by
  refine .request asks ?_
  intro v v' l reply kept effect
  obtain rfl := still v v' reply effect
  exact ⟨kept, same_steady.refl _⟩

theorem quiet_askLoad (caller : Caller) : Quiet spec Fine (ask (.load caller)) :=
  quiet_still (by rintro _ ⟨⟩) fun _ _ _ effect => effect.1

theorem quiet_events : Quiet spec Fine (ask .events) := quiet_still (by rintro _ ⟨⟩) fun _ _ _ effect => effect

theorem quiet_hasResult (nodeId : String) : Quiet spec Fine (ask (.hasResult nodeId)) :=
  quiet_still (by rintro _ ⟨⟩) fun _ _ _ effect => effect.1

theorem quiet_load (caller : Caller) : Quiet spec Fine (load caller) :=
  quiet_bind (quiet_askLoad caller) quiet_ofOutcome

theorem quiet_askOperate (caller : Caller) {op : Operation} (plain : Plain op) :
    Quiet spec Fine (ask (.operate caller op)) := by
  refine .request (by rintro _ ⟨⟩) ?_
  intro v v' l reply kept effect
  have moves : v.Moves v' op.command := effect
  exact ⟨kept.plain plain moves, moves.results, moves.final⟩

theorem quiet_operate (caller : Caller) {op : Operation} (plain : Plain op) :
    Quiet spec Fine (operate caller op) :=
  quiet_bind (quiet_askOperate caller plain) (fun _ => quiet_ofOutcome _)

theorem quiet_swallow {code : Code Unit} (quiet : Quiet spec Fine code) : Quiet spec Fine (swallowInvalid code) := by
  refine .attempted same_steady quiet (fun _ => quiet_ret ()) ?_
  intro failure clean
  obtain ⟨fault, results⟩ := failure
  cases fault with
  | store e =>
    simp only
    split
    · exact quiet_ret ()
    · exact .raise same_steady clean
  | contract message => exact .raise same_steady clean
  | handler e => exact .raise same_steady clean

theorem quiet_releaseLease (caller : Caller) (nodeId token key : String) :
    Quiet spec Fine (releaseLease caller nodeId token key) := by
  refine quiet_bind (quiet_askOperate caller ⟨by rintro _ _ _ ⟨⟩, by rintro _ _ _ _ ⟨⟩⟩) ?_
  intro outcome
  cases outcome with
  | ok value => exact quiet_ret ()
  | error e =>
    simp only
    split
    · exact quiet_ret ()
    · exact quiet_fail _

theorem quiet_releaseActiveLease (caller : Caller) (nodeId suffix : String) :
    Quiet spec Fine (releaseActiveLease caller nodeId suffix) := by
  refine quiet_bind (quiet_load caller) fun snapshot => quiet_bind (quiet_ofOutcome _) fun current => ?_
  split
  · exact quiet_ret ()
  · exact quiet_releaseLease _ _ _ _

theorem quiet_cancelNodes (reason : String) (nodes : List NodeSpec) (snapshot : RunSnapshot) :
    Quiet spec Fine (cancelNodes reason nodes snapshot) := by
  induction nodes generalizing snapshot with
  | nil => exact quiet_ret ()
  | cons node nodes ih =>
    refine quiet_bind (quiet_ofOutcome _) fun current => ?_
    split
    · exact ih snapshot
    · refine quiet_bind (quiet_operate _ (plain_node rfl (by decide))) fun _ => ?_
      exact quiet_bind (quiet_load _) ih

theorem quiet_cancelUnfinishedNodes (reason : String) : Quiet spec Fine (cancelUnfinishedNodes spec reason) :=
  quiet_bind (quiet_load _) (quiet_cancelNodes reason _)

theorem quiet_failNodes (reason : String) (nodes : List NodeSnapshot) : Quiet spec Fine (failNodes reason nodes) := by
  induction nodes with
  | nil => exact quiet_ret ()
  | cons node nodes ih => exact quiet_bind (quiet_operate _ (plain_node rfl (by decide))) fun _ => ih

theorem quiet_failRunningNode (reason : String) : Quiet spec Fine (failRunningNode reason) := by
  refine quiet_bind (quiet_askLoad _) fun outcome => ?_
  cases outcome with
  | error e =>
    simp only
    split
    · exact quiet_ret ()
    · exact quiet_fail _
  | ok snapshot =>
    simp only
    split
    · exact quiet_ret ()
    · exact quiet_swallow (quiet_bind (quiet_failNodes _ _) fun _ => quiet_operate _ (plain_run rfl (by decide)))

theorem quiet_resumeRun (result : NodeResult) (snapshot : RunSnapshot) :
    Quiet spec Fine (resumeRun result snapshot) := by
  unfold resumeRun
  split
  · exact quiet_operate _ (plain_run rfl (by decide))
  · exact quiet_ret ()

theorem quiet_reenterNode (result : NodeResult) (state : NodeState) :
    Quiet spec Fine (reenterNode result state) := by
  unfold reenterNode
  split
  · exact quiet_operate _ (plain_node rfl (by decide))
  · split
    · exact quiet_operate _ (plain_node rfl (by decide))
    · exact quiet_ret ()

theorem quiet_startPending (node : NodeSpec) (state : NodeState) : Quiet spec Fine (startPending node state) := by
  unfold startPending
  split
  · exact quiet_bind (quiet_operate _ (plain_node rfl (by decide))) fun _ => quiet_ret _
  · exact quiet_ret state

theorem quiet_missingHandlers (handlers : List String) (nodes : List NodeSpec) :
    Quiet spec Fine (missingHandlers handlers nodes) := by
  induction nodes with
  | nil => exact quiet_ret []
  | cons node nodes ih =>
    unfold missingHandlers
    split
    · exact ih
    · exact quiet_bind (quiet_hasResult _) fun persisted => quiet_bind ih fun missing => quiet_ret _

theorem quiet_writeSpecManifest [Sha256] : Quiet spec Fine (writeSpecManifest spec) := by
  refine quiet_bind (quiet_ofChecked _) fun digest => quiet_bind (quiet_ofChecked _) fun dict => ?_
  exact quiet_still (by rintro _ ⟨⟩) fun _ _ _ effect => effect

theorem quiet_validateStoredSpecManifest [Sha256] : Quiet spec Fine (validateStoredSpecManifest spec) := by
  refine quiet_bind (quiet_still (by rintro _ ⟨⟩) fun _ _ _ effect => effect) fun stored => ?_
  cases stored with
  | none => exact quiet_fail _
  | some manifest => exact quiet_bind (quiet_ofChecked _) fun digest => quiet_ofChecked _

/-! What the parts of `execute` come to. -/

/-- The run stays in order; a value is as stated, and an exception is clean. -/
def Ends (spec : RunSpec) (Fine : NodeResult → Prop) (Q : α → Sight → Submissions backend → Prop) :
    Sight → Submissions backend → Except Failure α → Prop := fun v l outcome =>
  Kept spec Fine v l ∧ match outcome with
    | .ok a => Q a v l
    | .error failure => Clean Fine failure

theorem ends_bind {Q : α → Sight → Submissions backend → Prop} {Q' : β → Sight → Submissions backend → Prop}
    {code : Code α} {next : α → Code β} (first : Secures (terms spec Fine) (Ends spec Fine Q) code v l)
    (rest : ∀ a v l, Kept spec Fine v l → Q a v l → Secures (terms spec Fine) (Ends spec Fine Q') (next a) v l) :
    Secures (terms spec Fine) (Ends spec Fine Q') (code >>= next) v l := by
  refine .bind (first.mono ?_)
  rintro v' l' outcome ⟨kept, holds⟩
  cases outcome with
  | ok a => exact rest a v' l' kept holds
  | error failure => exact ⟨kept, holds⟩

theorem ends_quiet {code : Code α} {next : α → Code β} {Q : β → Sight → Submissions backend → Prop}
    (quiet : Quiet spec Fine code) (kept : Kept spec Fine v l)
    (rest : ∀ a v', Kept spec Fine v' l → Same v v' →
      Secures (terms spec Fine) (Ends spec Fine Q) (next a) v' l) :
    Secures (terms spec Fine) (Ends spec Fine Q) (code >>= next) v l :=
  quiet.then kept rest fun _ _ kept' _ clean => ⟨kept', clean⟩

/-- An exception takes along the results so far, which are fine. -/
theorem ends_noting {Q : α → Sight → Submissions backend → Prop} {code : Code α} {results : List NodeResult}
    (fine : ∀ result ∈ results, Fine result) (ends : Secures (terms spec Fine) (Ends spec Fine Q) code v l) :
    Secures (terms spec Fine) (Ends spec Fine Q) (noting results code) v l := by
  refine .mapFailure (ends.mono ?_)
  rintro v' l' outcome ⟨kept, holds⟩
  refine ⟨kept, ?_⟩
  cases outcome with
  | ok a => exact holds
  | error failure =>
    obtain ⟨fault, noted⟩ := failure
    intro all same
    cases noted with
    | none =>
      cases same
      exact fine
    | some noted =>
      cases same
      exact holds _ rfl

theorem ends_ret {Q : α → Sight → Submissions backend → Prop} {a : α} (kept : Kept spec Fine v l) (holds : Q a v l) :
    Secures (terms spec Fine) (Ends spec Fine Q) (.ret a) v l := ⟨kept, holds⟩

theorem ends_fail {Q : α → Sight → Submissions backend → Prop} (kept : Kept spec Fine v l) (fault : Fault) :
    Secures (terms spec Fine) (Ends spec Fine Q) (fail fault) v l := ⟨kept, clean_fresh fault⟩

/-! Replaying a persisted result. -/

/-- The persisted results stay, whatever the outcome. -/
def Stays (spec : RunSpec) (Fine : NodeResult → Prop) (v : Sight) (l : Submissions backend) :
    Sight → Submissions backend → Except Failure α → Prop := fun v' l' outcome =>
  Kept spec Fine v' l' ∧ Same v v' ∧ l' = l ∧ ∀ failure, outcome = .error failure → Clean Fine failure

theorem stays_then {code : Code α} {next : α → Code β} (quiet : Quiet spec Fine code) (kept : Kept spec Fine v l)
    (rest : ∀ a v', Kept spec Fine v' l → Same v v' → Secures (terms spec Fine) (Stays spec Fine v' l) (next a) v' l) :
    Secures (terms spec Fine) (Stays spec Fine v l) (code >>= next) v l := by
  refine quiet.then kept ?_ ?_
  · intro a v' kept' same
    refine (rest a v' kept' same).mono ?_
    rintro v'' l'' outcome ⟨kept'', same', rest⟩
    exact ⟨kept'', same_steady.trans _ _ _ same same', rest⟩
  · intro failure v' kept' same clean
    refine ⟨kept', same, rfl, ?_⟩
    rintro _ ⟨⟩
    exact clean

theorem stays_swallow {code : Code Unit} (stays : Secures (terms spec Fine) (Stays spec Fine v l) code v l) :
    Secures (terms spec Fine) (Stays spec Fine v l) (swallowInvalid code) v l := by
  refine .bind (.attempt (stays.mono ?_))
  rintro v' l' outcome ⟨kept, same, rfl, clean⟩
  cases outcome with
  | ok u => exact ⟨kept, same, rfl, by rintro _ ⟨⟩⟩
  | error failure =>
    have again : Secures (terms spec Fine) (Stays spec Fine v l') (.raise failure : Code Unit) v' l' :=
      ⟨kept, same, rfl, by rintro _ ⟨⟩; exact clean failure rfl⟩
    simp only
    split
    · split
      · exact ⟨kept, same, rfl, by rintro _ ⟨⟩⟩
      · exact again
    · exact again

/-- A node with a persisted success is closed as one. -/
theorem stays_completeNode {caller : Caller} {result : NodeResult} {key : String} (kept : Kept spec Fine v l)
    (stored : v.results.lookup result.nodeId = some result) (succeeded : result.status = .succeeded) :
    Secures (terms spec Fine) (Stays spec Fine v l) (operate caller (.completeNode result.nodeId key)) v l := by
  refine ⟨by rintro _ ⟨⟩, fun v' reply effect => ?_⟩
  have moves : v.Moves v' (.transitionNode result.nodeId .succeeded none none) := effect
  have kept' : Kept spec Fine v' l := by
    refine kept.moves moves ?_ ?_
    · rintro _ _ _ ⟨⟩
    · rintro _ _ _ _ ⟨⟩
      exact ⟨by decide, fun _ => ⟨result, stored, succeeded⟩⟩
  refine ⟨kept', ?_⟩
  refine (quiet_ofOutcome (reply.map fun _ => ()) v' l kept').mono ?_
  rintro v'' l'' outcome ⟨kept'', same, rest⟩
  exact ⟨kept'', same_steady.trans _ _ _ ⟨moves.results, moves.final⟩ same, rest⟩

/-- A node is closed as its persisted result says. -/
theorem stays_closeNode {result : NodeResult} (kept : Kept spec Fine v l)
    (stored : v.results.lookup result.nodeId = some result) :
    Secures (terms spec Fine) (Stays spec Fine v l) (closeNode result) v l := by
  unfold closeNode
  cases status : result.status with
  | succeeded => exact stays_completeNode kept stored status
  | skipped => exact quiet_operate _ (plain_node rfl (by decide)) v l kept
  | failed =>
    exact quiet_bind (quiet_operate _ (plain_node rfl (by decide)))
      (fun _ => quiet_operate _ (plain_run rfl (by decide))) v l kept

theorem stays_applyPersistedResult {result : NodeResult} (kept : Kept spec Fine v l)
    (stored : v.results.lookup result.nodeId = some result) :
    Secures (terms spec Fine) (Stays spec Fine v l) (applyPersistedResult result) v l := by
  refine stays_swallow ?_
  refine stays_then (quiet_load _) kept fun snapshot v₁ kept₁ same₁ => ?_
  refine stays_then (quiet_ofOutcome _) kept₁ fun node v₂ kept₂ same₂ => ?_
  refine stays_then (quiet_releaseActiveLease _ _ _) kept₂ fun _ v₃ kept₃ same₃ => ?_
  refine stays_then (quiet_resumeRun _ _) kept₃ fun _ v₄ kept₄ same₄ => ?_
  refine stays_then (quiet_reenterNode _ _) kept₄ fun _ v₅ kept₅ same₅ => ?_
  refine stays_closeNode kept₅ ?_
  rw [same₅.results, same₄.results, same₃.results, same₂.results, same₁.results]
  exact stored

theorem ends_stays {code : Code α} (stays : Secures (terms spec Fine) (Stays spec Fine v l) code v l) :
    Secures (terms spec Fine) (Ends spec Fine (fun _ v' l' => Same v v' ∧ l' = l)) code v l := by
  refine stays.mono ?_
  rintro v' l' outcome ⟨kept, same, rfl, clean⟩
  refine ⟨kept, ?_⟩
  cases outcome with
  | ok a => exact ⟨same, rfl⟩
  | error failure => exact clean failure rfl

end

end Onmc.Runtime

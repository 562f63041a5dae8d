import Onmc.Runtime.Executed
import Onmc.Runtime.Portable

/-! The runs of a spec that nobody has to approve anything of: one process after the other executes it, and
each may crash at any point. -/
namespace Onmc.Runtime

open DurableRuntime Interact

/-! The task of a node. -/

/-- What the task of a node asks for: it calls the handler of that node only, and moves no state. -/
structure TaskAsks (node : NodeSpec) (request : Request) : Prop where
  unseen : request.Unseen
  own : ∀ other, request = .invoke other → other = node

def taskPromise (node : NodeSpec) : Promise backend := ⟨fun _ => TaskAsks node, fun _ _ => False, fun _ => True⟩

/-- A handler's answer is accepted as the result of a node; an exception may be made into a failure. -/
structure Accepts (node : NodeSpec) (response : Except HandlerError NodeResult) (result : NodeResult) : Prop where
  valid : validateNodeResult node result = .ok ()
  from_ : response = .ok result ∨ result.status = .failed ∧ result.output = []

section

variable {node : NodeSpec} {h : List (Mark backend)}

theorem validateNodeResult_named {result : NodeResult} (valid : validateNodeResult node result = .ok ()) :
    result.nodeId = node.nodeId := by
  unfold validateNodeResult at valid
  rw [then_ok, check_ok] at valid
  exact valid.1

theorem validate_failed {result : NodeResult} (named : result.nodeId = node.nodeId)
    (key : result.idempotencyKey = expectedKey node) (failed : result.status = .failed) :
    validateNodeResult node result = .ok () := by
  unfold validateNodeResult
  rw [then_ok, then_ok, check_ok, check_ok, check_ok]
  exact ⟨named, key, by simp [failed]⟩

theorem construct_node {result made : NodeResult} (h : NodeResult.construct result = .ok made) : made = result := by
  unfold NodeResult.construct at h
  rw [then_ok] at h
  exact (Except.ok.inj h.2).symm

theorem react_give {response : Except HandlerError NodeResult} {result : NodeResult}
    (given : react node response = .give result) : Accepts node response result := by
  cases response with
  | error e =>
    simp only [react] at given
    split at given <;> cases given
  | ok r =>
    simp only [react] at given
    cases valid : validateNodeResult node r with
    | error message => simp [valid] at given
    | ok u =>
      simp only [valid] at given
      split at given
      · cases given
        exact ⟨valid, .inl rfl⟩
      · cases given

theorem react_retry {response : Except HandlerError NodeResult} {family : Family} {text : String}
    {last : Checked NodeResult} {result : NodeResult} (retried : react node response = .retry family text last)
    (ended : last = .ok result) : Accepts node response result := by
  subst ended
  cases response with
  | error e =>
    simp only [react] at retried
    split at retried
    · cases retried
    · simp only [Reaction.retry.injEq] at retried
      have made := construct_node retried.2.2
      subst made
      exact ⟨validate_failed rfl rfl rfl, .inr ⟨rfl, rfl⟩⟩
  | ok r =>
    simp only [react] at retried
    cases valid : validateNodeResult node r with
    | error message => simp [valid] at retried
    | ok u =>
      simp only [valid] at retried
      split at retried
      · cases retried
      · simp only [Reaction.retry.injEq, Except.ok.injEq] at retried
        obtain rfl := retried.2.2
        exact ⟨valid, .inl rfl⟩

/-- What the rest of a task asks for: no handler, and nothing that moves a state. -/
structure PartAsks (request : Request) : Prop where
  unseen : request.Unseen
  other : ∀ node, request ≠ .invoke node

def partPromise : Promise backend := ⟨fun _ => PartAsks, fun _ _ => False, fun _ => True⟩

/-- A part of a task that calls no handler. Its exceptions carry no results. -/
def TaskPart (code : Code α) : Prop :=
  ∀ h, Keeps partPromise (fun _ outcome => ∀ failure : Failure, outcome = .error failure → failure.results = none) code h

theorem part_ret (a : α) : TaskPart (.ret a) := by
  rintro h failure ⟨⟩

theorem part_fail (fault : Fault) : TaskPart (fail fault : Code α) := by
  rintro h failure ⟨⟩
  rfl

theorem part_ask {request : Request} (unseen : request.Unseen) (other : ∀ node, request ≠ .invoke node) :
    TaskPart (ask request) := by
  intro h
  refine ⟨⟨unseen, other⟩, ?_⟩
  rintro reply failure ⟨⟩

theorem part_ofOutcome (outcome : Outcome α) : TaskPart (ofOutcome outcome) := by
  cases outcome with
  | ok a => exact part_ret a
  | error e => exact part_fail _

theorem part_bind {code : Code α} {next : α → Code β} (part : TaskPart code) (rest : ∀ a, TaskPart (next a)) :
    TaskPart (code >>= next) := by
  intro h
  refine .bind ((part h).mono ?_)
  intro h' outcome holds
  cases outcome with
  | ok a => exact rest a h'
  | error failure =>
    rintro _ ⟨⟩
    exact holds failure rfl

theorem part_load (caller : Caller) : TaskPart (load caller) :=
  part_bind (part_ask (.load caller) (by rintro _ ⟨⟩)) part_ofOutcome

theorem part_operate {caller : Caller} {op : Operation} (still : Still op.command) :
    TaskPart (ask (.operate caller op)) := part_ask (.operate caller op still) (by rintro _ ⟨⟩)

theorem part_acquireNodeLease (node : NodeSpec) : TaskPart (acquireNodeLease node) := by
  refine part_bind (part_load _) fun snapshot => part_bind (part_ofOutcome _) fun current => ?_
  cases current.lease with
  | some lease => exact part_ret lease
  | none =>
    refine part_bind (part_ask .events (by rintro _ ⟨⟩)) fun outcome => part_bind (part_ofOutcome _) fun log => ?_
    refine part_bind (part_operate (.acquireLease _ _ _)) fun value => ?_
    unfold expect
    cases value with
    | error e => exact part_fail _
    | ok value =>
      simp only
      split
      · exact part_ret _
      · exact part_fail _

theorem part_releaseLease (caller : Caller) (nodeId token key : String) :
    TaskPart (releaseLease caller nodeId token key) := by
  refine part_bind (part_operate (.releaseLease _ _)) fun outcome => ?_
  cases outcome with
  | ok value => exact part_ret ()
  | error e =>
    simp only
    split
    · exact part_ret ()
    · exact part_fail _

theorem part_recordRetry (policy : RetryPolicy) (classification : RetryClass) (text : String) (retriesUsed : Nat) :
    TaskPart (recordRetry node policy classification text retriesUsed) := by
  unfold recordRetry
  split
  · exact part_ret false
  · refine part_bind ?_ fun _ => part_ret true
    exact part_bind (part_operate (.recordRetry _ _ _ _ _)) fun _ => part_ofOutcome _

theorem part_recordRetryIfAllowed (family : Family) (text : String) :
    TaskPart (recordRetryIfAllowed node family text) := by
  unfold recordRetryIfAllowed
  cases node.retryPolicy with
  | none => exact part_ret false
  | some policy =>
    simp only
    split
    · exact part_ret false
    · refine part_bind (part_load _) fun snapshot => part_bind (part_ofOutcome _) fun current => ?_
      exact part_recordRetry _ _ _ _

/-- The answers of the handler are the same before and after. -/
def SameAnswers (h h' : List (Mark backend)) : Prop :=
  ∀ other response, Mark.asked (I := backend) (.invoke other) response ∈ h' ↔
    Mark.asked (I := backend) (.invoke other) response ∈ h

theorem part_then {code : Code α} {next : α → Code β} {post : List (Mark backend) → Except Failure β → Prop}
    (part : TaskPart code) (failed : ∀ h' failure, failure.results = none → post h' (.error failure))
    (rest : ∀ a h', SameAnswers h h' → Keeps (taskPromise node) post (next a) h') :
    Keeps (taskPromise node) post (code >>= next) h := by
  have later := (part h).later (Q := fun request : Request => ∀ node, request ≠ Request.invoke node) fun _ _ asks => asks.other
  have task : ∀ h request, partPromise.asks h request → (taskPromise node).asks h request :=
    fun _ request asks => ⟨asks.unseen, fun other same => absurd same (asks.other other)⟩
  refine .bind ((later.weaken task (fun _ _ none => none) fun _ _ => trivial).mono ?_)
  · rintro h' outcome ⟨adds, holds⟩
    cases outcome with
    | error failure => exact failed h' failure (holds failure rfl)
    | ok a =>
      refine rest a h' fun other response => ⟨fun member => ?_, fun member => adds.before.subset member⟩
      rcases adds.asked _ member with old | new
      · exact old
      · exact absurd rfl (new other)

/-- What a task comes to: what its handler answered to one of its calls, where it was accepted. -/
def TaskEnds (node : NodeSpec) (h : List (Mark backend)) : Except Failure NodeResult → Prop
  | .ok result => ∃ response, Mark.asked (I := backend) (.invoke node) response ∈ h ∧ Accepts node response result
  | .error failure => failure.results = none

theorem TaskEnds.same {h' : List (Mark backend)} {outcome : Except Failure NodeResult} (same : SameAnswers h h')
    (ends : TaskEnds node h outcome) : TaskEnds node h' outcome := by
  cases outcome with
  | error failure => exact ends
  | ok result =>
    obtain ⟨response, answered, accepted⟩ := ends
    exact ⟨response, (same node response).mpr answered, accepted⟩

theorem keeps_attempts (fuel : Nat) : Keeps (taskPromise node) (TaskEnds node) (attempts fuel node) h := by
  induction fuel generalizing h with
  | zero => trivial
  | succ fuel ih =>
    refine ⟨⟨.invoke node, by rintro _ ⟨⟩; rfl⟩, ?_⟩
    intro response
    have answered : Mark.asked (I := backend) (.invoke node) response ∈ h ++ [.asked (.invoke node) response] :=
      List.mem_append_right _ List.mem_cons_self
    cases reacted : react node response with
    | give result =>
      simp only [Program.bind, reacted]
      exact ⟨response, answered, react_give reacted⟩
    | pass fault =>
      simp only [Program.bind, reacted]
      rfl
    | retry family text last =>
      simp only [Program.bind, reacted]
      refine part_then (part_recordRetryIfAllowed family text) (fun _ _ none => none) ?_
      intro again h' same
      cases again with
      | true => exact ih
      | false =>
        cases last with
        | error message => rfl
        | ok result => exact ⟨response, (same node response).mpr answered, react_retry reacted rfl⟩

/-- A task is what its attempts come to, between the acquisition and the release of its lease. -/
theorem keeps_leased {post : List (Mark backend) → Except Failure NodeResult → Prop} (fuel : Nat)
    (failed : ∀ h failure, failure.results = none → post h (.error failure))
    (stable : ∀ h h' outcome, SameAnswers h h' → post h outcome → post h' outcome)
    (body : ∀ h', SameAnswers h h' → Keeps (taskPromise node) post (attempts fuel node) h') :
    Keeps (taskPromise node) post (runNodeWithRetries fuel node) h := by
  refine part_then (part_acquireNodeLease node) failed fun lease h' same => ?_
  refine .bind (.attempt ((body h' same).mono ?_))
  intro h'' outcome ends
  refine part_then (part_releaseLease _ _ _ _) failed fun _ h''' same' => ?_
  exact .ofExcept (stable h'' h''' outcome same' ends)

theorem keeps_runNodeWithRetries (fuel : Nat) :
    Keeps (taskPromise node) (TaskEnds node) (runNodeWithRetries fuel node) h :=
  keeps_leased fuel (fun _ _ none => none) (fun _ _ _ same ends => ends.same same) fun _ _ => keeps_attempts fuel

end

section

variable {spec : RunSpec} {Fine : NodeResult → Prop} {v : Sight} {l : Submissions backend}

theorem Kept.forgets (kept : Kept spec Fine v l) : Kept spec Fine v [] where
  run := kept.run
  node := kept.node
  succeeded := kept.succeeded
  completed := kept.completed
  fine := kept.fine
  once := List.nodup_nil
  pending := by
    intro node member
    cases member
  ready := by
    intro node seen member
    cases member

theorem kept_absent [Sha256] : Kept spec Fine (World.absent.sight spec.runId) [] := by
  have unmade : loaded spec.runId RunDir.absent = none := loaded_none ⟨rfl, rfl⟩
  constructor <;> simp [World.sight, World.absent, unmade]

/-- A result that is valid for the node it names. -/
def Validated (spec : RunSpec) (result : NodeResult) : Prop :=
  ∀ node ∈ spec.nodes, node.nodeId = result.nodeId → validateNodeResult node result = .ok ()

theorem returns_of_ends {node : NodeSpec} {h : List (Mark backend)} {outcome : Except Failure NodeResult}
    (ends : TaskEnds node h outcome)
    (fine : ∀ response result, Mark.asked (I := backend) (.invoke node) response ∈ h → Accepts node response result →
      node ∈ spec.nodes → Fine result) : Returns spec Fine node outcome := by
  cases outcome with
  | error failure =>
    intro results same
    rw [show failure.results = none from ends] at same
    cases same
  | ok result =>
    obtain ⟨response, answered, accepted⟩ := ends
    exact ⟨validateNodeResult_named accepted.valid, fine response result answered accepted⟩

theorem accepts_validated {node : NodeSpec} {response : Except HandlerError NodeResult} {result : NodeResult}
    (accepted : Accepts node response result) (known : node ∈ spec.nodes) : Validated spec result := by
  intro other listed named
  have same : other = node := List.inj_on_of_nodup_map spec.runnable.unique listed known
    (named.trans (validateNodeResult_named accepted.valid))
  rw [same]
  exact accepted.valid

end

/-- The terms of `execute` are those of the backend's world. -/
def native [Sha256] (spec : RunSpec) (fuel : Nat) : Fits (runtime spec fuel) (terms spec (Validated spec))
    (World.sight spec.runId) (World.Tracked spec.runId) (fun _ => True) where
  calm := TaskAsks
  told := fun _ => True
  earlier := fun _ _ _ _ => trivial
  stays := fun oracle request _ tracked => World.perform_tracked tracked oracle request
  forgets := fun _ _ kept => kept.forgets
  performs := fun oracle request _ _ tracked _ _ => World.perform_effect tracked oracle request
  unseen := fun oracle _ _ _ tracked asks => World.perform_unseen tracked oracle asks.unseen
  tells := fun _ _ _ _ => trivial
  task := fun _ => (keeps_runNodeWithRetries fuel).mono fun _ _ ends _ =>
    returns_of_ends ends fun _ _ _ accepted known => accepts_validated accepted known

theorem sessions_solo [Sha256] {spec : RunSpec} {fuel : Nat}
    (unattended : ∀ node ∈ spec.nodes, node.approvalRequired = false) {s : System (runtime spec fuel)}
    (sessions : Interact.Sessions (fun _ => True) id World.absent s) :
    Solo (native spec fuel) (Ends spec (Validated spec) (Accounted spec (Validated spec))) s :=
  sessions.solo (native spec fuel) ⟨fun _ tracked => tracked, fun _ reach => reach, fun _ => rfl⟩
    (fun e _ _ kept => ends_execute unattended e kept) tracked_absent kept_absent trivial

/-- A valid success of each node is persisted. -/
def Succeeds (spec : RunSpec) (w : World) : Prop := ∀ node ∈ spec.nodes, ∃ result,
  w.results.lookup node.nodeId = some result ∧ result.status = .succeeded ∧ validateNodeResult node result = .ok ()

theorem Kept.succeeds [Sha256] {spec : RunSpec} {w : World} {l : Submissions backend}
    (kept : Kept spec (Validated spec) (w.sight spec.runId) l)
    (done : ∀ node ∈ spec.nodes, ∃ result, w.results.lookup node.nodeId = some result ∧ result.status = .succeeded) :
    Succeeds spec w := by
  intro node known
  obtain ⟨result, stored, succeeded⟩ := done node known
  obtain ⟨named, valid⟩ := kept.fine node.nodeId result stored
  exact ⟨result, stored, succeeded, valid node known named.symm⟩

theorem sight_run [Sha256] {runId : String} {w : World} {snapshot : RunSnapshot}
    (read : (DurableRuntime.load runId w.dir).2 = .ok snapshot) : (w.sight runId).Shows snapshot where
  run := by simp [World.sight, loaded, read, Except.toOption]
  node := by simp [World.sight, loaded, read, Except.toOption]

/-- A run is completed, in its log or as a call returns it, only with a valid success of each node persisted; the
call returns each node once, as it is persisted. Without an approval to ask for it never says it was interrupted. -/
theorem completed_sound [Sha256] (spec : RunSpec) (fuel : Nat)
    (unattended : ∀ node ∈ spec.nodes, node.approvalRequired = false) {s : System (runtime spec fuel)}
    (sessions : Interact.Sessions (fun _ => True) id World.absent s) :
    (∀ snapshot, (DurableRuntime.load spec.runId s.world.dir).2 = .ok snapshot → snapshot.state = .completed →
      Succeeds spec s.world) ∧
    ∀ (i : Nat) c result, s.calls[i]? = some c → c.main.outcome? = some (.ok result) →
      result.status ≠ .interrupted ∧ (result.status = .completed → Succeeds spec s.world ∧
        (result.results.map NodeResult.nodeId).Perm (spec.nodes.map NodeSpec.nodeId) ∧
        ∀ r ∈ result.results, s.world.results.lookup r.nodeId = some r) := by
  have solo := sessions_solo unattended sessions
  refine ⟨?_, ?_⟩
  · intro snapshot read done
    have shows_ : (s.world.sight spec.runId).Shows snapshot := sight_run read
    exact solo.keeps.succeeds (solo.keeps.completed (shows_.run.trans (congrArg some done)))
  · intro i c result called returned
    obtain ⟨l, _, kept, _, accounted⟩ := solo.returned called returned
    refine ⟨accounted.calm, fun done => ?_⟩
    have whole := accounted.completed done
    exact ⟨kept.succeeds fun node known => whole.node known, whole.nodes, fun r member => (whole.stored r member).2⟩

/-- When a task calls a handler, nothing has been persisted for its node, the log does not have the node succeeded,
and all it depends on has succeeded there with a persisted success. It calls the handler of that node, and the call
made one task for it. -/
def CallsFresh [Sha256] (spec : RunSpec) {fuel : Nat} (s : System (runtime spec fuel)) : Prop :=
  ∀ (i j : Nat) c node other thread next, s.calls[i]? = some c → c.tasks[j]? = some (node, thread) →
    thread.program = .ask (.invoke other) next →
    other = node ∧ s.world.results.lookup node.nodeId = none ∧ (c.tasks.map (fun entry => entry.1.nodeId)).Nodup ∧
      (∀ snapshot, (DurableRuntime.load spec.runId s.world.dir).2 = .ok snapshot →
        snapshot.stateOf node.nodeId ≠ some .succeeded) ∧
      ∀ dependency ∈ node.dependencies, (∃ snapshot,
        (DurableRuntime.load spec.runId s.world.dir).2 = .ok snapshot ∧ snapshot.stateOf dependency = some .succeeded) ∧
        ∃ result, s.world.results.lookup dependency = some result ∧ result.status = .succeeded

/-- However the processes crash, no handler is called again once a result of its node has been persisted. -/
theorem called_fresh [Sha256] (spec : RunSpec) (fuel : Nat)
    (unattended : ∀ node ∈ spec.nodes, node.approvalRequired = false) {s : System (runtime spec fuel)}
    (sessions : Interact.Sessions (fun _ => True) id World.absent s) : CallsFresh spec s := by
  intro i j c node other thread next called task calls
  have solo := sessions_solo unattended sessions
  have running : thread.outcome? = none := by simp [Thread.outcome?, calls]
  obtain ⟨l, lists, listed, kept⟩ := solo.running called task running
  have asks := (native spec fuel).asking (sessions.grounded called) task calls
  have new : s.world.results.lookup node.nodeId = none := kept.pending node listed
  refine ⟨asks.own other rfl, new, ?_, ?_, ?_⟩
  · have once : ((l.map Prod.fst).map NodeSpec.nodeId).Nodup := by
      rw [List.map_map]
      exact kept.once
    rw [lists.tasks, List.map_map] at once
    exact once
  · intro snapshot read done
    have shows_ : (s.world.sight spec.runId).Shows snapshot := sight_run read
    obtain ⟨result, stored, _⟩ := kept.succeeded node.nodeId ((shows_.node _).trans done)
    exact Option.some_ne_none result (stored.symm.trans new)
  · intro dependency needed
    have done := kept.ready node none listed dependency needed
    refine ⟨?_, kept.succeeded dependency done⟩
    obtain ⟨snapshot, read, state⟩ := Option.bind_eq_some_iff.mp done
    unfold loaded at read
    cases reply : (DurableRuntime.load spec.runId s.world.dir).2 with
    | error e =>
      rw [reply] at read
      cases read
    | ok other =>
      rw [reply] at read
      cases read
      exact ⟨snapshot, rfl, state⟩

section Build

/-- What a process that executes the build run is given, and what it meets. -/
def buildExecution : Execution := ⟨["build"], false, ⟨1, false, Nat.le_refl 1⟩⟩

def buildOracle : Oracle where
  clock := .reading 1 DateTime.one_inDay
  environment := buildCreation.capturedEnvironment
  git := buildCreation.capturedGit
  response := .ok ⟨"build", .succeeded, "runtime:build", [], [], none⟩

/-- A process that crashes after it has asked for the run, and one that begins after that. -/
theorem build_sessions [Sha256] : ∃ s, s.calls ≠ [] ∧
    Interact.Sessions (S := runtime (buildSpec (.float (.ofInt 120)) positive_float) 1) (fun _ => True) id World.absent s := by
  have first : Reached (S := runtime (buildSpec (.float (.ofInt 120)) positive_float) 1) (Alone fun _ => True)
      World.absent _ :=
    .move _ (.crash 0) (.move _ (.turn 0 .main buildOracle) (.move _ (.begin buildExecution) .start ⟨rfl, trivial⟩)
      trivial) trivial
  exact ⟨_, by simp [System.move], .next (.first first) (.move _ (.begin buildExecution) .start ⟨rfl, trivial⟩)⟩

theorem build_unattended :
    ∀ node ∈ (buildSpec (.float (.ofInt 120)) positive_float).nodes, node.approvalRequired = false := by
  intro node known
  rw [List.mem_singleton.mp known]
  rfl

theorem completed_sound_build :
    let _ := Sha256.standard
    ∃ s : System (runtime (buildSpec (.float (.ofInt 120)) positive_float) 1), s.calls ≠ [] ∧
      ∀ snapshot, (DurableRuntime.load "run" s.world.dir).2 = .ok snapshot → snapshot.state = .completed →
        Succeeds (buildSpec (.float (.ofInt 120)) positive_float) s.world := by
  let _ := Sha256.standard
  obtain ⟨s, called, sessions⟩ := build_sessions
  exact ⟨s, called, (completed_sound _ 1 build_unattended sessions).1⟩

theorem called_fresh_build :
    let _ := Sha256.standard
    ∃ s : System (runtime (buildSpec (.float (.ofInt 120)) positive_float) 1), s.calls ≠ [] ∧
      CallsFresh (buildSpec (.float (.ofInt 120)) positive_float) s := by
  let _ := Sha256.standard
  obtain ⟨s, called, sessions⟩ := build_sessions
  exact ⟨s, called, called_fresh _ 1 build_unattended sessions⟩

end Build

end Onmc.Runtime

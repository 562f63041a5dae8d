import Onmc.Runtime.Outcomes

/-! What `execute` comes to, from the scan of one node to the whole run. -/
namespace Onmc.Runtime

open DurableRuntime Interact

/-- The run has ended, and it has neither completed nor asked for an approval. -/
structure Stopped (Fine : NodeResult → Prop) (result : RunResult) : Prop where
  open_ : result.status ≠ .completed
  calm : result.status ≠ .interrupted
  fine : ∀ r ∈ result.results, Fine r

/-- Successes, each of them persisted. -/
def Stored (v : Sight) (results : List NodeResult) : Prop :=
  ∀ r ∈ results, r.status = .succeeded ∧ v.results.lookup r.nodeId = some r

theorem Stored.same {v v' : Sight} {results : List NodeResult} (stored : Stored v results) (same : Same v v') :
    Stored v' results := by
  intro r member
  rw [same.results]
  exact stored r member

theorem Stored.concat {v : Sight} {results : List NodeResult} {r : NodeResult} (stored : Stored v results)
    (succeeded : r.status = .succeeded) (found : v.results.lookup r.nodeId = some r) : Stored v (results ++ [r]) := by
  intro other member
  rcases List.mem_append.mp member with member | member
  · exact stored other member
  · obtain rfl := List.mem_singleton.mp member
    exact ⟨succeeded, found⟩

/-- A node that may be submitted: it has no persisted result, and what it depends on has succeeded. -/
structure Ripe (v : Sight) (node : NodeSpec) : Prop where
  new : v.results.lookup node.nodeId = none
  ready : ∀ dependency ∈ node.dependencies, v.node dependency = some .succeeded

theorem Ripe.same {v v' : Sight} {node : NodeSpec} (ripe : Ripe v node) (same : Same v v') : Ripe v' node where
  new := by rw [same.results]; exact ripe.new
  ready := fun dependency needed => same.final dependency _ (ripe.ready dependency needed) rfl

/-- A snapshot that was loaded earlier in the run. -/
structure Reads (current : RunSnapshot) (v : Sight) : Prop where
  calm : ∀ nodeId, current.stateOf nodeId ≠ some .awaitingApproval
  succeeded : ∀ nodeId, current.stateOf nodeId = some .succeeded → v.node nodeId = some .succeeded

theorem Reads.same {current : RunSnapshot} {v v' : Sight} (reads : Reads current v) (same : Same v v') :
    Reads current v' where
  calm := reads.calm
  succeeded := fun nodeId found => same.final nodeId _ (reads.succeeded nodeId found) rfl

section

variable {spec : RunSpec} {Fine : NodeResult → Prop} {v v' : Sight} {l : Submissions backend}

theorem Kept.reads (kept : Kept spec Fine v l) {current : RunSnapshot} (shows_ : v.Shows current) : Reads current v where
  calm := by
    intro nodeId
    rw [← shows_.node]
    exact kept.node nodeId
  succeeded := by
    intro nodeId found
    rw [shows_.node]
    exact found

theorem Stored.fine (kept : Kept spec Fine v l) {results : List NodeResult} (stored : Stored v results) :
    ∀ r ∈ results, Fine r := fun r member => (kept.fine r.nodeId r (stored r member).2).2

theorem nodeOf_ok {snapshot : RunSnapshot} {nodeId : String} {node : NodeSnapshot}
    (h : nodeOf snapshot nodeId = .ok node) : snapshot.stateOf nodeId = some node.state := by
  unfold nodeOf at h
  cases found : snapshot.nodes.lookup nodeId with
  | none =>
    rw [found] at h
    cases h
  | some other =>
    rw [found] at h
    cases h
    simp [RunSnapshot.stateOf, found]

theorem unsatisfied_ok {current : RunSnapshot} {dependencies : List String}
    (h : unsatisfied current dependencies = .ok false) :
    ∀ dependency ∈ dependencies, current.stateOf dependency = some .succeeded := by
  induction dependencies with
  | nil => simp
  | cons dependency dependencies ih =>
    obtain ⟨node, found, h⟩ := Except.bind_ok.mp h
    split at h
    · cases h
    · rename_i succeeded
      intro other member
      rcases List.mem_cons.mp member with rfl | member
      · rw [nodeOf_ok found, not_not.mp succeeded]
      · exact ih h other member

theorem ret_bind {α β : Type} (a : α) (f : α → Code β) : ((.ret a : Code α) >>= f) = f a := rfl

theorem construct_result {result made : RunResult} (h : RunResult.construct result = .ok made) : made = result := by
  unfold RunResult.construct at h
  rw [then_ok, then_ok, then_ok, then_ok] at h
  exact (Except.ok.inj h.2.2.2.2).symm

/-! Results of the run. -/

theorem ends_resultOf [Sha256] {status : RunResultStatus} {results : List NodeResult} {error : Option String}
    {Q : RunResult → Sight → Submissions backend → Prop} (kept : Kept spec Fine v l)
    (holds : ∀ result, result.status = status → result.results = results → Q result v l) :
    Secures (terms spec Fine) (Ends spec Fine Q) (resultOf spec status results error) v l := by
  unfold resultOf
  cases digested : spec.digest with
  | error message => exact ends_fail kept _
  | ok digest =>
    cases made : RunResult.construct ⟨spec.runId, status, results, backendName, digest, error⟩ with
    | error message =>
      rw [ofChecked, ret_bind, made]
      exact ends_fail kept _
    | ok result =>
      rw [ofChecked, ret_bind, made]
      obtain rfl := construct_result made
      exact ends_ret kept (holds _ rfl rfl)

theorem ends_stopped [Sha256] {status : RunResultStatus} {results : List NodeResult} {error : Option String}
    (kept : Kept spec Fine v l) (open_ : status ≠ .completed) (calm : status ≠ .interrupted)
    (fine : ∀ r ∈ results, Fine r) :
    Secures (terms spec Fine) (Ends spec Fine (fun result _ _ => Stopped Fine result))
      (resultOf spec status results error) v l := by
  refine ends_resultOf kept ?_
  intro result rfl same
  exact ⟨open_, calm, same ▸ fine⟩

theorem ends_terminalResult [Sha256] {results : List NodeResult} {result : NodeResult} (kept : Kept spec Fine v l)
    (fine : ∀ r ∈ results, Fine r) :
    Secures (terms spec Fine) (Ends spec Fine (fun result _ _ => Stopped Fine result))
      (terminalResult spec results result) v l := by
  unfold terminalResult
  split
  · exact ends_stopped kept (by decide) (by decide) fine
  · exact ends_stopped kept (by decide) (by decide) fine

theorem ends_loadValidated {node : NodeSpec} {result : NodeResult} (kept : Kept spec Fine v l)
    (found : v.results.lookup node.nodeId = some result) :
    Secures (terms spec Fine) (Ends spec Fine (fun r v' l' => r = result ∧ v' = v ∧ l' = l)) (loadValidated node) v l := by
  refine ⟨by rintro _ ⟨⟩, ?_⟩
  rintro v' reply ⟨rfl, rfl⟩
  refine ⟨kept, ?_⟩
  simp only [found]
  cases validated : validateNodeResult node result with
  | error message =>
    simp only [Program.bind, validated, ofChecked, fail]
    exact ⟨kept, clean_fresh _⟩
  | ok u =>
    simp only [Program.bind, validated, ofChecked]
    exact ⟨kept, rfl, rfl, rfl⟩

theorem ends_mono {Q Q' : α → Sight → Submissions backend → Prop} {code : Code α}
    (ends : Secures (terms spec Fine) (Ends spec Fine Q) code v l)
    (weaker : ∀ a v l, Kept spec Fine v l → Q a v l → Q' a v l) :
    Secures (terms spec Fine) (Ends spec Fine Q') code v l := by
  refine ends.mono ?_
  rintro v' l' outcome ⟨kept, holds⟩
  refine ⟨kept, ?_⟩
  cases outcome with
  | ok a => exact weaker a v' l' kept holds
  | error failure => exact holds

theorem ends_ask {request : Request} {next : request.Reply → Code α}
    {post : Sight → Submissions backend → Except Failure α → Prop} (asks : ∀ node, request ≠ .invoke node)
    (rest : ∀ v' reply, v.Effect request v' reply →
      Kept spec Fine v' l ∧ Secures (terms spec Fine) post (next reply) v' l) :
    Secures (terms spec Fine) post (ask request >>= next) v l := ⟨asks, rest⟩

theorem ends_load {caller : Caller} (kept : Kept spec Fine v l) :
    Secures (terms spec Fine) (Ends spec Fine (fun current v' l' => v' = v ∧ l' = l ∧ v'.Shows current))
      (load caller) v l := by
  refine ends_ask (by rintro _ ⟨⟩) ?_
  rintro v' reply ⟨rfl, shows_⟩
  refine ⟨kept, ?_⟩
  cases reply with
  | error e => exact ends_fail kept _
  | ok current => exact ends_ret kept ⟨rfl, rfl, shows_ current rfl⟩

/-! Scanning. -/

/-- What the scan of a node comes to. -/
def ScanEnds (Fine : NodeResult → Prop) (node : NodeSpec) (results : List NodeResult) (v : Sight)
    (l : Submissions backend) : Scanned → Sight → Submissions backend → Prop
  | .returned result, _, _ => Stopped Fine result
  | .passed results', v', l' => Same v v' ∧ l' = l ∧
    ∃ r, results' = results ++ [r] ∧ r.nodeId = node.nodeId ∧ Stored v' [r]
  | .admitted, v', l' => Same v v' ∧ l' = l ∧ Ripe v' node

theorem ScanEnds.same {node : NodeSpec} {results : List NodeResult} {scanned : Scanned} {v'' : Sight}
    {l' : Submissions backend} (same : Same v v') (ends : ScanEnds Fine node results v' l scanned v'' l') :
    ScanEnds Fine node results v l scanned v'' l' := by
  cases scanned with
  | returned result => exact ends
  | passed results' => exact ⟨same_steady.trans _ _ _ same ends.1, ends.2⟩
  | admitted => exact ⟨same_steady.trans _ _ _ same ends.1, ends.2⟩

/-- A part of a scan that closes nothing, and then the rest of it. -/
theorem scan_quiet {node : NodeSpec} {results : List NodeResult} {code : Code α} {next : α → Code Scanned}
    (quiet : Quiet spec Fine code) (kept : Kept spec Fine v l)
    (rest : ∀ a v', Kept spec Fine v' l → Same v v' →
      Secures (terms spec Fine) (Ends spec Fine (ScanEnds Fine node results v' l)) (next a) v' l) :
    Secures (terms spec Fine) (Ends spec Fine (ScanEnds Fine node results v l)) (code >>= next) v l :=
  ends_quiet quiet kept fun a v' kept' same =>
    ends_mono (rest a v' kept' same) fun _ _ _ _ ends => ends.same same

theorem scan_stopped {node : NodeSpec} {results : List NodeResult} {code : Code RunResult}
    (stops : Secures (terms spec Fine) (Ends spec Fine (fun result _ _ => Stopped Fine result)) code v l) :
    Secures (terms spec Fine) (Ends spec Fine (ScanEnds Fine node results v l))
      (code >>= fun final => .ret (.returned final)) v l :=
  ends_bind stops fun _ _ _ kept stopped => ends_ret kept stopped

theorem scan_afterReplay [Sha256] {node : NodeSpec} {results : List NodeResult} {result : NodeResult}
    (kept : Kept spec Fine v l) (named : result.nodeId = node.nodeId)
    (found : v.results.lookup result.nodeId = some result) (fine : ∀ r ∈ results ++ [result], Fine r) :
    Secures (terms spec Fine) (Ends spec Fine (ScanEnds Fine node results v l))
      (afterReplay spec result (results ++ [result])) v l := by
  unfold afterReplay
  cases status : result.status with
  | succeeded =>
    refine ends_ret kept ⟨same_steady.refl v, rfl, result, rfl, named, ?_⟩
    intro r member
    obtain rfl := List.mem_singleton.mp member
    exact ⟨status, found⟩
  | skipped =>
    refine scan_quiet (quiet_cancelUnfinishedNodes _) kept fun _ v₁ kept₁ _ => ?_
    refine scan_quiet (quiet_operate _ (plain_run rfl (by decide))) kept₁ fun _ v₂ kept₂ _ => ?_
    exact scan_stopped (ends_terminalResult kept₂ fine)
  | failed => exact scan_stopped (ends_terminalResult kept fine)

theorem scan_replayNode [Sha256] {node : NodeSpec} {results : List NodeResult} {result : NodeResult}
    (kept : Kept spec Fine v l) (found : v.results.lookup node.nodeId = some result)
    (fine : ∀ r ∈ results, Fine r) :
    Secures (terms spec Fine) (Ends spec Fine (ScanEnds Fine node results v l)) (replayNode spec node results) v l := by
  obtain ⟨named, own⟩ := kept.fine node.nodeId result found
  have all : ∀ r ∈ results ++ [result], Fine r := by
    intro r member
    rcases List.mem_append.mp member with member | member
    · exact fine r member
    · obtain rfl := List.mem_singleton.mp member
      exact own
  refine ends_bind (ends_loadValidated kept found) ?_
  rintro r v₁ l₁ kept₁ ⟨rfl, rfl, rfl⟩
  have stored : v₁.results.lookup r.nodeId = some r := by rw [named]; exact found
  refine ends_bind (ends_stays (stays_applyPersistedResult kept₁ stored)) ?_
  rintro _ v₂ l₂ kept₂ ⟨same, rfl⟩
  refine ends_noting all (ends_mono (scan_afterReplay kept₂ named ?_ all) fun _ _ _ _ ends => ends.same same)
  rw [same.results]
  exact stored

theorem scan_gateNode [Sha256] {node : NodeSpec} {results : List NodeResult} {state : NodeState}
    (unattended : node.approvalRequired = false) (kept : Kept spec Fine v l) (ripe : Ripe v node) :
    Secures (terms spec Fine) (Ends spec Fine (ScanEnds Fine node results v l)) (gateNode spec node results state) v l := by
  unfold gateNode
  simp only [unattended, Bool.false_eq_true, false_and, if_false]
  exact ends_ret kept ⟨same_steady.refl v, rfl, ripe⟩

theorem scan_admitNode [Sha256] {current : RunSnapshot} {node : NodeSpec} {results : List NodeResult}
    {state : NodeState} (unattended : node.approvalRequired = false) (kept : Kept spec Fine v l)
    (reads : Reads current v) (new : v.results.lookup node.nodeId = none) :
    Secures (terms spec Fine) (Ends spec Fine (ScanEnds Fine node results v l))
      (admitNode spec current node results state) v l := by
  unfold admitNode
  cases met : unsatisfied current node.dependencies with
  | error e => exact ends_fail kept _
  | ok unmet =>
    rw [ofOutcome, ret_bind]
    cases unmet with
    | true => exact ends_fail kept _
    | false =>
      have ripe : Ripe v node :=
        ⟨new, fun dependency needed => reads.succeeded dependency (unsatisfied_ok met dependency needed)⟩
      simp only [Bool.false_eq_true, if_false]
      exact scan_quiet (quiet_startPending node state) kept fun state v' kept' same =>
        scan_gateNode unattended kept' (ripe.same same)

theorem scan_enterNode [Sha256] {current : RunSnapshot} {node : NodeSpec} {results : List NodeResult}
    {state : NodeState} (unattended : node.approvalRequired = false) (kept : Kept spec Fine v l)
    (reads : Reads current v) (fine : ∀ r ∈ results, Fine r) :
    Secures (terms spec Fine) (Ends spec Fine (ScanEnds Fine node results v l))
      (enterNode spec current node results state) v l := by
  refine ends_ask (by rintro _ ⟨⟩) ?_
  rintro v' reply ⟨rfl, rfl⟩
  refine ⟨kept, ?_⟩
  cases found : v'.results.lookup node.nodeId with
  | none => exact scan_admitNode unattended kept reads found
  | some result => exact scan_replayNode kept found fine

theorem scan_scanNode [Sha256] {current : RunSnapshot} {node : NodeSpec} {results : List NodeResult}
    (unattended : node.approvalRequired = false) (kept : Kept spec Fine v l) (reads : Reads current v)
    (fine : ∀ r ∈ results, Fine r) :
    Secures (terms spec Fine) (Ends spec Fine (ScanEnds Fine node results v l))
      (scanNode spec current node results) v l := by
  unfold scanNode
  cases here : nodeOf current node.nodeId with
  | error e => exact ends_fail kept _
  | ok found =>
    have state := nodeOf_ok here
    rw [ofOutcome, ret_bind]
    cases was : found.state with
    | succeeded =>
      rw [was] at state
      obtain ⟨result, stored, succeeded⟩ := kept.succeeded node.nodeId (reads.succeeded node.nodeId state)
      obtain ⟨named, _⟩ := kept.fine node.nodeId result stored
      refine ends_bind (ends_loadValidated kept stored) ?_
      rintro r v₁ l₁ kept₁ ⟨rfl, rfl, rfl⟩
      refine ends_ret kept₁ ⟨same_steady.refl _, rfl, r, rfl, named, ?_⟩
      intro other member
      obtain rfl := List.mem_singleton.mp member
      exact ⟨succeeded, named ▸ stored⟩
    | cancelled => exact scan_stopped (ends_stopped kept (by decide) (by decide) fine)
    | awaitingApproval => exact absurd (was ▸ state) (reads.calm node.nodeId)
    | _ => exact scan_enterNode unattended kept reads fine

end

end Onmc.Runtime

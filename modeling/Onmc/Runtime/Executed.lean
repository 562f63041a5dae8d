import Onmc.Runtime.Unattended

/-! What `execute` comes to, layer by layer. -/
namespace Onmc.Runtime

open DurableRuntime Interact

section

variable {spec : RunSpec} {Fine : NodeResult → Prop} {v v' : Sight} {l : Submissions backend}

/-! The scan of a layer. -/

/-- What the scan of a layer comes to: each node has passed or is ready. -/
def LayerEnds (Fine : NodeResult → Prop) (nodes : List NodeSpec) (results : List NodeResult) (ready : List NodeSpec)
    (v : Sight) (l : Submissions backend) : Layer → Sight → Submissions backend → Prop
  | .returned result, _, _ => Stopped Fine result
  | .ready results' ready', v', l' => Same v v' ∧ l' = l ∧ results <+: results' ∧ Stored v' results' ∧
    ∃ new, ready' = ready ++ new ∧ new.Sublist nodes ∧ (∀ node ∈ new, Ripe v' node) ∧
      (results'.map NodeResult.nodeId ++ new.map NodeSpec.nodeId).Perm
        (results.map NodeResult.nodeId ++ nodes.map NodeSpec.nodeId)

theorem LayerEnds.passed {node : NodeSpec} {nodes ready : List NodeSpec} {results : List NodeResult} {r : NodeResult}
    {layer : Layer} {v'' : Sight} {l' : Submissions backend} (same : Same v v') (named : r.nodeId = node.nodeId)
    (ends : LayerEnds Fine nodes (results ++ [r]) ready v' l layer v'' l') :
    LayerEnds Fine (node :: nodes) results ready v l layer v'' l' := by
  cases layer with
  | returned result => exact ends
  | ready results' ready' =>
    obtain ⟨same', rfl, prior, stored, new, rfl, some, ripe, perm⟩ := ends
    refine ⟨same_steady.trans _ _ _ same same', rfl, (List.prefix_append _ _).trans prior, stored, new, rfl,
      some.cons node, ripe, ?_⟩
    simpa [named] using perm

theorem LayerEnds.admitted {node : NodeSpec} {nodes ready : List NodeSpec} {results : List NodeResult}
    {layer : Layer} {v'' : Sight} {l' : Submissions backend} (same : Same v v') (ripe : Ripe v' node)
    (ends : LayerEnds Fine nodes results (ready ++ [node]) v' l layer v'' l') :
    LayerEnds Fine (node :: nodes) results ready v l layer v'' l' := by
  cases layer with
  | returned result => exact ends
  | ready results' ready' =>
    obtain ⟨same', rfl, prior, stored, new, rfl, some, ripes, perm⟩ := ends
    refine ⟨same_steady.trans _ _ _ same same', rfl, prior, stored, node :: new, by simp, some.cons_cons node, ?_, ?_⟩
    · intro other member
      rcases List.mem_cons.mp member with rfl | member
      · exact ripe.same same'
      · exact ripes other member
    · simp only [List.map_cons]
      exact List.perm_middle.trans ((perm.cons _).trans List.perm_middle.symm)

theorem ends_scanLayer [Sha256] {current : RunSnapshot} {nodes ready : List NodeSpec} {results : List NodeResult}
    (unattended : ∀ node ∈ nodes, node.approvalRequired = false) (kept : Kept spec Fine v l) (reads : Reads current v)
    (stored : Stored v results) :
    Secures (terms spec Fine) (Ends spec Fine (LayerEnds Fine nodes results ready v l))
      (scanLayer spec current nodes results ready) v l := by
  induction nodes generalizing results ready v with
  | nil =>
    refine ends_ret kept ⟨same_steady.refl v, rfl, List.prefix_rfl, stored, [], by simp, .slnil, ?_, by simp⟩
    intro node member
    cases member
  | cons node nodes ih =>
    have rest : ∀ node ∈ nodes, node.approvalRequired = false :=
      fun other member => unattended other (List.mem_cons_of_mem _ member)
    have fine := Stored.fine kept stored
    refine ends_bind (ends_noting fine (scan_scanNode (unattended node List.mem_cons_self) kept reads fine)) ?_
    intro scanned v₁ l₁ kept₁ scan
    cases scanned with
    | returned result => exact ends_ret kept₁ scan
    | passed results' =>
      obtain ⟨same, rfl, r, rfl, named, own⟩ := scan
      have stored' : Stored v₁ (results ++ [r]) :=
        (stored.same same).concat (own r List.mem_cons_self).1 (own r List.mem_cons_self).2
      exact ends_mono (ih rest kept₁ (reads.same same) stored') fun _ _ _ _ ends => ends.passed same named
    | admitted =>
      obtain ⟨same, rfl, ripe⟩ := scan
      exact ends_mono (ih rest kept₁ (reads.same same) (stored.same same)) fun _ _ _ _ ends => ends.admitted same ripe

/-! The ready nodes of a layer. -/

theorem Kept.submitted (kept : Kept spec Fine v l) {node : NodeSpec} (ripe : Ripe v node)
    (new : node.nodeId ∉ l.map (fun entry => entry.1.nodeId)) : Kept spec Fine v (l ++ [(node, none)]) where
  run := kept.run
  node := kept.node
  succeeded := kept.succeeded
  completed := kept.completed
  fine := kept.fine
  once := by
    rw [List.map_append, List.map_singleton]
    exact List.nodup_append.mpr ⟨kept.once, List.nodup_singleton _, fun a old b same => by
      rintro rfl
      exact new (List.mem_singleton.mp same ▸ old)⟩
  pending := by
    intro other member
    rcases List.mem_append.mp member with member | member
    · exact kept.pending other member
    · cases List.mem_singleton.mp member
      exact ripe.new
  ready := by
    intro other seen member
    rcases List.mem_append.mp member with member | member
    · exact kept.ready other seen member
    · cases List.mem_singleton.mp member
      exact ripe.ready

theorem Kept.awaited (kept : Kept spec Fine v l) {future : Nat} {node : NodeSpec}
    {seen : Option (Except Failure NodeResult)} (found : l[future]? = some (node, seen))
    (outcome : Except Failure NodeResult) : Kept spec Fine v (l.set future (node, some outcome)) where
  run := kept.run
  node := kept.node
  succeeded := kept.succeeded
  completed := kept.completed
  fine := kept.fine
  once := by
    have same : (l.set future (node, some outcome)).map (fun entry => entry.1.nodeId) =
        l.map (fun entry => entry.1.nodeId) := by
      rw [List.map_set]
      apply List.ext_getElem?
      intro i
      by_cases here : future = i
      · subst here
        obtain ⟨inside, same⟩ := List.getElem?_eq_some_iff.mp found
        simp [inside, same]
      · simp [here]
    rw [same]
    exact kept.once
  pending := by
    intro other member
    rcases List.mem_or_eq_of_mem_set member with member | same
    · exact kept.pending other member
    · cases same
  ready := by
    intro other old member
    rcases List.mem_or_eq_of_mem_set member with member | same
    · exact kept.ready other old member
    · cases same
      exact kept.ready node seen (List.mem_of_getElem? found)

/-- The submissions of nodes that nobody has awaited. -/
def unawaited (nodes : List NodeSpec) : Submissions backend := nodes.map (fun node => (node, none))

theorem getElem?_unawaited {before : Submissions backend} {node : NodeSpec} {nodes : List NodeSpec} :
    (before ++ unawaited (node :: nodes))[before.length]? = some (node, none) := by
  simp [unawaited]

theorem set_unawaited {before : Submissions backend} {node : NodeSpec} {nodes : List NodeSpec}
    {outcome : Except Failure NodeResult} :
    (before ++ unawaited (node :: nodes)).set before.length (node, some outcome) =
      (before ++ [(node, some outcome)]) ++ unawaited nodes := by
  simp [unawaited]

/-- Nodes that may be submitted together. -/
structure Submittable (spec : RunSpec) (v : Sight) (l : Submissions backend) (nodes : List NodeSpec) : Prop where
  known : ∀ node ∈ nodes, node ∈ spec.nodes
  ripe : ∀ node ∈ nodes, Ripe v node
  once : (l.map (fun entry => entry.1.nodeId) ++ nodes.map NodeSpec.nodeId).Nodup

theorem Submittable.head {node : NodeSpec} {nodes : List NodeSpec} (fit : Submittable spec v l (node :: nodes)) :
    Ripe v node ∧ node.nodeId ∉ l.map (fun entry => entry.1.nodeId) :=
  ⟨fit.ripe node List.mem_cons_self, fun old =>
    (List.nodup_append.mp fit.once).2.2 _ old _ List.mem_cons_self rfl⟩

theorem Submittable.tail {node : NodeSpec} {nodes : List NodeSpec} (fit : Submittable spec v l (node :: nodes))
    (seen : Option (Except Failure NodeResult)) : Submittable spec v (l ++ [(node, seen)]) nodes where
  known := fun other member => fit.known other (List.mem_cons_of_mem _ member)
  ripe := fun other member => fit.ripe other (List.mem_cons_of_mem _ member)
  once := by
    have once := fit.once
    simpa using once

theorem ends_submit {node : NodeSpec} {next : Nat → Code α} {post : Sight → Submissions backend → Except Failure α → Prop}
    (kept : Kept spec Fine v (l ++ [(node, none)]))
    (rest : Secures (terms spec Fine) post (next l.length) v (l ++ [(node, none)])) :
    Secures (terms spec Fine) post (submit node >>= next) v l := ⟨kept, rest⟩

theorem ends_await {node : NodeSpec} {future : Nat} {seen : Option (Except Failure NodeResult)}
    {next : Except Failure NodeResult → Code α} {post : Sight → Submissions backend → Except Failure α → Prop}
    (kept : Kept spec Fine v l) (found : l[future]? = some (node, seen))
    (rest : ∀ outcome, Returns spec Fine node outcome → Kept spec Fine v (l.set future (node, some outcome)) →
      Secures (terms spec Fine) post (next outcome) v (l.set future (node, some outcome))) :
    Secures (terms spec Fine) post (await future >>= next) v l := by
  intro task seen' outcome here returned
  rw [found] at here
  cases here
  exact ⟨kept.awaited found outcome, rest outcome returned (kept.awaited found outcome)⟩

theorem ends_submitAll {nodes : List NodeSpec} (kept : Kept spec Fine v l) (fit : Submittable spec v l nodes) :
    Secures (terms spec Fine) (Ends spec Fine (fun futures v' l' =>
      v' = v ∧ l' = l ++ unawaited nodes ∧ futures = nodes.zipIdx l.length)) (submitAll nodes) v l := by
  induction nodes generalizing l with
  | nil => exact ends_ret kept ⟨rfl, by simp [unawaited], rfl⟩
  | cons node nodes ih =>
    have kept' := kept.submitted fit.head.1 fit.head.2
    refine ends_submit kept' (ends_bind (ih kept' (fit.tail none)) ?_)
    rintro futures v' l' kept'' ⟨rfl, rfl, rfl⟩
    exact ends_ret kept'' ⟨rfl, by simp [unawaited], by simp [List.zipIdx_cons]⟩

/-- What was awaited of some nodes: a result of each. -/
structure Gathered (Fine : NodeResult → Prop) (pairs : List (NodeSpec × NodeResult)) : Prop where
  named : ∀ pair ∈ pairs, pair.2.nodeId = pair.1.nodeId
  fine : ∀ pair ∈ pairs, Fine pair.2

def awaited (pairs : List (NodeSpec × NodeResult)) : Submissions backend :=
  pairs.map (fun pair => (pair.1, some (.ok pair.2)))

theorem Gathered.cons {node : NodeSpec} {result : NodeResult} {pairs : List (NodeSpec × NodeResult)}
    (returned : Returns spec Fine node (.ok result)) (known : node ∈ spec.nodes) (gathered : Gathered Fine pairs) :
    Gathered Fine ((node, result) :: pairs) where
  named := by
    intro pair member
    rcases List.mem_cons.mp member with rfl | member
    · exact returned.1
    · exact gathered.named pair member
  fine := by
    intro pair member
    rcases List.mem_cons.mp member with rfl | member
    · exact returned.2 known
    · exact gathered.fine pair member

theorem Gathered.nil : Gathered Fine [] where
  named := by intro pair member; cases member
  fine := by intro pair member; cases member

theorem ends_gather {before : Submissions backend} {nodes : List NodeSpec}
    (kept : Kept spec Fine v (before ++ unawaited nodes)) (known : ∀ node ∈ nodes, node ∈ spec.nodes) :
    Secures (terms spec Fine) (Ends spec Fine (fun pairs v' l' =>
      v' = v ∧ pairs.map Prod.fst = nodes ∧ l' = before ++ awaited pairs ∧ Gathered Fine pairs))
      (gather (nodes.zipIdx before.length)) v (before ++ unawaited nodes) := by
  induction nodes generalizing before with
  | nil => exact ends_ret kept ⟨rfl, rfl, by simp [unawaited, awaited], .nil⟩
  | cons node nodes ih =>
    refine ends_await kept getElem?_unawaited ?_
    intro outcome returned kept'
    rw [set_unawaited] at kept' ⊢
    cases outcome with
    | error failure => exact ⟨kept', returned⟩
    | ok result =>
      have rest := ih kept' fun other member => known other (List.mem_cons_of_mem _ member)
      rw [List.length_append] at rest
      rw [Program.ofExcept, ret_bind]
      refine ends_bind rest ?_
      rintro pairs v' l' kept'' ⟨rfl, rfl, rfl, gathered⟩
      exact ends_ret kept'' ⟨rfl, rfl, by simp [awaited], gathered.cons returned (known node List.mem_cons_self)⟩

theorem ends_settleAll {before : Submissions backend} {nodes : List NodeSpec}
    (kept : Kept spec Fine v (before ++ unawaited nodes)) :
    Secures (terms spec Fine) (Ends spec Fine (fun outcomes v' l' =>
      v' = v ∧ outcomes.map Prod.fst = nodes ∧ l' = before ++ outcomes.map (fun o => (o.1, some o.2)) ∧
        ∀ o ∈ outcomes, Returns spec Fine o.1 o.2))
      (settleAll (nodes.zipIdx before.length)) v (before ++ unawaited nodes) := by
  induction nodes generalizing before with
  | nil => exact ends_ret kept ⟨rfl, rfl, by simp [unawaited], by simp⟩
  | cons node nodes ih =>
    refine ends_await kept getElem?_unawaited ?_
    intro outcome returned kept'
    rw [set_unawaited] at kept' ⊢
    have rest := ih kept'
    rw [List.length_append] at rest
    refine ends_bind rest ?_
    rintro outcomes v' l' kept'' ⟨rfl, rfl, rfl, all⟩
    refine ends_ret kept'' ⟨rfl, rfl, by simp, ?_⟩
    intro o member
    rcases List.mem_cons.mp member with rfl | member
    · exact returned
    · exact all o member

theorem firstFailure_ok {outcomes : List (NodeSpec × Except Failure NodeResult)} {pairs : List (NodeSpec × NodeResult)}
    (h : firstFailure outcomes = .ok pairs) : outcomes = pairs.map (fun pair => (pair.1, .ok pair.2)) := by
  induction outcomes generalizing pairs with
  | nil =>
    cases h
    rfl
  | cons o outcomes ih =>
    obtain ⟨node, outcome⟩ := o
    cases outcome with
    | error failure => cases h
    | ok result =>
      unfold firstFailure at h
      cases rest : firstFailure outcomes with
      | error failure =>
        rw [rest] at h
        cases h
      | ok others =>
        rw [rest] at h
        cases h
        rw [ih rest, List.map_cons]

theorem firstFailure_error {outcomes : List (NodeSpec × Except Failure NodeResult)} {failure : Failure}
    (h : firstFailure outcomes = .error failure) : ∃ node, (node, .error failure) ∈ outcomes := by
  induction outcomes with
  | nil => cases h
  | cons o outcomes ih =>
    obtain ⟨node, outcome⟩ := o
    cases outcome with
    | error other =>
      cases h
      exact ⟨node, List.mem_cons_self⟩
    | ok result =>
      unfold firstFailure at h
      cases rest : firstFailure outcomes with
      | error other =>
        rw [rest] at h
        cases h
        obtain ⟨node, member⟩ := ih rest
        exact ⟨node, List.mem_cons_of_mem _ member⟩
      | ok others =>
        rw [rest] at h
        cases h

/-- What comes of the ready nodes: a result of each, up to the first that has not succeeded. -/
structure Ran (Fine : NodeResult → Prop) (nodes : List NodeSpec) (pairs : List (NodeSpec × NodeResult)) : Prop where
  from_ : pairs.map Prod.fst <+: nodes
  all : (∀ pair ∈ pairs, pair.2.status = .succeeded) → pairs.map Prod.fst = nodes
  gathered : Gathered Fine pairs

theorem ends_runInTurn {nodes : List NodeSpec} (kept : Kept spec Fine v l) (fit : Submittable spec v l nodes) :
    Secures (terms spec Fine) (Ends spec Fine (fun pairs v' l' =>
      v' = v ∧ l' = l ++ awaited pairs ∧ Ran Fine nodes pairs)) (runInTurn nodes) v l := by
  induction nodes generalizing l with
  | nil => exact ends_ret kept ⟨rfl, by simp [awaited], List.nil_prefix, fun _ => rfl, .nil⟩
  | cons node nodes ih =>
    have kept' := kept.submitted fit.head.1 fit.head.2
    have here : (l ++ [(node, none)])[l.length]? = some (node, (none : Option (Except Failure NodeResult))) := by simp
    refine ends_submit kept' (ends_await kept' here ?_)
    intro outcome returned kept₁
    have set : (l ++ [(node, none)]).set l.length (node, some outcome) = l ++ [(node, some outcome)] := by simp
    rw [set] at kept₁ ⊢
    cases outcome with
    | error failure => exact ⟨kept₁, returned⟩
    | ok result =>
      have known := fit.known node List.mem_cons_self
      rw [Program.ofExcept, ret_bind]
      by_cases succeeded : result.status = .succeeded
      · simp only [succeeded, ne_eq, not_true_eq_false, if_false]
        refine ends_bind (ih kept₁ (fit.tail _)) ?_
        rintro pairs v' l' kept₂ ⟨rfl, rfl, ran⟩
        refine ends_ret kept₂ ⟨rfl, by simp [awaited], ?_, ?_, ran.gathered.cons returned known⟩
        · exact List.cons_prefix_cons.mpr ⟨rfl, ran.from_⟩
        · intro all
          rw [List.map_cons, ran.all fun pair member => all pair (List.mem_cons_of_mem _ member)]
      · simp only [succeeded, ne_eq, not_false_eq_true, if_true]
        refine ends_ret kept₁ ⟨rfl, rfl, ?_, ?_, Gathered.nil.cons returned known⟩
        · exact List.cons_prefix_cons.mpr ⟨rfl, List.nil_prefix⟩
        · intro all
          exact absurd (all _ List.mem_cons_self) succeeded

theorem ends_runReadyNodes {workers : Workers} {nodes : List NodeSpec} (kept : Kept spec Fine v l)
    (fit : Submittable spec v l nodes) :
    Secures (terms spec Fine) (Ends spec Fine (fun pairs v' l' =>
      v' = v ∧ l' = l ++ awaited pairs ∧ Ran Fine nodes pairs)) (runReadyNodes workers nodes) v l := by
  have whole : ∀ pairs : List (NodeSpec × NodeResult), pairs.map Prod.fst = nodes → Gathered Fine pairs →
      Ran Fine nodes pairs := fun pairs same gathered => ⟨same ▸ List.prefix_rfl, fun _ => same, gathered⟩
  unfold runReadyNodes
  split
  · rename_i none
    exact ends_ret kept ⟨rfl, by simp [awaited], whole [] none.symm .nil⟩
  · split
    · refine ends_bind (ends_submitAll kept fit) ?_
      rintro futures v' l' kept' ⟨rfl, rfl, rfl⟩
      refine ends_mono (ends_gather kept' fit.known) ?_
      rintro pairs v'' l'' _ ⟨rfl, same, rfl, gathered⟩
      exact ⟨rfl, rfl, whole pairs same gathered⟩
    · split
      · exact ends_runInTurn kept fit
      · refine ends_bind (ends_submitAll kept fit) ?_
        rintro futures v' l' kept' ⟨rfl, rfl, rfl⟩
        refine ends_bind (ends_settleAll kept') ?_
        rintro outcomes v'' l'' kept'' ⟨rfl, same, rfl, all⟩
        cases settled : firstFailure outcomes with
        | error failure =>
          obtain ⟨node, member⟩ := firstFailure_error settled
          exact ⟨kept'', all _ member⟩
        | ok pairs =>
          obtain rfl := firstFailure_ok settled
          have returned : ∀ pair ∈ pairs, Returns spec Fine pair.1 (.ok pair.2) :=
            fun pair member => all _ (List.mem_map_of_mem member)
          refine ⟨kept'', rfl, by simp [awaited, Function.comp_def], whole pairs ?_ ?_⟩
          · simpa [Function.comp_def] using same
          · refine ⟨fun pair member => (returned pair member).1, fun pair member => (returned pair member).2 ?_⟩
            have listed : pair.1 ∈ nodes := by
              rw [← same, List.map_map]
              exact List.mem_map_of_mem member
            exact fit.known pair.1 listed

/-! Recording what a layer came to. -/

/-- Results that are written: none of them has been, and nothing is left to await. -/
structure Writable (Fine : NodeResult → Prop) (v : Sight) (l : Submissions backend)
    (pairs : List (NodeSpec × NodeResult)) : Prop where
  gathered : Gathered Fine pairs
  new : ∀ pair ∈ pairs, v.results.lookup pair.2.nodeId = none
  once : (pairs.map (fun pair => pair.2.nodeId)).Nodup
  settled : ∀ node, (node, none) ∉ l

theorem Writable.head {pair : NodeSpec × NodeResult} {pairs : List (NodeSpec × NodeResult)}
    (fit : Writable Fine v l (pair :: pairs)) :
    pair.2.nodeId = pair.1.nodeId ∧ Fine pair.2 ∧ v.results.lookup pair.2.nodeId = none :=
  ⟨fit.gathered.named _ List.mem_cons_self, fit.gathered.fine _ List.mem_cons_self, fit.new _ List.mem_cons_self⟩

theorem Writable.tail {pair : NodeSpec × NodeResult} {pairs : List (NodeSpec × NodeResult)}
    (fit : Writable Fine v l (pair :: pairs))
    (written : v'.results = Dict.setItem pair.2.nodeId pair.2 v.results) : Writable Fine v' l pairs where
  gathered := ⟨fun other member => fit.gathered.named other (List.mem_cons_of_mem _ member),
    fun other member => fit.gathered.fine other (List.mem_cons_of_mem _ member)⟩
  new := by
    intro other member
    have apart : other.2.nodeId ≠ pair.2.nodeId := by
      intro same
      refine (List.nodup_cons.mp fit.once).1 ?_
      exact List.mem_map.mpr ⟨other, member, same⟩
    rw [written, Dict.lookup_setItem, if_neg apart]
    exact fit.new other (List.mem_cons_of_mem _ member)
  once := (List.nodup_cons.mp fit.once).2
  settled := fit.settled

theorem ends_writeResult {result : NodeResult} (kept : Kept spec Fine v l) (fine : Fine result)
    (new : v.results.lookup result.nodeId = none) (settled : ∀ node, (node, none) ∉ l) :
    Secures (terms spec Fine) (Ends spec Fine (fun _ v' l' =>
      v'.results = Dict.setItem result.nodeId result v.results ∧ l' = l)) (writeResult result) v l := by
  unfold writeResult
  refine ends_quiet (quiet_ofChecked _) kept fun _ v' kept' same => ?_
  refine ⟨by rintro _ ⟨⟩, ?_⟩
  rintro v'' reply rfl
  have kept'' := kept'.written fine (same.results ▸ new) fun node listed => absurd listed (settled node)
  exact ⟨kept'', kept'', by rw [← same.results], rfl⟩

theorem ends_recordNode {node : NodeSpec} {result : NodeResult} (kept : Kept spec Fine v l)
    (named : result.nodeId = node.nodeId) (stored : v.results.lookup result.nodeId = some result) :
    Secures (terms spec Fine) (Ends spec Fine (fun _ v' l' => Same v v' ∧ l' = l)) (recordNode node result) v l := by
  refine ends_stays ?_
  unfold recordNode
  rw [← named]
  cases status : result.status with
  | succeeded => exact stays_completeNode kept stored status
  | skipped => exact quiet_operate _ (plain_node rfl (by decide)) v l kept
  | failed => exact quiet_operate _ (plain_node rfl (by decide)) v l kept

theorem terminalAfter_none {terminal : Option NodeResult} {result : NodeResult}
    (h : terminalAfter terminal result = none) : terminal = none ∧ result.status = .succeeded := by
  unfold terminalAfter at h
  cases status : result.status with
  | succeeded =>
    rw [status] at h
    exact ⟨h, rfl⟩
  | skipped =>
    rw [status] at h
    cases terminal <;> cases h
  | failed =>
    rw [status] at h
    cases h

/-- What recording a layer comes to: where nothing ends the run, all of it has succeeded. -/
structure Recorded (Fine : NodeResult → Prop) (pairs : List (NodeSpec × NodeResult)) (results : List NodeResult)
    (terminal : Option NodeResult) (recorded : List NodeResult × Option NodeResult) (v : Sight) : Prop where
  results : recorded.1 = results ++ pairs.map Prod.snd
  fine : ∀ r ∈ recorded.1, Fine r
  stored : recorded.2 = none → terminal = none ∧ Stored v recorded.1

theorem ends_recordLayer {pairs : List (NodeSpec × NodeResult)} {results : List NodeResult}
    {terminal : Option NodeResult} (kept : Kept spec Fine v l) (fit : Writable Fine v l pairs)
    (fine : ∀ r ∈ results, Fine r) (stored : terminal = none → Stored v results) :
    Secures (terms spec Fine) (Ends spec Fine (fun recorded v' l' =>
      l' = l ∧ Recorded Fine pairs results terminal recorded v')) (recordLayer pairs results terminal) v l := by
  induction pairs generalizing results terminal v with
  | nil => exact ends_ret kept ⟨rfl, by simp, fine, fun none => ⟨none, stored none⟩⟩
  | cons pair pairs ih =>
    obtain ⟨node, result⟩ := pair
    obtain ⟨named, own, new⟩ := fit.head
    have fine' : ∀ r ∈ results ++ [result], Fine r := by
      intro r member
      rcases List.mem_append.mp member with member | member
      · exact fine r member
      · exact List.mem_singleton.mp member ▸ own
    refine ends_bind (ends_noting fine (ends_writeResult kept own new fit.settled)) ?_
    rintro _ v₁ l₁ kept₁ ⟨written, rfl⟩
    have found : v₁.results.lookup result.nodeId = some result := by rw [written, Dict.lookup_setItem, if_pos rfl]
    refine ends_bind (ends_noting fine' (ends_recordNode kept₁ named found)) ?_
    rintro _ v₂ l₂ kept₂ ⟨same, rfl⟩
    have written₂ := same.results.trans written
    have stored' : terminalAfter terminal result = none → Stored v₂ (results ++ [result]) := by
      intro none
      obtain ⟨before, succeeded⟩ := terminalAfter_none none
      refine Stored.concat ?_ succeeded (by rw [same.results]; exact found)
      intro r member
      obtain ⟨success, there⟩ := stored before r member
      have apart : r.nodeId ≠ result.nodeId := by
        intro equal
        rw [equal, new] at there
        cases there
      exact ⟨success, by rw [written₂, Dict.lookup_setItem, if_neg apart, there]⟩
    refine ends_mono (ih kept₂ (fit.tail written₂) fine' stored') ?_
    rintro recorded v' l' _ ⟨rfl, all⟩
    refine ⟨rfl, ?_, all.fine, ?_⟩
    · rw [all.results, List.map_cons, List.append_assoc, List.singleton_append]
    · intro none
      obtain ⟨after, rest⟩ := all.stored none
      exact ⟨(terminalAfter_none after).1, rest⟩

/-! The run. -/

theorem ends_terminate [Sha256] {results : List NodeResult} {terminal : NodeResult} (kept : Kept spec Fine v l)
    (fine : ∀ r ∈ results, Fine r) :
    Secures (terms spec Fine) (Ends spec Fine (fun result _ _ => Stopped Fine result))
      (terminate spec results terminal) v l := by
  unfold terminate
  refine ends_quiet (quiet_cancelUnfinishedNodes _) kept fun _ v₁ kept₁ _ => ?_
  refine ends_quiet ?_ kept₁ fun _ v₂ kept₂ _ => ends_terminalResult kept₂ fine
  split
  · exact quiet_operate _ (plain_run rfl (by decide))
  · exact quiet_operate _ (plain_run rfl (by decide))

/-- Every submitted task has returned a success. -/
def Succeeded (l : Submissions backend) : Prop :=
  ∀ entry ∈ l, ∃ result, entry.2 = some (.ok result) ∧ result.status = .succeeded

/-- What a completed run has shown: a persisted success of each node. -/
structure Whole (spec : RunSpec) (results : List NodeResult) (v : Sight) (l : Submissions backend) : Prop where
  nodes : (results.map NodeResult.nodeId).Perm (spec.nodes.map NodeSpec.nodeId)
  stored : Stored v results
  tasks : Succeeded l

/-- What a call of `execute` returns. -/
structure Accounted (spec : RunSpec) (Fine : NodeResult → Prop) (result : RunResult) (v : Sight)
    (l : Submissions backend) : Prop where
  calm : result.status ≠ .interrupted
  fine : ∀ r ∈ result.results, Fine r
  completed : result.status = .completed → Whole spec result.results v l

theorem Stopped.accounted {result : RunResult} (stopped : Stopped Fine result) : Accounted spec Fine result v l :=
  ⟨stopped.calm, stopped.fine, fun done => absurd done stopped.open_⟩

theorem accounted_stopped {code : Code RunResult}
    (stops : Secures (terms spec Fine) (Ends spec Fine (fun result _ _ => Stopped Fine result)) code v l) :
    Secures (terms spec Fine) (Ends spec Fine (Accounted spec Fine)) code v l :=
  ends_mono stops fun _ _ _ _ stopped => stopped.accounted

theorem accounted_completed [Sha256] {results : List NodeResult} (kept : Kept spec Fine v l)
    (whole : Whole spec results v l) :
    Secures (terms spec Fine) (Ends spec Fine (Accounted spec Fine)) (resultOf spec .completed results none) v l := by
  refine ends_resultOf kept ?_
  rintro result done rfl
  exact ⟨by simp [done], Stored.fine kept whole.stored, fun _ => whole⟩

theorem Whole.node {results : List NodeResult} (whole : Whole spec results v l) {node : NodeSpec}
    (member : node ∈ spec.nodes) : ∃ r, v.results.lookup node.nodeId = some r ∧ r.status = .succeeded := by
  obtain ⟨r, listed, named⟩ := List.mem_map.mp (whole.nodes.mem_iff.mpr (List.mem_map_of_mem member))
  exact ⟨r, named ▸ (whole.stored r listed).2, (whole.stored r listed).1⟩

theorem ends_finish [Sha256] {results : List NodeResult} (kept : Kept spec Fine v l)
    (whole : Whole spec results v l) :
    Secures (terms spec Fine) (Ends spec Fine (Accounted spec Fine)) (finish spec results) v l := by
  refine ⟨by rintro _ ⟨⟩, fun v' reply effect => ?_⟩
  have moves : v.Moves v' (.transitionRun .completed none none) := effect
  have kept' : Kept spec Fine v' l := by
    refine kept.moves moves ?_ ?_
    · rintro _ _ _ ⟨⟩
      exact ⟨by decide, fun _ node member => whole.node member⟩
    · rintro _ _ _ _ ⟨⟩
  refine ⟨kept', ?_⟩
  refine ends_quiet (quiet_ofOutcome (reply.map fun _ => ())) kept' fun _ v'' kept'' same => ?_
  exact accounted_completed kept''
    ⟨whole.nodes, (whole.stored.same ⟨moves.results, moves.final⟩).same same, whole.tasks⟩

/-- Where a run stands between two layers. -/
structure Between (spec : RunSpec) (layers : List (List NodeSpec)) (results : List NodeResult) (v : Sight)
    (l : Submissions backend) : Prop where
  nodes : (results.map NodeResult.nodeId ++ layers.flatten.map NodeSpec.nodeId).Perm (spec.nodes.map NodeSpec.nodeId)
  known : ∀ node ∈ layers.flatten, node ∈ spec.nodes
  stored : Stored v results
  tasks : Succeeded l
  submitted : l.map (fun entry => entry.1.nodeId) ⊆ results.map NodeResult.nodeId

theorem Between.submittable {layer new : List NodeSpec} {layers : List (List NodeSpec)} {results : List NodeResult}
    (between : Between spec (layer :: layers) results v l) (once : (spec.nodes.map NodeSpec.nodeId).Nodup)
    (kept : Kept spec Fine v' l) (some : new.Sublist layer) (ripe : ∀ node ∈ new, Ripe v' node) :
    Submittable spec v' l new where
  known := fun node member => between.known node (List.mem_append_left _ (some.subset member))
  ripe := ripe
  once := by
    have all := between.nodes.nodup_iff.mpr once
    rw [List.flatten_cons, List.map_append] at all
    obtain ⟨_, right, apart⟩ := List.nodup_append.mp all
    have news := (some.map NodeSpec.nodeId).nodup (List.nodup_append.mp right).1
    refine List.nodup_append.mpr ⟨kept.once, news, ?_⟩
    intro a old b here
    exact apart a (between.submitted old) b (List.mem_append_left _ ((some.map NodeSpec.nodeId).subset here))

theorem Ran.writable {new : List NodeSpec} {pairs : List (NodeSpec × NodeResult)} (ran : Ran Fine new pairs)
    (fit : Submittable spec v l new) (tasks : Succeeded l) : Writable Fine v (l ++ awaited pairs) pairs where
  gathered := ran.gathered
  new := by
    intro pair member
    rw [ran.gathered.named pair member]
    exact (fit.ripe pair.1 (ran.from_.subset (List.mem_map_of_mem member))).new
  once := by
    have named : pairs.map (fun pair => pair.2.nodeId) = (pairs.map Prod.fst).map NodeSpec.nodeId := by
      rw [List.map_map]
      exact List.map_congr_left ran.gathered.named
    rw [named]
    exact (ran.from_.sublist.map NodeSpec.nodeId).nodup (List.nodup_append.mp fit.once).2.1
  settled := by
    intro node member
    rcases List.mem_append.mp member with member | member
    · obtain ⟨result, same, _⟩ := tasks _ member
      cases same
    · obtain ⟨pair, _, same⟩ := List.mem_map.mp member
      cases same

theorem Between.next {layer new : List NodeSpec} {layers : List (List NodeSpec)} {results results' : List NodeResult}
    {pairs : List (NodeSpec × NodeResult)} {recorded : List NodeResult × Option NodeResult}
    (between : Between spec (layer :: layers) results v l)
    (perm : (results'.map NodeResult.nodeId ++ new.map NodeSpec.nodeId).Perm
      (results.map NodeResult.nodeId ++ layer.map NodeSpec.nodeId))
    (prior : results.map NodeResult.nodeId ⊆ results'.map NodeResult.nodeId)
    (ran : Ran Fine new pairs) (all : Recorded Fine pairs results' none recorded v') (open_ : recorded.2 = none) :
    Between spec layers recorded.1 v' (l ++ awaited pairs) := by
  have stored := (all.stored open_).2
  have succeeded : ∀ pair ∈ pairs, pair.2.status = .succeeded := by
    intro pair member
    refine (stored pair.2 ?_).1
    rw [all.results]
    exact List.mem_append_right _ (List.mem_map_of_mem member)
  have named : (pairs.map Prod.snd).map NodeResult.nodeId = new.map NodeSpec.nodeId := by
    rw [← ran.all succeeded, List.map_map, List.map_map]
    exact List.map_congr_left ran.gathered.named
  have ids : recorded.1.map NodeResult.nodeId = results'.map NodeResult.nodeId ++ new.map NodeSpec.nodeId := by
    rw [all.results, List.map_append, named]
  refine ⟨?_, ?_, stored, ?_, ?_⟩
  · refine List.Perm.trans ?_ between.nodes
    rw [ids, List.flatten_cons, List.map_append, ← List.append_assoc]
    exact perm.append_right _
  · intro node member
    exact between.known node (List.mem_append_right _ member)
  · intro entry member
    rcases List.mem_append.mp member with member | member
    · exact between.tasks entry member
    · obtain ⟨pair, listed, rfl⟩ := List.mem_map.mp member
      exact ⟨pair.2, rfl, succeeded pair listed⟩
  · intro id member
    rw [ids]
    rw [List.map_append] at member
    rcases List.mem_append.mp member with member | member
    · exact List.mem_append_left _ (prior (between.submitted member))
    · rw [awaited, List.map_map] at member
      obtain ⟨pair, listed, rfl⟩ := List.mem_map.mp member
      exact List.mem_append_right _ (List.mem_map_of_mem (ran.from_.subset (List.mem_map_of_mem listed)))

theorem ends_runLayers [Sha256] {workers : Workers} {layers : List (List NodeSpec)} {results : List NodeResult}
    (unattended : ∀ node ∈ spec.nodes, node.approvalRequired = false) (kept : Kept spec Fine v l)
    (between : Between spec layers results v l) :
    Secures (terms spec Fine) (Ends spec Fine (Accounted spec Fine)) (runLayers spec workers layers results) v l := by
  induction layers generalizing results v l with
  | nil =>
    refine ends_noting (Stored.fine kept between.stored) (ends_finish kept ⟨?_, between.stored, between.tasks⟩)
    simpa using between.nodes
  | cons layer layers ih =>
    have fine := Stored.fine kept between.stored
    have here : ∀ node ∈ layer, node.approvalRequired = false := fun node member =>
      unattended node (between.known node (List.mem_append_left _ member))
    refine ends_bind (ends_noting fine (ends_load kept)) ?_
    rintro current v₁ l₁ kept₁ ⟨rfl, rfl, shows_⟩
    refine ends_bind (ends_scanLayer here kept₁ (kept₁.reads shows_) between.stored) ?_
    intro scanned v₂ l₂ kept₂ scan
    cases scanned with
    | returned result => exact ends_ret kept₂ scan.accounted
    | ready results' ready =>
      obtain ⟨same, rfl, prior, stored, new, rfl, some, ripe, perm⟩ := scan
      have fine' := Stored.fine kept₂ stored
      have fit := between.submittable spec.runnable.unique kept₂ some ripe
      refine ends_bind (ends_noting fine' (ends_runReadyNodes kept₂ fit)) ?_
      rintro pairs v₃ l₃ kept₃ ⟨rfl, rfl, ran⟩
      refine ends_bind (ends_recordLayer kept₃ (ran.writable fit between.tasks) fine' fun _ => stored) ?_
      rintro recorded v₄ l₄ kept₄ ⟨rfl, all⟩
      cases open_ : recorded.2 with
      | some terminal => exact ends_noting all.fine (accounted_stopped (ends_terminate kept₄ all.fine))
      | none => exact ih kept₄ (between.next perm (prior.map _).subset ran all open_)

theorem ends_guarded [Sha256] {workers : Workers} (unattended : ∀ node ∈ spec.nodes, node.approvalRequired = false)
    (kept : Kept spec Fine v []) :
    Secures (terms spec Fine) (Ends spec Fine (Accounted spec Fine)) (guarded spec workers) v [] := by
  obtain ⟨layers, layered, layering⟩ := spec.runnable.layering
  have start : Between spec layers [] v [] := by
    refine ⟨layering.once.map _, fun node member => layering.once.mem_iff.mp member, ?_, ?_, ?_⟩
    · intro r member
      cases member
    · intro entry member
      cases member
    · exact List.nil_subset _
  have graph : Secures (terms spec Fine) (Ends spec Fine (Accounted spec Fine)) (runGraph spec workers) v [] := by
    unfold runGraph
    rw [dependencyLayers, layered]
    exact ends_runLayers unattended kept start
  refine .bind (.attempt (graph.mono ?_))
  rintro v' l' outcome ⟨kept', holds⟩
  cases outcome with
  | ok result => exact ends_ret kept' holds
  | error failure =>
    refine ends_quiet (quiet_failRunningNode _) kept' fun _ v'' kept'' _ => ?_
    refine accounted_stopped (ends_stopped kept'' (by decide) (by decide) ?_)
    intro r member
    cases noted : failure.results with
    | none =>
      rw [noted] at member
      cases member
    | some results =>
      rw [noted] at member
      exact holds results noted r member

theorem ends_loadResults {nodes : List NodeSpec} (kept : Kept spec Fine v l)
    (done : ∀ node ∈ nodes, ∃ result, v.results.lookup node.nodeId = some result ∧ result.status = .succeeded) :
    Secures (terms spec Fine) (Ends spec Fine (fun results v' l' => v' = v ∧ l' = l ∧
      results.map NodeResult.nodeId = nodes.map NodeSpec.nodeId ∧ Stored v' results)) (loadResults nodes) v l := by
  induction nodes with
  | nil =>
    refine ends_ret kept ⟨rfl, rfl, rfl, ?_⟩
    intro r member
    cases member
  | cons node nodes ih =>
    obtain ⟨result, stored, succeeded⟩ := done node List.mem_cons_self
    obtain ⟨named, _⟩ := kept.fine node.nodeId result stored
    refine ends_bind (ends_loadValidated kept stored) ?_
    rintro r v₁ l₁ kept₁ ⟨rfl, rfl, rfl⟩
    refine ends_bind (ih fun other member => done other (List.mem_cons_of_mem _ member)) ?_
    rintro results v₂ l₂ kept₂ ⟨rfl, rfl, ids, all⟩
    refine ends_ret kept₂ ⟨rfl, rfl, by rw [List.map_cons, List.map_cons, named, ids], ?_⟩
    intro other member
    rcases List.mem_cons.mp member with rfl | member
    · exact ⟨succeeded, named ▸ stored⟩
    · exact all other member

theorem ends_completedResult [Sha256] (kept : Kept spec Fine v [])
    (done : ∀ node ∈ spec.nodes, ∃ result, v.results.lookup node.nodeId = some result ∧ result.status = .succeeded) :
    Secures (terms spec Fine) (Ends spec Fine (Accounted spec Fine)) (completedResult spec) v [] := by
  have order := spec.runnable.ordering.once
  refine ends_bind (ends_loadResults kept fun node member => done node (order.mem_iff.mp member)) ?_
  rintro results v' l' kept' ⟨rfl, rfl, ids, stored⟩
  refine accounted_completed kept' ⟨?_, stored, ?_⟩
  · rw [ids]
    exact order.map _
  · intro entry member
    cases member

/-- What a call goes on from: a snapshot that was loaded or made. -/
structure Loaded (spec : RunSpec) (snapshot : RunSnapshot) (v : Sight) : Prop where
  calm : snapshot.state ≠ .awaitingApproval
  completed : snapshot.state = .completed → ∀ node ∈ spec.nodes,
    ∃ result, v.results.lookup node.nodeId = some result ∧ result.status = .succeeded

theorem Kept.loaded (kept : Kept spec Fine v l) {snapshot : RunSnapshot} (shows_ : v.Shows snapshot) :
    Loaded spec snapshot v where
  calm := by
    intro awaiting
    exact kept.run (shows_.run.trans (congrArg some awaiting))
  completed := fun done => kept.completed (shows_.run.trans (congrArg some done))

theorem Loaded.same {snapshot : RunSnapshot} (loaded : Loaded spec snapshot v) (same : Same v v') :
    Loaded spec snapshot v' where
  calm := loaded.calm
  completed := by
    rw [same.results]
    exact loaded.completed

theorem kept_starts (kept : Kept spec Fine v []) (results : v'.results = v.results) (starts : v'.Starts) :
    Kept spec Fine v' [] where
  run := by simp [starts.run]
  node := by
    intro nodeId awaiting
    cases starts.node nodeId _ awaiting
  succeeded := by
    intro nodeId done
    cases starts.node nodeId _ done
  completed := by
    intro done
    rw [starts.run] at done
    cases done
  fine := by
    rw [results]
    exact kept.fine
  once := kept.once
  pending := by
    intro node member
    cases member
  ready := by
    intro node seen member
    cases member

theorem ends_create [Sha256] (kept : Kept spec Fine v []) :
    Secures (terms spec Fine) (Ends spec Fine (fun snapshot v' l' => l' = [] ∧ Loaded spec snapshot v'))
      (create spec) v [] := by
  refine ends_ask (by rintro _ ⟨⟩) ?_
  rintro v' reply ⟨results, change, shows_⟩
  have kept' : Kept spec Fine v' [] := by
    rcases change with rfl | starts
    · exact kept
    · exact kept_starts kept results starts
  refine ⟨kept', ?_⟩
  cases reply with
  | error e => exact ends_fail kept' _
  | ok value =>
    cases value with
    | snapshot s =>
      have loaded := kept'.loaded (shows_ s rfl)
      rw [expect, snapshotOf, ret_bind]
      refine ends_quiet quiet_writeSpecManifest kept' fun _ v'' kept'' same => ?_
      exact ends_ret kept'' ⟨rfl, loaded.same same⟩
    | _ => exact ends_fail kept' _

theorem ends_loadOrCreate [Sha256] {resume : Bool} (kept : Kept spec Fine v []) :
    Secures (terms spec Fine) (Ends spec Fine (fun snapshot v' l' => l' = [] ∧ Loaded spec snapshot v'))
      (loadOrCreate spec resume) v [] := by
  refine ends_ask (by rintro _ ⟨⟩) ?_
  rintro v' reply ⟨rfl, shows_⟩
  refine ⟨kept, ?_⟩
  cases reply with
  | error e =>
    simp only
    split
    · exact ends_create kept
    · exact ends_fail kept _
  | ok snapshot =>
    have loaded := kept.loaded (shows_ snapshot rfl)
    simp only [adopt]
    split
    · exact ends_fail kept _
    · exact ends_quiet quiet_validateStoredSpecManifest kept fun _ v'' kept'' same =>
        ends_ret kept'' ⟨rfl, loaded.same same⟩

theorem ends_proceed [Sha256] {workers : Workers} {snapshot : RunSnapshot}
    (unattended : ∀ node ∈ spec.nodes, node.approvalRequired = false) (kept : Kept spec Fine v [])
    (loaded : Loaded spec snapshot v) :
    Secures (terms spec Fine) (Ends spec Fine (Accounted spec Fine)) (proceed spec workers snapshot) v [] := by
  have started : Secures (terms spec Fine) (Ends spec Fine (Accounted spec Fine)) (do
      operate .backend (.start "runtime:start")
      guarded spec workers) v [] :=
    ends_quiet (quiet_operate _ (plain_run rfl (by decide))) kept fun _ v' kept' _ => ends_guarded unattended kept'
  unfold proceed
  cases state : snapshot.state with
  | completed => exact ends_completedResult kept (loaded.completed state)
  | awaitingApproval => exact absurd state loaded.calm
  | cancelled => exact accounted_stopped (ends_stopped kept (by decide) (by decide) (by simp))
  | running => exact ends_guarded unattended kept
  | _ => exact started

/-- Without approvals to ask for, `execute` keeps the run in order, and what it returns accounts for it. -/
theorem ends_execute [Sha256] (unattended : ∀ node ∈ spec.nodes, node.approvalRequired = false) (e : Execution)
    (kept : Kept spec Fine v []) :
    Secures (terms spec Fine) (Ends spec Fine (Accounted spec Fine)) (execute spec e) v [] := by
  refine ends_quiet (quiet_missingHandlers _ _) kept fun missing v₁ kept₁ _ => ?_
  split
  · exact ends_fail kept₁ _
  · refine ends_bind (ends_loadOrCreate kept₁) ?_
    rintro snapshot v₂ l₂ kept₂ ⟨rfl, loaded⟩
    exact ends_proceed unattended kept₂ loaded

end

end Onmc.Runtime

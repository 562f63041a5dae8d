import Onmc.ProofGraph

/-! What the evaluation of a proof says when it says complete, and that it does not look at the order of what was
collected. -/
namespace Onmc.ProofGraph

/-! Lookups by id. -/

theorem uniqueById_ok {label : String} {seen ids : List String} :
    uniqueById label seen ids = .ok () ↔ ids.Nodup ∧ ∀ id ∈ ids, id ∉ seen := by
  induction ids generalizing seen with
  | nil => simp [uniqueById]
  | cons id ids ih =>
    simp only [uniqueById, List.contains_iff_mem]
    by_cases known : id ∈ seen
    · simp [known]
    · simp only [if_neg known, ih, List.nodup_cons, List.mem_cons, not_or, forall_eq_or_imp]
      constructor
      · rintro ⟨once, apart⟩
        exact ⟨⟨fun again => (apart id again).1 rfl, once⟩, known, fun other member => (apart other member).2⟩
      · rintro ⟨⟨fresh, once⟩, -, apart⟩
        exact ⟨once, fun other member => ⟨fun same => fresh (same ▸ member), apart other member⟩⟩

theorem byId_distinct {α : Type} {idOf : α → String} {items : List α} (once : (items.map idOf).Nodup) :
    byId idOf items = items.map (fun item => (idOf item, item)) := by
  have run : ∀ (later : List α) (found : List (String × α)), (later.map idOf).Nodup →
      (∀ item ∈ later, idOf item ∉ Dict.keys found) →
      later.foldl (fun found item => Dict.setItem (idOf item) item found) found =
        found ++ later.map (fun item => (idOf item, item)) := by
    intro later
    induction later with
    | nil => exact fun found _ _ => (List.append_nil found).symm
    | cons item later ih =>
      intro found once apart
      obtain ⟨fresh, rest⟩ := List.nodup_cons.mp once
      have added : Dict.setItem (idOf item) item found = found ++ [(idOf item, item)] := by
        simpa [Dict.setItem] using @Dict.setItem_append α (idOf item) item found (apart item List.mem_cons_self) []
      rw [List.foldl_cons, added, ih _ rest, List.append_assoc, List.singleton_append, List.map_cons]
      intro other member
      rw [Dict.keys, List.map_append, List.mem_append, List.map_singleton, List.mem_singleton]
      rintro (known | same)
      · exact apart other (List.mem_cons_of_mem _ member) known
      · have equal : idOf other = idOf item := same
        exact fresh (equal ▸ List.mem_map_of_mem member)
  have whole := run items [] once (fun _ _ => List.not_mem_nil)
  rwa [List.nil_append] at whole

theorem lookup_byId_iff {α : Type} {idOf : α → String} {items : List α} (once : (items.map idOf).Nodup) {id : String}
    {item : α} : (byId idOf items).lookup id = some item ↔ item ∈ items ∧ idOf item = id := by
  have keys : (Dict.keys (items.map (fun item => (idOf item, item)))).Nodup := by
    rw [Dict.keys, List.map_map]
    exact once
  rw [byId_distinct once]
  constructor
  · intro found
    obtain ⟨other, member, same⟩ := List.mem_map.mp (Dict.mem_of_lookup found)
    obtain ⟨rfl, rfl⟩ := Prod.mk.inj same
    exact ⟨member, rfl⟩
  · rintro ⟨member, rfl⟩
    exact Dict.lookup_of_mem keys (List.mem_map_of_mem member)

theorem lookup_byId_perm {α : Type} {idOf : α → String} {items others : List α} (once : (items.map idOf).Nodup)
    (perm : items.Perm others) (id : String) : (byId idOf others).lookup id = (byId idOf items).lookup id := by
  have keys : (Dict.keys (items.map (fun item => (idOf item, item)))).Nodup := by
    rw [Dict.keys, List.map_map]
    exact once
  rw [byId_distinct once, byId_distinct ((perm.map idOf).nodup_iff.mp once)]
  exact Dict.lookup_perm keys (perm.map _) id

/-- An id stands for something exactly if some item carries it. -/
theorem lookup_byId_isNone {α : Type} {idOf : α → String} {items : List α} {id : String} :
    ((byId idOf items).lookup id).isNone = true ↔ ∀ item ∈ items, idOf item ≠ id := by
  have run : ∀ (later : List α) (found : List (String × α)),
      ((later.foldl (fun found item => Dict.setItem (idOf item) item found) found).lookup id).isNone = true ↔
        (found.lookup id).isNone = true ∧ ∀ item ∈ later, idOf item ≠ id := by
    intro later
    induction later with
    | nil => simp
    | cons item later ih =>
      intro found
      rw [List.foldl_cons, ih, Dict.lookup_setItem, List.forall_mem_cons]
      by_cases same : id = idOf item
      · simp [same]
      · simp [same, Ne.symm same]
  rw [byId, run]
  simp

/-! What has to hold of a complete proof. -/

/-- Valid evidence of a verifier: digest-backed, from the verifier, listed by its result and with its outcome. -/
structure Backs (results : List VerifierResult) (evidence : List Evidence) (verifierId : String) (item : Evidence) :
    Prop where
  member : item ∈ evidence
  own : item.verifierId = verifierId
  source : item.source = .verifier
  digest : PyText.strip item.artifactDigest ≠ ""
  listed : ∃ result ∈ results, result.verifierId = verifierId ∧ item.evidenceId ∈ result.evidenceIds ∧
    item.outcome = result.outcome

def Observed (results : List VerifierResult) (node : VerifierNode) : Prop :=
  ∃ result ∈ results, result.verifierId = node.verifierId ∧ result.outcome = node.expectedOutcome

/-- A planned verifier that observed what it expects, with valid evidence, and whose dependencies are satisfied. -/
inductive Satisfied (graph : Graph) (results : List VerifierResult) (evidence : List Evidence) : String → Prop
  | node {node : VerifierNode} (planned : node ∈ graph.verifiers) (observed : Observed results node) {item : Evidence}
      (backed : Backs results evidence node.verifierId item)
      (dependencies : ∀ dependency ∈ node.dependencies, Satisfied graph results evidence dependency) :
      Satisfied graph results evidence node.verifierId

structure Sound (graph : Graph) (results : List VerifierResult) (evidence : List Evidence) : Prop where
  named : ∀ claim ∈ graph.task.claims, ∀ node ∈ graph.verifiers,
    ∃ item, Backs results evidence node.verifierId item ∧ claim.claimId ∈ item.claimIds
  once : ∀ claim ∈ graph.task.claims, ∃ node ∈ graph.verifiers,
    ∃ item, Backs results evidence node.verifierId item ∧ claim.claimId ∈ item.claimIds
  observed : ∀ node ∈ graph.verifiers, Observed results node
  dependencies : ∀ node ∈ graph.verifiers, ∀ dependency ∈ node.dependencies,
    Satisfied graph results evidence dependency
  authoritative : ∀ item ∈ evidence, item.source ≠ .agent
  bugfix : graph.task.kind = .bugfix → ∃ pre ∈ graph.verifiers, ∃ post ∈ graph.verifiers,
    pre.kind = .reproduce ∧ post.kind = .targetedTests ∧
    (∃ result ∈ results, result.verifierId = pre.verifierId ∧ result.outcome = .failed) ∧
    (∃ result ∈ results, result.verifierId = post.verifierId ∧ result.outcome = .passed) ∧
    ∀ before after, Backs results evidence pre.verifierId before → Backs results evidence post.verifierId after →
      before.artifactDigest ≠ after.artifactDigest

/-- The verdict alone, where there is one. -/
def verdict (graph : Graph) (results : List VerifierResult) (evidence : List Evidence) : Option Bool :=
  (evaluateProof graph results evidence).toOption.map ProofAssessment.complete

/-- What is promised of an evaluation. -/
structure Evaluates (graph : Graph) (results : List VerifierResult) (evidence : List Evidence) : Prop where
  sound : ∀ assessment, evaluateProof graph results evidence = .ok assessment → assessment.complete →
    Sound graph results evidence
  falseGreen : ∀ assessment, evaluateProof graph results evidence = .ok assessment →
    (assessment.complete ↔ ¬ assessment.falseGreen)
  orderless : ∀ results' evidence', results.Perm results' → evidence.Perm evidence' →
    verdict graph results' evidence' = verdict graph results evidence

/-- Claims without a plan, and nothing collected. -/
structure Unplanned (graph : Graph) (results : List VerifierResult) (evidence : List Evidence) : Prop where
  verifiers : graph.verifiers = []
  claims : graph.task.claims ≠ []
  kind : graph.task.kind ≠ .bugfix
  results : results = []
  evidence : evidence = []

/-! One round of the loop. -/

section

variable {results : List (String × VerifierResult)} {evidence : List (String × Evidence)}

theorem reasonIf_nil {condition : Prop} [Decidable condition] {reason : String} :
    reasonIf condition reason = [] ↔ ¬ condition := by
  simp [reasonIf]

theorem mem_linkOne {node : VerifierNode} {observed : VerifierResult} {evidenceId : String} {item : Evidence} :
    item ∈ (linkOne evidence node observed evidenceId).2 ↔ evidence.lookup evidenceId = some item ∧
      item.verifierId = node.verifierId ∧ item.outcome = observed.outcome ∧ item.source = .verifier ∧
      PyText.strip item.artifactDigest ≠ "" := by
  simp only [linkOne]
  cases found : evidence.lookup evidenceId with
  | none => simp
  | some other =>
    simp only [Option.some.injEq]
    constructor
    · intro held
      split at held
      · cases held
      · split at held
        · cases held
        · split at held
          · cases held
          · split at held
            · cases held
            · rename_i own agrees authored digest
              obtain rfl := List.mem_singleton.mp held
              exact ⟨rfl, not_not.mp own, not_not.mp agrees, not_not.mp authored, digest⟩
    · rintro ⟨rfl, own, agrees, authored, digest⟩
      simp [own, agrees, authored, digest]

/-- What a verifier's result links to, by the tables. -/
def Linked (results : List (String × VerifierResult)) (evidence : List (String × Evidence)) (verifierId : String)
    (item : Evidence) : Prop :=
  ∃ observed, results.lookup verifierId = some observed ∧ ∃ evidenceId ∈ observed.evidenceIds,
    evidence.lookup evidenceId = some item ∧ item.verifierId = verifierId ∧ item.outcome = observed.outcome ∧
    item.source = .verifier ∧ PyText.strip item.artifactDigest ≠ ""

/-- A round that leaves no reason has found what the verifier needs. -/
theorem tallyNode_quiet {tally : Tally} {node : VerifierNode} (quiet : (tallyNode results evidence tally node).reasons = []) :
    tally.reasons = [] ∧ ∃ observed, results.lookup node.verifierId = some observed ∧
      observed.outcome = node.expectedOutcome ∧
      (∀ dependency ∈ node.dependencies, tally.satisfied.lookup dependency = some true) ∧
      ∃ linked, linked ≠ [] ∧ (∀ item, item ∈ linked ↔ Linked results evidence node.verifierId item) ∧
        tallyNode results evidence tally node =
          ⟨[], Dict.setItem node.verifierId true tally.satisfied,
            Dict.setItem node.verifierId linked tally.validEvidence⟩ := by
  cases found : results.lookup node.verifierId with
  | none => simp [tallyNode, found] at quiet
  | some observed =>
    simp only [tallyNode, found, List.append_eq_nil_iff, reasonIf_nil, decide_eq_false_iff_not, not_not, not_and,
      Bool.not_eq_false, decide_eq_true_eq] at quiet
    obtain ⟨⟨⟨⟨before, matched⟩, links⟩, some⟩, dependencies⟩ := quiet
    have all := dependencies matched
    refine ⟨before, observed, rfl, matched, ?_, _, some, ?_, ?_⟩
    · intro dependency member
      have held := List.all_eq_true.mp all dependency member
      cases known : tally.satisfied.lookup dependency with
      | none => simp [known] at held
      | some value => simpa [known] using held
    · intro item
      simp only [List.mem_flatMap, List.mem_map, Linked, found, Option.some.injEq, exists_eq_left']
      constructor
      · rintro ⟨_, ⟨evidenceId, listed, rfl⟩, held⟩
        exact ⟨evidenceId, listed, mem_linkOne.mp held⟩
      · rintro ⟨evidenceId, listed, rest⟩
        exact ⟨_, ⟨evidenceId, listed, rfl⟩, mem_linkOne.mpr rest⟩
    · have full : ((observed.evidenceIds.map (linkOne evidence node observed)).flatMap Prod.snd).isEmpty = false := by
        simpa [List.isEmpty_iff] using some
      simp only [tallyNode, found, before, matched, links, all, full, reasonIf, some, decide_true, Bool.not_false,
        Bool.and_self, Bool.true_eq_false, and_false, if_false, List.append_nil]

end

/-! The whole loop. -/

section

variable {graph : Graph} {results : List VerifierResult} {evidence : List Evidence}

theorem linked_iff (onceR : (results.map VerifierResult.verifierId).Nodup)
    (onceE : (evidence.map Evidence.evidenceId).Nodup) {verifierId : String} {item : Evidence} :
    Linked (byId VerifierResult.verifierId results) (byId Evidence.evidenceId evidence) verifierId item ↔
      Backs results evidence verifierId item := by
  simp only [Linked, lookup_byId_iff onceR, lookup_byId_iff onceE]
  constructor
  · rintro ⟨observed, ⟨listed, named⟩, evidenceId, inside, ⟨member, same⟩, own, agrees, source, digest⟩
    exact ⟨member, own, source, digest, observed, listed, named, same ▸ inside, agrees⟩
  · rintro ⟨member, own, source, digest, observed, listed, named, inside, agrees⟩
    exact ⟨observed, ⟨listed, named⟩, item.evidenceId, inside, ⟨member, rfl⟩, own, agrees, source, digest⟩

/-- What the loop has noted is so. -/
structure Fair (graph : Graph) (results : List VerifierResult) (evidence : List Evidence) (tally : Tally)
    (done : List VerifierNode) : Prop where
  satisfied : ∀ id, tally.satisfied.lookup id = some true → Satisfied graph results evidence id
  valid : ∀ id linked, tally.validEvidence.lookup id = some linked →
    ∀ item, item ∈ linked ↔ Backs results evidence id item
  kept : ∀ node ∈ done, ∃ linked, tally.validEvidence.lookup node.verifierId = some linked

theorem tally_quiet (onceR : (results.map VerifierResult.verifierId).Nodup)
    (onceE : (evidence.map Evidence.evidenceId).Nodup) {nodes done : List VerifierNode} {tally : Tally}
    (planned : ∀ node ∈ nodes, node ∈ graph.verifiers) (fair : Fair graph results evidence tally done)
    (quiet : (nodes.foldl (tallyNode (byId VerifierResult.verifierId results) (byId Evidence.evidenceId evidence))
      tally).reasons = []) :
    tally.reasons = [] ∧
      Fair graph results evidence (nodes.foldl (tallyNode (byId VerifierResult.verifierId results)
        (byId Evidence.evidenceId evidence)) tally) (done ++ nodes) ∧
      ∀ node ∈ nodes, Observed results node ∧
        ∀ dependency ∈ node.dependencies, Satisfied graph results evidence dependency := by
  induction nodes generalizing tally done with
  | nil => exact ⟨quiet, by rwa [List.append_nil], nofun⟩
  | cons node nodes ih =>
    -- a quiet loop was quiet in this round, so the round found what the verifier needs
    have early : ∀ (rest : List VerifierNode) (t : Tally), (rest.foldl (tallyNode
        (byId VerifierResult.verifierId results) (byId Evidence.evidenceId evidence)) t).reasons = [] →
        t.reasons = [] := by
      intro rest
      induction rest with
      | nil => exact fun t quiet => quiet
      | cons other rest ihr => exact fun t quiet => (tallyNode_quiet (ihr _ quiet)).1
    obtain ⟨before, observed, found, matched, dependencies, linked, some, links, next⟩ :=
      tallyNode_quiet (early nodes _ quiet)
    have seen : Observed results node := by
      obtain ⟨member, named⟩ := (lookup_byId_iff onceR).mp found
      exact ⟨observed, member, named, matched⟩
    have needed : ∀ dependency ∈ node.dependencies, Satisfied graph results evidence dependency :=
      fun dependency member => fair.satisfied dependency (dependencies dependency member)
    have backing : ∀ item, item ∈ linked ↔ Backs results evidence node.verifierId item :=
      fun item => (links item).trans (linked_iff onceR onceE)
    have satisfied : Satisfied graph results evidence node.verifierId := by
      obtain ⟨item, member⟩ := List.exists_mem_of_ne_nil _ some
      exact .node (planned node List.mem_cons_self) seen ((backing item).mp member) needed
    have step : Fair graph results evidence (tallyNode (byId VerifierResult.verifierId results)
        (byId Evidence.evidenceId evidence) tally node) (done ++ [node]) := by
      rw [next]
      refine ⟨fun id known => ?_, fun id other known => ?_, fun other member => ?_⟩
      · rw [Dict.lookup_setItem] at known
        split at known
        · rename_i same
          exact same ▸ satisfied
        · exact fair.satisfied id known
      · rw [Dict.lookup_setItem] at known
        split at known
        · rename_i same
          obtain rfl := Option.some.inj known
          exact same ▸ backing
        · exact fair.valid id other known
      · rw [Dict.lookup_setItem]
        split
        · exact ⟨linked, rfl⟩
        · rename_i other'
          rcases List.mem_append.mp member with earlier | last
          · exact fair.kept other earlier
          · exact absurd (congrArg VerifierNode.verifierId (List.mem_singleton.mp last)) other'
    obtain ⟨-, rest, each⟩ := ih (fun other member => planned other (List.mem_cons_of_mem _ member)) step quiet
    rw [List.append_assoc, List.singleton_append] at rest
    refine ⟨before, rest, fun other member => ?_⟩
    rcases List.mem_cons.mp member with rfl | later
    · exact ⟨seen, needed⟩
    · exact each other later

/-- The tally of a whole plan. -/
def tallied (graph : Graph) (results : List VerifierResult) (evidence : List Evidence) : Tally :=
  graph.verifiers.foldl (tallyNode (byId VerifierResult.verifierId results) (byId Evidence.evidenceId evidence))
    ⟨orphanReasons (byId VerifierNode.verifierId graph.verifiers) results evidence, [], []⟩

def allReasons (graph : Graph) (results : List VerifierResult) (evidence : List Evidence) : List String :=
  (tallied graph results evidence).reasons ++ claimReasons graph (tallied graph results evidence).validEvidence ++
    if graph.task.kind = .bugfix then
      bugfixReasons graph (byId VerifierResult.verifierId results) (tallied graph results evidence).validEvidence
    else []

def isComplete (graph : Graph) (results : List VerifierResult) (evidence : List Evidence) : Bool :=
  (PyText.fromKeys (allReasons graph results evidence)).isEmpty &&
    (tallied graph results evidence).satisfied.all Prod.snd &&
    (tallied graph results evidence).satisfied.length == (byId VerifierNode.verifierId graph.verifiers).length

theorem evaluateProof_ok {assessment : ProofAssessment} : evaluateProof graph results evidence = .ok assessment ↔
    (results.map VerifierResult.verifierId).Nodup ∧ (evidence.map Evidence.evidenceId).Nodup ∧
      assessment = ⟨isComplete graph results evidence, !isComplete graph results evidence,
        PyText.fromKeys (allReasons graph results evidence)⟩ := by
  constructor
  · intro evaluated
    obtain ⟨_, first, rest⟩ := Except.bind_ok.mp evaluated
    obtain ⟨_, second, same⟩ := Except.bind_ok.mp rest
    exact ⟨(uniqueById_ok.mp first).1, (uniqueById_ok.mp second).1, (Except.ok.inj same).symm⟩
  · rintro ⟨onceR, onceE, rfl⟩
    apply Except.bind_ok.mpr
    refine ⟨(), uniqueById_ok.mpr ⟨onceR, fun _ _ => List.not_mem_nil⟩, ?_⟩
    exact Except.bind_ok.mpr ⟨(), uniqueById_ok.mpr ⟨onceE, fun _ _ => List.not_mem_nil⟩, rfl⟩

end

section

variable {graph : Graph} {results : List VerifierResult} {evidence : List Evidence}

theorem fromKeys_isEmpty (items : List String) : (PyText.fromKeys items).isEmpty = items.isEmpty := by
  cases items with
  | nil => rfl
  | cons item items => simp [PyText.fromKeys, List.eraseDups_cons]

theorem claimReasons_nil {valid : List (String × List Evidence)} : claimReasons graph valid = [] ↔
    ∀ claim ∈ graph.task.claims, ∀ node ∈ graph.verifiers,
      ∃ item ∈ (valid.lookup node.verifierId).getD [], claim.claimId ∈ item.claimIds := by
  simp [claimReasons, List.flatMap_eq_nil_iff, reasonIf_nil]

theorem orphanReasons_nil {nodes : List (String × VerifierNode)} : orphanReasons nodes results evidence = [] ↔
    (∀ result ∈ results, (nodes.lookup result.verifierId).isNone = false) ∧
      ∀ item ∈ evidence, (nodes.lookup item.verifierId).isNone = false ∧ item.source ≠ .agent := by
  simp [orphanReasons, List.flatMap_eq_nil_iff, reasonIf_nil]

/-- A bug fix without reasons has its failure and its pass, and nothing proves both. -/
theorem bugfixReasons_nil {table : List (String × VerifierResult)} {valid : List (String × List Evidence)}
    (none : bugfixReasons graph table valid = []) :
    ∃ pre ∈ graph.verifiers, ∃ post ∈ graph.verifiers, pre.kind = .reproduce ∧ post.kind = .targetedTests ∧
      (∃ result, table.lookup pre.verifierId = some result ∧ result.outcome = .failed) ∧
      (∃ result, table.lookup post.verifierId = some result ∧ result.outcome = .passed) ∧
      ∀ before ∈ (valid.lookup pre.verifierId).getD [], ∀ after ∈ (valid.lookup post.verifierId).getD [],
        before.artifactDigest ≠ after.artifactDigest := by
  simp only [bugfixReasons, List.append_eq_nil_iff, reasonIf_nil, not_not] at none
  obtain ⟨⟨failed, passed⟩, apart⟩ := none
  obtain ⟨before, first, wrong⟩ := Option.map_eq_some_iff.mp failed
  obtain ⟨after, second, right⟩ := Option.map_eq_some_iff.mp passed
  obtain ⟨pre, foundPre, observedPre⟩ := Option.bind_eq_some_iff.mp first
  obtain ⟨post, foundPost, observedPost⟩ := Option.bind_eq_some_iff.mp second
  simp only [foundPre, foundPost, reasonIf_nil, List.any_map, List.any_eq_true, not_exists, not_and] at apart
  refine ⟨pre, List.mem_of_find?_eq_some foundPre, post, List.mem_of_find?_eq_some foundPost,
    by simpa using List.find?_some foundPre, by simpa using List.find?_some foundPost,
    ⟨before, observedPre, wrong⟩, ⟨after, observedPost, right⟩, fun old oldIn new newIn same => ?_⟩
  apply apart old oldIn
  simp only [Function.comp_apply, List.contains_iff_mem, List.mem_map]
  exact ⟨new, newIn, same.symm⟩

/-- A complete proof is sound, but for claims without a plan. -/
theorem sound_of_complete (onceR : (results.map VerifierResult.verifierId).Nodup)
    (onceE : (evidence.map Evidence.evidenceId).Nodup) (complete : isComplete graph results evidence = true)
    (planned : ¬ Unplanned graph results evidence) : Sound graph results evidence := by
  simp only [isComplete, fromKeys_isEmpty, Bool.and_eq_true, List.isEmpty_iff, allReasons, List.append_eq_nil_iff]
    at complete
  obtain ⟨⟨⟨⟨quiet, claims⟩, bugfix⟩, -⟩, -⟩ := complete
  have start : Fair graph results evidence
      ⟨orphanReasons (byId VerifierNode.verifierId graph.verifiers) results evidence, [], []⟩ [] :=
    ⟨nofun, nofun, nofun⟩
  obtain ⟨orphans, fair, each⟩ := tally_quiet onceR onceE (fun _ member => member) start quiet
  have backing (node : VerifierNode) (member : node ∈ graph.verifiers) (item : Evidence) :
      item ∈ ((tallied graph results evidence).validEvidence.lookup node.verifierId).getD [] ↔
        Backs results evidence node.verifierId item := by
    obtain ⟨linked, found⟩ := fair.kept node member
    have known : (tallied graph results evidence).validEvidence.lookup node.verifierId = some linked := found
    rw [known, Option.getD_some]
    exact fair.valid node.verifierId linked found item
  have named : ∀ claim ∈ graph.task.claims, ∀ node ∈ graph.verifiers,
      ∃ item, Backs results evidence node.verifierId item ∧ claim.claimId ∈ item.claimIds := by
    intro claim claimed node member
    obtain ⟨item, valid, names⟩ := claimReasons_nil.mp claims claim claimed node member
    exact ⟨item, (backing node member item).mp valid, names⟩
  obtain ⟨known, authored⟩ := orphanReasons_nil.mp orphans
  refine ⟨named, fun claim claimed => ?_, fun node member => (each node member).1, fun node member => (each node member).2,
    fun item member => (authored item member).2, fun kind => ?_⟩
  · cases plan : graph.verifiers with
    | cons node rest =>
      have first : node ∈ graph.verifiers := plan ▸ List.mem_cons_self
      exact ⟨node, List.mem_cons_self, named claim claimed node first⟩
    | nil =>
      -- without a plan whatever was collected is an orphan, and a bug fix has reasons
      exfalso
      rw [plan] at known authored
      have notKnown (id : String) : ((byId VerifierNode.verifierId []).lookup id).isNone ≠ false := by simp [byId]
      refine planned ⟨plan, List.ne_nil_of_mem claimed, fun kind => ?_, ?_, ?_⟩
      · rw [if_pos kind] at bugfix
        obtain ⟨pre, member, -⟩ := bugfixReasons_nil bugfix
        rw [plan] at member
        cases member
      · exact List.eq_nil_iff_forall_not_mem.mpr (fun result member => notKnown _ (known result member))
      · exact List.eq_nil_iff_forall_not_mem.mpr (fun item member => notKnown _ (authored item member).1)
  · rw [if_pos kind] at bugfix
    obtain ⟨pre, first, post, second, reproduces, targets, ⟨failed, observedPre, wrong⟩, ⟨passed, observedPost, right⟩,
      apart⟩ := bugfixReasons_nil bugfix
    obtain ⟨failedIn, failedId⟩ := (lookup_byId_iff onceR).mp observedPre
    obtain ⟨passedIn, passedId⟩ := (lookup_byId_iff onceR).mp observedPost
    exact ⟨pre, first, post, second, reproduces, targets, ⟨failed, failedIn, failedId, wrong⟩,
      ⟨passed, passedIn, passedId, right⟩, fun before after backsPre backsPost =>
        apart before ((backing pre first before).mpr backsPre) after ((backing post second after).mpr backsPost)⟩

/-! Order. -/

theorem linkOne_congr {table others : List (String × Evidence)} (same : ∀ id, others.lookup id = table.lookup id) :
    linkOne others = linkOne table := by
  funext node observed evidenceId
  simp only [linkOne, same]

theorem tallyNode_congr {table table' : List (String × VerifierResult)} {items items' : List (String × Evidence)}
    (first : ∀ id, table'.lookup id = table.lookup id) (second : ∀ id, items'.lookup id = items.lookup id) :
    tallyNode table' items' = tallyNode table items := by
  funext tally node
  simp only [tallyNode, first, linkOne_congr second]

/-- The reasons that were there before a loop stay before those that it adds. -/
theorem tally_shift {table : List (String × VerifierResult)} {items : List (String × Evidence)}
    (nodes : List VerifierNode) (before : List String) (tally : Tally) :
    nodes.foldl (tallyNode table items) ⟨before ++ tally.reasons, tally.satisfied, tally.validEvidence⟩ =
      ⟨before ++ (nodes.foldl (tallyNode table items) tally).reasons,
        (nodes.foldl (tallyNode table items) tally).satisfied,
        (nodes.foldl (tallyNode table items) tally).validEvidence⟩ := by
  induction nodes generalizing tally with
  | nil => rfl
  | cons node nodes ih =>
    have step : tallyNode table items ⟨before ++ tally.reasons, tally.satisfied, tally.validEvidence⟩ node =
        ⟨before ++ (tallyNode table items tally node).reasons, (tallyNode table items tally node).satisfied,
          (tallyNode table items tally node).validEvidence⟩ := by
      simp only [tallyNode]
      cases table.lookup node.verifierId with
      | none => simp only [List.append_assoc]
      | some observed => simp only [List.append_assoc]
    rw [List.foldl_cons, step, ih, List.foldl_cons]

/-- The tally of a plan without what no verifier asked for. -/
def tallyPlan (graph : Graph) (results : List VerifierResult) (evidence : List Evidence) : Tally :=
  graph.verifiers.foldl (tallyNode (byId VerifierResult.verifierId results) (byId Evidence.evidenceId evidence)) ⟨[], [], []⟩

theorem tallied_eq (graph : Graph) (results : List VerifierResult) (evidence : List Evidence) :
    tallied graph results evidence =
      ⟨orphanReasons (byId VerifierNode.verifierId graph.verifiers) results evidence ++
          (tallyPlan graph results evidence).reasons,
        (tallyPlan graph results evidence).satisfied, (tallyPlan graph results evidence).validEvidence⟩ := by
  have shift := @tally_shift (byId VerifierResult.verifierId results) (byId Evidence.evidenceId evidence) graph.verifiers
    (orphanReasons (byId VerifierNode.verifierId graph.verifiers) results evidence) ⟨[], [], []⟩
  rw [List.append_nil] at shift
  exact shift

theorem tallyPlan_perm {results' : List VerifierResult} {evidence' : List Evidence}
    (onceR : (results.map VerifierResult.verifierId).Nodup) (onceE : (evidence.map Evidence.evidenceId).Nodup)
    (first : results.Perm results') (second : evidence.Perm evidence') :
    tallyPlan graph results' evidence' = tallyPlan graph results evidence := by
  rw [tallyPlan, tallyPlan, tallyNode_congr (lookup_byId_perm onceR first) (lookup_byId_perm onceE second)]

/-- What is said after the orphans does not depend on the order. -/
def plannedReasons (graph : Graph) (results : List VerifierResult) (evidence : List Evidence) : List String :=
  (tallyPlan graph results evidence).reasons ++ claimReasons graph (tallyPlan graph results evidence).validEvidence ++
    if graph.task.kind = .bugfix then
      bugfixReasons graph (byId VerifierResult.verifierId results) (tallyPlan graph results evidence).validEvidence
    else []

theorem allReasons_eq (graph : Graph) (results : List VerifierResult) (evidence : List Evidence) :
    allReasons graph results evidence =
      orphanReasons (byId VerifierNode.verifierId graph.verifiers) results evidence ++
        plannedReasons graph results evidence := by
  simp only [allReasons, plannedReasons, tallied_eq, List.append_assoc]

theorem plannedReasons_perm {results' : List VerifierResult} {evidence' : List Evidence}
    (onceR : (results.map VerifierResult.verifierId).Nodup) (onceE : (evidence.map Evidence.evidenceId).Nodup)
    (first : results.Perm results') (second : evidence.Perm evidence') :
    plannedReasons graph results' evidence' = plannedReasons graph results evidence := by
  have outcomes (valid : List (String × List Evidence)) :
      bugfixReasons graph (byId VerifierResult.verifierId results') valid =
        bugfixReasons graph (byId VerifierResult.verifierId results) valid := by
    simp only [bugfixReasons, lookup_byId_perm onceR first]
  simp only [plannedReasons, tallyPlan_perm onceR onceE first second, outcomes]

theorem isComplete_perm {results' : List VerifierResult} {evidence' : List Evidence}
    (onceR : (results.map VerifierResult.verifierId).Nodup) (onceE : (evidence.map Evidence.evidenceId).Nodup)
    (first : results.Perm results') (second : evidence.Perm evidence') :
    isComplete graph results' evidence' = isComplete graph results evidence := by
  have orphans : orphanReasons (byId VerifierNode.verifierId graph.verifiers) results' evidence' = [] ↔
      orphanReasons (byId VerifierNode.verifierId graph.verifiers) results evidence = [] := by
    simp only [orphanReasons_nil, first.mem_iff, second.mem_iff]
  have silent : (allReasons graph results' evidence').isEmpty = (allReasons graph results evidence).isEmpty := by
    rw [Bool.eq_iff_iff, List.isEmpty_iff, List.isEmpty_iff, allReasons_eq, allReasons_eq, List.append_eq_nil_iff,
      List.append_eq_nil_iff, orphans, plannedReasons_perm onceR onceE first second]
  rw [isComplete, isComplete, fromKeys_isEmpty, fromKeys_isEmpty, silent, tallied_eq, tallied_eq]
  simp only [tallyPlan_perm onceR onceE first second]

theorem verdict_perm {results' : List VerifierResult} {evidence' : List Evidence} (first : results.Perm results')
    (second : evidence.Perm evidence') : verdict graph results' evidence' = verdict graph results evidence := by
  have onceR := (first.map VerifierResult.verifierId).nodup_iff
  have onceE := (second.map Evidence.evidenceId).nodup_iff
  rw [verdict, verdict]
  cases result : evaluateProof graph results evidence with
  | ok assessment =>
    obtain ⟨distinctR, distinctE, rfl⟩ := evaluateProof_ok.mp result
    have other := (@evaluateProof_ok graph results' evidence' _).mpr ⟨onceR.mp distinctR, onceE.mp distinctE, rfl⟩
    rw [other]
    exact congrArg some (isComplete_perm distinctR distinctE first second)
  | error e =>
    cases other : evaluateProof graph results' evidence' with
    | error e' => rfl
    | ok assessment =>
      obtain ⟨distinctR, distinctE, -⟩ := evaluateProof_ok.mp other
      have found := (@evaluateProof_ok graph results evidence _).mpr ⟨onceR.mpr distinctR, onceE.mpr distinctE, rfl⟩
      rw [result] at found
      cases found

/-- An evaluation keeps its promises unless there are claims, no plan and nothing collected. -/
theorem evaluates_iff (graph : Graph) (results : List VerifierResult) (evidence : List Evidence) :
    Evaluates graph results evidence ↔ ¬ Unplanned graph results evidence := by
  constructor
  · rintro evaluates ⟨noPlan, claims, kind, rfl, rfl⟩
    have unasked : graph.task.claims.flatMap (fun _ => ([] : List String)) = [] :=
      List.flatMap_eq_nil_iff.mpr (fun _ _ => rfl)
    have complete : isComplete graph [] [] = true := by
      simp [isComplete, allReasons, tallied, noPlan, claimReasons, orphanReasons, kind, byId, PyText.fromKeys, unasked]
    have evaluated := (@evaluateProof_ok graph [] [] _).mpr ⟨List.nodup_nil, List.nodup_nil, rfl⟩
    have sound := evaluates.sound _ evaluated complete
    obtain ⟨claim, claimed⟩ := List.exists_mem_of_ne_nil _ claims
    obtain ⟨node, member, -⟩ := sound.once claim claimed
    rw [noPlan] at member
    cases member
  · intro planned
    refine ⟨fun assessment evaluated complete => ?_, fun assessment evaluated => ?_, ?_⟩
    · obtain ⟨onceR, onceE, rfl⟩ := evaluateProof_ok.mp evaluated
      exact sound_of_complete onceR onceE complete planned
    · obtain ⟨-, -, rfl⟩ := evaluateProof_ok.mp evaluated
      simp
    · exact fun results' evidence' first second => verdict_perm first second

/-- A feature with a claim and no plan. -/
def planless : Graph :=
  ⟨⟨"task-1", "add an endpoint", .feature, [⟨"c1", "the endpoint answers", .behavior⟩]⟩, ⟨false, false, false⟩,
    ⟨["app.py"], ["python"]⟩, []⟩

theorem planless_complete :
    evaluateProof planless [] [] = .ok ⟨true, false, []⟩ ∧ ¬ Sound planless [] [] ∧ ¬ Evaluates planless [] [] := by
  have unsound : ¬ Sound planless [] [] := by
    intro sound
    obtain ⟨node, member, -⟩ := sound.once ⟨"c1", "the endpoint answers", .behavior⟩ List.mem_cons_self
    cases member
  have evaluated : evaluateProof planless [] [] = .ok ⟨true, false, []⟩ := by rfl
  exact ⟨evaluated, unsound, fun evaluates => unsound (evaluates.sound _ evaluated rfl)⟩

end

end Onmc.ProofGraph

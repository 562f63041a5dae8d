import Mathlib.Algebra.Order.Ring.Unbundled.Rat
import Onmc.ContextEngine.Passes

/-! A plan accounts for every candidate that it was given. -/
namespace Onmc.ContextPlan

/-! The exclusions. -/

theorem exclusionDict_from (exclusions : List Exclusion) : ∀ dict : List (String × Exclusion),
    (Dict.keys dict ++ exclusions.map Exclusion.candidateId).Nodup →
    exclusions.foldl (fun dict x => Dict.setItem x.candidateId x dict) dict =
      dict ++ exclusions.map (fun x => (x.candidateId, x)) := by
  induction exclusions with
  | nil => intro dict _; simp
  | cons x rest ih =>
    intro dict once
    have new : x.candidateId ∉ Dict.keys dict := by
      intro old
      exact (List.nodup_append.mp once).2.2 _ old _ List.mem_cons_self rfl
    have set : Dict.setItem x.candidateId x dict = dict ++ [(x.candidateId, x)] := by
      simpa [Dict.setItem] using Dict.setItem_append x new []
    rw [List.foldl_cons, set, ih, List.append_assoc]
    · rfl
    · simpa [Dict.keys] using once

theorem sortedExclusions_perm {exclusions : List Exclusion} (once : (exclusions.map Exclusion.candidateId).Nodup) :
    (sortedExclusions exclusions).Perm exclusions := by
  have dict : exclusionDict exclusions = exclusions.map (fun x => (x.candidateId, x)) :=
    exclusionDict_from exclusions [] once
  have sorted := (List.perm_insertionSort (fun x y : String × Exclusion => x.1 ≤ y.1) (exclusionDict exclusions)).map
    Prod.snd
  rw [dict, List.map_map] at sorted
  rw [sortedExclusions, dict]
  simpa [Function.comp_def] using sorted

variable {V : Type} [Lowercase]

def reasons : List String :=
  ["missing_provenance", "stale", "graph_scope", "mode_scope", "duplicate", "below_roi", "token_budget"]

/-- What a plan promises of the candidates supplied. -/
structure Planned (supplied : List (Candidate V)) (tokenBudget : Int) (packet : EvidencePacket V) : Prop where
  once : (packet.evidence.map Evidence.candidateId ++ packet.exclusions.map Exclusion.candidateId).Nodup
  all : ∀ id, id ∈ packet.evidence.map Evidence.candidateId ++ packet.exclusions.map Exclusion.candidateId ↔
    id ∈ idsOf supplied
  reason : ∀ x ∈ packet.exclusions, x.reason ∈ reasons
  /-- A duplicate names its winner, which has its key and, if it is packed, cites it. -/
  cited : ∀ x ∈ packet.exclusions, x.reason = "duplicate" → ∃ item ∈ supplied, ∃ winner ∈ supplied,
    item.id = x.candidateId ∧ x.detail = "same as " ++ winner.id ∧ item ≠ winner ∧
    dedupeKeyOf item = dedupeKeyOf winner ∧
    ∀ e ∈ packet.evidence, e.candidateId = winner.id → x.candidateId ∈ e.citations.map Citation.candidateId
  /-- An entry is a candidate's, which no other entry shares its key with. -/
  entry : ∀ e ∈ packet.evidence, ∃ item ∈ supplied, item.id = e.candidateId ∧ item.content = e.content ∧
    item.tokenCount = e.tokenCount ∧ ∀ e' ∈ packet.evidence, ∀ item' ∈ supplied, item'.id = e'.candidateId →
      dedupeKeyOf item' = dedupeKeyOf item → e'.candidateId = e.candidateId
  used : packet.usedTokens = (packet.evidence.map Evidence.tokenCount).sum
  within : (packet.usedTokens : Int) ≤ tokenBudget

variable [LinearOrder V] [Floats V] {engine : ContextEngine V} {query : String} {mode : RetrievalMode}
  {tokenBudget : Int} {ordered : List (Candidate V)}

/-! The first two passes. -/

def validOf (engine : ContextEngine V) (ordered : List (Candidate V)) : List (Candidate V) :=
  ordered.filter (fun item => (screen engine.config item).isNone)

def screenedOf (engine : ContextEngine V) (ordered : List (Candidate V)) : List Exclusion :=
  ordered.filterMap (fun item => (screen engine.config item).map (fun reason => (⟨item.id, reason, ""⟩ : Exclusion)))

omit [Lowercase] [Floats V] in
theorem screened_perm :
    ((screenedOf engine ordered).map Exclusion.candidateId ++ idsOf (validOf engine ordered)).Perm (idsOf ordered) := by
  induction ordered with
  | nil => exact List.Perm.nil
  | cons item rest ih =>
    cases screens : screen engine.config item with
    | none =>
      have valid : validOf engine (item :: rest) = item :: validOf engine rest := by simp [validOf, screens]
      have screened : screenedOf engine (item :: rest) = screenedOf engine rest := by simp [screenedOf, screens]
      rw [valid, screened]
      exact List.perm_middle.trans (ih.cons item.id)
    | some reason =>
      have valid : validOf engine (item :: rest) = validOf engine rest := by simp [validOf, screens]
      have screened : screenedOf engine (item :: rest) = ⟨item.id, reason, ""⟩ :: screenedOf engine rest := by
        simp [screenedOf, screens]
      rw [valid, screened]
      exact ih.cons item.id

omit [Lowercase] [Floats V] in
theorem screened_reason {x : Exclusion} (member : x ∈ screenedOf engine ordered) :
    x.reason = "missing_provenance" ∨ x.reason = "stale" := by
  obtain ⟨item, -, made⟩ := List.mem_filterMap.mp member
  unfold screen at made
  split at made
  · exact .inl (by simpa using (congrArg Exclusion.reason (Option.some.inj made)).symm)
  · split at made
    · exact .inr (by simpa using (congrArg Exclusion.reason (Option.some.inj made)).symm)
    · cases made

omit [Lowercase] in
/-- Keys among the ids of a list, and the other ids. -/
theorem unscoped_perm {ids keys : List String} (once : ids.Nodup) (keys_once : keys.Nodup)
    (among : ∀ key ∈ keys, key ∈ ids) :
    (((ids.filter (fun id => id ∉ keys)).insertionSort (· ≤ ·)) ++ keys).Perm ids := by
  have inside : (ids.filter (fun id => id ∈ keys)).Perm keys := by
    apply (List.perm_ext_iff_of_nodup (once.filter _) keys_once).mpr
    intro id
    simp only [List.mem_filter, decide_eq_true_eq]
    exact ⟨fun h => h.2, fun h => ⟨among id h, h⟩⟩
  have outside := List.perm_insertionSort (fun a b : String => a ≤ b) (ids.filter (fun id => id ∉ keys))
  have split := List.filter_append_perm (fun id => decide (id ∈ keys)) ids
  have negated : ids.filter (fun id => !decide (id ∈ keys)) = ids.filter (fun id => id ∉ keys) := by
    apply List.filter_congr
    simp
  rw [negated] at split
  exact (outside.append inside.symm).trans (List.perm_append_comm.trans split)

omit [Lowercase] [LinearOrder V] [Floats V] in
/-- The candidates with given ids. -/
theorem inScope_ids {valid : List (Candidate V)} {keys : List String} (among : ∀ key ∈ keys, key ∈ idsOf valid) :
    idsOf (keys.filterMap (fun id => valid.find? (fun item => item.id = id))) = keys ∧
      ∀ item ∈ keys.filterMap (fun id => valid.find? (fun item => item.id = id)), item ∈ valid := by
  constructor
  · induction keys with
    | nil => rfl
    | cons key keys ih =>
      obtain ⟨item, member, same⟩ := List.mem_map.mp (among key List.mem_cons_self)
      cases found : valid.find? (fun item => item.id = key) with
      | none => exact absurd (List.find?_eq_none.mp found item member) (by simp [same])
      | some first =>
        have id : first.id = key := by simpa using List.find?_some found
        simp only [List.filterMap_cons, found, idsOf, List.map_cons, id]
        exact congrArg (key :: ·) (ih (fun other later => among other (List.mem_cons_of_mem _ later)))
  · intro item member
    obtain ⟨key, -, found⟩ := List.mem_filterMap.mp member
    exact List.mem_of_find?_eq_some found

/-! The passes together. -/

/-- The candidates in scope, with the depths of the scope. -/
def inScopeOf (engine : ContextEngine V) (query : String) (mode : RetrievalMode) (ordered : List (Candidate V)) :
    List (Candidate V) :=
  ((Dict.keys (engine.scope query mode (validOf engine ordered))).insertionSort (· ≤ ·)).filterMap
    (fun id => (validOf engine ordered).find? (fun item => item.id = id))

def depthIn (engine : ContextEngine V) (query : String) (mode : RetrievalMode) (ordered : List (Candidate V))
    (item : Candidate V) : Option Nat :=
  ((engine.scope query mode (validOf engine ordered)).lookup item.id).join

def groupsOf (engine : ContextEngine V) (query : String) (mode : RetrievalMode) (ordered : List (Candidate V)) :
    List (Group V) :=
  engine.dedupe (inScopeOf engine query mode ordered) query mode (depthIn engine query mode ordered)

def unscopedOf (engine : ContextEngine V) (query : String) (mode : RetrievalMode) (ordered : List (Candidate V)) :
    List String :=
  ((idsOf (validOf engine ordered)).filter
    (fun id => id ∉ Dict.keys (engine.scope query mode (validOf engine ordered)))).insertionSort (· ≤ ·)

def duplicatesOf (groups : List (Group V)) : List Exclusion :=
  groups.flatMap (fun group =>
    group.duplicates.map (fun item => (⟨item.id, "duplicate", "same as " ++ group.winner.id⟩ : Exclusion)))

/-- All exclusions, pass by pass. -/
def exclusionsOf (engine : ContextEngine V) (query : String) (mode : RetrievalMode) (ordered : List (Candidate V))
    (belowRoi overBudget : List Exclusion) : List Exclusion :=
  screenedOf engine ordered ++
    (unscopedOf engine query mode ordered).map (fun id => (⟨id, scopeReason mode, ""⟩ : Exclusion)) ++
    duplicatesOf (groupsOf engine query mode ordered) ++ belowRoi ++ overBudget

theorem inScope_mem (once : (idsOf ordered).Nodup) :
    (idsOf (inScopeOf engine query mode ordered)).Perm (Dict.keys (engine.scope query mode (validOf engine ordered))) ∧
      ∀ item ∈ inScopeOf engine query mode ordered, item ∈ ordered := by
  have valid_once : (idsOf (validOf engine ordered)).Nodup := (List.filter_sublist.map _).nodup once
  have among : ∀ key ∈ (Dict.keys (engine.scope query mode (validOf engine ordered))).insertionSort (· ≤ ·),
      key ∈ idsOf (validOf engine ordered) := by
    intro key member
    exact (scope_keys valid_once).2 key ((List.mem_insertionSort _).mp member)
  obtain ⟨ids, valid⟩ := inScope_ids among
  refine ⟨?_, fun item member => List.mem_of_mem_filter (valid item member)⟩
  rw [inScopeOf, ids]
  exact List.perm_insertionSort _ _

omit [Lowercase] [LinearOrder V] [Floats V] in
theorem map_winner_perm (groups : List (Group V)) :
    (groups.map (fun g => g.winner.id) ++ (duplicatesOf groups).map Exclusion.candidateId).Perm
      (idsOf (groups.flatMap (fun g => g.winner :: g.duplicates))) := by
  have perm := List.map_append_flatMap_perm groups (fun g => g.winner.id) (fun g => idsOf g.duplicates)
  simpa [duplicatesOf, idsOf, List.map_flatMap, Function.comp_def] using perm

/-- Every id comes out once, packed or excluded. -/
theorem passes_perm (once : (idsOf ordered).Nodup) {ranked : List (Ranked V)} {belowRoi : List Exclusion}
    (ranks : (ranked.map (fun r => r.candidate.id) ++ belowRoi.map Exclusion.candidateId).Perm
      ((groupsOf engine query mode ordered).map (fun g => g.winner.id)))
    {p : Packing V} (packs : p.Of tokenBudget (ranked.insertionSort engine.rankLe)) :
    (p.packed.map Evidence.candidateId ++
      (exclusionsOf engine query mode ordered belowRoi p.exclusions).map Exclusion.candidateId).Perm (idsOf ordered) := by
  have valid_once : (idsOf (validOf engine ordered)).Nodup := (List.filter_sublist.map _).nodup once
  obtain ⟨keys_once, among⟩ := @scope_keys V _ _ _ engine query mode _ valid_once
  have screens := @screened_perm V _ engine ordered
  have scopes := unscoped_perm valid_once keys_once among
  have inside := (@inScope_mem V _ _ _ engine query mode ordered once).1
  have dedupes := (@dedupe_perm V _ _ _ engine query mode (inScopeOf engine query mode ordered)
    (depthIn engine query mode ordered)).map Candidate.id
  have winners := map_winner_perm (groupsOf engine query mode ordered)
  have sorts := (List.perm_insertionSort engine.rankLe ranked).map (fun r => r.candidate.id)
  have packed := packs.ids
  apply List.perm_iff_count.mpr
  intro id
  have c1 := screens.count_eq id
  have c2 := scopes.count_eq id
  have c3 := inside.count_eq id
  have c4 := dedupes.count_eq id
  have c5 := winners.count_eq id
  have c6 := ranks.count_eq id
  have c7 := sorts.count_eq id
  have c8 := packed.count_eq id
  have named : ((unscopedOf engine query mode ordered).map
      (fun id => (⟨id, scopeReason mode, ""⟩ : Exclusion))).map Exclusion.candidateId =
      unscopedOf engine query mode ordered := by simp [Function.comp_def]
  simp only [exclusionsOf, List.map_append, List.count_append, named] at *
  simp only [unscopedOf, groupsOf, idsOf] at *
  omega

theorem exclusion_reason {belowRoi overBudget : List Exclusion} (low : ∀ x ∈ belowRoi, x.reason = "below_roi")
    (full : ∀ x ∈ overBudget, x.reason = "token_budget") {x : Exclusion}
    (member : x ∈ exclusionsOf engine query mode ordered belowRoi overBudget) :
    x.reason ∈ reasons ∧ (x.reason = "duplicate" → x ∈ duplicatesOf (groupsOf engine query mode ordered)) := by
  simp only [exclusionsOf, List.mem_append] at member
  rcases member with (((screens | scopes) | twice) | low_x) | full_x
  · rcases screened_reason screens with reason | reason <;> simp [reason, reasons]
  · obtain ⟨id, -, rfl⟩ := List.mem_map.mp scopes
    cases mode <;> simp [scopeReason, reasons]
  · obtain ⟨g, -, item⟩ := List.mem_flatMap.mp twice
    obtain ⟨d, -, rfl⟩ := List.mem_map.mp item
    exact ⟨by simp [reasons], fun _ => twice⟩
  · simp [low x low_x, reasons]
  · simp [full x full_x, reasons]

/-- The groups are told apart by their keys. -/
theorem group_eq {g g' : Group V} (member : g ∈ groupsOf engine query mode ordered)
    (member' : g' ∈ groupsOf engine query mode ordered)
    (same : dedupeKeyOf g.winner = dedupeKeyOf g'.winner) : g = g' :=
  List.inj_on_of_nodup_map dedupe_keys member member' same

theorem group_mem (once : (idsOf ordered).Nodup) {g : Group V} (member : g ∈ groupsOf engine query mode ordered) :
    ∀ item ∈ g.winner :: g.duplicates, item ∈ ordered ∧ dedupeKeyOf item = dedupeKeyOf g.winner := by
  intro item inside
  obtain ⟨scoped_in, key⟩ := (dedupe_of member).members item inside
  exact ⟨(inScope_mem once).2 item scoped_in, key⟩

theorem group_nodup (once : (idsOf ordered).Nodup) {g : Group V} (member : g ∈ groupsOf engine query mode ordered) :
    (g.winner :: g.duplicates).Nodup := by
  have valid_once : (idsOf (validOf engine ordered)).Nodup := (List.filter_sublist.map _).nodup once
  have ids_once : (idsOf (inScopeOf engine query mode ordered)).Nodup :=
    (inScope_mem once).1.nodup_iff.mpr (scope_keys valid_once).1
  have inside : ((groupsOf engine query mode ordered).flatMap (fun g => g.winner :: g.duplicates)).Nodup :=
    dedupe_perm.nodup_iff.mpr (List.Nodup.of_map Candidate.id ids_once)
  exact (List.nodup_flatMap.mp inside).1 g member

/-- What the packing makes of the ranked winners is as promised. -/
theorem passes_planned (strict : ordered.Pairwise (fun c d => c.id < d.id)) {ranked : List (Ranked V)}
    {belowRoi : List Exclusion}
    (ranks : (ranked.map (fun r => r.candidate.id) ++ belowRoi.map Exclusion.candidateId).Perm
      ((groupsOf engine query mode ordered).map (fun g => g.winner.id)))
    (from_groups : ∀ r ∈ ranked, r.From (groupsOf engine query mode ordered) (depthIn engine query mode ordered))
    (low : ∀ x ∈ belowRoi, x.reason = "below_roi") {p : Packing V}
    (packs : p.Of tokenBudget (ranked.insertionSort engine.rankLe)) {packet : EvidencePacket V}
    (evidence : packet.evidence = p.packed) (used : packet.usedTokens = p.used)
    (exclusions : packet.exclusions = sortedExclusions (exclusionsOf engine query mode ordered belowRoi p.exclusions)) :
    Planned ordered tokenBudget packet := by
  have once : (idsOf ordered).Nodup := List.pairwise_map.mpr (strict.imp ne_of_id_lt)
  have ends := passes_perm once ranks packs
  have ends_once := ends.nodup_iff.mpr once
  have sorted := sortedExclusions_perm (List.nodup_append.mp ends_once).2.1
  have total : (packet.evidence.map Evidence.candidateId ++ packet.exclusions.map Exclusion.candidateId).Perm
      (idsOf ordered) := by
    rw [evidence, exclusions]
    exact ((sorted.map _).append_left _).trans ends
  -- An entry of the packet is a winner, with the citations of its group.
  have winner : ∀ e ∈ packet.evidence, ∃ g ∈ groupsOf engine query mode ordered, e.candidateId = g.winner.id ∧
      e.tokenCount = g.winner.tokenCount ∧ e.content = g.winner.content ∧ e.citations = g.citations := by
    intro e member
    rw [evidence] at member
    obtain ⟨r, sorted_r, made⟩ := packs.made e member
    obtain ⟨g, hg, same, cites, -⟩ := from_groups r ((List.mem_insertionSort _).mp sorted_r)
    obtain ⟨id, cost, content, citations, -⟩ := evidenceOf_ok made
    exact ⟨g, hg, id.trans (same ▸ rfl), cost.trans (same ▸ rfl), content.trans (same ▸ rfl), citations.trans cites⟩
  have winner_mem : ∀ g ∈ groupsOf engine query mode ordered, g.winner ∈ ordered :=
    fun g hg => (group_mem once hg g.winner List.mem_cons_self).1
  have listed : ∀ x ∈ packet.exclusions, x ∈ exclusionsOf engine query mode ordered belowRoi p.exclusions := by
    intro x member
    rw [exclusions] at member
    exact sorted.mem_iff.mp member
  constructor
  case once => exact total.nodup_iff.mpr once
  case all => exact fun id => total.mem_iff
  case reason => exact fun x member => (exclusion_reason low packs.reasons (listed x member)).1
  case cited =>
    intro x member reason
    have twice := (exclusion_reason low packs.reasons (listed x member)).2 reason
    obtain ⟨g, hg, named⟩ := List.mem_flatMap.mp twice
    obtain ⟨item, duplicate, rfl⟩ := List.mem_map.mp named
    obtain ⟨supplied, key⟩ := group_mem once hg item (List.mem_cons_of_mem _ duplicate)
    refine ⟨item, supplied, g.winner, winner_mem g hg, rfl, rfl, ?_, key, ?_⟩
    · rintro rfl
      exact (List.nodup_cons.mp (group_nodup once hg)).1 duplicate
    · intro e packed same
      obtain ⟨g', hg', id, -, -, citations⟩ := winner e packed
      have winners := eq_of_strict strict (winner_mem g' hg') (winner_mem g hg) (id.symm.trans same)
      have groups := group_eq hg' hg (congrArg dedupeKeyOf winners)
      rw [citations, groups]
      exact (dedupe_of hg).cited item (List.mem_cons_of_mem _ duplicate)
  case entry =>
    intro e packed
    obtain ⟨g, hg, id, cost, content, -⟩ := winner e packed
    refine ⟨g.winner, winner_mem g hg, id.symm, content.symm, cost.symm, ?_⟩
    intro e' packed' item' supplied' id' key
    obtain ⟨g', hg', named, -⟩ := winner e' packed'
    have same := eq_of_strict strict supplied' (winner_mem g' hg') (id'.trans named)
    rw [same] at key
    rw [named, id, group_eq hg' hg key]
  case used => rw [used, evidence, packs.used]
  case within =>
    rw [used]
    exact packs.within

theorem planOrdered_eq : engine.planOrdered query mode tokenBudget ordered = (do
    let (ranked, belowRoi) ← engine.rank query mode (depthIn engine query mode ordered)
      (groupsOf engine query mode ordered)
    let packing ← pack tokenBudget ⟨[], [], 0⟩ (ranked.insertionSort engine.rankLe)
    let confidence := Floats.stableFloat (match packing.packed.map Evidence.score with
      | [] => Floats.zero
      | best :: scores => scores.foldl max best)
    return ⟨query, mode, tokenBudget, packing.used, packing.packed,
      sortedExclusions (exclusionsOf engine query mode ordered belowRoi packing.exclusions),
      packing.packed.isEmpty, confidence,
      packing.packed.isEmpty || decide (confidence < engine.config.minConfidence)⟩) := rfl

/-- A plan from unique candidates, in the order of their ids. -/
theorem planOrdered_spec (strict : ordered.Pairwise (fun c d => c.id < d.id)) (budget : 0 ≤ tokenBudget) :
    match engine.planOrdered query mode tokenBudget ordered with
    | .ok packet => Planned ordered tokenBudget packet
    | .error _ => (∃ item ∈ ordered, TooLarge item) ∨ ∃ item ∈ ordered, ¬ (item.metadata.map Prod.fst).Nodup := by
  have once : (idsOf ordered).Nodup := List.pairwise_map.mpr (strict.imp ne_of_id_lt)
  have winner_mem : ∀ g ∈ groupsOf engine query mode ordered, g.winner ∈ ordered :=
    fun g hg => (group_mem once hg g.winner List.mem_cons_self).1
  have ranks := @rank_spec V _ _ _ engine query mode (depthIn engine query mode ordered)
    (groupsOf engine query mode ordered)
  rw [planOrdered_eq]
  cases result : engine.rank query mode (depthIn engine query mode ordered) (groupsOf engine query mode ordered) with
  | error e =>
    rw [result] at ranks
    obtain ⟨g, hg, large⟩ := ranks
    exact .inl ⟨g.winner, winner_mem g hg, large⟩
  | ok found =>
    obtain ⟨ranked, belowRoi⟩ := found
    rw [result] at ranks
    obtain ⟨perm, from_groups, low⟩ := ranks
    have start : Packing.Of tokenBudget [] (⟨[], [], 0⟩ : Packing V) :=
      ⟨List.Perm.nil, by simp, by simp, rfl, budget⟩
    have packs := pack_spec (ranked.insertionSort engine.rankLe) start
    simp only [Except.ok_bind]
    cases packed : pack tokenBudget (⟨[], [], 0⟩ : Packing V) (ranked.insertionSort engine.rankLe) with
    | error e =>
      rw [packed] at packs
      obtain ⟨r, member, repeated⟩ := packs
      obtain ⟨g, hg, same, -⟩ := from_groups r ((List.mem_insertionSort _).mp member)
      exact .inr ⟨g.winner, winner_mem g hg, same ▸ repeated⟩
    | ok p =>
      rw [packed] at packs
      exact passes_planned strict perm from_groups low packs rfl rfl rfl

omit [LinearOrder V] [Floats V] in
theorem Planned.congr {supplied supplied' : List (Candidate V)} (same : ∀ c, c ∈ supplied ↔ c ∈ supplied')
    {packet : EvidencePacket V} (h : Planned supplied tokenBudget packet) : Planned supplied' tokenBudget packet := by
  have ids : ∀ id, id ∈ idsOf supplied ↔ id ∈ idsOf supplied' := by
    intro id
    simp only [idsOf, List.mem_map, same]
  obtain ⟨once, all, reason, cited, entry, used, within⟩ := h
  simp only [same] at cited entry
  exact ⟨once, fun id => (all id).trans (ids id), reason, cited, entry, used, within⟩

/-- Every plan: a packet that accounts for the candidates, or one of four refusals. -/
theorem plan_spec (candidates : List (Candidate V)) :
    match engine.plan query candidates mode tokenBudget with
    | .ok packet => 0 ≤ tokenBudget ∧ (∀ id, ¬ Conflict (engine.supplied query candidates mode) id) ∧
        Planned (engine.supplied query candidates mode) tokenBudget packet
    | .error _ => tokenBudget < 0 ∨ (∃ id, Conflict (engine.supplied query candidates mode) id) ∨
        (∃ item ∈ engine.supplied query candidates mode, TooLarge item) ∨
        ∃ item ∈ engine.supplied query candidates mode, ¬ (item.metadata.map Prod.fst).Nodup := by
  unfold ContextEngine.plan
  by_cases negative : tokenBudget < 0
  · simp only [if_pos negative]
    exact .inl negative
  · simp only [if_neg negative]
    have unique := uniqueCandidates_spec (engine.supplied query candidates mode)
    cases result : uniqueCandidates (engine.supplied query candidates mode) with
    | error e =>
      rw [result] at unique
      obtain ⟨id, -, conflict, -⟩ := unique
      exact .inr (.inl ⟨id, conflict⟩)
    | ok ordered =>
      rw [result] at unique
      obtain ⟨strict, members⟩ := unique
      have planned := @planOrdered_spec V _ _ _ engine query mode tokenBudget ordered strict (not_lt.mp negative)
      simp only [Except.ok_bind]
      cases plans : engine.planOrdered query mode tokenBudget ordered with
      | error e =>
        rw [plans] at planned
        simp only [members] at planned
        exact .inr (.inr planned)
      | ok packet =>
        rw [plans] at planned
        refine ⟨not_lt.mp negative, ?_, planned.congr members⟩
        rintro id ⟨c, hc, d, hd, rfl, shared, apart⟩
        exact apart (eq_of_strict strict ((members c).mpr hc) ((members d).mpr hd) shared.symm)

section Order

variable {candidates candidates' : List (Candidate V)}
  {providers' : List (String → RetrievalMode → List (Candidate V))}

theorem rank_providers {depthOf : Candidate V → Option Nat} (groups : List (Group V)) :
    ContextEngine.rank ⟨engine.config, providers', engine.graphProvider⟩ query mode depthOf groups =
      engine.rank query mode depthOf groups := by
  induction groups with
  | nil => rfl
  | cons group rest ih =>
    simp only [ContextEngine.rank, ih]
    rfl

theorem planOrdered_providers :
    ContextEngine.planOrdered ⟨engine.config, providers', engine.graphProvider⟩ query mode tokenBudget ordered =
      engine.planOrdered query mode tokenBudget ordered := by
  unfold ContextEngine.planOrdered
  simp only [rank_providers]
  rfl

/-- A plan depends on which candidates it is given, not on their order nor on who supplies them. -/
theorem plan_congr
    (same : ∀ c, c ∈ engine.supplied query candidates mode ↔
      c ∈ ContextEngine.supplied ⟨engine.config, providers', engine.graphProvider⟩ query candidates' mode) :
    ContextEngine.plan ⟨engine.config, providers', engine.graphProvider⟩ query candidates' mode tokenBudget =
      engine.plan query candidates mode tokenBudget := by
  unfold ContextEngine.plan
  rw [uniqueCandidates_congr same]
  simp only [planOrdered_providers]

omit [Lowercase] [LinearOrder V] [Floats V] in
theorem supplied_perm (candidates_perm : candidates.Perm candidates')
    (providers_perm : engine.candidateProviders.Perm providers') (c : Candidate V) :
    c ∈ engine.supplied query candidates mode ↔
      c ∈ ContextEngine.supplied ⟨engine.config, providers', engine.graphProvider⟩ query candidates' mode := by
  simp only [ContextEngine.supplied, List.mem_append, List.mem_flatMap, candidates_perm.mem_iff,
    providers_perm.mem_iff]

end Order

/-! The graph. -/

omit [Lowercase] [LinearOrder V] [Floats V] in
theorem walk_congr {nodes seeds : List String} {neighbors neighbors' : String → List String}
    (same : ∀ a b, b ∈ neighbors a ↔ b ∈ neighbors' a) {n : Nat} {a : String}
    (walk : Breadth.Walk nodes neighbors seeds n a) : Breadth.Walk nodes neighbors' seeds n a := by
  induction walk with
  | seed start => exact .seed start
  | step _ edge ih => exact ih.step ⟨edge.1, (same _ _).mp edge.2⟩

/-- What the expansion over a graph promises: no node twice, the bounds, breadth-first distances, and
nothing within the depth left out while there is room. -/
structure Expanded (neighbors : String → List String) (config : PlannerConfig V) (nodes seeds : List String)
    (depths : List (String × Option Nat)) : Prop where
  once : (Dict.keys depths).Nodup
  room : depths.length ≤ config.maxGraphNodes
  distance : ∀ e ∈ depths, e.1 ∈ nodes ∧
    ∃ d, e.2 = some d ∧ d ≤ config.maxGraphDepth ∧ Breadth.Distance nodes neighbors seeds d e.1
  complete : depths.length < config.maxGraphNodes → ∀ n id, Breadth.Walk nodes neighbors seeds n id →
    n ≤ config.maxGraphDepth → id ∈ Dict.keys depths

omit [Lowercase] [LinearOrder V] [Floats V] in
theorem expand_expanded (neighbors : String → List String) {nodes seeds : List String} (once : seeds.Nodup)
    (inside : ∀ id ∈ seeds, id ∈ nodes) :
    Expanded neighbors engine.config nodes seeds (engine.expand neighbors seeds nodes) := by
  have same : ∀ a b, b ∈ (neighbors a).eraseDups.insertionSort (· ≤ ·) ↔ b ∈ neighbors a := by
    intro a b
    rw [List.mem_insertionSort, List.mem_eraseDups]
  have bounds := Breadth.expand_once (fun id => (neighbors id).eraseDups.insertionSort (· ≤ ·))
    engine.config.maxGraphDepth engine.config.maxGraphNodes once inside
  have length : (engine.expand neighbors seeds nodes).length = (Breadth.expand nodes
      (fun id => (neighbors id).eraseDups.insertionSort (· ≤ ·)) engine.config.maxGraphDepth
      engine.config.maxGraphNodes seeds).length := List.length_map _
  constructor
  case once =>
    rw [keys_expand]
    exact bounds.1
  case room =>
    rw [length]
    exact bounds.2
  case distance =>
    intro e member
    obtain ⟨⟨id, d⟩, visited, rfl⟩ := List.mem_map.mp member
    obtain ⟨node, shallow, walk, least⟩ := Breadth.expand_distance _ _ _ once inside visited
    refine ⟨node, d, rfl, shallow, walk_congr same walk, fun m other => ?_⟩
    exact least m (walk_congr (fun a b => (same a b).symm) other)
  case complete =>
    intro room n id walk near
    rw [length] at room
    rw [keys_expand]
    exact Breadth.expand_complete _ _ _ once inside room (walk_congr (fun a b => (same a b).symm) walk) near

theorem scope_expanded {neighbors : String → List String} {candidates : List (Candidate V)}
    (once : (idsOf candidates).Nodup) (graph : engine.graphProvider = some neighbors)
    (graph_mode : mode = .impact ∨ mode = .drift) :
    Expanded neighbors engine.config (idsOf candidates) (ContextEngine.seeds query mode candidates)
      (engine.scope query mode candidates) := by
  obtain ⟨seeds_once, inside⟩ := @seeds_spec V _ _ _ query mode candidates once
  have expanded := @expand_expanded V engine neighbors _ _ seeds_once inside
  rcases graph_mode with rfl | rfl
  · simp only [ContextEngine.scope, graph]
    exact expanded
  · simp only [ContextEngine.scope, graph]
    exact expanded

/-- A plan accounts for all that is supplied or refuses it for a reason, whatever the order in which it
is supplied; and its expansion over a graph is breadth-first and within the bounds. -/
theorem plan_accounts (engine : ContextEngine V) (query : String) (mode : RetrievalMode)
    (candidates : List (Candidate V)) (tokenBudget : Int) :
    (match engine.plan query candidates mode tokenBudget with
      | .ok packet => 0 ≤ tokenBudget ∧ (∀ id, ¬ Conflict (engine.supplied query candidates mode) id) ∧
          Planned (engine.supplied query candidates mode) tokenBudget packet
      | .error _ => tokenBudget < 0 ∨ (∃ id, Conflict (engine.supplied query candidates mode) id) ∨
          (∃ item ∈ engine.supplied query candidates mode, TooLarge item) ∨
          ∃ item ∈ engine.supplied query candidates mode, ¬ (item.metadata.map Prod.fst).Nodup) ∧
    (∀ candidates' providers', candidates.Perm candidates' → engine.candidateProviders.Perm providers' →
      ContextEngine.plan ⟨engine.config, providers', engine.graphProvider⟩ query candidates' mode tokenBudget =
        engine.plan query candidates mode tokenBudget) ∧
    ∀ neighbors ordered, engine.graphProvider = some neighbors → mode = .impact ∨ mode = .drift →
      uniqueCandidates (engine.supplied query candidates mode) = .ok ordered →
      Expanded neighbors engine.config (idsOf (validOf engine ordered))
        (ContextEngine.seeds query mode (validOf engine ordered))
        (engine.scope query mode (validOf engine ordered)) := by
  refine ⟨plan_spec candidates, fun candidates' providers' perm perm' => ?_, fun neighbors ordered graph graph_mode
    unique => ?_⟩
  · exact plan_congr (supplied_perm perm perm')
  · have spec := uniqueCandidates_spec (engine.supplied query candidates mode)
    rw [unique] at spec
    have once : (idsOf ordered).Nodup := List.pairwise_map.mpr (spec.1.imp ne_of_id_lt)
    exact scope_expanded ((List.filter_sublist.map _).nodup once) graph graph_mode

end Onmc.ContextPlan

namespace Onmc.ContextPlan

/-- Exact numbers, rounded where the planner rounds. -/
@[reducible] def exactFloats : Floats ℚ where
  zero := 0
  add := fun x y => x + y
  sub := fun x y => x - y
  mul := fun x y => x * y
  dividedBy := fun x n => some (x / n)
  ratio := fun m n => m / n
  hundredths := fun n => n / 100
  stableFloat := fun x => (x * 10 ^ 12 + 1 / 2).floor / 10 ^ 12

attribute [local instance] exactFloats Lowercase.ascii

def plain (id content : String) : Candidate ℚ :=
  ⟨id, content, "src/" ++ id ++ ".py", 10, ["git"], 1, 0, 0, 0, none, none, [], none, none, none, none, .trusted⟩

/-- An engine with the default configuration over a graph of two nodes. -/
def pairEngine : ContextEngine ℚ :=
  ⟨⟨1 / 200, 1 / 5, 2, 32, 1 / 5, 0, false⟩, [], some (fun id => if id = "a" then ["b"] else ["a"])⟩

theorem plan_accounts_pair :
    pairEngine.plan "parser" [plain "b" "lexer", plain "a" "parser"] .impact 50 =
      pairEngine.plan "parser" [plain "a" "parser", plain "b" "lexer"] .impact 50 ∧
    Expanded (fun id => if id = "a" then ["b"] else ["a"]) pairEngine.config
      (idsOf (validOf pairEngine [plain "a" "parser", plain "b" "lexer"]))
      (ContextEngine.seeds "parser" .impact (validOf pairEngine [plain "a" "parser", plain "b" "lexer"]))
      (pairEngine.scope "parser" .impact (validOf pairEngine [plain "a" "parser", plain "b" "lexer"])) := by
  have accounts := plan_accounts pairEngine "parser" .impact [plain "a" "parser", plain "b" "lexer"] 50
  refine ⟨accounts.2.1 _ [] (List.Perm.swap _ _ _) List.Perm.nil, accounts.2.2 _ _ rfl (.inl rfl) ?_⟩
  decide +kernel

/-- Two candidates with one id: the plan refuses, and the id ends nowhere. -/
theorem conflicting_refused :
    pairEngine.plan "parser" [plain "a" "parser", plain "a" "lexer"] .global 50 =
      .error "conflicting candidates share id: a" ∧
    ¬ ∃ packet, pairEngine.plan "parser" [plain "a" "parser", plain "a" "lexer"] .global 50 = .ok packet ∧
      Planned [plain "a" "parser", plain "a" "lexer"] 50 packet := by
  have refused : pairEngine.plan "parser" [plain "a" "parser", plain "a" "lexer"] .global 50 =
      .error "conflicting candidates share id: a" := by
    have unique : uniqueCandidates [plain "a" "parser", plain "a" "lexer"] =
        .error "conflicting candidates share id: a" := by decide +kernel
    have supplied : pairEngine.supplied "parser" [plain "a" "parser", plain "a" "lexer"] .global =
        [plain "a" "parser", plain "a" "lexer"] := rfl
    rw [ContextEngine.plan, supplied, unique]
    rfl
  refine ⟨refused, ?_⟩
  rintro ⟨packet, planned, -⟩
  rw [refused] at planned
  cases planned

end Onmc.ContextPlan

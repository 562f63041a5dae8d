import Mathlib.Algebra.Ring.Nat
import Onmc.ContextEngine.Unique
import Onmc.EventLog

/-! What each pass of a plan does with the ids that it is given. -/
namespace Onmc.ContextPlan

section Lists

variable {α κ : Type} [DecidableEq κ]

theorem nodup_eraseDups (l : List κ) : l.eraseDups.Nodup := by
  induction hlen : l.length using Nat.strongRecOn generalizing l with
  | ind n ih =>
    cases l with
    | nil => exact List.nodup_nil
    | cons a rest =>
      rw [List.eraseDups_cons]
      apply List.nodup_cons.mpr
      constructor
      · rw [List.mem_eraseDups, List.mem_filter]
        simp
      · apply ih _ _ _ rfl
        rw [← hlen, List.length_cons]
        exact Nat.lt_succ_of_le (List.length_filter_le _ _)

/-- The groups of a list by a key, one after another, are the list again. -/
theorem perm_groups (f : α → κ) (keys : List κ) (once : keys.Nodup) : ∀ l : List α, (∀ a ∈ l, f a ∈ keys) →
    (keys.flatMap (fun k => l.filter (fun a => f a = k))).Perm l := by
  induction keys with
  | nil =>
    intro l covered
    have empty : l = [] := List.eq_nil_iff_forall_not_mem.mpr (fun a member => by cases covered a member)
    rw [empty]
    exact List.Perm.nil
  | cons k keys ih =>
    intro l covered
    obtain ⟨new, once⟩ := List.nodup_cons.mp once
    have others : keys.flatMap (fun k' => l.filter (fun a => f a = k')) =
        keys.flatMap (fun k' => (l.filter (fun a => !decide (f a = k))).filter (fun a => f a = k')) := by
      apply List.flatMap_congr
      intro k' member
      rw [List.filter_filter]
      apply List.filter_congr
      intro a _
      by_cases same : f a = k'
      · have apart : f a ≠ k := fun equal => new (equal ▸ same ▸ member)
        simp [same, same ▸ apart]
      · simp [same]
    have rest := ih once (l.filter (fun a => !decide (f a = k))) (by
      intro a member
      have apart : f a ≠ k := by simpa using (List.mem_filter.mp member).2
      exact (List.mem_cons.mp (covered a (List.mem_filter.mp member).1)).resolve_left apart)
    rw [List.flatMap_cons, others]
    exact (rest.append_left _).trans (List.filter_append_perm (fun a => f a = k) l)

end Lists

variable {V : Type} [LinearOrder V] [Floats V] [Lowercase] {engine : ContextEngine V} {query : String}
  {mode : RetrievalMode} {candidates : List (Candidate V)} {depthOf : Candidate V → Option Nat}

def idsOf (candidates : List (Candidate V)) : List String := candidates.map Candidate.id

/-! The scope. -/

theorem seeds_perm : ∃ hits, (ContextEngine.seeds query mode candidates).Perm (idsOf hits) ∧
    hits.Sublist candidates := by
  refine ⟨_, List.perm_insertionSort _ _, ?_⟩
  split
  · exact List.filter_sublist.trans List.filter_sublist
  · exact List.filter_sublist

theorem seeds_spec (once : (idsOf candidates).Nodup) :
    (ContextEngine.seeds query mode candidates).Nodup ∧
      ∀ id ∈ ContextEngine.seeds query mode candidates, id ∈ idsOf candidates := by
  obtain ⟨hits, perm, sub⟩ := @seeds_perm V _ _ _ query mode candidates
  refine ⟨perm.nodup_iff.mpr ((sub.map _).nodup once), fun id member => ?_⟩
  exact (sub.map _).subset (perm.mem_iff.mp member)

omit [Lowercase] in
theorem keys_unreached (ids : List String) : Dict.keys (ids.map (fun id => (id, (none : Option Nat)))) = ids := by
  simp [Dict.keys, Function.comp_def]

omit [LinearOrder V] [Floats V] [Lowercase] in
theorem keys_expand (neighbors : String → List String) (seeds ids : List String) :
    Dict.keys (engine.expand neighbors seeds ids) =
      (Breadth.expand ids (fun id => (neighbors id).eraseDups.insertionSort (· ≤ ·)) engine.config.maxGraphDepth
        engine.config.maxGraphNodes seeds).map Prod.fst := by
  simp [Dict.keys, ContextEngine.expand, Function.comp_def]

/-- What is in scope is among the candidates, each once. -/
theorem scope_keys (once : (idsOf candidates).Nodup) :
    (Dict.keys (engine.scope query mode candidates)).Nodup ∧
      ∀ id ∈ Dict.keys (engine.scope query mode candidates), id ∈ idsOf candidates := by
  have seeds := fun mode => @seeds_spec V _ _ _ query mode candidates once
  have expanded : ∀ neighbors mode,
      (Dict.keys (engine.expand neighbors (ContextEngine.seeds query mode candidates) (idsOf candidates))).Nodup ∧
      ∀ id ∈ Dict.keys (engine.expand neighbors (ContextEngine.seeds query mode candidates) (idsOf candidates)),
        id ∈ idsOf candidates := by
    intro neighbors mode
    rw [keys_expand]
    refine ⟨(Breadth.expand_once _ _ _ (seeds mode).1 (seeds mode).2).1, fun id member => ?_⟩
    obtain ⟨e, visited, rfl⟩ := List.mem_map.mp member
    exact (Breadth.expand_distance _ _ _ (seeds mode).1 (seeds mode).2 visited).1
  cases mode with
  | global =>
    simp only [ContextEngine.scope, keys_unreached]
    exact ⟨once, fun id member => member⟩
  | history =>
    simp only [ContextEngine.scope, keys_unreached]
    have sub := @List.filter_sublist _
      (fun item => decide (Floats.zero < lexicalScore query item ∨ Floats.zero < item.historyScore)) candidates
    exact ⟨(sub.map _).nodup once, fun id member => (sub.map _).subset member⟩
  | «local» =>
    simp only [ContextEngine.scope, keys_unreached]
    exact seeds .local
  | impact =>
    simp only [ContextEngine.scope]
    split
    · rw [keys_unreached]
      exact seeds .local
    · exact expanded _ .impact
  | drift =>
    simp only [ContextEngine.scope]
    split
    · rw [keys_unreached]
      exact seeds .local
    · exact expanded _ .drift

/-! The groups. -/

/-- What a group is: candidates with one key, the first of them cited with all the others. -/
structure Group.Of (candidates : List (Candidate V)) (g : Group V) : Prop where
  members : ∀ item ∈ g.winner :: g.duplicates, item ∈ candidates ∧ dedupeKeyOf item = dedupeKeyOf g.winner
  cited : ∀ item ∈ g.winner :: g.duplicates, item.id ∈ g.citations.map Citation.candidateId

omit [LinearOrder V] [Floats V] [Lowercase] in
theorem groupOf_cited {members : List (Candidate V)} {g : Group V} (made : groupOf members = some g) :
    g.winner :: g.duplicates = members ∧ ∀ item ∈ members, item.id ∈ g.citations.map Citation.candidateId := by
  cases members with
  | nil => cases made
  | cons winner duplicates =>
    obtain rfl := Option.some.inj made
    refine ⟨rfl, fun item member => ?_⟩
    have cited := List.mem_map_of_mem (f := citationOf) member
    exact List.mem_map.mpr ⟨citationOf item, (List.mem_insertionSort _).mpr cited, rfl⟩

theorem mem_membersOf {key : String} {item : Candidate V} :
    item ∈ engine.membersOf candidates query mode depthOf key ↔ item ∈ candidates ∧ dedupeKeyOf item = key := by
  simp [ContextEngine.membersOf]

theorem dedupe_of {g : Group V} (member : g ∈ engine.dedupe candidates query mode depthOf) : g.Of candidates := by
  obtain ⟨key, -, made⟩ := List.mem_filterMap.mp member
  obtain ⟨same, cited⟩ := groupOf_cited made
  have winner : dedupeKeyOf g.winner = key :=
    (mem_membersOf.mp (same ▸ List.mem_cons_self : g.winner ∈ engine.membersOf candidates query mode depthOf key)).2
  constructor
  · intro item member
    rw [same] at member
    rw [winner]
    exact mem_membersOf.mp member
  · rw [same]
    exact cited

omit [LinearOrder V] [Floats V] in
/-- The winners have the keys, in order, and so differ in them. -/
theorem groups_keys (members : String → List (Candidate V)) (keys : List String)
    (keyed : ∀ key, ∀ item ∈ members key, dedupeKeyOf item = key) :
    ((keys.filterMap (fun key => groupOf (members key))).map (fun g => dedupeKeyOf g.winner)).Sublist keys := by
  induction keys with
  | nil => exact List.Sublist.refl _
  | cons key keys ih =>
    cases made : groupOf (members key) with
    | none =>
      simp only [List.filterMap_cons, made]
      exact ih.cons key
    | some g =>
      have winner : dedupeKeyOf g.winner = key :=
        keyed key _ ((groupOf_cited made).1 ▸ List.mem_cons_self)
      simp only [List.filterMap_cons, made, List.map_cons, winner]
      exact ih.cons_cons key

omit [LinearOrder V] [Floats V] [Lowercase] in
theorem groups_flatMap (members : String → List (Candidate V)) (keys : List String) :
    (keys.filterMap (fun key => groupOf (members key))).flatMap (fun g => g.winner :: g.duplicates) =
      keys.flatMap members := by
  induction keys with
  | nil => rfl
  | cons key keys ih =>
    cases made : members key with
    | nil =>
      simp only [List.filterMap_cons, made, groupOf, List.flatMap_cons, List.nil_append]
      exact ih
    | cons winner duplicates =>
      simp only [List.filterMap_cons, made, groupOf, List.flatMap_cons]
      exact congrArg (winner :: duplicates ++ ·) ih

omit [LinearOrder V] [Floats V] in
theorem keys_nodup : ((candidates.map dedupeKeyOf).eraseDups.insertionSort (· ≤ ·)).Nodup :=
  (List.perm_insertionSort _ _).nodup_iff.mpr (nodup_eraseDups _)

theorem dedupe_keys :
    ((engine.dedupe candidates query mode depthOf).map (fun g => dedupeKeyOf g.winner)).Nodup := by
  have keyed : ∀ key, ∀ item ∈ engine.membersOf candidates query mode depthOf key, dedupeKeyOf item = key :=
    fun key item member => (mem_membersOf.mp member).2
  exact (groups_keys _ _ keyed).nodup keys_nodup

/-- The winners and their duplicates are the candidates. -/
theorem dedupe_perm : ((engine.dedupe candidates query mode depthOf).flatMap
    (fun g => g.winner :: g.duplicates)).Perm candidates := by
  have covered : ∀ item ∈ candidates,
      dedupeKeyOf item ∈ (candidates.map dedupeKeyOf).eraseDups.insertionSort (· ≤ ·) := by
    intro item member
    rw [List.mem_insertionSort, List.mem_eraseDups]
    exact List.mem_map_of_mem member
  rw [ContextEngine.dedupe, groups_flatMap]
  apply List.Perm.trans _ (perm_groups dedupeKeyOf _ keys_nodup candidates covered)
  apply List.Perm.flatMap_left
  intro key _
  exact List.perm_insertionSort _ _

/-! The ranking. -/

/-- A ranked winner, as its group has it. -/
def Ranked.From (groups : List (Group V)) (depthOf : Candidate V → Option Nat) (r : Ranked V) : Prop :=
  ∃ g ∈ groups, r.candidate = g.winner ∧ r.citations = g.citations ∧ r.depth = depthOf g.winner

/-- The value of a candidate cannot be divided by its cost. -/
def TooLarge (item : Candidate V) : Prop := ∃ score : V, Floats.dividedBy score (max item.tokenCount 1) = none

theorem rank_spec (groups : List (Group V)) :
    match engine.rank query mode depthOf groups with
    | .ok (ranked, exclusions) =>
      (ranked.map (fun r => r.candidate.id) ++ exclusions.map Exclusion.candidateId).Perm
        (groups.map (fun g => g.winner.id)) ∧
      (∀ r ∈ ranked, r.From groups depthOf) ∧ ∀ x ∈ exclusions, x.reason = "below_roi"
    | .error _ => ∃ g ∈ groups, TooLarge g.winner := by
  induction groups with
  | nil => exact ⟨List.Perm.nil, by simp, by simp⟩
  | cons group rest ih =>
    cases worth : Floats.dividedBy (engine.score (ContextEngine.signals group.winner query (depthOf group.winner)) mode)
        (max group.winner.tokenCount 1) with
    | none =>
      simp only [ContextEngine.rank, worth]
      exact ⟨group, List.mem_cons_self, _, worth⟩
    | some roi =>
      simp only [ContextEngine.rank, worth]
      cases later : engine.rank query mode depthOf rest with
      | error e =>
        rw [later] at ih
        obtain ⟨g, member, large⟩ := ih
        exact ⟨g, List.mem_cons_of_mem _ member, large⟩
      | ok found =>
        obtain ⟨ranked, exclusions⟩ := found
        rw [later] at ih
        obtain ⟨perm, from_rest, reasons⟩ := ih
        have from_all : ∀ r ∈ ranked, r.From (group :: rest) depthOf := by
          intro r member
          obtain ⟨g, hg, same⟩ := from_rest r member
          exact ⟨g, List.mem_cons_of_mem _ hg, same⟩
        simp only [Except.ok_bind]
        by_cases low : roi < engine.config.minContextRoi
        · rw [if_pos low]
          refine ⟨?_, from_all, ?_⟩
          · exact List.perm_middle.trans (perm.cons _)
          · intro x member
            rcases List.mem_cons.mp member with rfl | later
            · rfl
            · exact reasons x later
        · rw [if_neg low]
          refine ⟨perm.cons _, ?_, reasons⟩
          intro r member
          rcases List.mem_cons.mp member with rfl | later
          · exact ⟨group, List.mem_cons_self, rfl, rfl, rfl⟩
          · exact from_all r later

/-! The packing. -/

/-- What has been packed of the candidates looked at so far. -/
structure Packing.Of (tokenBudget : Int) (ranked : List (Ranked V)) (p : Packing V) : Prop where
  ids : (p.packed.map Evidence.candidateId ++ p.exclusions.map Exclusion.candidateId).Perm
    (ranked.map (fun r => r.candidate.id))
  made : ∀ e ∈ p.packed, ∃ r ∈ ranked, evidenceOf r = .ok e
  reasons : ∀ x ∈ p.exclusions, x.reason = "token_budget"
  used : p.used = (p.packed.map Evidence.tokenCount).sum
  within : (p.used : Int) ≤ tokenBudget

omit [LinearOrder V] [Lowercase] in
theorem evidenceOf_ok {r : Ranked V} {e : Evidence V} (made : evidenceOf r = .ok e) :
    e.candidateId = r.candidate.id ∧ e.tokenCount = r.candidate.tokenCount ∧ e.content = r.candidate.content ∧
      e.citations = r.citations ∧ e.graphDepth = r.depth := by
  unfold evidenceOf at made
  dsimp only at made
  split at made
  · obtain rfl := Except.ok.inj made
    exact ⟨rfl, rfl, rfl, rfl, rfl⟩
  · cases made

omit [LinearOrder V] [Lowercase] in
theorem pack_spec {tokenBudget : Int} (rest : List (Ranked V)) : ∀ {done : List (Ranked V)} {p : Packing V},
    p.Of tokenBudget done →
    match pack tokenBudget p rest with
    | .ok p' => p'.Of tokenBudget (done ++ rest)
    | .error _ => ∃ r ∈ rest, ¬ (r.candidate.metadata.map Prod.fst).Nodup := by
  induction rest with
  | nil =>
    intro done p h
    rw [List.append_nil]
    exact h
  | cons r rest ih =>
    intro done p h
    have grows : ∀ {q : Packing V}, q.Of tokenBudget (done ++ [r]) →
        match pack tokenBudget q rest with
        | .ok p' => p'.Of tokenBudget (done ++ r :: rest)
        | .error _ => ∃ r' ∈ r :: rest, ¬ (r'.candidate.metadata.map Prod.fst).Nodup := by
      intro q hq
      have later := ih hq
      cases packs : pack tokenBudget q rest with
      | ok p' =>
        rw [packs, List.append_assoc, List.singleton_append] at later
        exact later
      | error e =>
        rw [packs] at later
        obtain ⟨r', member, repeated⟩ := later
        exact ⟨r', List.mem_cons_of_mem _ member, repeated⟩
    by_cases full : tokenBudget < p.used + r.candidate.tokenCount
    · simp only [pack, if_pos full]
      apply grows
      constructor
      case ids =>
        simp only [List.map_append, List.map_cons, List.map_nil, ← List.append_assoc]
        exact h.ids.append_right _
      case made =>
        intro e member
        obtain ⟨r', hr, made⟩ := h.made e member
        exact ⟨r', List.mem_append_left _ hr, made⟩
      case reasons =>
        intro x member
        rcases List.mem_append.mp member with old | new
        · exact h.reasons x old
        · rw [List.mem_singleton.mp new]
      case used => exact h.used
      case within => exact h.within
    · cases made : evidenceOf r with
      | error e =>
        simp only [pack, if_neg full, made]
        refine ⟨r, List.mem_cons_self, fun once => ?_⟩
        simp [evidenceOf, once] at made
      | ok e =>
        obtain ⟨id, cost, -⟩ := evidenceOf_ok made
        simp only [pack, if_neg full, made, Except.ok_bind]
        apply grows
        constructor
        case ids =>
          simp only [List.map_append, List.map_cons, List.map_nil, id, List.append_assoc, List.singleton_append]
          exact List.perm_middle.trans ((h.ids.cons _).trans (List.perm_append_singleton _ _).symm)
        case made =>
          intro e' member
          rcases List.mem_append.mp member with old | new
          · obtain ⟨r', hr, made'⟩ := h.made e' old
            exact ⟨r', List.mem_append_left _ hr, made'⟩
          · rw [List.mem_singleton.mp new]
            exact ⟨r, List.mem_append_right _ (List.mem_singleton_self r), made⟩
        case reasons => exact h.reasons
        case used => simp [h.used, cost]
        case within =>
          have := not_lt.mp full
          push_cast
          exact this

end Onmc.ContextPlan

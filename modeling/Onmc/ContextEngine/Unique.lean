import Onmc.ContextEngine.Planner

/-! The candidates that a plan starts from: one for each id, or the first id in conflict. -/
namespace Onmc.ContextPlan

variable {V : Type} [DecidableEq V]

/-- Two different candidates share the id. -/
def Conflict (supplied : List (Candidate V)) (id : String) : Prop :=
  ∃ c ∈ supplied, ∃ d ∈ supplied, c.id = id ∧ d.id = id ∧ c ≠ d

/-- What holds between the candidates kept and those to come. -/
structure Sorted (unique rest : List (Candidate V)) : Prop where
  strict : unique.Pairwise (fun c d => c.id < d.id)
  above : ∀ c ∈ unique, ∀ d ∈ rest, c.id ≤ d.id
  sorted : rest.Pairwise (fun c d => c.id ≤ d.id)

omit [DecidableEq V] in
theorem Sorted.keep {unique rest : List (Candidate V)} {item : Candidate V} (h : Sorted unique (item :: rest))
    (new : ∀ c ∈ unique, c.id ≠ item.id) : Sorted (unique ++ [item]) rest := by
  have below := (List.pairwise_cons.mp h.sorted).1
  constructor
  · apply List.pairwise_append.mpr
    refine ⟨h.strict, List.pairwise_singleton _ _, ?_⟩
    intro c member d only
    rw [List.mem_singleton.mp only]
    exact Std.lt_of_le_of_ne (h.above c member item List.mem_cons_self) (new c member)
  · intro c member d later
    rcases List.mem_append.mp member with old | only
    · exact h.above c old d (List.mem_cons_of_mem _ later)
    · rw [List.mem_singleton.mp only]
      exact below d later
  · exact (List.pairwise_cons.mp h.sorted).2

omit [DecidableEq V] in
theorem Sorted.skip {unique rest : List (Candidate V)} {item : Candidate V} (h : Sorted unique (item :: rest)) :
    Sorted unique rest :=
  ⟨h.strict, fun c member d later => h.above c member d (List.mem_cons_of_mem _ later),
    (List.pairwise_cons.mp h.sorted).2⟩

omit [DecidableEq V] in
theorem ne_of_id_lt {c d : Candidate V} (less : c.id < d.id) : c.id ≠ d.id :=
  fun equal => Std.lt_irrefl (equal ▸ less)

omit [DecidableEq V] in
theorem eq_of_strict {unique : List (Candidate V)} (strict : unique.Pairwise (fun c d => c.id < d.id))
    {c d : Candidate V} (member : c ∈ unique) (member' : d ∈ unique) (same : c.id = d.id) : c = d := by
  have nodup : (unique.map Candidate.id).Nodup :=
    List.pairwise_map.mpr (strict.imp ne_of_id_lt)
  exact List.inj_on_of_nodup_map nodup member member' same

def conflictMessage (id : String) : String := "conflicting candidates share id: " ++ id

theorem uniqueFrom_spec (rest : List (Candidate V)) : ∀ unique, Sorted unique rest →
    match uniqueFrom unique rest with
    | .ok kept => kept.Pairwise (fun c d => c.id < d.id) ∧ ∀ c, c ∈ kept ↔ c ∈ unique ++ rest
    | .error e => ∃ id, e = conflictMessage id ∧ Conflict (unique ++ rest) id ∧
        ∀ other, Conflict (unique ++ rest) other → id ≤ other := by
  induction rest with
  | nil =>
    intro unique h
    exact ⟨h.strict, fun c => by simp⟩
  | cons item rest ih =>
    intro unique h
    cases found : unique.find? (fun previous => previous.id = item.id) with
    | none =>
      have new : ∀ c ∈ unique, c.id ≠ item.id := by simpa using found
      have spec := ih (unique ++ [item]) (h.keep new)
      rw [List.append_assoc, List.singleton_append] at spec
      simp only [uniqueFrom, found]
      exact spec
    | some previous =>
      have member := List.mem_of_find?_eq_some found
      have same : previous.id = item.id := by simpa using List.find?_some found
      by_cases other : previous ≠ item
      · simp only [uniqueFrom, found, if_pos other]
        refine ⟨item.id, rfl, ⟨previous, ?_, item, ?_, same, rfl, other⟩, ?_⟩
        · exact List.mem_append_left _ member
        · exact List.mem_append_right _ List.mem_cons_self
        · rintro id ⟨c, hc, d, hd, rfl, shared, apart⟩
          by_contra less
          have less := Std.not_le.mp less
          -- What is below the item was kept, and what is kept has one candidate for an id.
          have kept : ∀ b ∈ unique ++ item :: rest, b.id = c.id → b ∈ unique := by
            intro b hb is_c
            rcases List.mem_append.mp hb with old | later
            · exact old
            · exfalso
              have above : item.id ≤ b.id := by
                rcases List.mem_cons.mp later with rfl | later
                · exact Std.le_refl _
                · exact (List.pairwise_cons.mp h.sorted).1 b later
              exact absurd (is_c ▸ above) (Std.not_le.mpr less)
          exact apart (eq_of_strict h.strict (kept c hc rfl) (kept d hd shared) shared.symm)
      · obtain rfl : previous = item := not_not.mp other
        have spec := ih unique h.skip
        have members : ∀ c, c ∈ unique ++ previous :: rest ↔ c ∈ unique ++ rest := by
          intro c
          constructor
          · intro hc
            rcases List.mem_append.mp hc with old | later
            · exact List.mem_append_left _ old
            · rcases List.mem_cons.mp later with rfl | later
              · exact List.mem_append_left _ member
              · exact List.mem_append_right _ later
          · intro hc
            rcases List.mem_append.mp hc with old | later
            · exact List.mem_append_left _ old
            · exact List.mem_append_right _ (List.mem_cons_of_mem _ later)
        have conflicts : ∀ id, Conflict (unique ++ previous :: rest) id ↔ Conflict (unique ++ rest) id := by
          intro id
          simp only [Conflict, members]
        simp only [uniqueFrom, found, if_neg other]
        cases result : uniqueFrom unique rest with
        | ok kept =>
          rw [result] at spec
          exact ⟨spec.1, fun c => (spec.2 c).trans (members c).symm⟩
        | error e =>
          rw [result] at spec
          simp only [conflicts]
          exact spec

omit [DecidableEq V] in
theorem sorted_start (supplied : List (Candidate V)) :
    Sorted [] (supplied.insertionSort (fun item other => candidateOrder item ≤ candidateOrder other)) := by
  refine ⟨List.Pairwise.nil, fun c member => (by cases member), ?_⟩
  have total : Std.Total (fun item other : Candidate V => candidateOrder item ≤ candidateOrder other) :=
    ⟨fun _ _ => Std.le_total⟩
  have trans : IsTrans (Candidate V) (fun item other => candidateOrder item ≤ candidateOrder other) :=
    ⟨fun _ _ _ => Std.le_trans⟩
  apply (List.pairwise_insertionSort _ supplied).imp
  intro c d le
  by_contra above
  have less : candidateOrder d < candidateOrder c := List.Lex.rel (not_le.mp above)
  exact absurd le (not_le.mpr less)

/-- The unique candidates are those supplied, by their ids, unless there is a conflict. -/
theorem uniqueCandidates_spec (supplied : List (Candidate V)) :
    match uniqueCandidates supplied with
    | .ok kept => kept.Pairwise (fun c d => c.id < d.id) ∧ ∀ c, c ∈ kept ↔ c ∈ supplied
    | .error e => ∃ id, e = conflictMessage id ∧ Conflict supplied id ∧
        ∀ other, Conflict supplied other → id ≤ other := by
  have spec := uniqueFrom_spec _ [] (sorted_start supplied)
  have members : ∀ c, c ∈ supplied.insertionSort (fun item other => candidateOrder item ≤ candidateOrder other) ↔
      c ∈ supplied := fun c => List.mem_insertionSort _
  simp only [List.nil_append, Conflict, members] at spec
  exact spec

/-- Only what is supplied matters, not its order. -/
theorem uniqueCandidates_congr {supplied supplied' : List (Candidate V)}
    (same : ∀ c, c ∈ supplied ↔ c ∈ supplied') : uniqueCandidates supplied = uniqueCandidates supplied' := by
  have spec := uniqueCandidates_spec supplied
  have spec' := uniqueCandidates_spec supplied'
  have conflicts : ∀ id, Conflict supplied id ↔ Conflict supplied' id := by
    intro id
    simp only [Conflict, same]
  have clear : ∀ {kept : List (Candidate V)} {all : List (Candidate V)} {id : String},
      kept.Pairwise (fun c d => c.id < d.id) → (∀ c, c ∈ kept ↔ c ∈ all) → ¬ Conflict all id := by
    rintro kept all id strict members ⟨c, hc, d, hd, rfl, shared, apart⟩
    exact apart (eq_of_strict strict ((members c).mpr hc) ((members d).mpr hd) shared.symm)
  cases result : uniqueCandidates supplied with
  | ok kept =>
    rw [result] at spec
    cases result' : uniqueCandidates supplied' with
    | ok kept' =>
      rw [result'] at spec'
      have nodup : ∀ {l : List (Candidate V)}, l.Pairwise (fun c d => c.id < d.id) → l.Nodup :=
        fun strict => strict.imp (fun less => ne_of_apply_ne Candidate.id (ne_of_id_lt less))
      have perm := (List.perm_ext_iff_of_nodup (nodup spec.1) (nodup spec'.1)).mpr
        (fun c => (spec.2 c).trans ((same c).trans (spec'.2 c).symm))
      congr 1
      exact perm.eq_of_pairwise (fun c d _ _ less more => absurd (Std.lt_trans less more) Std.lt_irrefl) spec.1 spec'.1
    | error e =>
      rw [result'] at spec'
      obtain ⟨id, -, conflict, -⟩ := spec'
      exact absurd ((conflicts id).mpr conflict) (clear spec.1 spec.2)
  | error e =>
    rw [result] at spec
    obtain ⟨id, rfl, conflict, least⟩ := spec
    cases result' : uniqueCandidates supplied' with
    | ok kept' =>
      rw [result'] at spec'
      exact absurd ((conflicts id).mp conflict) (clear spec'.1 spec'.2)
    | error e' =>
      rw [result'] at spec'
      obtain ⟨id', rfl, conflict', least'⟩ := spec'
      rw [Std.le_antisymm (least id' ((conflicts id').mpr conflict')) (least' id ((conflicts id).mp conflict))]

end Onmc.ContextPlan

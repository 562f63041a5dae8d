import Onmc.Verifier.Mutation

/-! A mutation campaign: which mutants are run, and how each of them is graded. -/
namespace Onmc.Verifier.Mutation

/-- `random.Random(seed).sample(population, k)` -/
abbrev Sample : Type := Int → List Mutant → Nat → List Mutant

/-- Sampling draws `k` of the population, each of them at most once. -/
def Draws (sample : Sample) : Prop :=
  ∀ seed population k, k ≤ population.length →
    (sample seed population k).length = k ∧ (sample seed population k).Subperm population

/-- `_select` -/
def select (sample : Sample) (mutants : List Mutant) (limit : Option Int) (seed : Int) : List Mutant :=
  match limit with
  | none => mutants
  | some limit =>
    if (mutants.length : Int) ≤ limit then mutants
    else if limit ≤ 0 then []
    else
      let ordered := mutants.insertionSort (fun a b => a.mutantId ≤ b.mutantId)
      let chosenIds := (sample seed ordered limit.toNat).map Mutant.mutantId
      mutants.filter (fun m => m.mutantId ∈ chosenIds)

structure MutationReport where
  total : Nat
  killed : List String
  survived : List Mutant
  errored : List String

/-- One turn of the loop of `run_mutation_campaign`. -/
def grade (runner : Mutant → ProofGraph.Outcome) (report : MutationReport) (m : Mutant) : MutationReport :=
  match runner m with
  | .failed => { report with killed := report.killed ++ [m.mutantId] }
  | .passed => { report with survived := report.survived ++ [m] }
  | .skipped | .error => { report with errored := report.errored ++ [m.mutantId] }

def runMutationCampaign [Decimals] [ToolBroker.WordChars] (sample : Sample) (fn : FunctionUnderTest)
    (runner : Mutant → ProofGraph.Outcome) (limit : Option Int) (seed : Int) : MutationReport :=
  let mutants := select sample (generateMutants fn) limit seed
  mutants.foldl (grade runner) ⟨mutants.length, [], [], []⟩

/-- Drawing by ids leaves as many as were drawn. -/
theorem length_chosen {mutants chosen : List Mutant} (distinct : (mutants.map Mutant.mutantId).Nodup)
    (drawn : chosen.Subperm mutants) :
    (mutants.filter (fun m => m.mutantId ∈ chosen.map Mutant.mutantId)).length = chosen.length := by
  have ids : (chosen.map Mutant.mutantId).Nodup := by
    obtain ⟨part, perm, sub⟩ := drawn
    exact (perm.map _).nodup_iff.mp (distinct.sublist (sub.map _))
  have kept : ((mutants.filter (fun m => m.mutantId ∈ chosen.map Mutant.mutantId)).map Mutant.mutantId).Nodup :=
    distinct.sublist (List.filter_sublist.map _)
  have same := (List.perm_ext_iff_of_nodup kept ids).mpr (fun id => by
    constructor
    · intro member
      obtain ⟨m, among, rfl⟩ := List.mem_map.mp member
      exact of_decide_eq_true (List.mem_filter.mp among).2
    · intro member
      obtain ⟨m, among, rfl⟩ := List.mem_map.mp member
      exact List.mem_map_of_mem (List.mem_filter.mpr ⟨drawn.subset among, decide_eq_true member⟩))
  have lengths := same.length_eq
  rwa [List.length_map, List.length_map] at lengths

/-- The mutants that were drawn are as many as were asked for. -/
theorem select_length {sample : Sample} (draws : Draws sample) {mutants : List Mutant}
    (distinct : (mutants.map Mutant.mutantId).Nodup) (limit : Option Int) (seed : Int) :
    ((select sample mutants limit seed).length : Int) =
      limit.elim (mutants.length : Int) (fun limit => max 0 (min limit mutants.length)) := by
  cases limit with
  | none => rfl
  | some limit =>
    rw [select, Option.elim_some]
    split
    · omega
    · split
      · rw [List.length_nil]
        omega
      · have perm := List.perm_insertionSort (fun a b : Mutant => a.mutantId ≤ b.mutantId) mutants
        obtain ⟨size, drawn⟩ := draws seed (mutants.insertionSort (fun a b => a.mutantId ≤ b.mutantId)) limit.toNat
          (by rw [perm.length_eq]; omega)
        have count := length_chosen distinct (drawn.trans perm.subperm)
        rw [size] at count
        simp only [count]
        omega

theorem select_sublist (sample : Sample) (mutants : List Mutant) (limit : Option Int) (seed : Int) :
    (select sample mutants limit seed).Sublist mutants := by
  cases limit with
  | none => exact List.Sublist.refl mutants
  | some limit =>
    rw [select]
    split
    · exact List.Sublist.refl mutants
    · split
      · exact List.nil_sublist mutants
      · exact List.filter_sublist

/-- Each mutant is graded once. -/
theorem grade_counts (runner : Mutant → ProofGraph.Outcome) (mutants : List Mutant) (report : MutationReport) :
    let graded := mutants.foldl (grade runner) report
    graded.total = report.total ∧ graded.killed.length + graded.survived.length + graded.errored.length =
      report.killed.length + report.survived.length + report.errored.length + mutants.length := by
  induction mutants generalizing report with
  | nil => exact ⟨rfl, rfl⟩
  | cons m mutants ih =>
    obtain ⟨total, count⟩ := ih (grade runner report m)
    have one : (grade runner report m).total = report.total ∧
        (grade runner report m).killed.length + (grade runner report m).survived.length +
          (grade runner report m).errored.length =
        report.killed.length + report.survived.length + report.errored.length + 1 := by
      rw [grade]
      split <;> simp only [List.length_append, List.length_singleton, true_and] <;> omega
    refine ⟨total.trans one.1, ?_⟩
    rw [List.foldl_cons, count, one.2, List.length_cons]
    omega

/-- The lines of the mutated source are those of the source but for the one that the mutant names. -/
def OneLine (source : String) (m : Mutant) : Prop :=
  (PyText.split '\n' m.mutated).length = (PyText.split '\n' source).length ∧ 1 ≤ m.lineno ∧
    (PyText.split '\n' source)[m.lineno - 1]? = some m.original ∧
    ∀ j, (PyText.split '\n' m.mutated)[j]? ≠ (PyText.split '\n' source)[j]? ↔ j + 1 = m.lineno

theorem OfLine.oneLine {source : String} {m : Mutant} (ofLine : OfLine (source.toList.splitOn '\n') m) :
    OneLine source m := by
  obtain ⟨index, line, edited, here, lineno, original, other, single, mutated⟩ := ofLine
  have pieces : m.mutated.toList.splitOn '\n' = (source.toList.splitOn '\n').set index edited := by
    rw [mutated, replaceLine, String.toList_ofList]
    refine List.splitOn_intercalate '\n' ?_ ?_
    · intro piece member
      rcases List.mem_or_eq_of_mem_set member with old | rfl
      · exact Separated.not_mem_of_mem_splitOn old
      · exact single
    · rw [ne_eq, List.set_eq_nil_iff]
      exact List.splitOn_ne_nil '\n' source.toList
  refine ⟨?_, ?_, ?_, ?_⟩
  · rw [PyText.split, PyText.split, pieces, List.length_map, List.length_map, List.length_set]
  · rw [lineno]
    exact Nat.le_add_left 1 index
  · rw [lineno, Nat.add_sub_cancel, PyText.split, List.getElem?_map, here, original]
    rfl
  · intro j
    rw [PyText.split, PyText.split, pieces, List.getElem?_map, List.getElem?_map, lineno, Nat.add_right_cancel_iff]
    by_cases same : j = index
    · subst same
      have within : j < (source.toList.splitOn '\n').length := (List.getElem?_eq_some_iff.mp here).1
      rw [List.getElem?_set_self within, here]
      simp only [Option.map_some, ne_eq, Option.some.injEq, String.ofList_inj, other, not_false_eq_true]
    · rw [List.getElem?_set_ne (fun h => same h.symm)]
      simp only [ne_eq, not_true_eq_false, same]

/-- Every mutant differs from the source in the line that it names and in no other, no two have the same id, as many
are run as were asked for, each once and in the order of their lines, and each of these is killed, survives or
errs. -/
theorem runMutationCampaign_sound [Decimals] [ToolBroker.WordChars] {sample : Sample} (draws : Draws sample)
    (fn : FunctionUnderTest) (limit : Option Int) (seed : Int) (runner : Mutant → ProofGraph.Outcome) :
    (∀ m ∈ generateMutants fn, OneLine fn.source m) ∧
    ((generateMutants fn).map Mutant.mutantId).Nodup ∧
    ((select sample (generateMutants fn) limit seed).length : Int) =
      limit.elim ((generateMutants fn).length : Int) (fun limit => max 0 (min limit (generateMutants fn).length)) ∧
    (select sample (generateMutants fn) limit seed).Sublist (generateMutants fn) ∧
    (select sample (generateMutants fn) limit seed).Nodup ∧
    (select sample (generateMutants fn) limit seed).Pairwise (fun a b => a.lineno ≤ b.lineno) ∧
    (runMutationCampaign sample fn runner limit seed).total = (select sample (generateMutants fn) limit seed).length ∧
    (runMutationCampaign sample fn runner limit seed).killed.length +
        (runMutationCampaign sample fn runner limit seed).survived.length +
        (runMutationCampaign sample fn runner limit seed).errored.length =
      (runMutationCampaign sample fn runner limit seed).total := by
  have sound := sound_lines fn (fn.source.toList.splitOn '\n') (fun line member => Separated.not_mem_of_mem_splitOn member)
  have chosen := select_sublist sample (generateMutants fn) limit seed
  refine ⟨fun m member => (sound.placed m member).oneLine, sound.distinct, select_length draws sound.distinct limit seed,
    chosen, sound.distinct.of_map.sublist chosen, sound.ordered.sublist chosen, ?_⟩
  obtain ⟨total, counts⟩ := grade_counts runner (select sample (generateMutants fn) limit seed)
    ⟨(select sample (generateMutants fn) limit seed).length, [], [], []⟩
  refine ⟨total, counts.trans ?_⟩
  simp only [List.length_nil, Nat.zero_add]
  exact total.symm

section Runs

attribute [local instance] Decimals.ascii ToolBroker.WordChars.ascii

def increment : FunctionUnderTest := ⟨"increment", "x = 1", by decide⟩

/-- One of the two mutants of `x = 1`, as it is drawn with the seed 0. -/
def second : Sample := fun _ population k => (population.drop (population.length - k)).take k

theorem draws_second : Draws second := by
  intro seed population k enough
  refine ⟨?_, ?_⟩
  · rw [second, List.length_take, List.length_drop]
    omega
  · exact ((List.take_sublist _ _).trans (List.drop_sublist _ _)).subperm

theorem runMutationCampaign_one : (select second (generateMutants increment) (some 1) 0).length = 1 := by
  have length := (runMutationCampaign_sound draws_second increment (some 1) 0 (fun _ => .passed)).2.2.1
  have two : (generateMutants increment).length = 2 := by decide +kernel
  rw [two, Option.elim_some] at length
  omega

/-- A negative limit is no count. -/
theorem select_negative : ¬((select second (generateMutants increment) (some (-1)) 0).length : Int) =
    min (-1 : Int) (generateMutants increment).length := by
  have two : (generateMutants increment).length = 2 := by decide +kernel
  have none : select second (generateMutants increment) (some (-1)) 0 = [] := by
    rw [select, two]
    rfl
  rw [none, two]
  decide

end Runs

end Onmc.Verifier.Mutation

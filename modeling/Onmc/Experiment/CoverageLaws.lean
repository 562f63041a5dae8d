import Mathlib.Tactic.Linarith
import Mathlib.Tactic.FieldSimp
import Onmc.EventLog
import Onmc.Experiment.Coverage
import Onmc.Quota

/-! What the coverage gate accepts, and what it asks of a portfolio. -/
namespace Onmc.Experiment

/-! Counters. -/

theorem total_ones (key : String) (items : List String) :
    Tally.total key (items.map (fun item => (item, 1))) = items.count key := by
  induction items with
  | nil => rfl
  | cons item items ih =>
    rw [List.map_cons, Tally.total_cons, ih, List.count_cons, Nat.add_comm]
    simp

theorem mem_counter {items : List String} {item : String × ℕ} :
    item ∈ counter items ↔ item.1 ∈ items ∧ item.2 = items.count item.1 := by
  rw [counter, Tally.mem_tally, total_ones]
  simp

theorem nodup_keys_counter (items : List String) : (Dict.keys (counter items)).Nodup := Tally.nodup_keys _

theorem lookup_counter (items : List String) (key : String) : ((counter items).lookup key).getD 0 = items.count key := by
  rw [counter, Tally.tally, Tally.lookup_foldl, total_ones]
  simp

theorem length_counter (items : List String) : (counter items).length = items.toFinset.card := by
  have keys : (Dict.keys (counter items)).toFinset = items.toFinset := by
    ext key
    rw [List.mem_toFinset, List.mem_toFinset, counter, Tally.mem_keys]
    simp
  rw [← keys, List.toFinset_card_of_nodup (nodup_keys_counter items), Dict.keys, List.length_map]

theorem sortedItems_perm (counts : List (String × ℕ)) : (sortedItems counts).Perm counts := List.perm_insertionSort _ _

theorem lookup_sortedItems {counts : List (String × ℕ)} (once : (Dict.keys counts).Nodup) (key : String) :
    (sortedItems counts).lookup key = counts.lookup key :=
  Dict.lookup_perm once (sortedItems_perm counts).symm key

/-- The greatest count, whatever breaks the ties. -/
theorem argmax_counter {β : Type} [LinearOrder β] {items : List String} (some : items ≠ []) {counts : List (String × ℕ)}
    (perm : counts.Perm (counter items)) {key : String × ℕ → β} (mono : ∀ a b, key a ≤ key b → a.2 ≤ b.2) :
    (∀ item, items.count item ≤ ((counts.argmax key).getD ("", 0)).2) ∧
      ∃ item ∈ items, ((counts.argmax key).getD ("", 0)) = (item, items.count item) := by
  obtain ⟨first, held⟩ := List.exists_mem_of_ne_nil items some
  have known : (first, items.count first) ∈ counts := perm.mem_iff.mpr (mem_counter.mpr ⟨held, rfl⟩)
  cases greatest : counts.argmax key with
  | none => rw [List.argmax_eq_none.mp greatest] at known; cases known
  | some best =>
    obtain ⟨member, amount⟩ := mem_counter.mp (perm.mem_iff.mp (List.argmax_mem greatest))
    refine ⟨fun item => ?_, best.1, member, Prod.ext rfl amount⟩
    by_cases present : item ∈ items
    · have listed : (item, items.count item) ∈ counts := perm.mem_iff.mpr (mem_counter.mpr ⟨present, rfl⟩)
      exact mono _ _ (List.le_of_mem_argmax listed greatest)
    · rw [List.count_eq_zero_of_not_mem present]
      exact Nat.zero_le _

/-! Checks. -/

theorem nonEmptyString_ok {value path v : String} :
    nonEmptyString value path = .ok v ↔ v = value ∧ PyText.strip value ≠ "" := by
  unfold nonEmptyString
  by_cases blank : PyText.strip value = ""
  · simp [blank]
  · simp [blank, eq_comm]

theorem positiveInt_ok {value v : ℕ} {path : String} : positiveInt value path = .ok v ↔ v = value ∧ 1 ≤ value := by
  unfold positiveInt
  split
  · simp only [reduceCtorEq, false_iff]
    omega
  · rw [Except.ok.injEq]
    omega

theorem fraction_ok {value v : ℚ} {path : String} :
    fraction value path = .ok v ↔ v = value ∧ 0 < value ∧ value ≤ 1 := by
  unfold fraction
  by_cases inside : 0 < value ∧ value ≤ 1
  · simp [inside, eq_comm]
  · simp [inside]

theorem intMapping_ok {mapping : List (String × ℕ)} {path : String} {m : List (String × ℕ)} :
    intMapping mapping path = .ok m ↔ m = mapping ∧ ∀ item ∈ mapping, PyText.strip item.1 ≠ "" ∧ 1 ≤ item.2 := by
  apply Except.mapM_checked
  intro item other
  by_cases blank : PyText.strip item.1 = ""
  · simp [blank]
  · by_cases zero : item.2 < 1
    · simp [blank, zero]
    · have positive : 1 ≤ item.2 := by omega
      simp [blank, zero, positive, eq_comm]

/-- Requirements that pass their checks. -/
structure Requirements.Valid (req : Requirements) : Prop where
  minRepos : 1 ≤ req.minRepos
  minTaskKinds : 1 ≤ req.minTaskKinds
  kindFraction : 0 < req.maxKindFraction ∧ req.maxKindFraction ≤ 1
  repoFraction : 0 < req.maxRepoFraction ∧ req.maxRepoFraction ≤ 1
  minimums : ∀ item ∈ req.kindMinimums, PyText.strip item.1 ≠ "" ∧ 1 ≤ item.2

/-- Tasks that pass their checks. -/
def Named (tasks : List Task) : Prop :=
  ∀ task ∈ tasks, PyText.strip task.taskKind ≠ "" ∧ PyText.strip task.repoName ≠ ""

theorem checkRequirements_ok {req : Requirements} {m : List (String × ℕ)} :
    checkRequirements req = .ok m ↔ m = req.kindMinimums ∧ req.Valid := by
  simp only [checkRequirements, Except.bind_ok, positiveInt_ok, fraction_ok, intMapping_ok]
  constructor
  · rintro ⟨_, ⟨-, r⟩, _, ⟨-, k⟩, _, ⟨-, kf⟩, _, ⟨-, rf⟩, rfl, minimums⟩
    exact ⟨rfl, r, k, kf, rf, minimums⟩
  · rintro ⟨rfl, r, k, kf, rf, minimums⟩
    exact ⟨_, ⟨rfl, r⟩, _, ⟨rfl, k⟩, _, ⟨rfl, kf⟩, _, ⟨rfl, rf⟩, rfl, minimums⟩

theorem checkTask_ok (task t : Task) :
    checkTask task = .ok t ↔ t = task ∧ PyText.strip task.taskKind ≠ "" ∧ PyText.strip task.repoName ≠ "" := by
  simp only [checkTask, Except.bind_ok, nonEmptyString_ok, pure, Except.pure, Except.ok.injEq]
  constructor
  · rintro ⟨_, ⟨-, kind⟩, _, ⟨-, repo⟩, rfl⟩
    exact ⟨rfl, kind, repo⟩
  · rintro ⟨rfl, kind, repo⟩
    exact ⟨_, ⟨rfl, kind⟩, _, ⟨rfl, repo⟩, rfl⟩

/-- What is accepted, and what it gives. -/
theorem gate_ok {req : Requirements} {tasks : List Task} {g : PortfolioCoverageGate} :
    gatePortfolioCoverage req tasks = .ok g ↔
      g = gateOf req req.kindMinimums tasks ∧ req.Valid ∧ tasks ≠ [] ∧ Named tasks := by
  simp only [gatePortfolioCoverage, Except.bind_ok, checkRequirements_ok]
  constructor
  · rintro ⟨_, ⟨rfl, valid⟩, h⟩
    split at h
    · cases h
    · rename_i some
      obtain ⟨_, checked, made⟩ := Except.bind_ok.mp h
      obtain ⟨rfl, named⟩ := (Except.mapM_checked checkTask_ok).mp checked
      exact ⟨(Except.ok.inj made).symm, valid, by simpa using some, named⟩
  · rintro ⟨rfl, valid, some, named⟩
    refine ⟨_, ⟨rfl, valid⟩, ?_⟩
    have nonempty : tasks.isEmpty = false := by simpa using some
    simp only [nonempty, Bool.false_eq_true, if_false]
    exact Except.bind_ok.mpr ⟨tasks, (Except.mapM_checked checkTask_ok).mpr ⟨rfl, named⟩, rfl⟩

/-! The gate in plain terms. -/

/-- No label has more than its share. -/
def Balanced (fraction : ℚ) (labels : List String) : Prop :=
  ∀ label, (labels.count label : ℚ) ≤ fraction * labels.length

theorem share_le_iff {fraction : ℚ} {labels : List String} (some : labels ≠ []) :
    share (mostCommon (counter labels)).2 labels.length ≤ fraction ↔ Balanced fraction labels := by
  obtain ⟨above, label, -, greatest⟩ : (∀ item, labels.count item ≤ (mostCommon (counter labels)).2) ∧
      ∃ item ∈ labels, mostCommon (counter labels) = (item, labels.count item) :=
    argmax_counter some (.refl _) (fun _ _ h => h)
  have positive : (0 : ℚ) < labels.length := by exact_mod_cast List.length_pos_iff.mpr some
  rw [share, div_le_iff₀ positive]
  constructor
  · intro h other
    have below : (labels.count other : ℚ) ≤ (mostCommon (counter labels)).2 := by exact_mod_cast above other
    exact below.trans h
  · intro balanced
    have same : (mostCommon (counter labels)).2 = labels.count label := congrArg Prod.snd greatest
    rw [same]
    exact balanced label

theorem shortKinds_isEmpty {minimums : List (String × ℕ)} {labels : List String} :
    (shortKinds minimums (counter labels)).isEmpty ↔ Quota.Met minimums labels := by
  simp only [shortKinds, List.isEmpty_map, List.isEmpty_iff, List.filter_eq_nil_iff, lookup_counter, Quota.Met,
    decide_eq_true_eq, not_lt]

/-- What the gate asks of a portfolio, its metadata aside. -/
structure Covered (req : Requirements) (tasks : List Task) : Prop where
  kindCount : req.minTaskKinds ≤ (kinds tasks).toFinset.card
  minimums : Quota.Met req.kindMinimums (kinds tasks)
  repoCount : req.minRepos ≤ (repos tasks).toFinset.card
  kindShare : Balanced req.maxKindFraction (kinds tasks)
  repoShare : Balanced req.maxRepoFraction (repos tasks)

theorem gateOf_ready {req : Requirements} {tasks : List Task} (some : tasks ≠ []) :
    ((gateOf req req.kindMinimums tasks).taskKindCoverageReady ∧ (gateOf req req.kindMinimums tasks).repoCoverageReady ∧
      (gateOf req req.kindMinimums tasks).balanceReady) ↔ Covered req tasks := by
  have kindsSome : kinds tasks ≠ [] := by simpa [kinds] using some
  have reposSome : repos tasks ≠ [] := by simpa [repos] using some
  have kindBalance := @share_le_iff req.maxKindFraction _ kindsSome
  have repoBalance := @share_le_iff req.maxRepoFraction _ reposSome
  rw [kinds, List.length_map] at kindBalance
  rw [repos, List.length_map] at repoBalance
  simp only [gateOf, length_counter, Bool.and_eq_true, decide_eq_true_eq, shortKinds_isEmpty]
  constructor
  · rintro ⟨⟨kindCount, minimums⟩, repoCount, kindShare, repoShare⟩
    exact ⟨kindCount, minimums, repoCount, kindBalance.mp kindShare, repoBalance.mp repoShare⟩
  · intro covered
    exact ⟨⟨covered.kindCount, covered.minimums⟩, covered.repoCount, kindBalance.mpr covered.kindShare,
      repoBalance.mpr covered.repoShare⟩

end Onmc.Experiment

import Onmc.Experiment.CoverageLaws

/-! How many tasks the plan asks for, and when that many are enough. -/
namespace Onmc.Experiment

/-! The plan in plain terms. -/

theorem roomFor_le {count current n : ℕ} {fraction : ℚ} (positive : 0 < fraction) :
    roomFor count fraction current ≤ n ↔ (count : ℚ) ≤ fraction * (current + n : ℕ) := by
  rw [roomFor, Int.toNat_le, Int.ceil_le, sub_le_iff_le_add, div_le_iff₀ positive, mul_comm]
  push_cast
  rw [add_comm (n : ℚ)]

theorem need_perm {minimums others : List (String × ℕ)} (perm : minimums.Perm others) (labels : List String) :
    Quota.need minimums labels = Quota.need others labels :=
  (((perm.map _).filter _).map Prod.snd).sum_eq

theorem kindDeficits_eq {minimums counts : List (String × ℕ)} {labels : List String}
    (same : ∀ key, (counts.lookup key).getD 0 = labels.count key) :
    kindDeficits minimums counts = Quota.deficits minimums labels := by
  simp only [kindDeficits, same, Quota.deficits]

/-- What the plan reads of a gate. -/
def inputOf (req : Requirements) (minTasksRequired : ℕ) (tasks : List Task) : PlanInput :=
  ⟨tasks.length, minTasksRequired, sortedItems (counter (kinds tasks)), sortedItems (counter (repos tasks)),
    sortedItems req.kindMinimums, req.minRepos, req.maxKindFraction, req.maxRepoFraction⟩

section

variable {req : Requirements} {tasks : List Task} {minTasksRequired : ℕ}

theorem counter_checked {labels : List String} (named : ∀ label ∈ labels, PyText.strip label ≠ "") :
    ∀ item ∈ sortedItems (counter labels), PyText.strip item.1 ≠ "" ∧ 1 ≤ item.2 := by
  intro item member
  obtain ⟨held, amount⟩ := mem_counter.mp ((sortedItems_perm _).mem_iff.mp member)
  refine ⟨named item.1 held, ?_⟩
  rw [amount]
  exact List.count_pos_iff.mpr held

/-- A gate passes every check of the plan. -/
theorem plan_ok (valid : req.Valid) (some : tasks ≠ []) (named : Named tasks) {p : PortfolioExpansionPlan} :
    planPortfolioExpansion minTasksRequired (gateOf req req.kindMinimums tasks) = .ok p ↔
      1 ≤ minTasksRequired ∧ p = planOf (inputOf req minTasksRequired tasks) := by
  have kindNames : ∀ label ∈ kinds tasks, PyText.strip label ≠ "" := by
    intro label member
    obtain ⟨task, held, rfl⟩ := List.mem_map.mp member
    exact (named task held).1
  have repoNames : ∀ label ∈ repos tasks, PyText.strip label ≠ "" := by
    intro label member
    obtain ⟨task, held, rfl⟩ := List.mem_map.mp member
    exact (named task held).2
  have minimums : ∀ item ∈ sortedItems req.kindMinimums, PyText.strip item.1 ≠ "" ∧ 1 ≤ item.2 :=
    fun item member => valid.minimums item ((sortedItems_perm _).mem_iff.mp member)
  simp only [planPortfolioExpansion, readInput, Except.bind_ok, positiveInt_ok, intMapping_ok, fraction_ok, pure,
    Except.pure, Except.ok.injEq]
  constructor
  · rintro ⟨input, ⟨_, ⟨rfl, -⟩, _, ⟨rfl, required⟩, _, ⟨rfl, -⟩, _, ⟨rfl, -⟩, _, ⟨rfl, -⟩, _, ⟨rfl, -⟩, _, ⟨rfl, -⟩, _,
      ⟨rfl, -⟩, rfl⟩, rfl⟩
    exact ⟨required, rfl⟩
  · rintro ⟨required, rfl⟩
    exact ⟨inputOf req minTasksRequired tasks, ⟨_, ⟨rfl, List.length_pos_iff.mpr some⟩, _, ⟨rfl, required⟩,
      _, ⟨rfl, counter_checked kindNames⟩, _, ⟨rfl, counter_checked repoNames⟩, _, ⟨rfl, minimums⟩,
      _, ⟨rfl, valid.minRepos⟩, _, ⟨rfl, valid.kindFraction⟩, _, ⟨rfl, valid.repoFraction⟩, rfl⟩, rfl⟩

/-- The sizes that a portfolio must have at least: the sample, the missing tasks of each kind, the
shares of what is there, and the missing repositories. -/
structure Roomy (req : Requirements) (minTasksRequired : ℕ) (tasks : List Task) (size : ℕ) : Prop where
  sample : minTasksRequired ≤ size
  deficits : tasks.length + Quota.need req.kindMinimums (kinds tasks) ≤ size
  kindShare : ∀ kind, ((kinds tasks).count kind : ℚ) ≤ req.maxKindFraction * size
  newRepos : tasks.length + (req.minRepos - (repos tasks).toFinset.card) ≤ size
  repoShare : ∀ repo, ((repos tasks).count repo : ℚ) ≤ req.maxRepoFraction * size

theorem largest_le {labels : List String} {largest : ℕ}
    (greatest : (∀ label, labels.count label ≤ largest) ∧ ∃ label ∈ labels, largest = labels.count label)
    {fraction : ℚ} {size : ℕ} :
    (largest : ℚ) ≤ fraction * size ↔ ∀ label, (labels.count label : ℚ) ≤ fraction * size := by
  obtain ⟨above, label, -, same⟩ := greatest
  constructor
  · intro h other
    have below : (labels.count other : ℚ) ≤ largest := by exact_mod_cast above other
    exact below.trans h
  · intro all
    rw [same]
    exact all label

/-- The greatest of the repositories' counts. -/
theorem largestRepo_greatest {labels : List String} (some : labels ≠ []) :
    (∀ label, labels.count label ≤ ((((sortedItems (counter labels)).map Prod.snd).argmax id).getD 0)) ∧
      ∃ label ∈ labels, (((sortedItems (counter labels)).map Prod.snd).argmax id).getD 0 = labels.count label := by
  have listed (label : String) (held : label ∈ labels) :
      labels.count label ∈ (sortedItems (counter labels)).map Prod.snd :=
    List.mem_map_of_mem ((sortedItems_perm _).mem_iff.mpr (mem_counter.mpr ⟨held, rfl⟩) :
      (label, labels.count label) ∈ sortedItems (counter labels))
  obtain ⟨first, held⟩ := List.exists_mem_of_ne_nil labels some
  cases greatest : ((sortedItems (counter labels)).map Prod.snd).argmax id with
  | none =>
    have known := listed first held
    rw [List.argmax_eq_none.mp greatest] at known
    cases known
  | some best =>
    obtain ⟨item, member, rfl⟩ := List.mem_map.mp (List.argmax_mem greatest)
    obtain ⟨present, amount⟩ := mem_counter.mp ((sortedItems_perm _).mem_iff.mp member)
    refine ⟨fun label => ?_, item.1, present, amount⟩
    by_cases here : label ∈ labels
    · exact List.le_of_mem_argmax (listed label here) greatest
    · rw [List.count_eq_zero_of_not_mem here]
      exact Nat.zero_le _

/-- The plan asks for the least size that there is room in. -/
theorem roomy_iff (valid : req.Valid) (some : tasks ≠ []) {size : ℕ} :
    Roomy req minTasksRequired tasks size ↔ (planOf (inputOf req minTasksRequired tasks)).targetTasks ≤ size := by
  have kindsSome : kinds tasks ≠ [] := by simpa [kinds] using some
  have reposSome : repos tasks ≠ [] := by simpa [repos] using some
  obtain ⟨kindAbove, kind, kindHeld, kindSame⟩ := argmax_counter kindsSome (sortedItems_perm (counter (kinds tasks)))
    (fun a b h => (Prod.Lex.monotone_fst _ _ h : a.2 ≤ b.2) : ∀ a b : String × ℕ,
      toLex (a.2, a.1) ≤ toLex (b.2, b.1) → a.2 ≤ b.2)
  have deficits : kindDeficits (sortedItems req.kindMinimums) (sortedItems (counter (kinds tasks))) =
      Quota.deficits (sortedItems req.kindMinimums) (kinds tasks) := by
    apply kindDeficits_eq
    intro key
    rw [lookup_sortedItems (nodup_keys_counter _), lookup_counter]
  have need : ((Quota.deficits (sortedItems req.kindMinimums) (kinds tasks)).map Prod.snd).sum =
      Quota.need req.kindMinimums (kinds tasks) := need_perm (sortedItems_perm _) _
  have repoCount : (sortedItems (counter (repos tasks))).length = (repos tasks).toFinset.card := by
    rw [(sortedItems_perm _).length_eq, length_counter]
  have kindRoom := @largest_le _ _ ⟨kindAbove, kind, kindHeld, congrArg Prod.snd kindSame⟩
    req.maxKindFraction size
  have repoRoom := @largest_le _ _ (largestRepo_greatest reposSome) req.maxRepoFraction size
  simp only [planOf, inputOf, deficits, need, repoCount]
  constructor
  · intro roomy
    have grows : tasks.length ≤ size := by
      have := roomy.deficits
      omega
    obtain ⟨more, rfl⟩ := Nat.exists_eq_add_of_le grows
    have dominance := (roomFor_le valid.kindFraction.1).mpr (kindRoom.mpr roomy.kindShare)
    have diversity := (roomFor_le valid.repoFraction.1).mpr (repoRoom.mpr roomy.repoShare)
    have sample := roomy.sample
    have deficit := roomy.deficits
    have newRepos := roomy.newRepos
    simp only [Nat.add_le_add_iff_left, max_le_iff]
    exact ⟨⟨by omega, by omega⟩, dominance, by omega, diversity⟩
  · intro h
    have grows : tasks.length ≤ size := by omega
    obtain ⟨more, rfl⟩ := Nat.exists_eq_add_of_le grows
    simp only [Nat.add_le_add_iff_left, max_le_iff] at h
    obtain ⟨⟨sample, deficit⟩, dominance, newRepos, diversity⟩ := h
    exact ⟨by omega, by omega, kindRoom.mp ((roomFor_le valid.kindFraction.1).mp dominance), by omega,
      repoRoom.mp ((roomFor_le valid.repoFraction.1).mp diversity)⟩

/-- Tasks added as the plan suggests: every suggested kind gets its number, the dominant one no more. -/
structure Follows (plan : PortfolioExpansionPlan) (added : List Task) : Prop where
  total : added.length = plan.minimumTotalAdditions
  suggested : ∀ item ∈ plan.suggestedMinimumAdditionsByKind, item.2 ≤ (kinds added).count item.1
  dominant : (kinds added).count plan.dominantKind ≤
    (plan.suggestedMinimumAdditionsByKind.lookup plan.dominantKind).getD 0

/-- The gate's requirements but for the metadata, and the size that the benchmark plan needs. -/
def Satisfies (req : Requirements) (minTasksRequired : ℕ) (tasks : List Task) : Prop :=
  ∃ gate, gatePortfolioCoverage req tasks = .ok gate ∧
    (gate.taskKindCoverageReady ∧ gate.repoCoverageReady ∧ gate.balanceReady) ∧ minTasksRequired ≤ gate.taskCount

/-- What a plan for a portfolio promises. -/
structure ExpansionLaws (req : Requirements) (minTasksRequired : ℕ) (tasks : List Task)
    (plan : PortfolioExpansionPlan) : Prop where
  sufficient : ∃ added, Follows plan added ∧ Satisfies req minTasksRequired (tasks ++ added)
  minimal : ∀ added, Satisfies req minTasksRequired (tasks ++ added) → plan.minimumTotalAdditions ≤ added.length
  ready : plan.readyIfApplied → ∀ added, Follows plan added →
    ∃ gate, gatePortfolioCoverage req (tasks ++ added) = .ok gate ∧ gate.claimReady

/-- At the least size there is room in, every required minimum is below the ceiling, the tasks not
bound to a missing kind make up the number of kinds, and a portfolio of that size has its metadata. -/
def Attainable (req : Requirements) (minTasksRequired : ℕ) (tasks : List Task) : Prop :=
  ∃ size, IsLeast {size | Roomy req minTasksRequired tasks size} size ∧
    (∀ item ∈ req.kindMinimums, (item.2 : ℚ) ≤ req.maxKindFraction * size) ∧
    req.minTaskKinds + (tasks.length + Quota.need req.kindMinimums (kinds tasks)) ≤
      (kinds tasks ++ Quota.short req.kindMinimums (kinds tasks)).toFinset.card + size ∧
    (size = tasks.length → ∀ task ∈ tasks, hasOutcome task ∧ hasVerifier task)

theorem satisfies_iff (valid : req.Valid) (some : tasks ≠ []) :
    Satisfies req minTasksRequired tasks ↔ Named tasks ∧ Covered req tasks ∧ minTasksRequired ≤ tasks.length := by
  constructor
  · rintro ⟨gate, accepted, ready, enough⟩
    obtain ⟨rfl, -, -, named⟩ := gate_ok.mp accepted
    exact ⟨named, (gateOf_ready some).mp ready, enough⟩
  · rintro ⟨named, covered, enough⟩
    exact ⟨_, gate_ok.mpr ⟨rfl, valid, some, named⟩, (gateOf_ready some).mpr covered, enough⟩

/-- A portfolio that meets the requirements is one there was room for. -/
theorem roomy_of_covered {added : List Task} (covered : Covered req (tasks ++ added))
    (enough : minTasksRequired ≤ (tasks ++ added).length) :
    Roomy req minTasksRequired tasks (tasks ++ added).length := by
  have kindsSplit : kinds (tasks ++ added) = kinds tasks ++ kinds added := List.map_append
  have reposSplit : repos (tasks ++ added) = repos tasks ++ repos added := List.map_append
  have met := kindsSplit ▸ covered.minimums
  have kindsLength : (kinds added).length = added.length := List.length_map _
  refine ⟨enough, ?_, ?_, ?_, ?_⟩
  · have needed := Quota.need_le req.once met
    rw [List.length_append]
    omega
  · intro kind
    have share := covered.kindShare kind
    have grows : (kinds tasks).count kind ≤ (kinds (tasks ++ added)).count kind := by
      rw [kindsSplit, List.count_append]
      omega
    have length : (kinds (tasks ++ added)).length = (tasks ++ added).length := List.length_map _
    rw [length] at share
    exact (Nat.cast_le.mpr grows).trans share
  · have more : (repos (tasks ++ added)).toFinset.card ≤ (repos tasks).toFinset.card + added.length := by
      rw [reposSplit, List.toFinset_append]
      have few : (repos added).toFinset.card ≤ added.length :=
        (List.toFinset_card_le _).trans_eq (List.length_map _)
      exact (Finset.card_union_le _ _).trans (Nat.add_le_add_left few _)
    have count := covered.repoCount
    rw [List.length_append]
    omega
  · intro repo
    have share := covered.repoShare repo
    have grows : (repos tasks).count repo ≤ (repos (tasks ++ added)).count repo := by
      rw [reposSplit, List.count_append]
      omega
    have length : (repos (tasks ++ added)).length = (tasks ++ added).length := List.length_map _
    rw [length] at share
    exact (Nat.cast_le.mpr grows).trans share

/-! New names. -/

/-- Names longer than all that are used. -/
def freshNames (used : List String) (n : ℕ) : List String :=
  (List.range n).map (fun i => String.ofList (List.replicate ((used.map String.length).sum + 1 + i) 'x'))

theorem length_freshNames (used : List String) (n : ℕ) : (freshNames used n).length = n := by
  simp [freshNames]

theorem nodup_freshNames (used : List String) (n : ℕ) : (freshNames used n).Nodup := by
  refine List.Nodup.map ?_ List.nodup_range
  intro i j same
  have lengths := congrArg String.length same
  simp only [String.length_ofList, List.length_replicate] at lengths
  omega

theorem freshNames_new {used : List String} {n : ℕ} {name : String} (h : name ∈ freshNames used n) : name ∉ used := by
  obtain ⟨i, -, rfl⟩ := List.mem_map.mp h
  intro known
  have bound := List.le_sum_of_mem (List.mem_map_of_mem (f := String.length) known)
  simp only [String.length_ofList, List.length_replicate] at bound
  omega

theorem freshNames_named {used : List String} {n : ℕ} {name : String} (h : name ∈ freshNames used n) :
    PyText.strip name ≠ "" := by
  obtain ⟨i, -, rfl⟩ := List.mem_map.mp h
  intro blank
  have kept (m : ℕ) : (List.replicate (m + 1) 'x').dropWhile PyText.isSpace = List.replicate (m + 1) 'x' := rfl
  have whole : PyText.stripChars (List.replicate ((used.map String.length).sum + i + 1) 'x') =
      List.replicate ((used.map String.length).sum + i + 1) 'x' := by
    rw [PyText.stripChars, kept, List.reverse_replicate, kept, List.reverse_replicate]
  have text := congrArg String.toList blank
  rw [PyText.strip, String.toList_ofList, String.toList_ofList, Nat.add_right_comm, whole] at text
  simp at text

end

/-! Additions that follow the plan. -/

/-- Tasks of the given kinds, each in the repository of its own name. -/
def newTasks (kindNames repoNames : List String) : List Task :=
  (kindNames.zip repoNames).map (fun pair => ⟨pair.1, pair.2, some "verified", some ["verify"]⟩)

theorem kinds_newTasks {kindNames repoNames : List String} (same : kindNames.length = repoNames.length) :
    kinds (newTasks kindNames repoNames) = kindNames := by
  rw [kinds, newTasks, List.map_map]
  exact List.map_fst_zip same.le

theorem repos_newTasks {kindNames repoNames : List String} (same : kindNames.length = repoNames.length) :
    repos (newTasks kindNames repoNames) = repoNames := by
  rw [repos, newTasks, List.map_map]
  exact List.map_snd_zip same.ge

theorem named_newTasks {kindNames repoNames : List String} (kindsNamed : ∀ name ∈ kindNames, PyText.strip name ≠ "")
    (reposNamed : ∀ name ∈ repoNames, PyText.strip name ≠ "") : Named (newTasks kindNames repoNames) := by
  intro task member
  obtain ⟨pair, held, rfl⟩ := List.mem_map.mp member
  exact ⟨kindsNamed pair.1 (List.of_mem_zip held).1, reposNamed pair.2 (List.of_mem_zip held).2⟩

section

variable {req : Requirements} {tasks : List Task} {minTasksRequired : ℕ}

/-- The kinds that the plan suggests, and new ones for the tasks left over. -/
def addedKinds (req : Requirements) (tasks : List Task) (free : ℕ) : List String :=
  Quota.fill req.kindMinimums (kinds tasks) (freshNames (kinds tasks ++ req.kindMinimums.map Prod.fst) free)

theorem fresh_apart {free : ℕ} {name : String}
    (h : name ∈ freshNames (kinds tasks ++ req.kindMinimums.map Prod.fst) free) :
    name ∉ kinds tasks ∧ req.kindMinimums.lookup name = none := by
  have new := freshNames_new h
  simp only [List.mem_append, not_or] at new
  exact ⟨new.1, Quota.lookup_of_fresh new.2⟩

/-- How often a kind stands once the tasks are added. -/
theorem count_addedKinds (req : Requirements) (tasks : List Task) (free : ℕ) (kind : String) :
    (kinds tasks).count kind + (addedKinds req tasks free).count kind =
      max ((kinds tasks).count kind) ((req.kindMinimums.lookup kind).getD 0) +
        (freshNames (kinds tasks ++ req.kindMinimums.map Prod.fst) free).count kind := by
  rw [← List.count_append]
  exact Quota.count_fill req.once _ kind

theorem card_addedKinds (req : Requirements) (tasks : List Task) (free : ℕ) :
    (kinds tasks ++ addedKinds req tasks free).toFinset.card =
      (kinds tasks ++ Quota.short req.kindMinimums (kinds tasks)).toFinset.card + free := by
  rw [addedKinds, Quota.card_fill (nodup_freshNames _ _), length_freshNames]
  intro name fresh known
  obtain ⟨unused, unasked⟩ := fresh_apart fresh
  rcases List.mem_append.mp known with held | held
  · exact unused held
  · obtain ⟨item, member, rfl⟩ := List.mem_map.mp held
    obtain ⟨minimum, asked, -, -⟩ := Quota.mem_deficits.mp member
    have listed : item.1 ∈ Dict.keys req.kindMinimums := List.mem_map.mpr ⟨_, asked, rfl⟩
    rw [← Dict.lookup_isSome_iff, unasked] at listed
    cases listed

theorem addedKinds_named (valid : req.Valid) {free : ℕ} :
    ∀ name ∈ addedKinds req tasks free, PyText.strip name ≠ "" := by
  intro name member
  rcases List.mem_append.mp member with member | member
  · obtain ⟨item, held, repeated⟩ := List.mem_flatMap.mp member
    obtain ⟨minimum, asked, -, -⟩ := Quota.mem_deficits.mp held
    rw [(List.mem_replicate.mp repeated).2]
    exact (valid.minimums _ asked).1
  · exact freshNames_named member

theorem one_le_share {labels : List String} (some : labels ≠ []) {fraction : ℚ} {size : ℕ}
    (share : ∀ label, (labels.count label : ℚ) ≤ fraction * size) : 1 ≤ fraction * size := by
  obtain ⟨label, held⟩ := List.exists_mem_of_ne_nil labels some
  have one : (1 : ℚ) ≤ labels.count label := by exact_mod_cast List.count_pos_iff.mpr held
  exact one.trans (share label)

/-- With room for it, the portfolio so extended is covered. -/
theorem covered_of_roomy (some : tasks ≠ []) {size free : ℕ} (roomy : Roomy req minTasksRequired tasks size)
    (whole : size = tasks.length + Quota.need req.kindMinimums (kinds tasks) + free)
    (ceiling : ∀ item ∈ req.kindMinimums, (item.2 : ℚ) ≤ req.maxKindFraction * size)
    (enough : req.minTaskKinds ≤ (kinds tasks ++ Quota.short req.kindMinimums (kinds tasks)).toFinset.card + free) :
    Covered req (tasks ++ newTasks (addedKinds req tasks free)
      (freshNames (repos tasks) (Quota.need req.kindMinimums (kinds tasks) + free))) := by
  have kindsSome : kinds tasks ≠ [] := by simpa [kinds] using some
  have reposSome : repos tasks ≠ [] := by simpa [repos] using some
  have same : (addedKinds req tasks free).length =
      (freshNames (repos tasks) (Quota.need req.kindMinimums (kinds tasks) + free)).length := by
    rw [addedKinds, Quota.length_fill, length_freshNames, length_freshNames]
  have kindsWhole : kinds (tasks ++ newTasks (addedKinds req tasks free)
      (freshNames (repos tasks) (Quota.need req.kindMinimums (kinds tasks) + free))) =
      kinds tasks ++ addedKinds req tasks free := by
    rw [kinds, List.map_append]
    exact congrArg _ (kinds_newTasks same)
  have reposWhole : repos (tasks ++ newTasks (addedKinds req tasks free)
      (freshNames (repos tasks) (Quota.need req.kindMinimums (kinds tasks) + free))) =
      repos tasks ++ freshNames (repos tasks) (Quota.need req.kindMinimums (kinds tasks) + free) := by
    rw [repos, List.map_append]
    exact congrArg _ (repos_newTasks same)
  have kindsLength : (kinds tasks ++ addedKinds req tasks free).length = size := by
    rw [List.length_append, kinds, List.length_map, addedKinds, Quota.length_fill, length_freshNames, whole, Nat.add_assoc]
  have reposLength : (repos tasks ++ freshNames (repos tasks)
      (Quota.need req.kindMinimums (kinds tasks) + free)).length = size := by
    rw [List.length_append, repos, List.length_map, length_freshNames, whole, Nat.add_assoc]
  refine ⟨?_, ?_, ?_, ?_, ?_⟩
  · rw [kindsWhole, card_addedKinds]
    exact enough
  · rw [kindsWhole]
    exact Quota.met_fill req.once _
  · have disjoint : Disjoint (repos tasks).toFinset
        (freshNames (repos tasks) (Quota.need req.kindMinimums (kinds tasks) + free)).toFinset := by
      rw [Finset.disjoint_left]
      intro name known fresh
      exact freshNames_new (List.mem_toFinset.mp fresh) (List.mem_toFinset.mp known)
    have newRepos := roomy.newRepos
    rw [reposWhole, List.toFinset_append, Finset.card_union_of_disjoint disjoint,
      List.toFinset_card_of_nodup (nodup_freshNames _ _), length_freshNames]
    omega
  · intro kind
    rw [kindsWhole, kindsLength, List.count_append, count_addedKinds]
    by_cases fresh : kind ∈ freshNames (kinds tasks ++ req.kindMinimums.map Prod.fst) free
    · obtain ⟨unused, unasked⟩ := fresh_apart fresh
      have once := List.nodup_iff_count_le_one.mp (nodup_freshNames (kinds tasks ++ req.kindMinimums.map Prod.fst) free) kind
      rw [unasked, List.count_eq_zero_of_not_mem unused]
      have few : ((max 0 (Option.none.getD 0) +
          (freshNames (kinds tasks ++ req.kindMinimums.map Prod.fst) free).count kind : ℕ) : ℚ) ≤ 1 := by
        exact_mod_cast by simpa using once
      exact few.trans (one_le_share kindsSome roomy.kindShare)
    · rw [List.count_eq_zero_of_not_mem fresh, Nat.add_zero, Nat.cast_max, max_le_iff]
      refine ⟨roomy.kindShare kind, ?_⟩
      cases asked : req.kindMinimums.lookup kind with
      | none =>
        have one := one_le_share kindsSome roomy.kindShare
        simp only [Option.getD_none, Nat.cast_zero]
        linarith
      | some minimum => exact ceiling _ (Dict.mem_of_lookup asked)
  · intro repo
    rw [reposWhole, reposLength, List.count_append]
    by_cases fresh : repo ∈ freshNames (repos tasks) (Quota.need req.kindMinimums (kinds tasks) + free)
    · have once := List.nodup_iff_count_le_one.mp
        (nodup_freshNames (repos tasks) (Quota.need req.kindMinimums (kinds tasks) + free)) repo
      rw [List.count_eq_zero_of_not_mem (freshNames_new fresh), Nat.zero_add]
      exact (Nat.cast_le_one.mpr once).trans (one_le_share reposSome roomy.repoShare)
    · rw [List.count_eq_zero_of_not_mem fresh, Nat.add_zero]
      exact roomy.repoShare repo

end

section

variable {req : Requirements} {tasks : List Task} {minTasksRequired : ℕ}

/-- What the plan suggests for a kind. -/
theorem lookup_suggested (key : String) :
    (((planOf (inputOf req minTasksRequired tasks)).suggestedMinimumAdditionsByKind.lookup key).getD 0) =
      (req.kindMinimums.lookup key).getD 0 - (kinds tasks).count key := by
  have deficits : kindDeficits (sortedItems req.kindMinimums) (sortedItems (counter (kinds tasks))) =
      Quota.deficits (sortedItems req.kindMinimums) (kinds tasks) := by
    apply kindDeficits_eq
    intro key
    rw [lookup_sortedItems (nodup_keys_counter _), lookup_counter]
  have once : ((sortedItems req.kindMinimums).map Prod.fst).Nodup :=
    ((sortedItems_perm _).map Prod.fst).nodup_iff.mpr req.once
  simp only [planOf, inputOf, deficits]
  rw [lookup_sortedItems (Quota.nodup_short once), Quota.lookup_deficits once, lookup_sortedItems req.once]

theorem nodup_suggested :
    (Dict.keys (planOf (inputOf req minTasksRequired tasks)).suggestedMinimumAdditionsByKind).Nodup := by
  have once : ((sortedItems req.kindMinimums).map Prod.fst).Nodup :=
    ((sortedItems_perm _).map Prod.fst).nodup_iff.mpr req.once
  have whole : (((sortedItems req.kindMinimums).map (fun item =>
      (item.1, item.2 - ((sortedItems (counter (kinds tasks))).lookup item.1).getD 0))).map Prod.fst).Nodup := by
    rw [List.map_map]
    exact once
  exact ((sortedItems_perm _).map Prod.fst).nodup_iff.mpr (whole.sublist (List.filter_sublist.map Prod.fst))

theorem dominantKind_mem (some : tasks ≠ []) :
    (planOf (inputOf req minTasksRequired tasks)).dominantKind ∈ kinds tasks := by
  have kindsSome : kinds tasks ≠ [] := by simpa [kinds] using some
  obtain ⟨-, kind, held, same⟩ := argmax_counter kindsSome (sortedItems_perm (counter (kinds tasks)))
    (fun a b h => (Prod.Lex.monotone_fst _ _ h : a.2 ≤ b.2) : ∀ a b : String × ℕ,
      toLex (a.2, a.1) ≤ toLex (b.2, b.1) → a.2 ≤ b.2)
  have dominant : (planOf (inputOf req minTasksRequired tasks)).dominantKind = kind := congrArg Prod.fst same
  rw [dominant]
  exact held

/-- The added kinds follow the suggestions, and leave the dominant kind alone otherwise. -/
theorem follows_added (some : tasks ≠ []) {free : ℕ} {added : List Task} (names : kinds added = addedKinds req tasks free)
    (total : added.length = (planOf (inputOf req minTasksRequired tasks)).minimumTotalAdditions) :
    Follows (planOf (inputOf req minTasksRequired tasks)) added := by
  refine ⟨total, ?_, ?_⟩
  · intro item member
    have amount := @lookup_suggested req tasks minTasksRequired item.1
    rw [Dict.lookup_of_mem nodup_suggested member, Option.getD_some] at amount
    have count := count_addedKinds req tasks free item.1
    rw [names]
    omega
  · rw [lookup_suggested, names]
    have held := @dominantKind_mem req tasks minTasksRequired some
    have count := count_addedKinds req tasks free (planOf (inputOf req minTasksRequired tasks)).dominantKind
    have unused : (freshNames (kinds tasks ++ req.kindMinimums.map Prod.fst) free).count
        (planOf (inputOf req minTasksRequired tasks)).dominantKind = 0 :=
      List.count_eq_zero_of_not_mem fun fresh => (fresh_apart fresh).1 held
    omega

theorem target_eq : (planOf (inputOf req minTasksRequired tasks)).targetTasks =
    tasks.length + (planOf (inputOf req minTasksRequired tasks)).minimumTotalAdditions := rfl

theorem isLeast_target (valid : req.Valid) (some : tasks ≠ []) :
    IsLeast {size | Roomy req minTasksRequired tasks size} (planOf (inputOf req minTasksRequired tasks)).targetTasks :=
  ⟨(roomy_iff valid some).mpr le_rfl, fun _ roomy => (roomy_iff valid some).mp roomy⟩

theorem minimal_plan (valid : req.Valid) (some : tasks ≠ []) {added : List Task}
    (satisfied : Satisfies req minTasksRequired (tasks ++ added)) :
    (planOf (inputOf req minTasksRequired tasks)).minimumTotalAdditions ≤ added.length := by
  obtain ⟨-, covered, enough⟩ := (satisfies_iff valid (List.append_ne_nil_of_left_ne_nil some added)).mp satisfied
  have least := (roomy_iff valid some).mp (roomy_of_covered covered enough)
  rw [target_eq, List.length_append] at least
  omega

theorem metadata_iff {all : List Task} (covered : Covered req all) (some : all ≠ []) :
    (gateOf req req.kindMinimums all).claimReady ↔ ∀ task ∈ all, hasOutcome task ∧ hasVerifier task := by
  have ready := (gateOf_ready some).mpr covered
  have claim : (gateOf req req.kindMinimums all).claimReady =
      ((gateOf req req.kindMinimums all).taskKindCoverageReady && (gateOf req req.kindMinimums all).repoCoverageReady &&
        (gateOf req req.kindMinimums all).balanceReady && (gateOf req req.kindMinimums all).metadataReady) := rfl
  rw [claim, ready.1, ready.2.1, ready.2.2]
  simp only [gateOf, Bool.true_and, Bool.and_eq_true, decide_eq_true_eq, List.countP_eq_length]
  constructor
  · rintro ⟨outcomes, verifiers⟩ task member
    exact ⟨outcomes task member, verifiers task member⟩
  · intro all
    exact ⟨fun task member => (all task member).1, fun task member => (all task member).2⟩

theorem attainable_of_laws (valid : req.Valid) (some : tasks ≠ [])
    (laws : ExpansionLaws req minTasksRequired tasks (planOf (inputOf req minTasksRequired tasks))) :
    Attainable req minTasksRequired tasks := by
  have least := @isLeast_target req tasks minTasksRequired valid some
  obtain ⟨added, follows, satisfied⟩ := laws.sufficient
  obtain ⟨-, covered, -⟩ := (satisfies_iff valid (List.append_ne_nil_of_left_ne_nil some added)).mp satisfied
  have kindsSplit : kinds (tasks ++ added) = kinds tasks ++ kinds added := List.map_append
  have kindsLength : (kinds added).length = added.length := List.length_map _
  have length : (tasks ++ added).length = (planOf (inputOf req minTasksRequired tasks)).targetTasks := by
    rw [List.length_append, follows.total, target_eq]
  refine ⟨_, least, ?_, ?_, ?_⟩
  · intro item member
    have share := covered.kindShare item.1
    have minimum : item.2 ≤ (kinds (tasks ++ added)).count item.1 := covered.minimums item member
    have whole : (kinds (tasks ++ added)).length = (tasks ++ added).length := List.length_map _
    rw [whole, length] at share
    exact (Nat.cast_le.mpr minimum).trans share
  · have card := Quota.card_le req.once (kindsSplit ▸ covered.minimums)
    have count := covered.kindCount
    rw [kindsSplit] at count
    rw [← length, List.length_append]
    omega
  · intro none
    have empty : added = [] := by
      apply List.eq_nil_of_length_eq_zero
      rw [List.length_append] at length
      omega
    subst empty
    have zero : (planOf (inputOf req minTasksRequired tasks)).minimumTotalAdditions = 0 := follows.total.symm
    obtain ⟨gate, accepted, ready⟩ := laws.ready (decide_eq_true zero) [] follows
    rw [List.append_nil] at accepted covered
    obtain ⟨rfl, -⟩ := gate_ok.mp accepted
    exact (metadata_iff covered some).mp ready

/-- The additions that the plan suggests, spread over new repositories and new kinds. -/
theorem sufficient_of_room (valid : req.Valid) (some : tasks ≠ []) (named : Named tasks)
    (ceiling : ∀ item ∈ req.kindMinimums, (item.2 : ℚ) ≤
      req.maxKindFraction * (planOf (inputOf req minTasksRequired tasks)).targetTasks)
    (enough : req.minTaskKinds + (tasks.length + Quota.need req.kindMinimums (kinds tasks)) ≤
      (kinds tasks ++ Quota.short req.kindMinimums (kinds tasks)).toFinset.card +
        (planOf (inputOf req minTasksRequired tasks)).targetTasks) :
    ∃ added, Follows (planOf (inputOf req minTasksRequired tasks)) added ∧
      Satisfies req minTasksRequired (tasks ++ added) := by
  have roomy := (@isLeast_target req tasks minTasksRequired valid some).1
  obtain ⟨free, whole⟩ := Nat.exists_eq_add_of_le roomy.deficits
  have covered := covered_of_roomy some roomy whole ceiling (by omega)
  have same : (addedKinds req tasks free).length =
      (freshNames (repos tasks) (Quota.need req.kindMinimums (kinds tasks) + free)).length := by
    rw [addedKinds, Quota.length_fill, length_freshNames, length_freshNames]
  have total : (newTasks (addedKinds req tasks free)
      (freshNames (repos tasks) (Quota.need req.kindMinimums (kinds tasks) + free))).length =
      Quota.need req.kindMinimums (kinds tasks) + free := by
    rw [newTasks, List.length_map, List.length_zip, same, Nat.min_self, length_freshNames]
  refine ⟨_, follows_added some (kinds_newTasks same) ?_, ?_⟩
  · rw [total]
    rw [target_eq] at whole
    omega
  · rw [satisfies_iff valid (List.append_ne_nil_of_left_ne_nil some _)]
    refine ⟨?_, covered, ?_⟩
    · intro task member
      rcases List.mem_append.mp member with member | member
      · exact named task member
      · exact named_newTasks (addedKinds_named valid) (fun _ => freshNames_named) task member
    · have sample := roomy.sample
      rw [List.length_append, total]
      omega

/-- The plan's number of tasks can never be undercut. It is enough, and the portfolio ready where the
plan says so, exactly when the sizes it looks at leave room for what it does not look at: the
ceiling for the required kinds, the number of kinds, and the metadata. -/
theorem expansion_iff (req : Requirements) (minTasksRequired : ℕ) (tasks : List Task) {gate : PortfolioCoverageGate}
    {plan : PortfolioExpansionPlan} (gated : gatePortfolioCoverage req tasks = .ok gate)
    (planned : planPortfolioExpansion minTasksRequired gate = .ok plan) :
    ExpansionLaws req minTasksRequired tasks plan ↔ Attainable req minTasksRequired tasks := by
  obtain ⟨rfl, valid, some, named⟩ := gate_ok.mp gated
  obtain ⟨-, rfl⟩ := (plan_ok valid some named).mp planned
  refine ⟨attainable_of_laws valid some, ?_⟩
  rintro ⟨size, leastSize, ceiling, enough, metadata⟩
  obtain rfl := leastSize.unique (isLeast_target valid some)
  have sufficient := sufficient_of_room valid some named ceiling enough
  refine ⟨sufficient, fun added => minimal_plan valid some, ?_⟩
  intro ready added follows
  have zero : (planOf (inputOf req minTasksRequired tasks)).minimumTotalAdditions = 0 := of_decide_eq_true ready
  have none (list : List Task) (follows : Follows (planOf (inputOf req minTasksRequired tasks)) list) : list = [] :=
    List.eq_nil_of_length_eq_zero (follows.total.trans zero)
  obtain ⟨other, followed, satisfied⟩ := sufficient
  rw [none other followed, List.append_nil] at satisfied
  rw [none added follows, List.append_nil]
  obtain ⟨-, covered, -⟩ := (satisfies_iff valid some).mp satisfied
  refine ⟨_, gated, (metadata_iff covered some).mpr (metadata ?_)⟩
  rw [target_eq, zero, Nat.add_zero]

/-- One task, where two kinds are asked for. -/
def oneKind : Requirements := ⟨[], List.nodup_nil, 1, 2, 1, 1⟩

def oneTask : List Task := [⟨"bugfix", "core", some "passes", some ["pytest"]⟩]

theorem oneKind_valid : oneKind.Valid :=
  ⟨by decide, by decide, by norm_num [oneKind], by norm_num [oneKind], fun _ none => nomatch none⟩

theorem expansion_iff_oneTask :
    ExpansionLaws oneKind 1 oneTask (planOf (inputOf oneKind 1 oneTask)) ↔ Attainable oneKind 1 oneTask :=
  have named : Named oneTask := by
    intro task member
    obtain rfl := List.mem_singleton.mp member
    exact ⟨by decide, by decide⟩
  have some : oneTask ≠ [] := List.cons_ne_nil _ _
  expansion_iff oneKind 1 oneTask (gate_ok.mpr ⟨rfl, oneKind_valid, some, named⟩)
    ((plan_ok oneKind_valid some named).mpr ⟨le_rfl, rfl⟩)

/-- The plan adds nothing and says ready, and the gate fails. -/
theorem oneTask_unready : (planOf (inputOf oneKind 1 oneTask)).minimumTotalAdditions = 0 ∧
    (planOf (inputOf oneKind 1 oneTask)).readyIfApplied ∧
    ¬ ExpansionLaws oneKind 1 oneTask (planOf (inputOf oneKind 1 oneTask)) := by
  have zero : (planOf (inputOf oneKind 1 oneTask)).minimumTotalAdditions = 0 := by decide +kernel
  refine ⟨zero, decide_eq_true zero, ?_⟩
  intro laws
  obtain ⟨added, follows, gate, accepted, ready, -⟩ := laws.sufficient
  rw [List.eq_nil_of_length_eq_zero (follows.total.trans zero), List.append_nil] at accepted
  obtain ⟨rfl, -⟩ := gate_ok.mp accepted
  exact absurd ready.1 (by decide)

end

end Onmc.Experiment

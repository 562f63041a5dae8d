import Mathlib.Algebra.Order.Floor.Ring
import Mathlib.Data.List.MinMax
import Mathlib.Data.List.Sort
import Mathlib.Data.Prod.Lex
import Mathlib.Data.Rat.Floor
import Mathlib.Data.String.Basic
import Onmc.PyText
import Onmc.Tally

/-! Coverage of a benchmark portfolio: the gate over its kinds of tasks and its repositories, and the
plan of the tasks to add. Fractions are exact. -/
namespace Onmc.Experiment

/-- A task of a manifest; what is missing or of another type is `none`. -/
structure Task where
  taskKind : String
  repoName : String
  expectedOutcome : Option String
  verifierArgv : Option (List String)

/-- The keyword arguments of `gate_portfolio_coverage`; a mapping has each kind once. -/
structure Requirements where
  kindMinimums : List (String × ℕ)
  once : (kindMinimums.map Prod.fst).Nodup
  minRepos : ℕ
  minTaskKinds : ℕ
  maxKindFraction : ℚ
  maxRepoFraction : ℚ

/-- The value errors: a path, and for an entry of a mapping its key. -/
inductive Invalid where
  | notPositive (path : String)
  | notFraction (path : String)
  | blank (path : String)
  | empty (path : String)
  | notPositiveAt (path key : String)
  deriving DecidableEq

/-- The reasons of a gate, with the numbers their texts show. -/
inductive Reason where
  | fewKinds (observed minimum : ℕ)
  | kindShort (kind : String) (observed minimum : ℕ)
  | fewRepos (observed minimum : ℕ)
  | kindShare (kind : String) (share maximum : ℚ)
  | repoShare (repo : String) (share maximum : ℚ)
  | missingOutcome (count : ℕ)
  | missingVerifier (count : ℕ)
  deriving DecidableEq

structure PortfolioCoverageGate where
  taskCount : ℕ
  repoCount : ℕ
  taskKindCount : ℕ
  taskKindCounts : List (String × ℕ)
  repoCounts : List (String × ℕ)
  requiredKindMinimums : List (String × ℕ)
  minRepos : ℕ
  minTaskKinds : ℕ
  maxKindFraction : ℚ
  maxRepoFraction : ℚ
  expectedOutcomeCount : ℕ
  verifierCount : ℕ
  taskKindCoverageReady : Bool
  repoCoverageReady : Bool
  balanceReady : Bool
  metadataReady : Bool
  claimReady : Bool
  reasons : List Reason

inductive Note where
  | preferNonDominant
  | dominantRoom (target additional : ℕ) (kind : String)
  | newRepos (count : ℕ)
  | outsideLargestRepo
  deriving DecidableEq

structure PortfolioExpansionPlan where
  currentTasks : ℕ
  targetTasks : ℕ
  minimumTotalAdditions : ℕ
  kindDeficits : List (String × ℕ)
  suggestedMinimumAdditionsByKind : List (String × ℕ)
  unallocatedNonDominantAdditions : ℕ
  dominantKind : String
  dominantKindCount : ℕ
  maxKindFraction : ℚ
  dominanceOnlyAdditionsRequired : ℕ
  maxAdditionalDominantKindAtTarget : ℕ
  repoDeficit : ℕ
  repoDiversityAdditionsRequired : ℕ
  readyIfApplied : Bool
  notes : List Note

/-! Checks. A count is a natural number here, so a negative one is refused as zero is. -/

def nonEmptyString (value path : String) : Except Invalid String :=
  if PyText.strip value = "" then .error (.blank path) else .ok value

def positiveInt (value : ℕ) (path : String) : Except Invalid ℕ :=
  if value < 1 then .error (.notPositive path) else .ok value

def fraction (value : ℚ) (path : String) : Except Invalid ℚ :=
  if 0 < value ∧ value ≤ 1 then .ok value else .error (.notFraction path)

/-- `_int_mapping` -/
def intMapping (mapping : List (String × ℕ)) (path : String) : Except Invalid (List (String × ℕ)) :=
  mapping.mapM (fun item =>
    if PyText.strip item.1 = "" then .error (.blank (path ++ " key"))
    else if item.2 < 1 then .error (.notPositiveAt path item.1)
    else .ok item)

/-! The gate. -/

/-- `Counter` -/
def counter (items : List String) : List (String × ℕ) := Tally.tally (items.map (fun item => (item, 1)))

/-- `tuple(sorted(counts.items()))` -/
def sortedItems (counts : List (String × ℕ)) : List (String × ℕ) := counts.insertionSort (fun a b => a.1 ≤ b.1)

/-- `counts.most_common(1)[0]` -/
def mostCommon (counts : List (String × ℕ)) : String × ℕ := (counts.argmax Prod.snd).getD ("", 0)

def kinds (tasks : List Task) : List String := tasks.map Task.taskKind

def repos (tasks : List Task) : List String := tasks.map Task.repoName

def hasOutcome (task : Task) : Bool :=
  match task.expectedOutcome with
  | none => false
  | some outcome => PyText.strip outcome ≠ ""

def hasVerifier (task : Task) : Bool :=
  match task.verifierArgv with
  | none => false
  | some argv => !argv.isEmpty && argv.all (fun arg => arg ≠ "")

def checkTask (task : Task) : Except Invalid Task := do
  let _ ← nonEmptyString task.taskKind "manifest.tasks[].task_kind"
  let _ ← nonEmptyString task.repoName "manifest.tasks[].repo.name"
  return task

def checkRequirements (req : Requirements) : Except Invalid (List (String × ℕ)) := do
  let _ ← positiveInt req.minRepos "min_repos"
  let _ ← positiveInt req.minTaskKinds "min_task_kinds"
  let _ ← fraction req.maxKindFraction "max_kind_fraction"
  let _ ← fraction req.maxRepoFraction "max_repo_fraction"
  intMapping req.kindMinimums "required_kind_minimums"

/-- The kinds below their minimum, with what is there of them. -/
def shortKinds (minimums counts : List (String × ℕ)) : List Reason :=
  (minimums.filter (fun item => (counts.lookup item.1).getD 0 < item.2)).map
    (fun item => .kindShort item.1 ((counts.lookup item.1).getD 0) item.2)

def share (count total : ℕ) : ℚ := count / total

/-- The gate over tasks and minimums that passed their checks. -/
def gateOf (req : Requirements) (minimums : List (String × ℕ)) (tasks : List Task) : PortfolioCoverageGate :=
  let kindCounts := counter (kinds tasks)
  let repoCounts := counter (repos tasks)
  let outcomes := tasks.countP hasOutcome
  let verifiers := tasks.countP hasVerifier
  let enoughKinds : Bool := req.minTaskKinds ≤ kindCounts.length
  let short := shortKinds minimums kindCounts
  let enoughRepos : Bool := req.minRepos ≤ repoCounts.length
  let (largestKind, largestKindCount) := mostCommon kindCounts
  let (largestRepo, largestRepoCount) := mostCommon repoCounts
  let kindShare := share largestKindCount tasks.length
  let repoShare := share largestRepoCount tasks.length
  let kindBalanced : Bool := kindShare ≤ req.maxKindFraction
  let repoBalanced : Bool := repoShare ≤ req.maxRepoFraction
  let metadataReady : Bool := outcomes = tasks.length && verifiers = tasks.length
  { taskCount := tasks.length
    repoCount := repoCounts.length
    taskKindCount := kindCounts.length
    taskKindCounts := sortedItems kindCounts
    repoCounts := sortedItems repoCounts
    requiredKindMinimums := sortedItems minimums
    minRepos := req.minRepos
    minTaskKinds := req.minTaskKinds
    maxKindFraction := req.maxKindFraction
    maxRepoFraction := req.maxRepoFraction
    expectedOutcomeCount := outcomes
    verifierCount := verifiers
    taskKindCoverageReady := enoughKinds && short.isEmpty
    repoCoverageReady := enoughRepos
    balanceReady := kindBalanced && repoBalanced
    metadataReady := metadataReady
    claimReady := (enoughKinds && short.isEmpty) && enoughRepos && (kindBalanced && repoBalanced) && metadataReady
    reasons :=
      (if enoughKinds then [] else [.fewKinds kindCounts.length req.minTaskKinds]) ++ short ++
      (if enoughRepos then [] else [.fewRepos repoCounts.length req.minRepos]) ++
      (if kindBalanced then [] else [.kindShare largestKind kindShare req.maxKindFraction]) ++
      (if repoBalanced then [] else [.repoShare largestRepo repoShare req.maxRepoFraction]) ++
      (if outcomes = tasks.length then [] else [.missingOutcome (tasks.length - outcomes)]) ++
      (if verifiers = tasks.length then [] else [.missingVerifier (tasks.length - verifiers)]) }

def gatePortfolioCoverage (req : Requirements) (tasks : List Task) : Except Invalid PortfolioCoverageGate := do
  let minimums ← checkRequirements req
  if tasks.isEmpty then throw (.empty "manifest.tasks")
  let tasks ← tasks.mapM checkTask
  return gateOf req minimums tasks

/-! The plan. -/

/-- `max(0, ceil(count / fraction - current))` -/
def roomFor (count : ℕ) (fraction : ℚ) (current : ℕ) : ℕ := ⌈(count : ℚ) / fraction - current⌉.toNat

/-- `max(0, minimum - counts.get(kind, 0))`, where it is not zero. -/
def kindDeficits (minimums counts : List (String × ℕ)) : List (String × ℕ) :=
  (minimums.map (fun item => (item.1, item.2 - (counts.lookup item.1).getD 0))).filter (fun item => item.2 ≠ 0)

/-- What the plan reads of the benchmark plan and of the gate. -/
structure PlanInput where
  current : ℕ
  required : ℕ
  kindCounts : List (String × ℕ)
  repoCounts : List (String × ℕ)
  minimums : List (String × ℕ)
  minRepos : ℕ
  maxKindFraction : ℚ
  maxRepoFraction : ℚ

def readInput (minTasksRequired : ℕ) (gate : PortfolioCoverageGate) : Except Invalid PlanInput := do
  let current ← positiveInt gate.taskCount "coverage_gate.task_count"
  let required ← positiveInt minTasksRequired "benchmark_plan.min_tasks_required"
  let kindCounts ← intMapping gate.taskKindCounts "coverage_gate.task_kind_counts"
  let repoCounts ← intMapping gate.repoCounts "coverage_gate.repo_counts"
  let minimums ← intMapping gate.requiredKindMinimums "coverage_gate.required_kind_minimums"
  let minRepos ← positiveInt gate.minRepos "coverage_gate.min_repos"
  let maxKindFraction ← fraction gate.maxKindFraction "coverage_gate.max_kind_fraction"
  let maxRepoFraction ← fraction gate.maxRepoFraction "coverage_gate.max_repo_fraction"
  return ⟨current, required, kindCounts, repoCounts, minimums, minRepos, maxKindFraction, maxRepoFraction⟩

def planOf (input : PlanInput) : PortfolioExpansionPlan :=
  let (dominantKind, dominantCount) :=
    (input.kindCounts.argmax (fun item => toLex (item.2, item.1))).getD ("", 0)
  let largestRepoCount := ((input.repoCounts.map Prod.snd).argmax id).getD 0
  let deficits := kindDeficits input.minimums input.kindCounts
  let need := (deficits.map Prod.snd).sum
  let sampleSizeDeficit := input.required - input.current
  let dominance := roomFor dominantCount input.maxKindFraction input.current
  let repoDeficit := input.minRepos - input.repoCounts.length
  let repoDiversity := max repoDeficit (roomFor largestRepoCount input.maxRepoFraction input.current)
  let additions := max (max sampleSizeDeficit need) (max dominance repoDiversity)
  let target := input.current + additions
  let additionalDominant := ⌊input.maxKindFraction * target⌋.toNat - dominantCount
  { currentTasks := input.current
    targetTasks := target
    minimumTotalAdditions := additions
    kindDeficits := sortedItems deficits
    suggestedMinimumAdditionsByKind := sortedItems deficits
    unallocatedNonDominantAdditions := additions - need
    dominantKind := dominantKind
    dominantKindCount := dominantCount
    maxKindFraction := input.maxKindFraction
    dominanceOnlyAdditionsRequired := dominance
    maxAdditionalDominantKindAtTarget := additionalDominant
    repoDeficit := repoDeficit
    repoDiversityAdditionsRequired := repoDiversity
    readyIfApplied := additions = 0
    notes :=
      [.preferNonDominant, .dominantRoom target additionalDominant dominantKind] ++
      (if repoDeficit = 0 then [] else [.newRepos repoDeficit]) ++
      (if repoDeficit < repoDiversity then [.outsideLargestRepo] else []) }

def planPortfolioExpansion (minTasksRequired : ℕ) (gate : PortfolioCoverageGate) :
    Except Invalid PortfolioExpansionPlan := do
  let input ← readInput minTasksRequired gate
  return planOf input

end Onmc.Experiment

import Mathlib.Algebra.Order.BigOperators.Group.List
import Mathlib.Data.Finset.Sort
import Mathlib.Data.String.Basic
import Onmc.EventLog
import Onmc.ProofGraph
import Onmc.Ranking

/-! Whether the executable lines of a change were reached by a passing test. -/
namespace Onmc.Verifier

open ProofGraph (Outcome)

structure ChangedRegion where
  file : String
  lines : Finset Int
  deriving DecidableEq

def ChangedRegion.new (file : String) (lines : Finset Int) : Except String ChangedRegion :=
  if PyText.strip file = "" then .error "ChangedRegion.file must not be empty"
  else if ∃ n ∈ lines, n ≤ 0 then .error "ChangedRegion.lines must be positive 1-based line numbers"
  else .ok ⟨file, lines⟩

structure TestExecution where
  testId : String
  outcome : Outcome
  covered : List (String × Finset Int)

def TestExecution.new (testId : String) (outcome : Outcome) (covered : List (String × Finset Int)) :
    Except String TestExecution :=
  if PyText.strip testId = "" then .error "TestExecution.test_id must not be empty" else .ok ⟨testId, outcome, covered⟩

structure UnreachedRegion where
  file : String
  lines : List Int
  reachedOnlyByFailing : List Int

structure ReachabilityReport where
  reached : Bool
  totalChangedLines : Nat
  reachedLines : Nat
  unreached : List UnreachedRegion
  reasons : List String

def ReachabilityReport.falseGreen (report : ReachabilityReport) : Bool := !report.reached

def coveredLines (executions : List TestExecution) (file : String) (outcome : Outcome) : Finset Int :=
  executions.foldl (fun covered execution =>
    if execution.outcome = outcome then covered ∪ (execution.covered.lookup file).getD ∅ else covered) ∅

def endsWith (text tail : String) : Bool := tail.toList.isSuffixOf text.toList

def nonExecutableDocumentationFile [Lowercase] (path : String) : Bool :=
  let lowered := Lowercase.lower path
  ["docs/", "doc/"].any (PyText.startsWith lowered) || [".md", ".markdown", ".rst", ".txt"].any (endsWith lowered)

/-- The first test id that was seen before. -/
def uniqueTestIds : List String → List TestExecution → Except String Unit
  | _, [] => .ok ()
  | seen, execution :: executions =>
    if seen.contains execution.testId then .error ("duplicate test_id: " ++ execution.testId)
    else uniqueTestIds (execution.testId :: seen) executions

def missed (executions : List TestExecution) (region : ChangedRegion) : List Int :=
  (region.lines.sort).filter (fun n => n ∉ coveredLines executions region.file .passed)

def onlyFailing (executions : List TestExecution) (region : ChangedRegion) : List Int :=
  (missed executions region).filter (fun n =>
    n ∈ coveredLines executions region.file .failed ∪ coveredLines executions region.file .error)

/-- `", ".join(f"\x7bfile\x7d:\x7bn\x7d" for n in lines[:5])` -/
def sample (file : String) (lines : List Int) : String :=
  PyText.join ", " ((lines.take 5).map (fun n => file ++ ":" ++ toString n))

def regionReasons (executions : List TestExecution) (region : ChangedRegion) : List String :=
  let lines := missed executions region
  if lines = [] then []
  else
    let suffix := if lines.length ≤ 5 then "" else " (+" ++ toString (lines.length - 5) ++ " more)"
    let first := "changed lines not reached by any passing test: " ++ sample region.file lines ++ suffix
    if onlyFailing executions region = [] then [first]
    else [first, "changed lines reached ONLY by failing/errored tests (not verified): " ++
      sample region.file (onlyFailing executions region)]

def unreachedRegions (regions : List ChangedRegion) (executions : List TestExecution) : List UnreachedRegion :=
  regions.filterMap (fun region =>
    let lines := missed executions region
    if lines = [] then none else some ⟨region.file, lines, onlyFailing executions region⟩)

/-- `reached`, and the reasons with the one put before them. -/
def verdict [Lowercase] (regions : List ChangedRegion) (totalChanged : Nat) (unreached : List UnreachedRegion)
    (reasons : List String) : Bool × List String :=
  if totalChanged = 0 ∧ regions ≠ [] ∧ ∀ region ∈ regions, nonExecutableDocumentationFile region.file = true then
    (true, "change touches no executable lines in documentation-only files" :: reasons)
  else if totalChanged = 0 then
    (false, "no changed executable lines to verify — a 'verified' claim here is vacuous" :: reasons)
  else (unreached.isEmpty, reasons)

/-- A region without lines adds nothing, so the loop skips it. -/
def assessReachability [Lowercase] (regions : List ChangedRegion) (executions : List TestExecution) :
    Except String ReachabilityReport := do
  uniqueTestIds [] executions
  let sorted := Ranking.sortBy ChangedRegion.file regions
  let total := (sorted.map (fun region => region.lines.card)).sum
  let reachedLines := (sorted.map (fun region => region.lines.card - (missed executions region).length)).sum
  let unreached := unreachedRegions sorted executions
  let decided := verdict regions total unreached (sorted.flatMap (regionReasons executions))
  return ⟨decided.1, total, reachedLines, unreached, PyText.fromKeys decided.2⟩

def isFalseGreen (report : ReachabilityReport) (claimedVerified : Bool) : Bool := claimedVerified && !report.reached

/-! The verdict. -/

/-- What an assessment of distinct tests clears. -/
def Reached [Lowercase] (regions : List ChangedRegion) (executions : List TestExecution) : Prop :=
  (∃ region ∈ regions, ∃ n, n ∈ region.lines) ∧
      (∀ region ∈ regions, ∀ n ∈ region.lines, n ∈ coveredLines executions region.file .passed) ∨
    regions ≠ [] ∧ ∀ region ∈ regions, region.lines = ∅ ∧ nonExecutableDocumentationFile region.file

theorem missed_nil {executions : List TestExecution} {region : ChangedRegion} :
    missed executions region = [] ↔ ∀ n ∈ region.lines, n ∈ coveredLines executions region.file .passed := by
  simp [missed, List.filter_eq_nil_iff]

theorem unreachedRegions_nil {regions : List ChangedRegion} {executions : List TestExecution} :
    unreachedRegions regions executions = [] ↔
      ∀ region ∈ regions, ∀ n ∈ region.lines, n ∈ coveredLines executions region.file .passed := by
  rw [unreachedRegions, List.filterMap_eq_nil_iff]
  constructor
  · intro none region member
    have nothing := none region member
    apply missed_nil.mp
    by_contra some
    simp [some] at nothing
  · intro covered region member
    simp [missed_nil.mpr (covered region member)]

theorem total_zero {regions : List ChangedRegion} :
    (regions.map (fun region => region.lines.card)).sum = 0 ↔ ∀ region ∈ regions, region.lines = ∅ := by
  induction regions with
  | nil => simp
  | cons region regions ih =>
    rw [List.map_cons, List.sum_cons, Nat.add_eq_zero_iff, ih, Finset.card_eq_zero, List.forall_mem_cons]

theorem assessReachability_reached [Lowercase] {regions : List ChangedRegion} {executions : List TestExecution}
    (distinct : uniqueTestIds [] executions = .ok ()) :
    ∃ report, assessReachability regions executions = .ok report ∧
      (report.reached = true ↔ Reached regions executions) := by
  refine ⟨_, by rw [assessReachability, distinct]; rfl, ?_⟩
  have member (region : ChangedRegion) : region ∈ Ranking.sortBy ChangedRegion.file regions ↔ region ∈ regions :=
    (Ranking.sortBy_perm ChangedRegion.file regions).mem_iff
  have zero : ((Ranking.sortBy ChangedRegion.file regions).map (fun region => region.lines.card)).sum = 0 ↔
      ∀ region ∈ regions, region.lines = ∅ := by
    rw [total_zero]
    simp only [member]
  have unreached : unreachedRegions (Ranking.sortBy ChangedRegion.file regions) executions = [] ↔
      ∀ region ∈ regions, ∀ n ∈ region.lines, n ∈ coveredLines executions region.file .passed := by
    rw [unreachedRegions_nil]
    simp only [member]
  by_cases empty : ∀ region ∈ regions, region.lines = ∅
  · have lineless : ¬ ∃ region ∈ regions, ∃ n, n ∈ region.lines := by
      rintro ⟨region, inside, n, held⟩
      rw [empty region inside] at held
      exact absurd held (Finset.notMem_empty n)
    have docs : Reached regions executions ↔
        regions ≠ [] ∧ ∀ region ∈ regions, nonExecutableDocumentationFile region.file = true := by
      simp only [Reached, lineless, false_and, false_or]
      exact and_congr_right (fun _ => forall₂_congr (fun region inside => and_iff_right (empty region inside)))
    rw [docs, verdict]
    split
    · rename_i exempt
      exact iff_of_true rfl exempt.2
    · rename_i blocked
      rw [if_pos (zero.mpr empty)]
      exact iff_of_false (by simp) (fun exempt => blocked ⟨zero.mpr empty, exempt⟩)
  · have some : ∃ region ∈ regions, ∃ n, n ∈ region.lines := by
      by_contra none
      apply empty
      intro region inside
      apply Finset.eq_empty_of_forall_notMem
      exact fun n listed => none ⟨region, inside, n, listed⟩
    have lined : ¬ (regions ≠ [] ∧ ∀ region ∈ regions, region.lines = ∅ ∧
        nonExecutableDocumentationFile region.file = true) :=
      fun all => empty (fun region inside => (all.2 region inside).1)
    have positive := mt zero.mp empty
    rw [verdict, if_neg (fun all => positive all.1), if_neg positive]
    simp only [List.isEmpty_iff, unreached, Reached, some, lined, true_and, or_false]

theorem reached_perm [Lowercase] {regions others : List ChangedRegion} (perm : regions.Perm others)
    (executions : List TestExecution) : Reached regions executions ↔ Reached others executions := by
  have nonempty : regions ≠ [] ↔ others ≠ [] := by
    rw [ne_eq, ne_eq, ← List.length_eq_zero_iff, ← List.length_eq_zero_iff, perm.length_eq]
  simp only [Reached, perm.mem_iff, nonempty]

end Onmc.Verifier

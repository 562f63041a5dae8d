import Onmc.Verifier.Reachability

/-! A coverage report and the changed lines, put together to the inputs of the reachability assessment. -/
namespace Onmc.Verifier

open ProofGraph (Outcome)

def defaultCoverageTestId : String := "coverage.py::suite"

def asReport (raw : Json) : Except String Json :=
  match raw with
  | .obj fields => .ok (.obj fields)
  | _ => .error "coverage report must be a JSON object with a 'files' key"

def files (report : Json) : List (String × Json) :=
  match report.get? "files" with
  | some (.obj files) => files
  | _ => []

/-- The positive ones. -/
def positive (values : List Int) : Finset Int := (values.filter (fun n => 0 < n)).toFinset

/-- `value` if it is an `int` and no `bool` -/
def integer? : Json → Option Int
  | .num (.int n) => some n
  | _ => none

/-- `_int_set` of a value of the report: strings and mappings hold no integers. -/
def intSet : Option Json → Finset Int
  | some (.arr items) => positive (items.filterMap integer?)
  | _ => ∅

def entryLines (entry : Option Json) (keys : List String) : Finset Int :=
  match entry with
  | some (.obj fields) => keys.foldl (fun lines key => lines ∪ intSet (fields.lookup key)) ∅
  | _ => ∅

def executedLines (report : Json) (file : String) : Finset Int :=
  entryLines ((files report).lookup file) ["executed_lines"]

def executableKeys : List String := ["executed_lines", "missing_lines", "excluded_lines"]

def executableLines (report : Json) (file : String) : Finset Int :=
  entryLines ((files report).lookup file) executableKeys

def coverageToExecutions (report : Json) (testId : String) : Except String (List TestExecution) := do
  let covered := (files report).filterMap (fun (path, entry) =>
    let lines := entryLines (some entry) ["executed_lines"]
    if lines = ∅ then none else some (path, lines))
  let execution ← TestExecution.new testId .passed covered
  return [execution]

/-- The changed lines of a file that its region keeps. -/
def regionLines (report : Json) (path : String) (values : List Int) : Finset Int :=
  let raw := positive values
  match (files report).lookup path with
  | none => raw
  | some entry =>
    let allowed := entryLines (some entry) executableKeys
    if allowed = ∅ then raw else raw ∩ allowed

def buildChangedRegions (report : Json) (changed : List (String × List Int)) : Except String (List ChangedRegion) :=
  ((Ranking.sortBy Prod.fst changed).filter (fun file => regionLines report file.1 file.2 ≠ ∅)).mapM
    (fun file => ChangedRegion.new file.1 (regionLines report file.1 file.2))

def verifiedOrFalseGreen [Lowercase] (coverageReport : Json) (changedRegions : List (String × List Int))
    (claimedVerified : Bool) (testId : String) : Except String Bool := do
  let report ← asReport coverageReport
  let regions ← buildChangedRegions report changedRegions
  let executions ← coverageToExecutions report testId
  let reachability ← assessReachability regions executions
  return isFalseGreen reachability claimedVerified

/-! What counts. -/

/-- The files of a report are a dict. -/
def Dictionary (report : Json) : Prop := (Dict.keys (files report)).Nodup

/-- A changed line that has to be executed: one that the report marks as executable, or any line of a file for
which it marks none. -/
def Counted (report : Json) (changed : List (String × List Int)) (file : String) (n : Int) : Prop :=
  ∃ values, (file, values) ∈ changed ∧ n ∈ values ∧ 0 < n ∧
    (executableLines report file = ∅ ∨ n ∈ executableLines report file)

/-- Only documentation changes. -/
def DocumentationOnly [Lowercase] (changed : List (String × List Int)) : Prop :=
  changed ≠ [] ∧ ∀ file ∈ changed, nonExecutableDocumentationFile file.1 = true

/-- The composed verdict clears a change that is claimed to be verified. -/
def Clears [Lowercase] (report : Json) (changed : List (String × List Int)) (testId : String) : Prop :=
  verifiedOrFalseGreen report changed true testId = .ok false

theorem mem_positive {values : List Int} {n : Int} : n ∈ positive values ↔ n ∈ values ∧ 0 < n := by
  simp [positive]

theorem mem_regionLines {report : Json} {path : String} {values : List Int} {n : Int} :
    n ∈ regionLines report path values ↔
      n ∈ values ∧ 0 < n ∧ (executableLines report path = ∅ ∨ n ∈ executableLines report path) := by
  simp only [regionLines, executableLines]
  cases (files report).lookup path with
  | none => simp [mem_positive, entryLines]
  | some entry =>
    by_cases none : entryLines (some entry) executableKeys = ∅
    · simp [mem_positive, none]
    · simp [mem_positive, none, and_assoc]

/-- The regions of a change whose files have names. -/
theorem buildChangedRegions_ok {report : Json} {changed : List (String × List Int)}
    {regions : List ChangedRegion} (built : buildChangedRegions report changed = .ok regions) (region : ChangedRegion) :
    region ∈ regions ↔ ∃ values, (region.file, values) ∈ changed ∧
      region.lines = regionLines report region.file values ∧ region.lines ≠ ∅ := by
  have member (file : String × List Int) : file ∈ Ranking.sortBy Prod.fst changed ↔ file ∈ changed :=
    (Ranking.sortBy_perm Prod.fst changed).mem_iff
  have made (file : String × List Int) (region : ChangedRegion)
      (new : ChangedRegion.new file.1 (regionLines report file.1 file.2) = .ok region) :
      region = ⟨file.1, regionLines report file.1 file.2⟩ := by
    simp only [ChangedRegion.new] at new
    split at new
    · cases new
    · split at new
      · cases new
      · exact (Except.ok.inj new).symm
  constructor
  · intro inside
    obtain ⟨file, kept, new⟩ := (Except.mem_mapM built region).mp inside
    obtain ⟨listed, some⟩ := List.mem_filter.mp kept
    obtain rfl := made file region new
    exact ⟨file.2, (member file).mp listed, rfl, by simpa using some⟩
  · rintro ⟨values, listed, same, some⟩
    have kept : (region.file, values) ∈ (Ranking.sortBy Prod.fst changed).filter
        (fun file => regionLines report file.1 file.2 ≠ ∅) :=
      List.mem_filter.mpr ⟨(member _).mpr listed, by simpa [← same] using some⟩
    obtain ⟨other, new⟩ := Except.mapM_total built _ kept
    have inside := (Except.mem_mapM built other).mpr ⟨_, kept, new⟩
    obtain rfl := made _ other new
    rw [← same] at inside
    exact inside

/-- A change whose files have names has regions. -/
theorem buildChangedRegions_total (report : Json) {changed : List (String × List Int)}
    (named : ∀ file ∈ changed, PyText.strip file.1 ≠ "") : ∃ regions, buildChangedRegions report changed = .ok regions := by
  have each : ∀ file ∈ (Ranking.sortBy Prod.fst changed).filter (fun file => regionLines report file.1 file.2 ≠ ∅),
      ChangedRegion.new file.1 (regionLines report file.1 file.2) =
        .ok ⟨file.1, regionLines report file.1 file.2⟩ := by
    intro file kept
    have listed := (Ranking.sortBy_perm Prod.fst changed).mem_iff.mp (List.mem_filter.mp kept).1
    have above : ¬ ∃ n ∈ regionLines report file.1 file.2, n ≤ 0 := by
      rintro ⟨n, inside, low⟩
      have high := (mem_regionLines.mp inside).2.1
      omega
    simp only [ChangedRegion.new, if_neg (named file listed), if_neg above]
  rw [buildChangedRegions]
  generalize (Ranking.sortBy Prod.fst changed).filter (fun file => regionLines report file.1 file.2 ≠ ∅) = kept at each
  induction kept with
  | nil => exact ⟨[], rfl⟩
  | cons file kept ih =>
    obtain ⟨regions, rest⟩ := ih (fun other member => each other (List.mem_cons_of_mem _ member))
    refine ⟨⟨file.1, regionLines report file.1 file.2⟩ :: regions, ?_⟩
    rw [List.mapM_cons, each file List.mem_cons_self, Except.ok_bind, rest]
    rfl

/-- Files without executed lines are left out, which is what no entry says too. -/
theorem lookup_covered {items : List (String × Json)} (once : (Dict.keys items).Nodup) (file : String) :
    ((items.filterMap (fun (path, entry) =>
        let lines := entryLines (some entry) ["executed_lines"]
        if lines = ∅ then none else some (path, lines))).lookup file).getD ∅ =
      entryLines (items.lookup file) ["executed_lines"] := by
  induction items with
  | nil => rfl
  | cons item items ih =>
    obtain ⟨path, entry⟩ := item
    obtain ⟨fresh, later⟩ := List.nodup_cons.mp once
    have rest := ih later
    by_cases here : file = path
    · subst here
      rw [List.lookup_cons_self]
      by_cases none : entryLines (some entry) ["executed_lines"] = ∅
      · have absent : items.lookup file = Option.none := by
          cases found : items.lookup file with
          | none => rfl
          | some other => exact absurd (Dict.mem_keys_of_lookup found) fresh
        simp only [List.filterMap_cons, none, if_true, rest, absent]
        rfl
      · simp only [List.filterMap_cons, none, if_false, List.lookup_cons_self, Option.getD_some]
    · have apart : (file == path) = false := beq_eq_false_iff_ne.mpr here
      rw [List.lookup_cons, apart]
      by_cases none : entryLines (some entry) ["executed_lines"] = ∅
      · simp only [List.filterMap_cons, none, if_true, rest]
      · simp only [List.filterMap_cons, none, if_false, List.lookup_cons, apart, rest]

/-- The one execution covers what the report says was executed, and nothing else. -/
theorem coveredLines_suite {report : Json} (dictionary : Dictionary report) {testId : String}
    {executions : List TestExecution} (built : coverageToExecutions report testId = .ok executions) (file : String) :
    coveredLines executions file .passed = executedLines report file ∧
      coveredLines executions file .failed = ∅ ∧ coveredLines executions file .error = ∅ := by
  simp only [coverageToExecutions, TestExecution.new] at built
  split at built
  · cases built
  · obtain rfl := (Except.ok.inj built).symm
    have held := lookup_covered dictionary file
    refine ⟨?_, rfl, rfl⟩
    simp only [coveredLines, List.foldl_cons, List.foldl_nil, if_true, Finset.empty_union]
    exact held

theorem suite_total (report : Json) {testId : String} (named : PyText.strip testId ≠ "") :
    ∃ executions, coverageToExecutions report testId = .ok executions ∧ uniqueTestIds [] executions = .ok () := by
  refine ⟨_, by rw [coverageToExecutions, TestExecution.new, if_neg named]; rfl, ?_⟩
  simp [uniqueTestIds]

/-- The composed verdict on a change whose files have names. -/
theorem clears_iff [Lowercase] {fields : List (String × Json)} {changed : List (String × List Int)} {testId : String}
    (dictionary : Dictionary (.obj fields)) (named : ∀ file ∈ changed, PyText.strip file.1 ≠ "")
    (test : PyText.strip testId ≠ "") :
    Clears (.obj fields) changed testId ↔ (∃ file n, Counted (.obj fields) changed file n) ∧
      ∀ file n, Counted (.obj fields) changed file n → n ∈ executedLines (.obj fields) file := by
  obtain ⟨regions, built⟩ := buildChangedRegions_total (.obj fields) named
  obtain ⟨executions, suite, distinct⟩ := suite_total (.obj fields) test
  obtain ⟨report, assessed, reached⟩ := @assessReachability_reached _ regions executions distinct
  have result : verifiedOrFalseGreen (.obj fields) changed true testId = .ok (!report.reached) := by
    simp only [verifiedOrFalseGreen, asReport, Except.ok_bind, built, suite, assessed]
    rfl
  have counted (file : String) (n : Int) : Counted (.obj fields) changed file n ↔
      ∃ region ∈ regions, region.file = file ∧ n ∈ region.lines := by
    constructor
    · rintro ⟨values, listed, inside⟩
      have kept := mem_regionLines.mpr inside
      refine ⟨⟨file, regionLines (.obj fields) file values⟩, ?_, rfl, kept⟩
      exact (buildChangedRegions_ok built _).mpr ⟨values, listed, rfl, Finset.ne_empty_of_mem kept⟩
    · rintro ⟨region, inside, rfl, kept⟩
      obtain ⟨values, listed, same, -⟩ := (buildChangedRegions_ok built region).mp inside
      rw [same] at kept
      exact ⟨values, listed, mem_regionLines.mp kept⟩
  have lined : ∀ region ∈ regions, region.lines ≠ ∅ := by
    intro region inside
    obtain ⟨values, -, -, some⟩ := (buildChangedRegions_ok built region).mp inside
    exact some
  have exempt : ¬ (regions ≠ [] ∧ ∀ region ∈ regions, region.lines = ∅ ∧
      nonExecutableDocumentationFile region.file = true) := by
    rintro ⟨some, empty⟩
    obtain ⟨region, inside⟩ := List.exists_mem_of_ne_nil _ some
    exact lined region inside (empty region inside).1
  have covered (file : String) := (coveredLines_suite dictionary suite file).1
  have cleared : Clears (.obj fields) changed testId ↔ report.reached = true := by
    rw [Clears, result]
    simp
  rw [cleared, reached]
  simp only [Reached, exempt, or_false, covered, counted]
  constructor
  · rintro ⟨⟨region, inside, n, held⟩, all⟩
    refine ⟨⟨region.file, n, region, inside, rfl, held⟩, ?_⟩
    rintro file n ⟨other, member, rfl, line⟩
    exact all other member n line
  · rintro ⟨⟨file, n, region, inside, -, held⟩, all⟩
    refine ⟨⟨region, inside, n, held⟩, fun other member n line => ?_⟩
    exact all other.file n ⟨other, member, rfl, line⟩

/-! Order. -/

/-- An assessment sees its tests through the lines that they cover. -/
theorem assessReachability_congr [Lowercase] {regions : List ChangedRegion} {executions others : List TestExecution}
    (covered : coveredLines executions = coveredLines others)
    (distinct : uniqueTestIds [] executions = uniqueTestIds [] others) :
    assessReachability regions executions = assessReachability regions others := by
  have misses : missed executions = missed others := by
    funext region
    simp only [missed, covered]
  have failing : onlyFailing executions = onlyFailing others := by
    funext region
    simp only [onlyFailing, misses, covered]
  have reasons : regionReasons executions = regionReasons others := by
    funext region
    simp only [regionReasons, misses, failing]
  simp only [assessReachability, unreachedRegions, distinct, misses, failing, reasons]

theorem coveredLines_eq {report other : Json} (dictionary : Dictionary report) (perm : (files report).Perm (files other))
    {testId : String} {executions others : List TestExecution} (built : coverageToExecutions report testId = .ok executions)
    (built' : coverageToExecutions other testId = .ok others) : coveredLines executions = coveredLines others := by
  have dictionary' : Dictionary other := (perm.map Prod.fst).nodup_iff.mp dictionary
  have same (file : String) : executedLines report file = executedLines other file := by
    rw [executedLines, executedLines, Dict.lookup_perm dictionary perm]
  funext file outcome
  obtain ⟨passed, failed, errored⟩ := coveredLines_suite dictionary built file
  obtain ⟨passed', failed', errored'⟩ := coveredLines_suite dictionary' built' file
  cases outcome with
  | passed => rw [passed, passed', same]
  | failed => rw [failed, failed']
  | error => rw [errored, errored']
  | skipped =>
    simp only [coverageToExecutions, TestExecution.new] at built built'
    split at built
    · cases built
    · rename_i test
      rw [if_neg test] at built'
      obtain rfl := (Except.ok.inj built).symm
      obtain rfl := (Except.ok.inj built').symm
      rfl

theorem buildChangedRegions_perm {report other : Json} (dictionary : Dictionary report)
    (perm : (files report).Perm (files other)) {changed others : List (String × List Int)}
    (once : (Dict.keys changed).Nodup) (moved : changed.Perm others) :
    buildChangedRegions report changed = buildChangedRegions other others := by
  have sorted : Ranking.sortBy Prod.fst changed = Ranking.sortBy Prod.fst others := by
    apply Ranking.sortBy_unique moved
    intro a first b second same
    exact List.inj_on_of_nodup_map once first second same
  have lines : regionLines report = regionLines other := by
    funext path values
    simp only [regionLines, Dict.lookup_perm dictionary perm]
  rw [buildChangedRegions, buildChangedRegions, sorted, lines]

/-- What the verdict on a change means, and what it does not depend on. -/
structure CompositionLaws [Lowercase] : Prop where
  /-- A change that is not in documentation only. -/
  composed : ∀ fields changed testId, Dictionary (.obj fields) → (∀ file ∈ changed, PyText.strip file.1 ≠ "") →
    PyText.strip testId ≠ "" → ¬ DocumentationOnly changed →
    (Clears (.obj fields) changed testId ↔ (∃ file n, Counted (.obj fields) changed file n) ∧
      ∀ file n, Counted (.obj fields) changed file n → n ∈ executedLines (.obj fields) file)
  /-- Any regions under any tests with distinct ids. -/
  regions : ∀ regions executions, uniqueTestIds [] executions = .ok () →
    ∃ report, assessReachability regions executions = .ok report ∧
      (isFalseGreen report true = false ↔ Reached regions executions)
  regionOrder : ∀ (regions others : List ChangedRegion) executions claimed, regions.Perm others →
    (assessReachability regions executions).map (fun report => isFalseGreen report claimed) =
      (assessReachability others executions).map (fun report => isFalseGreen report claimed)
  fileOrder : ∀ fields fields' (changed changed' : List (String × List Int)) claimed testId, Dictionary (.obj fields) →
    (files (.obj fields)).Perm (files (.obj fields')) → (Dict.keys changed).Nodup → changed.Perm changed' →
    verifiedOrFalseGreen (.obj fields) changed claimed testId = verifiedOrFalseGreen (.obj fields') changed' claimed testId

theorem composition_laws [Lowercase] : CompositionLaws := by
  refine ⟨?_, ?_, ?_, ?_⟩
  · intro fields changed testId dictionary named test _
    exact clears_iff dictionary named test
  · intro regions executions distinct
    obtain ⟨report, assessed, reached⟩ := @assessReachability_reached _ regions executions distinct
    exact ⟨report, assessed, by simpa [isFalseGreen] using reached⟩
  · intro regions others executions claimed perm
    cases distinct : uniqueTestIds [] executions with
    | error e => simp [assessReachability, distinct]
    | ok _ =>
      obtain ⟨report, assessed, reached⟩ := @assessReachability_reached _ regions executions distinct
      obtain ⟨report', assessed', reached'⟩ := @assessReachability_reached _ others executions distinct
      have same : report.reached = report'.reached := by
        rw [Bool.eq_iff_iff, reached, reached', reached_perm perm]
      rw [assessed, assessed']
      simp only [Except.map, isFalseGreen, same]
  · intro fields fields' changed changed' claimed testId dictionary perm once moved
    have built := buildChangedRegions_perm dictionary perm once moved
    simp only [verifiedOrFalseGreen, asReport, Except.ok_bind, built]
    cases regions : buildChangedRegions (.obj fields') changed' with
    | error e => rfl
    | ok regions =>
      simp only [Except.ok_bind]
      by_cases test : PyText.strip testId = ""
      · simp only [coverageToExecutions, TestExecution.new, if_pos test, Except.error_bind]
      · obtain ⟨executions, suite, distinct⟩ := suite_total (.obj fields) test
        obtain ⟨others, suite', distinct'⟩ := suite_total (.obj fields') test
        have covered := coveredLines_eq dictionary perm suite suite'
        rw [suite, suite', Except.ok_bind, Except.ok_bind,
          assessReachability_congr covered (distinct.trans distinct'.symm)]

/-- The first line of a module was executed, and nothing else of it is executable. -/
def oneLine : List (String × Json) :=
  [("files", .obj [("src/app.py", .obj [("executed_lines", .arr [.num (.int 1)]), ("missing_lines", .arr [])])])]

section

attribute [local instance] Lowercase.ascii

/-- Changing a comment of it, or a module that was not measured, is not cleared, though no changed line is marked as
executable. -/
theorem comment_blocked :
    (∀ n ∈ [2], n ∉ executableLines (.obj oneLine) "src/app.py") ∧
      ¬ Clears (.obj oneLine) [("src/app.py", [2])] defaultCoverageTestId ∧
      executableLines (.obj oneLine) "src/new.py" = ∅ ∧
      ¬ Clears (.obj oneLine) [("src/new.py", [2])] defaultCoverageTestId := by
  have named (path : String) (some : PyText.strip path ≠ "") : ∀ file ∈ [(path, [(2 : Int)])],
      PyText.strip file.1 ≠ "" := by simpa using some
  have dictionary : Dictionary (.obj oneLine) := by unfold Dictionary; decide
  have unmarked : (2 : Int) ∉ executableLines (.obj oneLine) "src/app.py" := by decide
  have measured : executableLines (.obj oneLine) "src/app.py" ≠ ∅ := by decide
  have unmeasured : executableLines (.obj oneLine) "src/new.py" = ∅ := by decide
  refine ⟨by simpa using unmarked, ?_, unmeasured, ?_⟩
  · rw [clears_iff dictionary (named _ (by decide)) (by decide)]
    rintro ⟨⟨file, n, values, listed, inside, -, marked⟩, -⟩
    obtain ⟨rfl, rfl⟩ := Prod.mk.inj (List.mem_singleton.mp listed)
    obtain rfl := List.mem_singleton.mp inside
    exact marked.elim measured unmarked
  · rw [clears_iff dictionary (named _ (by decide)) (by decide)]
    rintro ⟨-, all⟩
    have executed := all "src/new.py" 2 ⟨[2], List.mem_cons_self, List.mem_cons_self, by decide, .inl unmeasured⟩
    exact absurd executed (by decide)

end

end Onmc.Verifier

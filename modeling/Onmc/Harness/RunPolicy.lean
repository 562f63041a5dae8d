import Onmc.Fnmatch
import Onmc.Harness.Compiler

/-! Declarative run policy: the guardrails a run must satisfy, judged against what it was observed
to do. -/
namespace Onmc.Harness

/-- A finding of the memory-integrity scanner. -/
structure Finding where
  ruleId : String
  title : String
  matched : String
deriving DecidableEq

/-- `memguard.scanner.scan_entry`. Nothing below depends on what it looks for. -/
class Scanner where
  scanEntry : String → List Finding

inductive ViolationCode where
  | pathTraversal | pathDenied | pathNotAllowed | protectedFile | tooManyFiles | diffTooLarge
  | missingVerifier | secretLeak | approvalRequired
deriving DecidableEq

def ViolationCode.value : ViolationCode → String
  | pathTraversal => "path-traversal"
  | pathDenied => "path-denied"
  | pathNotAllowed => "path-not-allowed"
  | protectedFile => "protected-file"
  | tooManyFiles => "too-many-files"
  | diffTooLarge => "diff-too-large"
  | missingVerifier => "missing-required-verifier"
  | secretLeak => "secret-leak"
  | approvalRequired => "human-approval-required"

structure PolicyViolation where
  code : ViolationCode
  message : String
  subject : String
deriving DecidableEq

def PolicyViolation.toDict (v : PolicyViolation) : Json :=
  .obj [("code", .str v.code.value), ("message", .str v.message), ("subject", .str v.subject)]

/-- Observed outcome of one verifier the run actually executed. -/
structure VerifierSignal where
  name : String
  passed : Bool
deriving DecidableEq

structure RunPolicyDecision where
  allowed : Bool
  approvalsRequired : Bool
  violations : List PolicyViolation
deriving DecidableEq

def RunPolicyDecision.toDict (d : RunPolicyDecision) : Json :=
  .obj [("allowed", .bool d.allowed), ("approvals_required", .bool d.approvalsRequired),
    ("violations", .arr (d.violations.map PolicyViolation.toDict))]

/-- Patterns and names that the constructor lets through. -/
def Nonblank (items : List String) : Prop := ∀ item ∈ items, PyText.strip item ≠ ""

structure RunPolicy where
  allowedPaths : List String
  deniedPaths : List String
  maxFilesTouched : Option Nat
  maxDiffLines : Option Nat
  requiredVerifiers : List String
  protectedFiles : List String
  secretScan : Bool
  humanApprovalRequired : Bool
  allowedNonblank : Nonblank allowedPaths
  deniedNonblank : Nonblank deniedPaths
  requiredNonblank : Nonblank requiredVerifiers
  protectedNonblank : Nonblank protectedFiles

/-- A policy that constrains nothing but still scans for leaked secrets. -/
def RunPolicy.permissive : RunPolicy where
  allowedPaths := []
  deniedPaths := []
  maxFilesTouched := none
  maxDiffLines := none
  requiredVerifiers := []
  protectedFiles := []
  secretScan := true
  humanApprovalRequired := false
  allowedNonblank := by simp [Nonblank]
  deniedNonblank := by simp [Nonblank]
  requiredNonblank := by simp [Nonblank]
  protectedNonblank := by simp [Nonblank]

def secretRulePrefixes : List String := ["MG-EXF", "MG-SSH"]

/-- `secret_findings` -/
def secretFindings [Scanner] (text : String) : List Finding :=
  (Scanner.scanEntry text).filter (fun finding => secretRulePrefixes.any (PyText.startsWith finding.ruleId))

/-- `path.replace("\\", "/")` -/
def slashes (path : String) : String := path.map (fun c => if c = '\\' then '/' else c)

/-- Does a walk over the parts ever leave the directory it started in? -/
def escapes : Nat → List String → Bool
  | _, [] => false
  | depth, part :: parts =>
    if part = "" ∨ part = "." then escapes depth parts
    else if part = ".." then
      match depth with
      | 0 => true
      | depth + 1 => escapes depth parts
    else escapes (depth + 1) parts

/-- `_is_traversal` -/
def isTraversal (path : String) : Bool :=
  path = "" || PyText.startsWith path "/" || PyText.startsWith path "\\" ||
    PyText.contains ((PyText.split '/' path).headD "") ":" || escapes 0 (PyText.split '/' (slashes path))

/-- `_matches_any` -/
def matchesAny (path : String) (patterns : List String) : Bool :=
  patterns.any (Fnmatch.fnmatch (slashes path))

def violationIf (condition : Prop) [Decidable condition] (code : ViolationCode) (message subject : String) :
    List PolicyViolation :=
  if condition then [⟨code, message, subject⟩] else []

/-- The violations of one changed path. -/
def pathViolations (policy : RunPolicy) (path : String) : List PolicyViolation :=
  if isTraversal path then [⟨.pathTraversal, "changed path escapes the repository root", path⟩]
  else
    violationIf (matchesAny path policy.protectedFiles) .protectedFile "protected file was modified" path ++
    if matchesAny path policy.deniedPaths then [⟨.pathDenied, "path is denied by policy", path⟩]
    else violationIf (policy.allowedPaths ≠ [] ∧ matchesAny path policy.allowedPaths = false)
      .pathNotAllowed "path is outside the allowed set" path

/-- The violation of a limit, when there is one. -/
def limitViolation (limit : Option Nat) (count : Nat) (code : ViolationCode) (what : String) :
    List PolicyViolation :=
  match limit with
  | none => []
  | some limit => violationIf (limit < count) code
      (toString count ++ " " ++ what ++ " exceeds limit " ++ toString limit) ""

def verifierViolations (policy : RunPolicy) (signals : List VerifierSignal) : List PolicyViolation :=
  let passed := (signals.filter VerifierSignal.passed).map VerifierSignal.name
  policy.requiredVerifiers.flatMap fun required =>
    violationIf (passed.any (PyText.contains · required) = false) .missingVerifier
      "required verifier did not pass" required

def secretViolations [Scanner] (policy : RunPolicy) (diffText : String) : List PolicyViolation :=
  if policy.secretScan then
    (secretFindings diffText).map fun finding =>
      ⟨.secretLeak, finding.title ++ " (" ++ finding.ruleId ++ ")", finding.matched⟩
  else []

def approvalViolation (policy : RunPolicy) : List PolicyViolation :=
  violationIf policy.humanApprovalRequired .approvalRequired
    "policy requires human approval before this run is verified" ""

/-- `evaluate_run_policy` -/
def evaluateRunPolicy [Scanner] (policy : RunPolicy) (changedFiles : List String) (diffLineCount : Nat)
    (diffText : String) (signals : List VerifierSignal) : RunPolicyDecision :=
  let violations := changedFiles.flatMap (pathViolations policy) ++
    limitViolation policy.maxFilesTouched changedFiles.length .tooManyFiles "files touched" ++
    limitViolation policy.maxDiffLines diffLineCount .diffTooLarge "diff lines" ++
    verifierViolations policy signals ++ secretViolations policy diffText ++ approvalViolation policy
  ⟨violations.all (fun v => v.code = .approvalRequired), policy.humanApprovalRequired, violations⟩

section Allowed

variable [Scanner] {policy : RunPolicy} {changedFiles : List String} {diffLineCount : Nat}
  {diffText : String} {signals : List VerifierSignal}

/-- An allowed run has no violation but the one that asks for approval. -/
theorem allowed_iff : (evaluateRunPolicy policy changedFiles diffLineCount diffText signals).allowed = true ↔
    (∀ path ∈ changedFiles, pathViolations policy path = []) ∧
    (∀ limit, policy.maxFilesTouched = some limit → changedFiles.length ≤ limit) ∧
    (∀ limit, policy.maxDiffLines = some limit → diffLineCount ≤ limit) ∧
    verifierViolations policy signals = [] ∧ secretViolations policy diffText = [] := by
  have paths : (∀ v ∈ changedFiles.flatMap (pathViolations policy), v.code = .approvalRequired) ↔
      ∀ path ∈ changedFiles, pathViolations policy path = [] := by
    have blocking : ∀ path, ∀ v ∈ pathViolations policy path, v.code ≠ .approvalRequired := by
      intro path v hv
      simp only [pathViolations, violationIf] at hv
      split at hv
      · cases List.mem_singleton.mp hv
        simp
      · rcases List.mem_append.mp hv with hv | hv
        · split at hv
          · cases List.mem_singleton.mp hv
            simp
          · cases hv
        · split at hv
          · cases List.mem_singleton.mp hv
            simp
          · split at hv
            · cases List.mem_singleton.mp hv
              simp
            · cases hv
    constructor
    · intro h path hp
      refine List.eq_nil_iff_forall_not_mem.mpr fun v hv => ?_
      exact blocking path v hv (h v (List.mem_flatMap.mpr ⟨path, hp, hv⟩))
    · intro h v hv
      obtain ⟨path, hp, hv⟩ := List.mem_flatMap.mp hv
      rw [h path hp] at hv
      cases hv
  have limits : ∀ (limit : Option Nat) (count : Nat) (code : ViolationCode) (what : String),
      code ≠ .approvalRequired → ((∀ v ∈ limitViolation limit count code what, v.code = .approvalRequired) ↔
        ∀ bound, limit = some bound → count ≤ bound) := by
    intro limit count code what hc
    cases limit with
    | none => simp [limitViolation]
    | some bound =>
      by_cases exceeds : bound < count
      · simp [limitViolation, violationIf, exceeds, hc]
      · simp [limitViolation, violationIf, exceeds, Nat.le_of_not_lt exceeds]
  have verifiers : (∀ v ∈ verifierViolations policy signals, v.code = .approvalRequired) ↔
      verifierViolations policy signals = [] := by
    constructor
    · intro h
      refine List.eq_nil_iff_forall_not_mem.mpr fun v hv => ?_
      have code := h v hv
      obtain ⟨required, _, hv⟩ := List.mem_flatMap.mp hv
      simp only [violationIf] at hv
      split at hv
      · cases List.mem_singleton.mp hv
        cases code
      · cases hv
    · intro h v hv
      rw [h] at hv
      cases hv
  have secrets : (∀ v ∈ secretViolations policy diffText, v.code = .approvalRequired) ↔
      secretViolations policy diffText = [] := by
    unfold secretViolations
    split
    · cases secretFindings diffText with
      | nil => simp
      | cons finding findings => simp
    · simp
  have approval : ∀ v ∈ approvalViolation policy, v.code = .approvalRequired := by
    intro v hv
    simp only [approvalViolation, violationIf] at hv
    split at hv
    · cases List.mem_singleton.mp hv
      rfl
    · cases hv
  simp only [evaluateRunPolicy, List.all_eq_true, decide_eq_true_eq, List.mem_append, or_imp,
    forall_and, paths, limits _ _ .tooManyFiles _ (by simp), limits _ _ .diffTooLarge _ (by simp), verifiers,
    secrets, and_assoc]
  exact ⟨fun ⟨a, b, c, d, e, _⟩ => ⟨a, b, c, d, e⟩, fun ⟨a, b, c, d, e⟩ => ⟨a, b, c, d, e, approval⟩⟩

end Allowed

end Onmc.Harness

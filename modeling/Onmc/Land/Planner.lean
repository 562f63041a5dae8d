import Mathlib.Data.List.Basic
import Onmc.PyText

/-! The pull-request planner: one snapshot of a pull request in, one step out. A field that the
snapshot's dict leaves out is `none`, and reads as the source's default for it. -/
namespace Onmc.Land

inductive Step where
  | wait | rebase | resolveThreads | merge | done | fail
  deriving DecidableEq, Repr

/-- One entry of `checks`. -/
structure Check where
  name : Option String
  status : Option String
  conclusion : Option String
  deriving DecidableEq, Repr

/-- One answer of `pr_state`. -/
structure PrState where
  merged : Option Bool
  mergeStateStatus : Option String
  checks : Option (List Check)
  unresolvedThreads : Option Int
  unresolvedThreadIds : Option (List String)
  contention : Option Int
  deriving DecidableEq, Repr

namespace Check

def nameText (c : Check) : String := c.name.getD ""

def statusText (c : Check) : String := c.status.getD ""

end Check

namespace PrState

def isMerged (s : PrState) : Bool := s.merged.getD false

def mergeState (s : PrState) : String := s.mergeStateStatus.getD "UNKNOWN"

def checkList (s : PrState) : List Check := s.checks.getD []

def unresolved (s : PrState) : Int := s.unresolvedThreads.getD 0

end PrState

/-- `_ADVISORY`; only membership is asked of it. -/
def advisoryNames : List String :=
  ["sourcery", "greetings", "apply-area-labels", "auto-assign", "label"]

/-- `_HARD_BLOCKERS` -/
def hardBlockerNames : List String := ["codeql"]

section

variable [Lowercase]

def mentions (names : List String) (name : String) : Bool :=
  names.any (fun p => PyText.contains (Lowercase.lower name) p)

def isAdvisory (name : String) : Bool := mentions advisoryNames name

def isHardBlocker (name : String) : Bool := mentions hardBlockerNames name

/-- A hard blocker that has failed. -/
def Check.blocks (c : Check) : Bool := isHardBlocker c.nameText && c.conclusion == some "FAILURE"

def Check.pending (c : Check) : Bool :=
  c.conclusion == none || c.statusText == "QUEUED" || c.statusText == "IN_PROGRESS"

/-- The loop over the checks that are not advisory: `none` once one of them has failed, else whether
one of them is pending. -/
def anyPending : List Check → Bool → Option Bool
  | [], pending => some pending
  | c :: rest, pending =>
    if isAdvisory c.nameText then anyPending rest pending
    else if c.conclusion == some "FAILURE" then none
    else anyPending rest (pending || c.pending)

def nextStep (s : PrState) : Step :=
  if s.isMerged then .done
  else if s.checkList.any Check.blocks then .fail
  else if s.mergeState == "BEHIND" then .rebase
  else if 0 < s.unresolved then .resolveThreads
  else match anyPending s.checkList false with
    | none => .fail
    | some true => .wait
    | some false =>
      if s.mergeState == "CLEAN" then .merge
      else if s.mergeState == "BLOCKED" then .fail
      else .wait

/-! What the planner's answer says about the snapshot. -/

/-- A check that neither fails nor is pending, as the planner reads it. -/
def Check.cleared (c : Check) : Bool := c.conclusion != some "FAILURE" && !c.pending

theorem anyPending_some {checks : List Check} {pending found : Bool}
    (h : anyPending checks pending = some found) :
    found = (pending || checks.any (fun c => !isAdvisory c.nameText && c.pending)) := by
  induction checks generalizing pending with
  | nil => simpa [anyPending] using h.symm
  | cons c rest ih =>
    simp only [anyPending] at h
    split at h
    · rename_i advisory
      simpa [advisory] using ih h
    · rename_i advisory
      split at h
      · contradiction
      · simpa [advisory, Bool.or_assoc] using ih h

theorem anyPending_none (checks : List Check) (pending : Bool) :
    anyPending checks pending = none ↔
      ∃ c ∈ checks, isAdvisory c.nameText = false ∧ c.conclusion = some "FAILURE" := by
  induction checks generalizing pending with
  | nil => simp [anyPending]
  | cons c rest ih =>
    simp only [anyPending]
    split
    · rename_i advisory
      simp [ih, advisory]
    · rename_i advisory
      split
      · rename_i failed
        exact ⟨fun _ => ⟨c, List.mem_cons_self, by simpa using advisory, by simpa using failed⟩,
          fun _ => rfl⟩
      · rename_i failed
        have unfailed : c.conclusion ≠ some "FAILURE" := by simpa using failed
        simp [ih (pending || c.pending), unfailed]

/-- No failure and nothing pending among the checks that are not advisory. -/
theorem anyPending_false (checks : List Check) : anyPending checks false = some false ↔
    ∀ c ∈ checks, isAdvisory c.nameText = false → c.cleared = true := by
  constructor
  · intro h c hc advisory
    have quiet := anyPending_some h
    have unfailed : ¬∃ c ∈ checks, isAdvisory c.nameText = false ∧ c.conclusion = some "FAILURE" := by
      rw [← anyPending_none checks false, h]
      simp
    have running : c.pending = false := by
      by_contra running
      have : checks.any (fun c => !isAdvisory c.nameText && c.pending) = true :=
        List.any_eq_true.mpr ⟨c, hc, by simp [advisory, running]⟩
      simp [this] at quiet
    have passed : c.conclusion ≠ some "FAILURE" := fun failed => unfailed ⟨c, hc, advisory, failed⟩
    simp [Check.cleared, running, passed]
  · intro all
    cases h : anyPending checks false with
    | none =>
      obtain ⟨c, hc, advisory, failed⟩ := (anyPending_none checks false).mp h
      have := all c hc advisory
      simp [Check.cleared, failed] at this
    | some found =>
      have quiet := anyPending_some h
      have none_pending : checks.any (fun c => !isAdvisory c.nameText && c.pending) = false := by
        rw [List.any_eq_false]
        intro c hc
        have := all c hc
        simp only [Check.cleared, Bool.and_eq_true, bne_iff_ne, Bool.not_eq_true'] at this
        simp only [Bool.and_eq_true, Bool.not_eq_true', not_and, Bool.not_eq_true]
        exact fun advisory => (this advisory).2
      simp [quiet, none_pending]

/-- What a snapshot looks like that the planner merges. -/
structure Mergeable (s : PrState) : Prop where
  unmerged : s.isMerged = false
  unblocked : s.checkList.any Check.blocks = false
  resolved : s.unresolved ≤ 0
  cleared : ∀ c ∈ s.checkList, isAdvisory c.nameText = false → c.cleared = true
  clean : s.mergeState = "CLEAN"

theorem nextStep_merge (s : PrState) : nextStep s = .merge ↔ Mergeable s := by
  constructor
  · intro h
    simp only [nextStep] at h
    split at h
    · contradiction
    · split at h
      · contradiction
      · split at h
        · contradiction
        · split at h
          · contradiction
          · rename_i unmerged unblocked _ resolved
            cases found : anyPending s.checkList false with
            | none => simp [found] at h
            | some pending =>
              cases pending with
              | true => simp [found] at h
              | false =>
                simp only [found] at h
                split at h
                · rename_i clean
                  exact ⟨by simpa using unmerged, by simpa using unblocked, by omega,
                    (anyPending_false _).mp found, by simpa using clean⟩
                · split at h <;> contradiction
  · rintro ⟨unmerged, unblocked, resolved, cleared, clean⟩
    have found := (anyPending_false s.checkList).mpr cleared
    have open_ : ¬0 < s.unresolved := by omega
    simp [nextStep, unmerged, unblocked, open_, found, clean]

end

end Onmc.Land

import Mathlib.Data.Nat.Basic
import Onmc.Land.Merges

/-! The lander merges what is green, as long as GitHub reports its checks in the words that the
planner knows. -/
namespace Onmc.Land

variable {T : Type} [LinearOrder T] [Add T] [Sub T] [Lowercase]

/-- `SUCCESS`, `NEUTRAL` and `SKIPPED`; everything else GitHub concludes is not a pass. -/
def passing : List String := ["SUCCESS", "NEUTRAL", "SKIPPED"]

def Check.Passed (c : Check) : Prop :=
  c.status = some "COMPLETED" ∧ ∃ conclusion ∈ passing, c.conclusion = some conclusion

/-- A snapshot that may be merged. -/
structure Green (s : PrState) : Prop where
  passed : ∀ c ∈ s.checkList, isAdvisory c.nameText = false → c.Passed
  resolved : s.unresolved ≤ 0
  clean : s.mergeState = "CLEAN"

/-- What is asked of a run of the lander; `Required` are the checks the branch cannot do without. -/
structure Lands (Required : Check → Prop) (w : World T) (o : Options T) : Prop where
  green : ∀ n before after, (land w o n).1 = before ++ .merge :: after →
    ∃ earlier s, before = earlier ++ [.prState (.ok s)] ∧ Green s
  advisory : ∀ n s, .prState (.ok s) ∈ (land w o n).1 →
    ∀ c ∈ s.checkList, isAdvisory c.nameText = true → ¬Required c
  once : ∀ n, (land w o n).1.countP Call.isMerge ≤ 1
  ends : ∀ n, w.start + o.maxWait ≤ w.monotonic n → (land w o (n + 1)).2.isSome

/-- The snapshots the planner reads rightly: no required check goes by an advisory name, and where
nothing else keeps it from a merge, no check that is not advisory is in a state past the planner's
words, such as `CANCELLED` or `TIMED_OUT`. -/
structure Readable (Required : Check → Prop) (o : Options T) (s : PrState) : Prop where
  names : ∀ c ∈ s.checkList, isAdvisory c.nameText = true → ¬Required c
  words : gate o s = none → Mergeable s →
    ∀ c ∈ s.checkList, isAdvisory c.nameText = false → c.Passed

theorem land_once (w : World T) (o : Options T) (n : Nat) : (land w o n).1.countP Call.isMerge ≤ 1 := by
  have unmerged : ∀ calls : List (Call T), .merge ∉ calls → calls.countP Call.isMerge = 0 := by
    intro calls h
    rw [List.countP_eq_zero]
    intro c hc
    cases c with
    | merge => exact absurd hc h
    | _ => simp [Call.isMerge]
  rcases land_cases w o n with h | ⟨k, s, merged, before⟩
  · rw [unmerged _ h]
    exact Nat.zero_le 1
  · rw [merged.calls, List.countP_append, unmerged _ before]
    simp [Call.isMerge]

/-- The call right before a merge is the poll of a snapshot the planner would merge. -/
theorem merge_after_poll {w : World T} {o : Options T} {n : Nat} {before after : List (Call T)}
    (split : (land w o n).1 = before ++ .merge :: after) : ∃ k s, (land w o k).2 = none ∧
      Considers w o k s ∧ nextStep s = .merge ∧ before = (land w o k).1 ++ [.prState (.ok s)] := by
  rcases land_cases w o n with unmerged | ⟨k, s, merged, none_before⟩
  · rw [split] at unmerged
    simp at unmerged
  · have calls : ((land w o k).1 ++ [.prState (.ok s)]) ++ .merge :: [] = before ++ .merge :: after := by
      rw [← split, merged.calls, List.append_assoc, List.singleton_append]
    have same := (List.append_cons_inj_of_notMem (by simp [none_before]) (by simp)).mp calls
    exact ⟨k, s, merged.running, merged.considered, merged.step, same.1.symm⟩

/-- The lander is safe exactly in the runs whose snapshots the planner reads rightly. -/
theorem lands_iff_readable (Required : Check → Prop) (w : World T) (o : Options T) :
    Lands Required w o ↔
      ∀ k s, (land w o k).2 = none → w.prState k = .ok s → Readable Required o s := by
  constructor
  · intro lands k s running polled
    refine ⟨lands.advisory (k + 1) s ((land_polls w o _ s).mpr ⟨k, by omega, running, polled⟩), ?_⟩
    intro gated mergeable
    have calls := land_merges running ⟨polled, gated⟩ ((nextStep_merge s).mpr mergeable)
    obtain ⟨earlier, s', before, green⟩ := lands.green (k + 1) ((land w o k).1 ++ [.prState (.ok s)]) []
      (by rw [calls, List.append_assoc, List.singleton_append])
    have same : s' = s := by simpa using (List.append_inj_right' before rfl).symm
    exact same ▸ green.passed
  · intro readable
    refine ⟨?_, ?_, land_once w o, ?_⟩
    · intro n before after split
      obtain ⟨k, s, running, considered, step, rfl⟩ := merge_after_poll split
      have mergeable := (nextStep_merge s).mp step
      exact ⟨_, s, rfl, (readable k s running considered.1).words considered.2 mergeable,
        mergeable.resolved, mergeable.clean⟩
    · intro n s h
      obtain ⟨k, _, running, polled⟩ := (land_polls w o n s).mp h
      exact (readable k s running polled).names
    · intro n late
      rw [land]
      rcases ended : (land w o n).2 with - | outcome
      · rw [andThen_of_none _ ended]
        exact pass_ends w o n late
      · rw [andThen_of_some _ (by simp [ended])]
        simp [ended]

/-- A pull request whose only check was cancelled. -/
def cancelled : PrState where
  merged := some false
  mergeStateStatus := some "CLEAN"
  checks := some [⟨some "tests", some "COMPLETED", some "CANCELLED"⟩]
  unresolvedThreads := some 0
  unresolvedThreadIds := some []
  contention := none

def cancelledWorld : World Nat where
  start := 0
  monotonic := fun i => i
  prState := fun _ => .ok cancelled
  merge := fun _ => .ok ()
  updateBranch := fun _ => .ok ()
  resolveThread := fun _ _ => .ok ()
  sleep := fun _ _ => .ok ()

omit [Lowercase] in
theorem cancelled_merged : ¬@Lands Nat _ _ _ .ascii (fun _ => False) cancelledWorld ⟨7, 30, 1800, none⟩ := by
  let _ : Lowercase := .ascii
  intro lands
  have step : nextStep cancelled = .merge := by decide +kernel
  have calls : (land cancelledWorld ⟨7, 30, 1800, none⟩ 1).1 = [.prState (.ok cancelled), .merge] :=
    land_merges rfl ⟨rfl, rfl⟩ step
  obtain ⟨earlier, s, before, green⟩ := lands.green 1 [.prState (.ok cancelled)] [] calls
  have same : s = cancelled := by
    have := List.append_inj_right' (show [] ++ _ = _ from before) rfl
    simpa using this.symm
  obtain ⟨-, conclusion, known, concluded⟩ := green.passed ⟨some "tests", some "COMPLETED", some "CANCELLED"⟩
    (by rw [same]; exact List.mem_cons_self) (by decide +kernel)
  cases Option.some.inj concluded
  exact absurd known (by decide)

end Onmc.Land

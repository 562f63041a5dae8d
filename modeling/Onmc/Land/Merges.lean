import Mathlib.Order.Basic
import Onmc.Land.Driver

/-! Where the lander merges: once, right after a snapshot of its own, and what that snapshot must
look like for the merge to be a safe one. -/
namespace Onmc.Land

variable {T : Type} [LinearOrder T] [Add T] [Sub T] [Lowercase]

def Call.isMerge : Call T → Bool
  | .merge => true
  | _ => false

def Call.isPoll : Call T → Bool
  | .prState _ => true
  | _ => false

/-- The calls between a poll and the next one, merging apart. -/
def Quiet (calls : List (Call T)) : Prop := ∀ c ∈ calls, c.isMerge = false ∧ c.isPoll = false

section

omit [LinearOrder T] [Add T] [Sub T] [Lowercase]

theorem Quiet.no_merge {calls : List (Call T)} (quiet : Quiet calls) : .merge ∉ calls :=
  fun h => by simpa [Call.isMerge] using (quiet _ h).1

theorem resolveThreads_quiet (resolve : String → Except Failure Unit) (ids : List String) :
    Quiet (resolveThreads resolve ids : Pass T).1 := by
  induction ids with
  | nil => simp [resolveThreads, Quiet]
  | cons id rest ih =>
    simp only [resolveThreads]
    cases resolve id with
    | error e => simp [Quiet, Call.isMerge, Call.isPoll]
    | ok done => simpa [Quiet, Call.isMerge, Call.isPoll] using ih

theorem andThen_quiet {first next : Pass T} (hf : Quiet first.1) (hn : Quiet next.1) :
    Quiet (andThen first next).1 := by
  unfold andThen
  split
  · exact hf
  · intro c hc
    rcases List.mem_append.mp hc with hc | hc
    · exact hf c hc
    · exact hn c hc

theorem andThen_of_none {first : Pass T} (next : Pass T) (h : first.2 = none) :
    andThen first next = (first.1 ++ next.1, next.2) := by
  simp [andThen, h]

theorem andThen_of_some {first : Pass T} (next : Pass T) (h : first.2.isSome) :
    andThen first next = first := by
  obtain ⟨calls, outcome⟩ := first
  cases outcome with
  | some outcome => rfl
  | none => contradiction

end

omit [Lowercase] in
theorem pause_quiet (w : World T) (o : Options T) (i : Nat) : Quiet (pause w o i).1 := by
  simp only [pause]
  split
  · simp [Quiet]
  · split <;> simp [Quiet, Call.isMerge, Call.isPoll]

omit [Lowercase] in
theorem pause_ends (w : World T) (o : Options T) (i : Nat) (late : w.start + o.maxWait ≤ w.monotonic i) :
    (pause w o i).2.isSome := by
  simp [pause, late]

theorem act_quiet (w : World T) (o : Options T) (i : Nat) (s : PrState) (h : nextStep s ≠ .merge) :
    Quiet (act w o i s).1 := by
  unfold act
  cases step : nextStep s with
  | merge => exact absurd step h
  | done => simp [Quiet]
  | fail => simp [Quiet]
  | wait => exact pause_quiet w o i
  | rebase =>
    dsimp only
    cases w.updateBranch i with
    | ok done => exact andThen_quiet (by simp [Quiet, Call.isMerge, Call.isPoll]) (pause_quiet w o i)
    | error e => simp [Quiet, Call.isMerge, Call.isPoll]
  | resolveThreads => exact andThen_quiet (resolveThreads_quiet _ _) (pause_quiet w o i)

theorem act_merge (w : World T) (o : Options T) (i : Nat) (s : PrState) (h : nextStep s = .merge) :
    (act w o i s).1 = [.merge] ∧ (act w o i s).2.isSome := by
  unfold act
  rw [h]
  cases w.merge i <;> simp

/-- Past its deadline, the lander stops whatever the pass did. -/
theorem act_ends (w : World T) (o : Options T) (i : Nat) (s : PrState)
    (late : w.start + o.maxWait ≤ w.monotonic i) : (act w o i s).2.isSome := by
  have paused := pause_ends w o i late
  have after : ∀ first : Pass T, (andThen first (pause w o i)).2.isSome := by
    intro first
    unfold andThen
    split
    · rfl
    · exact paused
  unfold act
  cases nextStep s with
  | merge => cases w.merge i <;> rfl
  | done => rfl
  | fail => rfl
  | wait => exact paused
  | rebase =>
    dsimp only
    cases w.updateBranch i with
    | ok done => exact after _
    | error e => rfl
  | resolveThreads => exact after _

/-- Pass `i` hands the planner this snapshot: it was answered, and the contention gate lets it by. -/
def Considers (w : World T) (o : Options T) (i : Nat) (s : PrState) : Prop :=
  w.prState i = .ok s ∧ gate o s = none

/-- The calls of a pass: the poll, then either the merge, which ends the lander, or quiet ones. -/
theorem pass_cases (w : World T) (o : Options T) (i : Nat) :
    (∃ s, Considers w o i s ∧ nextStep s = .merge ∧ (pass w o i).2.isSome ∧
      (pass w o i).1 = [.prState (w.prState i), .merge]) ∨
    (∀ s, Considers w o i s → nextStep s ≠ .merge) ∧
      ∃ rest, Quiet rest ∧ (pass w o i).1 = .prState (w.prState i) :: rest := by
  unfold pass
  cases polled : w.prState i with
  | error e => exact .inr ⟨fun s h => by simp [Considers, polled] at h, [], by simp [Quiet], rfl⟩
  | ok s =>
    have same : ∀ s', Considers w o i s' → s' = s := fun s' h => by
      simpa [polled] using h.1.symm
    cases gated : gate o s with
    | some outcome =>
      refine .inr ⟨fun s' h => ?_, [], by simp [Quiet], by simp [andThen, gated]⟩
      have deferred := h.2
      simp [same s' h, gated] at deferred
    | none =>
      by_cases step : nextStep s = .merge
      · have acted := act_merge w o i s step
        exact .inl ⟨s, ⟨polled, gated⟩, step, by simp [andThen, gated, acted.2],
          by simp [andThen, gated, acted.1]⟩
      · exact .inr ⟨fun s' h => same s' h ▸ step, (act w o i s).1, act_quiet w o i s step,
          by simp [andThen, gated]⟩

theorem pass_ends (w : World T) (o : Options T) (i : Nat)
    (late : w.start + o.maxWait ≤ w.monotonic i) : (pass w o i).2.isSome := by
  unfold pass
  cases w.prState i with
  | error e => rfl
  | ok s =>
    simp only [andThen]
    cases gate o s with
    | some outcome => rfl
    | none => exact act_ends w o i s late

/-- The first `n` passes merge on snapshot `s`, which is the last one they see. -/
structure MergesOn (w : World T) (o : Options T) (n k : Nat) (s : PrState) : Prop where
  within : k < n
  running : (land w o k).2 = none
  considered : Considers w o k s
  step : nextStep s = .merge
  ended : (land w o n).2.isSome
  calls : (land w o n).1 = (land w o k).1 ++ [.prState (.ok s), .merge]

/-- A running lander has merged nothing; an ended one has at most merged in its last pass. -/
theorem land_cases (w : World T) (o : Options T) (n : Nat) :
    .merge ∉ (land w o n).1 ∨ ∃ k s, MergesOn w o n k s ∧ .merge ∉ (land w o k).1 := by
  induction n with
  | zero => exact .inl (by simp [land])
  | succ n ih =>
    rcases ended : (land w o n).2 with - | outcome
    · have unmerged : .merge ∉ (land w o n).1 := by
        rcases ih with ih | ⟨k, s, merged, _⟩
        · exact ih
        · simpa [ended] using merged.ended
      have unfolded : land w o (n + 1) = ((land w o n).1 ++ (pass w o n).1, (pass w o n).2) :=
        andThen_of_none _ ended
      rcases pass_cases w o n with ⟨s, considered, step, last, calls⟩ | ⟨_, rest, quiet, calls⟩
      · refine .inr ⟨n, s, ⟨by omega, ended, considered, step, ?_, ?_⟩, unmerged⟩
        · rw [unfolded]; exact last
        · rw [unfolded, ← considered.1]; exact congrArg _ calls
      · refine .inl ?_
        rw [unfolded, calls]
        simp [unmerged, quiet.no_merge]
    · have same : land w o (n + 1) = land w o n := andThen_of_some _ (by simp [ended])
      rw [same]
      rcases ih with ih | ⟨k, s, merged, before⟩
      · exact .inl ih
      · exact .inr ⟨k, s, ⟨by have := merged.within; omega, merged.running, merged.considered,
          merged.step, by rw [same]; exact merged.ended, by rw [same]; exact merged.calls⟩, before⟩

/-- A pass that is reached and considers a snapshot to merge merges on it. -/
theorem land_merges {w : World T} {o : Options T} {k : Nat} {s : PrState}
    (running : (land w o k).2 = none) (considered : Considers w o k s) (step : nextStep s = .merge) :
    (land w o (k + 1)).1 = (land w o k).1 ++ [.prState (.ok s), .merge] := by
  rw [land, andThen_of_none _ running, ← considered.1]
  rcases pass_cases w o k with ⟨s', _, _, _, calls⟩ | ⟨none_merged, _⟩
  · exact congrArg _ calls
  · exact absurd step (none_merged s considered)

/-- The snapshots among the calls are those of the passes reached. -/
theorem land_polls (w : World T) (o : Options T) (n : Nat) (s : PrState) :
    .prState (.ok s) ∈ (land w o n).1 ↔
      ∃ k < n, (land w o k).2 = none ∧ w.prState k = .ok s := by
  induction n with
  | zero => simp [land]
  | succ n ih =>
    have polled : .prState (.ok s) ∈ (pass w o n).1 ↔ w.prState n = .ok s := by
      have fresh : ∀ rest : List (Call T), Quiet rest → .prState (.ok s) ∉ rest := fun rest quiet h => by
        simpa [Call.isPoll] using (quiet _ h).2
      rcases pass_cases w o n with ⟨s', _, _, _, calls⟩ | ⟨_, rest, quiet, calls⟩
      · simp [calls, eq_comm]
      · simp [calls, fresh rest quiet, eq_comm]
    rcases ended : (land w o n).2 with - | outcome
    · rw [land, andThen_of_none _ ended]
      simp only [List.mem_append, ih, polled]
      constructor
      · rintro (⟨k, hk, reached⟩ | answered)
        · exact ⟨k, by omega, reached⟩
        · exact ⟨n, by omega, ended, answered⟩
      · rintro ⟨k, hk, running, answered⟩
        rcases Nat.lt_or_eq_of_le (Nat.le_of_lt_succ hk) with hk | rfl
        · exact .inl ⟨k, hk, running, answered⟩
        · exact .inr answered
    · rw [land, andThen_of_some _ (by simp [ended]), ih]
      constructor
      · rintro ⟨k, hk, reached⟩
        exact ⟨k, by omega, reached⟩
      · rintro ⟨k, hk, running, answered⟩
        rcases Nat.lt_or_eq_of_le (Nat.le_of_lt_succ hk) with hk | rfl
        · exact ⟨k, hk, running, answered⟩
        · simp [ended] at running

end Onmc.Land

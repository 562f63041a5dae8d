import Onmc.DurableRuntime.Runs

/-! Files that `load` accepts, whatever wrote them: the log it reads there, the snapshots it
replays, and where they stand in the log. -/
namespace Onmc.DurableRuntime

/-- The number of an event that `_apply` accepts, and its hash, are the new snapshot's. -/
theorem apply_position {snapshot : Option RunSnapshot} {event : Event} {next : RunSnapshot}
    (h : apply snapshot event = .ok next) :
    next.lastSequence = event.sequence ∧ next.lastHash = event.hash ∧ next.runId =
      (snapshot.map RunSnapshot.runId).getD event.runId := by
  cases snapshot with
  | none =>
    obtain ⟨_, _, h⟩ := Except.bind_ok.mp h
    obtain ⟨_, _, h⟩ := Except.bind_ok.mp h
    cases h
    exact ⟨rfl, rfl, rfl⟩
  | some s =>
    obtain ⟨_, _, h⟩ := Except.bind_ok.mp h
    obtain ⟨_, _, h⟩ := Except.bind_ok.mp h
    obtain ⟨_, _, h⟩ := Except.bind_ok.mp h
    cases h
    exact ⟨rfl, rfl, rfl⟩

/-- The snapshot after an event carries its number and hash. -/
theorem states_position {start : Option RunSnapshot} {log : List Event} {snapshots : List RunSnapshot}
    (h : EventLog.states apply start log = .ok snapshots) {i : Nat} {event : Event} {s : RunSnapshot}
    (he : log[i]? = some event) (hs : snapshots[i]? = some s) :
    s.lastSequence = event.sequence ∧ s.lastHash = event.hash := by
  induction log generalizing start snapshots i with
  | nil => cases he
  | cons first log ih =>
    obtain ⟨next, rest, hn, hr, rfl⟩ := EventLog.states_cons.mp h
    cases i with
    | zero =>
      cases he
      cases hs
      have position := apply_position hn
      exact ⟨position.1, position.2.1⟩
    | succ i => exact ih hr he hs

structure Accepts [Sha256] (runId : String) (dir : RunDir) (log : List Event)
    (snapshots : List RunSnapshot) (s : RunSnapshot) : Prop where
  read : readEvents runId dir = .ok log
  replays : EventLog.states apply none log = .ok snapshots
  last : snapshots.getLast? = some s
  checkpoint : ∀ text, dir.checkpoint = some text → ∃ n, checkedSequence snapshots text = .ok n

variable [Sha256]

theorem readRun_ok {runId : String} {dir : RunDir} {snapshots : List RunSnapshot} {sequence : Option Nat}
    (h : readRun runId dir = .ok (snapshots, sequence)) :
    ∃ log, readEvents runId dir = .ok log ∧ EventLog.states apply none log = .ok snapshots ∧
      snapshots ≠ [] ∧ ∀ text, dir.checkpoint = some text →
        ∃ n, sequence = some n ∧ checkedSequence snapshots text = .ok n := by
  obtain ⟨log, read, h⟩ := Except.bind_ok.mp h
  obtain ⟨visited, replays, h⟩ := Except.bind_ok.mp h
  obtain ⟨_, started, h⟩ := Except.bind_ok.mp h
  have started := raiseIf_ok.mp started
  cases hc : dir.checkpoint with
  | none =>
    rw [hc] at h
    cases h
    exact ⟨log, read, replays, started, by simp⟩
  | some text =>
    rw [hc] at h
    obtain ⟨n, checked, h⟩ := Except.bind_ok.mp h
    cases h
    refine ⟨log, read, replays, started, ?_⟩
    rintro _ ⟨⟩
    exact ⟨n, rfl, checked⟩

theorem loadUnlocked_accepts {runId : String} {dir : RunDir} {s : RunSnapshot}
    (h : (loadUnlocked runId dir).2 = .ok s) :
    ∃ log snapshots, Accepts runId dir log snapshots s ∧
      (loadUnlocked runId dir).1.created = dir.created ∧
      (loadUnlocked runId dir).1.events = dir.events := by
  unfold loadUnlocked at h ⊢
  cases hr : readRun runId dir with
  | error e =>
    rw [hr] at h
    cases h
  | ok found =>
    obtain ⟨snapshots, sequence⟩ := found
    obtain ⟨log, read, replays, started, checkpoint⟩ := readRun_ok hr
    rw [hr] at h
    simp only at h ⊢
    cases hl : snapshots.getLast? with
    | none => exact absurd (List.getLast?_eq_none_iff.mp hl) started
    | some last =>
      rw [hl] at h
      cases h
      refine ⟨log, snapshots, ⟨read, replays, hl, ?_⟩, ?_, ?_⟩
      · intro text ht
        obtain ⟨n, _, checked⟩ := checkpoint text ht
        exact ⟨n, checked⟩
      · simp only
        split <;> rfl
      · simp only
        split <;> rfl

/-- A log and a checkpoint that pass every check are accepted. -/
theorem Accepts.loads {runId : String} {dir : RunDir} {log : List Event} {snapshots : List RunSnapshot}
    {s : RunSnapshot} (h : Accepts runId dir log snapshots s) : (loadUnlocked runId dir).2 = .ok s := by
  have started : ¬ snapshots = [] := by
    rintro rfl
    cases h.last
  have read : ∃ sequence, readRun runId dir = .ok (snapshots, sequence) := by
    cases hc : dir.checkpoint with
    | none =>
      refine ⟨none, ?_⟩
      simp only [readRun, h.read, Except.ok_bind, h.replays, raiseIf_false _ _ _ started, hc]
      rfl
    | some text =>
      obtain ⟨n, checked⟩ := h.checkpoint text hc
      refine ⟨some n, ?_⟩
      simp only [readRun, h.read, Except.ok_bind, h.replays, raiseIf_false _ _ _ started, hc, checked]
      rfl
  obtain ⟨sequence, read⟩ := read
  simp only [loadUnlocked, read, h.last]

theorem load_ok {runId : String} {dir : RunDir} {s : RunSnapshot} (h : (load runId dir).2 = .ok s) :
    safeId runId = true ∧ dir.created = true ∧ load runId dir = loadUnlocked runId dir ∧
      (loadUnlocked runId dir).2 = .ok s := by
  unfold load at h ⊢
  unfold validateId at h ⊢
  by_cases safe : safeId runId = true
  · rw [if_pos safe] at h ⊢
    simp only at h ⊢
    by_cases created : dir.created = false
    · rw [if_pos created] at h
      cases h
    · rw [if_neg created] at h ⊢
      exact ⟨safe, by simpa using created, rfl, h⟩
  · rw [if_neg safe] at h
    cases h

theorem load_of_unlocked {runId : String} {dir : RunDir} (safe : safeId runId = true)
    (created : dir.created = true) : load runId dir = loadUnlocked runId dir := by
  simp [load, validateId, safe, created]

namespace Accepts

variable {runId : String} {dir : RunDir} {log : List Event} {snapshots : List RunSnapshot}
  {s : RunSnapshot}

theorem length (h : Accepts runId dir log snapshots s) : snapshots.length = log.length :=
  EventLog.states_length h.replays

theorem started (h : Accepts runId dir log snapshots s) : 0 < snapshots.length := by
  apply List.length_pos_iff.mpr
  rintro rfl
  cases h.last.symm

theorem last_index (h : Accepts runId dir log snapshots s) : snapshots[snapshots.length - 1]? = some s := by
  rw [← List.getLast?_eq_getElem?]
  exact h.last

/-- The last snapshot stands at the last event. -/
theorem last_event (h : Accepts runId dir log snapshots s) :
    ∃ event, log.getLast? = some event ∧ s.lastSequence = log.length ∧ s.lastHash = event.hash := by
  have length := h.length
  have started := h.started
  have inside : log.length - 1 < log.length := by omega
  have event : log[log.length - 1]? = some log[log.length - 1] := List.getElem?_eq_getElem inside
  have position := states_position h.replays event (by rw [← length]; exact h.last_index)
  have numbered := (readEvents_chained h.read).numbered
  have number : log[log.length - 1].sequence = log.length := by
    have at_index := congrArg (fun l => l[log.length - 1]?) numbered
    simp only [List.getElem?_map, event, Option.map_some, List.getElem?_range', inside] at at_index
    have := Option.some.inj at_index
    omega
  refine ⟨log[log.length - 1], ?_, position.1.trans number, position.2⟩
  rw [List.getLast?_eq_getElem?]
  exact event

end Accepts

end Onmc.DurableRuntime

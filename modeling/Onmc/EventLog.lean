import Mathlib.Data.List.Basic

/-! Event sourcing in general: a log of events, a partial function that applies one event to
the state before it, and the states the log goes through. The first event finds no state. -/
namespace Onmc

/-! Computations that may fail, as `Except` has them. -/

theorem Except.bind_ok {ε α β : Type} {x : Except ε α} {f : α → Except ε β} {b : β} :
    x >>= f = .ok b ↔ ∃ a, x = .ok a ∧ f a = .ok b := by
  cases x with
  | error e => simp [bind, Except.bind]
  | ok a => simp [bind, Except.bind]

theorem Except.mapM_ok {ε α β : Type} {read : α → Except ε β} {items : List α} {others : List β}
    (h : items.mapM read = .ok others) : List.Forall₂ (fun a b => read a = .ok b) items others := by
  induction items generalizing others with
  | nil =>
    cases h
    exact .nil
  | cons a items ih =>
    rw [List.mapM_cons] at h
    obtain ⟨b, first, h⟩ := Except.bind_ok.mp h
    obtain ⟨rest, later, h⟩ := Except.bind_ok.mp h
    cases h
    exact .cons first (ih later)

theorem Except.mem_mapM {ε α β : Type} {read : α → Except ε β} {items : List α} {others : List β}
    (h : items.mapM read = .ok others) (b : β) : b ∈ others ↔ ∃ a ∈ items, read a = .ok b := by
  have paired := Except.mapM_ok h
  clear h
  induction paired with
  | nil => simp
  | cons first _ ih =>
    simp only [List.mem_cons, ih, exists_eq_or_imp, first, Except.ok.injEq]
    rw [eq_comm]

theorem Except.mapM_total {ε α β : Type} {read : α → Except ε β} {items : List α} {others : List β}
    (h : items.mapM read = .ok others) : ∀ a ∈ items, ∃ b, read a = .ok b := by
  have paired := Except.mapM_ok h
  clear h
  induction paired with
  | nil => simp
  | cons first _ ih =>
    intro a ha
    rcases List.mem_cons.mp ha with rfl | ha
    · exact ⟨_, first⟩
    · exact ih a ha

/-- Items that are looked at one by one and kept as they are. -/
theorem Except.mapM_checked {ε α : Type} {check : α → Except ε α} {good : α → Prop}
    (each : ∀ a b, check a = .ok b ↔ b = a ∧ good a) {items others : List α} :
    items.mapM check = .ok others ↔ others = items ∧ ∀ a ∈ items, good a := by
  induction items generalizing others with
  | nil => simp [pure, Except.pure, eq_comm]
  | cons a items ih =>
    rw [List.mapM_cons, Except.bind_ok, List.forall_mem_cons]
    constructor
    · rintro ⟨b, first, more⟩
      obtain ⟨rest, later, made⟩ := Except.bind_ok.mp more
      obtain ⟨rfl, ok⟩ := (each a b).mp first
      obtain ⟨rfl, all⟩ := ih.mp later
      exact ⟨(Except.ok.inj made).symm, ok, all⟩
    · rintro ⟨rfl, ok, all⟩
      exact ⟨a, (each a a).mpr ⟨rfl, ok⟩, Except.bind_ok.mpr ⟨items, ih.mpr ⟨rfl, all⟩, rfl⟩⟩

theorem Except.forM_ok {ε α : Type} {test : α → Except ε Unit} {items : List α} :
    items.forM test = .ok () ↔ ∀ a ∈ items, test a = .ok () := by
  induction items with
  | nil => simp [pure, Except.pure]
  | cons a items ih =>
    rw [List.forM, Except.bind_ok, List.forall_mem_cons]
    constructor
    · rintro ⟨_, first, rest⟩
      exact ⟨first, ih.mp rest⟩
    · rintro ⟨first, rest⟩
      exact ⟨(), first, ih.mpr rest⟩

@[simp] theorem Except.ok_bind {ε α β : Type} (a : α) (f : α → Except ε β) :
    (Except.ok a >>= f) = f a := rfl

@[simp] theorem Except.error_bind {ε α β : Type} (e : ε) (f : α → Except ε β) :
    (Except.error e >>= f) = .error e := rfl

namespace EventLog

variable {State Event ε : Type} (apply : Option State → Event → Except ε State)

/-- The state after each event, from the state before the first. -/
def states (start : Option State) : List Event → Except ε (List State)
  | [] => .ok []
  | event :: events => do
    let next ← apply start event
    let rest ← states (some next) events
    return next :: rest

/-- The state a run of states ends in. -/
def final (start : Option State) (visited : List State) : Option State :=
  match visited.getLast? with
  | some s => some s
  | none => start

variable {apply}

@[simp] theorem final_nil (start : Option State) : final start [] = start := rfl

@[simp] theorem final_cons (start : Option State) (s : State) (visited : List State) :
    final start (s :: visited) = final (some s) visited := by
  cases visited with
  | nil => rfl
  | cons t visited => simp [final, List.getLast?_cons]

@[simp] theorem final_concat (start : Option State) (visited : List State) (s : State) :
    final start (visited ++ [s]) = some s := by
  simp [final]

theorem states_cons {start : Option State} {event : Event} {events : List Event}
    {visited : List State} :
    states apply start (event :: events) = .ok visited ↔
      ∃ next rest, apply start event = .ok next ∧ states apply (some next) events = .ok rest ∧
        visited = next :: rest := by
  simp only [states, Except.bind_ok, pure, Except.pure, Except.ok.injEq]
  constructor
  · rintro ⟨next, hn, rest, hr, rfl⟩
    exact ⟨next, rest, hn, hr, rfl⟩
  · rintro ⟨next, rest, hn, hr, rfl⟩
    exact ⟨next, hn, rest, hr, rfl⟩

theorem states_length {start : Option State} {events : List Event} {visited : List State}
    (h : states apply start events = .ok visited) : visited.length = events.length := by
  induction events generalizing start visited with
  | nil =>
    cases h
    rfl
  | cons event events ih =>
    obtain ⟨next, rest, _, hr, rfl⟩ := states_cons.mp h
    have tail := ih hr
    simp [tail]

/-- Appending an event that applies to the final state appends its state. -/
theorem states_concat {start : Option State} {events : List Event} {visited : List State}
    (h : states apply start events = .ok visited) {event : Event} {next : State}
    (ok : apply (final start visited) event = .ok next) :
    states apply start (events ++ [event]) = .ok (visited ++ [next]) := by
  induction events generalizing start visited with
  | nil =>
    cases h
    simp only [final_nil] at ok
    simp only [List.nil_append]
    exact states_cons.mpr ⟨next, [], ok, rfl, rfl⟩
  | cons first events ih =>
    obtain ⟨s, rest, hs, hr, rfl⟩ := states_cons.mp h
    simp only [final_cons] at ok
    have tail := ih hr ok
    simp only [List.cons_append]
    exact states_cons.mpr ⟨s, rest ++ [next], hs, tail, rfl⟩

/-- A log that is not empty, with the states it goes through. -/
structure Ledger (apply : Option State → Event → Except ε State) where
  entries : List Event
  visited : List State
  replays : states apply none entries = .ok visited
  started : visited ≠ []

namespace Ledger

/-- The state the log ends in. -/
def state (l : Ledger apply) : State := l.visited.getLast l.started

theorem getLast?_visited (l : Ledger apply) : l.visited.getLast? = some l.state :=
  List.getLast?_eq_some_getLast l.started

theorem final_visited (l : Ledger apply) : final none l.visited = some l.state := by
  simp only [final, l.getLast?_visited]

theorem length_visited (l : Ledger apply) : l.visited.length = l.entries.length :=
  states_length l.replays

/-- The log with one event more. -/
def append (l : Ledger apply) (event : Event) (next : State) (ok : apply (some l.state) event = .ok next) :
    Ledger apply where
  entries := l.entries ++ [event]
  visited := l.visited ++ [next]
  replays := states_concat l.replays (l.final_visited ▸ ok)
  started := by simp

/-- The log of one event. -/
def first (event : Event) (state : State) (ok : apply none event = .ok state) : Ledger apply where
  entries := [event]
  visited := [state]
  replays := states_cons.mpr ⟨state, [], ok, rfl, rfl⟩
  started := by simp

@[simp] theorem state_append (l : Ledger apply) (event : Event) (next : State)
    (ok : apply (some l.state) event = .ok next) : (l.append event next ok).state = next := by
  simp [state, append]

@[simp] theorem state_first (event : Event) (s : State) (ok : apply none event = .ok s) :
    (first event s ok).state = s := rfl

@[simp] theorem entries_append (l : Ledger apply) (event : Event) (next : State)
    (ok : apply (some l.state) event = .ok next) :
    (l.append event next ok).entries = l.entries ++ [event] := rfl

@[simp] theorem visited_append (l : Ledger apply) (event : Event) (next : State)
    (ok : apply (some l.state) event = .ok next) :
    (l.append event next ok).visited = l.visited ++ [next] := rfl

end Ledger
end EventLog
end Onmc

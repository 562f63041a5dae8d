import Onmc.Interact.Program

/-! Runs of many calls over one world. Each thread keeps the steps it took, each with the worlds
before and after it, so that what it knows is read off its history. -/
namespace Interact

variable {I : Interface}

/-- What the requests do to the world, and the programs of calls and tasks. -/
structure Semantics (I : Interface) where
  World : Type
  Oracle : Type
  Start : Type
  Result : Type
  Act : Type
  perform : Oracle → (request : I.Request) → World → World × I.Reply request
  main : Start → Program I Result
  body : I.Task → Program I I.Value
  outside : Act → World → World

structure Stamp (S : Semantics I) where
  mark : Mark I
  before : S.World
  after : S.World

structure Thread (S : Semantics I) (α : Type) where
  begun : S.World
  program : Program I α
  history : List (Stamp S)

variable {S : Semantics I} {α : Type}

namespace Thread

def outcome? (t : Thread S α) : Option (Except I.Failure α) :=
  match t.program with
  | .ret value => some (.ok value)
  | .raise e => some (.error e)
  | _ => none

def take (t : Thread S α) (stamp : Stamp S) (program : Program I α) : Thread S α :=
  { t with program := program, history := t.history ++ [stamp] }

end Thread

structure Call (S : Semantics I) where
  start : S.Start
  main : Thread S S.Result
  tasks : List (I.Task × Thread S I.Value)
  crashed : Bool

/-- Whose turn it is within a call. -/
inductive Turn where
  | main
  | task (future : Nat)
  deriving DecidableEq

namespace Call

def fresh (start : S.Start) (w : S.World) : Call S := ⟨start, ⟨w, S.main start, []⟩, [], false⟩

def finished (c : Call S) (future : Nat) : Option (Except I.Failure I.Value) :=
  c.tasks[future]?.bind (fun entry => entry.2.outcome?)

/-- The next step of the main thread. An await waits until its task has finished. -/
def advanceMain (c : Call S) (oracle : S.Oracle) (w : S.World) : Option (Stamp S × Call S) :=
  match c.main.program with
  | .ask request next =>
    let answer := S.perform oracle request w
    let stamp : Stamp S := ⟨.asked request answer.2, w, answer.1⟩
    some (stamp, { c with main := c.main.take stamp (next answer.2) })
  | .submit task next =>
    let stamp : Stamp S := ⟨.submitted task c.tasks.length, w, w⟩
    some (stamp, { c with
      main := c.main.take stamp (next c.tasks.length),
      tasks := c.tasks ++ [(task, ⟨w, S.body task, []⟩)] })
  | .await future next => (c.finished future).map fun outcome =>
    let stamp : Stamp S := ⟨.awaited future outcome, w, w⟩
    (stamp, { c with main := c.main.take stamp (next outcome) })
  | _ => none

/-- The next request of a task. -/
def advanceTask (c : Call S) (future : Nat) (oracle : S.Oracle) (w : S.World) :
    Option (Stamp S × Call S) :=
  match c.tasks[future]? with
  | some (task, thread) =>
    match thread.program with
    | .ask request next =>
      let answer := S.perform oracle request w
      let stamp : Stamp S := ⟨.asked request answer.2, w, answer.1⟩
      some (stamp, { c with tasks := c.tasks.set future (task, thread.take stamp (next answer.2)) })
    | _ => none
  | none => none

def advance (c : Call S) : Turn → S.Oracle → S.World → Option (Stamp S × Call S)
  | .main => c.advanceMain
  | .task future => c.advanceTask future

def history (c : Call S) : Turn → List (Stamp S)
  | .main => c.main.history
  | .task future => (c.tasks[future]?.map (fun entry => entry.2.history)).getD []

/-- A thread of the call, seen from outside its program. -/
def Runs (c : Call S) (begun : S.World) (history : List (Stamp S)) : Turn → Prop
  | .main => c.main.begun = begun ∧ c.main.history = history
  | .task future => ∃ task thread, c.tasks[future]? = some (task, thread) ∧ thread.begun = begun ∧
      thread.history = history

end Call

structure System (S : Semantics I) where
  world : S.World
  calls : List (Call S)

inductive Move (S : Semantics I) where
  | begin (start : S.Start)
  | turn (call : Nat) (who : Turn) (oracle : S.Oracle)
  | crash (call : Nat)
  | outside (act : S.Act)

def System.move (s : System S) : Move S → System S
  | .begin start => { s with calls := s.calls ++ [Call.fresh start s.world] }
  | .turn i who oracle =>
    match s.calls[i]? with
    | some c =>
      if c.crashed then s
      else match c.advance who oracle s.world with
        | some (stamp, c') => ⟨stamp.after, s.calls.set i c'⟩
        | none => s
    | none => s
  | .crash i =>
    match s.calls[i]? with
    | some c => { s with calls := s.calls.set i { c with crashed := true } }
    | none => s
  | .outside act => { s with world := S.outside act s.world }

/-- The systems that moves of one kind reach from a world without calls. -/
inductive Reached (allowed : System S → Move S → Prop) (w : S.World) : System S → Prop
  | start : Reached allowed w ⟨w, []⟩
  | move (s : System S) (m : Move S) (reached : Reached allowed w s) (ok : allowed s m) :
      Reached allowed w (s.move m)

def System.run (s : System S) (moves : List (Move S)) : System S := moves.foldl System.move s

/-- What a move does: nothing, or one of the four. -/
theorem move_cases (s : System S) (m : Move S) :
    s.move m = s ∨
    (∃ start, m = .begin start ∧ s.move m = ⟨s.world, s.calls ++ [Call.fresh start s.world]⟩) ∨
    (∃ i who oracle c stamp c', m = .turn i who oracle ∧ s.calls[i]? = some c ∧ c.crashed = false ∧
      c.advance who oracle s.world = some (stamp, c') ∧ s.move m = ⟨stamp.after, s.calls.set i c'⟩) ∨
    (∃ i c, m = .crash i ∧ s.calls[i]? = some c ∧
      s.move m = ⟨s.world, s.calls.set i { c with crashed := true }⟩) ∨
    ∃ act, m = .outside act ∧ s.move m = ⟨S.outside act s.world, s.calls⟩ := by
  cases m with
  | begin start => exact .inr (.inl ⟨start, rfl, rfl⟩)
  | turn i who oracle =>
    cases found : s.calls[i]? with
    | none => exact .inl (by simp only [System.move, found])
    | some c =>
      cases crashed : c.crashed with
      | true => exact .inl (by simp only [System.move, found, crashed, if_true])
      | false =>
        cases advanced : c.advance who oracle s.world with
        | none => exact .inl (by simp [System.move, found, crashed, advanced])
        | some step =>
          exact .inr (.inr (.inl ⟨i, who, oracle, c, step.1, step.2, rfl, found, crashed, advanced,
            by simp [System.move, found, crashed, advanced]⟩))
  | crash i =>
    cases found : s.calls[i]? with
    | none => exact .inl (by simp only [System.move, found])
    | some c => exact .inr (.inr (.inr (.inl ⟨i, c, rfl, found, by simp only [System.move, found]⟩)))
  | outside act => exact .inr (.inr (.inr (.inr ⟨act, rfl, rfl⟩)))

/-- What one step of a call does to its threads. -/
inductive Call.Step (c : Call S) (oracle : S.Oracle) (w : S.World) : Turn → Stamp S → Call S → Prop
  | asked (request : I.Request) (next : I.Reply request → Program I S.Result)
      (program : c.main.program = .ask request next) (stamp : Stamp S)
      (made : stamp = ⟨.asked request (S.perform oracle request w).2, w, (S.perform oracle request w).1⟩) :
      Step c oracle w .main stamp
        { c with main := c.main.take stamp (next (S.perform oracle request w).2) }
  | submitted (task : I.Task) (next : Nat → Program I S.Result)
      (program : c.main.program = .submit task next) (stamp : Stamp S)
      (made : stamp = ⟨.submitted task c.tasks.length, w, w⟩) :
      Step c oracle w .main stamp { c with
        main := c.main.take stamp (next c.tasks.length),
        tasks := c.tasks ++ [(task, ⟨w, S.body task, []⟩)] }
  | awaited (future : Nat) (next : Except I.Failure I.Value → Program I S.Result)
      (program : c.main.program = .await future next) (outcome : Except I.Failure I.Value)
      (finished : c.finished future = some outcome) (stamp : Stamp S)
      (made : stamp = ⟨.awaited future outcome, w, w⟩) :
      Step c oracle w .main stamp { c with main := c.main.take stamp (next outcome) }
  | task (future : Nat) (task : I.Task) (thread : Thread S I.Value)
      (found : c.tasks[future]? = some (task, thread)) (request : I.Request)
      (next : I.Reply request → Program I I.Value) (program : thread.program = .ask request next)
      (stamp : Stamp S)
      (made : stamp = ⟨.asked request (S.perform oracle request w).2, w, (S.perform oracle request w).1⟩) :
      Step c oracle w (.task future) stamp { c with
        tasks := c.tasks.set future (task, thread.take stamp (next (S.perform oracle request w).2)) }

theorem Call.advance_step {c c' : Call S} {who : Turn} {oracle : S.Oracle} {w : S.World}
    {stamp : Stamp S} (h : c.advance who oracle w = some (stamp, c')) : c.Step oracle w who stamp c' := by
  cases who with
  | main =>
    cases program : c.main.program with
    | ask request next =>
      simp only [advance, advanceMain, program, Option.some.injEq, Prod.mk.injEq] at h
      obtain ⟨rfl, rfl⟩ := h
      exact .asked request next program _ rfl
    | submit task next =>
      simp only [advance, advanceMain, program, Option.some.injEq, Prod.mk.injEq] at h
      obtain ⟨rfl, rfl⟩ := h
      exact .submitted task next program _ rfl
    | await future next =>
      simp only [advance, advanceMain, program, Option.map_eq_some_iff, Prod.mk.injEq] at h
      obtain ⟨outcome, finished, rfl, rfl⟩ := h
      exact .awaited future next program outcome finished _ rfl
    | _ => simp [advance, advanceMain, program] at h
  | task future =>
    cases found : c.tasks[future]? with
    | none => simp [advance, advanceTask, found] at h
    | some entry =>
      obtain ⟨task, thread⟩ := entry
      cases program : thread.program with
      | ask request next =>
        simp only [advance, advanceTask, found, program, Option.some.injEq, Prod.mk.injEq] at h
        obtain ⟨rfl, rfl⟩ := h
        exact .task future task thread found request next program _ rfl
      | _ => simp [advance, advanceTask, found, program] at h

end Interact

import Mathlib.Data.List.Basic

/-! Programs that ask a shared world for one thing at a time. A program may submit tasks and await
them; calls of programs, their tasks and outsiders take turns in any order, and a call can crash
between any two of its requests. What a program promises is read off its own history. -/
namespace Interact

/-- What programs ask, what they are told, the tasks they submit, and how they fail. -/
structure Interface where
  Request : Type
  Reply : Request → Type
  Task : Type
  Value : Type
  Failure : Type

variable {I : Interface} {α β : Type}

inductive Program (I : Interface) (α : Type) where
  | ret (value : α)
  | raise (e : I.Failure)
  | ask (request : I.Request) (next : I.Reply request → Program I α)
  | submit (task : I.Task) (next : Nat → Program I α)
  | await (future : Nat) (next : Except I.Failure I.Value → Program I α)
  | stall

namespace Program

def bind : Program I α → (α → Program I β) → Program I β
  | ret value, f => f value
  | raise e, _ => raise e
  | ask request next, f => ask request (fun reply => (next reply).bind f)
  | submit task next, f => submit task (fun future => (next future).bind f)
  | await future next, f => await future (fun outcome => (next outcome).bind f)
  | stall, _ => stall

instance : Monad (Program I) where
  pure := ret
  bind := bind

/-- Run a program and hand back its exception as a value. -/
def attempt : Program I α → Program I (Except I.Failure α)
  | ret value => ret (.ok value)
  | raise e => ret (.error e)
  | ask request next => ask request (fun reply => (next reply).attempt)
  | submit task next => submit task (fun future => (next future).attempt)
  | await future next => await future (fun outcome => (next outcome).attempt)
  | stall => stall

def ofExcept : Except I.Failure α → Program I α
  | .ok value => ret value
  | .error e => raise e

def request (r : I.Request) : Program I (I.Reply r) := ask r ret

/-- Run a program and change the exception it raises. -/
def mapFailure (f : I.Failure → I.Failure) (p : Program I α) : Program I α :=
  p.attempt.bind (fun outcome => ofExcept (outcome.mapError f))

end Program

/-- One step of a program, with what it was told. -/
inductive Mark (I : Interface) where
  | asked (request : I.Request) (reply : I.Reply request)
  | submitted (task : I.Task) (future : Nat)
  | awaited (future : Nat) (outcome : Except I.Failure I.Value)

/-- A step that asks for something of one kind, if it asks. -/
def Mark.Of (Q : I.Request → Prop) : Mark I → Prop
  | asked request _ => Q request
  | _ => True

/-- What a program may do next, after the steps it has taken. -/
structure Promise (I : Interface) where
  asks : List (Mark I) → I.Request → Prop
  submits : List (Mark I) → I.Task → Prop
  stalls : List (Mark I) → Prop

/-- Whatever it is told, the program keeps its promise and ends as stated. -/
def Keeps (P : Promise I) (post : List (Mark I) → Except I.Failure α → Prop) :
    Program I α → List (Mark I) → Prop
  | .ret value, h => post h (.ok value)
  | .raise e, h => post h (.error e)
  | .ask request next, h =>
    P.asks h request ∧ ∀ reply, Keeps P post (next reply) (h ++ [.asked request reply])
  | .submit task next, h =>
    P.submits h task ∧ ∀ future, Keeps P post (next future) (h ++ [.submitted task future])
  | .await future next, h => ∀ outcome, Keeps P post (next outcome) (h ++ [.awaited future outcome])
  | .stall, h => P.stalls h

section Rules

variable {P : Promise I} {h : List (Mark I)}

theorem Keeps.mono {post post' : List (Mark I) → Except I.Failure α → Prop}
    (weaker : ∀ h outcome, post h outcome → post' h outcome) {p : Program I α}
    (keeps : Keeps P post p h) : Keeps P post' p h := by
  induction p generalizing h with
  | ret value => exact weaker _ _ keeps
  | raise e => exact weaker _ _ keeps
  | ask request next ih => exact ⟨keeps.1, fun reply => ih reply (keeps.2 reply)⟩
  | submit task next ih => exact ⟨keeps.1, fun future => ih future (keeps.2 future)⟩
  | await future next ih => exact fun outcome => ih outcome (keeps outcome)
  | stall => exact keeps

/-- One thing after the other. -/
theorem Keeps.bind {post : List (Mark I) → Except I.Failure β → Prop} {p : Program I α}
    {f : α → Program I β}
    (keeps : Keeps P (fun h outcome => match outcome with
      | .ok value => Keeps P post (f value) h
      | .error e => post h (.error e)) p h) : Keeps P post (p.bind f) h := by
  induction p generalizing h with
  | ret value => exact keeps
  | raise e => exact keeps
  | ask request next ih => exact ⟨keeps.1, fun reply => ih reply (keeps.2 reply)⟩
  | submit task next ih => exact ⟨keeps.1, fun future => ih future (keeps.2 future)⟩
  | await future next ih => exact fun outcome => ih outcome (keeps outcome)
  | stall => exact keeps

theorem Keeps.attempt {post : List (Mark I) → Except I.Failure (Except I.Failure α) → Prop}
    {p : Program I α} (keeps : Keeps P (fun h outcome => post h (.ok outcome)) p h) :
    Keeps P post p.attempt h := by
  induction p generalizing h with
  | ret value => exact keeps
  | raise e => exact keeps
  | ask request next ih => exact ⟨keeps.1, fun reply => ih reply (keeps.2 reply)⟩
  | submit task next ih => exact ⟨keeps.1, fun future => ih future (keeps.2 future)⟩
  | await future next ih => exact fun outcome => ih outcome (keeps outcome)
  | stall => exact keeps

theorem Keeps.ofExcept {post : List (Mark I) → Except I.Failure α → Prop}
    {outcome : Except I.Failure α} (holds : post h outcome) : Keeps P post (.ofExcept outcome) h := by
  cases outcome with
  | ok value => exact holds
  | error e => exact holds

theorem Keeps.mapFailure {post : List (Mark I) → Except I.Failure α → Prop} {f : I.Failure → I.Failure}
    {p : Program I α} (keeps : Keeps P (fun h outcome => post h (outcome.mapError f)) p h) :
    Keeps P post (p.mapFailure f) h :=
  .bind (.attempt (keeps.mono fun _ _ holds => .ofExcept holds))

/-- A promise that is part of another. -/
theorem Keeps.weaken {P' : Promise I} {post : List (Mark I) → Except I.Failure α → Prop} {p : Program I α}
    (keeps : Keeps P post p h) (asks : ∀ h request, P.asks h request → P'.asks h request)
    (submits : ∀ h task, P.submits h task → P'.submits h task) (stalls : ∀ h, P.stalls h → P'.stalls h) :
    Keeps P' post p h := by
  induction p generalizing h with
  | ret value => exact keeps
  | raise e => exact keeps
  | ask request next ih => exact ⟨asks _ _ keeps.1, fun reply => ih reply (keeps.2 reply)⟩
  | submit task next ih => exact ⟨submits _ _ keeps.1, fun future => ih future (keeps.2 future)⟩
  | await future next ih => exact fun outcome => ih outcome (keeps outcome)
  | stall => exact stalls _ keeps

/-- What was added to a history: requests of one kind, and whatever asks for nothing. -/
structure Adds (Q : I.Request → Prop) (h h' : List (Mark I)) : Prop where
  before : h <+: h'
  asked : ∀ mark ∈ h', mark ∈ h ∨ mark.Of Q

theorem Adds.refl (Q : I.Request → Prop) (h : List (Mark I)) : Adds Q h h :=
  ⟨List.prefix_rfl, fun _ member => .inl member⟩

theorem Adds.concat {Q : I.Request → Prop} {h h' : List (Mark I)} {mark : Mark I} (own : mark.Of Q)
    (adds : Adds Q (h ++ [mark]) h') : Adds Q h h' where
  before := (List.prefix_append h [mark]).trans adds.before
  asked := by
    intro other member
    rcases adds.asked other member with old | new
    · rcases List.mem_append.mp old with old | new
      · exact .inl old
      · exact .inr (List.mem_singleton.mp new ▸ own)
    · exact .inr new

/-- A program adds to its history what it promised to ask for. -/
theorem Keeps.later {Q : I.Request → Prop} {post : List (Mark I) → Except I.Failure α → Prop} {p : Program I α}
    (keeps : Keeps P post p h) (kind : ∀ h request, P.asks h request → Q request) :
    Keeps P (fun h' outcome => Adds Q h h' ∧ post h' outcome) p h := by
  induction p generalizing h with
  | ret value => exact ⟨.refl Q h, keeps⟩
  | raise e => exact ⟨.refl Q h, keeps⟩
  | ask request next ih =>
    have own := kind h request keeps.1
    exact ⟨keeps.1, fun reply => (ih reply (keeps.2 reply)).mono fun _ _ holds =>
      ⟨holds.1.concat (show Mark.Of Q (.asked request reply) from own), holds.2⟩⟩
  | submit task next ih =>
    exact ⟨keeps.1, fun future => (ih future (keeps.2 future)).mono fun _ _ holds =>
      ⟨holds.1.concat (show Mark.Of Q (.submitted task future) from trivial), holds.2⟩⟩
  | await future next ih =>
    exact fun outcome => (ih outcome (keeps outcome)).mono fun _ _ holds =>
      ⟨holds.1.concat (show Mark.Of Q (.awaited future outcome) from trivial), holds.2⟩
  | stall => exact keeps

end Rules

/-- What is left of a program after it was told these things. -/
inductive Follows : Program I α → List (Mark I) → Program I α → Prop
  | refl (p : Program I α) : Follows p [] p
  | ask {p : Program I α} {h : List (Mark I)} {request : I.Request} {next : I.Reply request → Program I α}
      (follows : Follows p h (.ask request next)) (reply : I.Reply request) :
      Follows p (h ++ [.asked request reply]) (next reply)
  | submit {p : Program I α} {h : List (Mark I)} {task : I.Task} {next : Nat → Program I α}
      (follows : Follows p h (.submit task next)) (future : Nat) :
      Follows p (h ++ [.submitted task future]) (next future)
  | await {p : Program I α} {h : List (Mark I)} {future : Nat}
      {next : Except I.Failure I.Value → Program I α} (follows : Follows p h (.await future next))
      (outcome : Except I.Failure I.Value) : Follows p (h ++ [.awaited future outcome]) (next outcome)

theorem Keeps.follows {P : Promise I} {post : List (Mark I) → Except I.Failure α → Prop}
    {p q : Program I α} {h : List (Mark I)} (keeps : Keeps P post p []) (follows : Follows p h q) :
    Keeps P post q h := by
  induction follows with
  | refl => exact keeps
  | ask _ reply ih => exact ih.2 reply
  | submit _ future ih => exact ih.2 future
  | await _ outcome ih => exact ih outcome

end Interact

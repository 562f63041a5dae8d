import Mathlib.Order.Lattice
import Onmc.Land.Planner

/-! The landing loop over whatever GitHub, the clock and `sleep` answer. Instants are a type of their
own with no laws but their order, so that rounding of the sums does not matter. -/
namespace Onmc.Land

variable {T : Type}

/-- What stops a pass besides an answer: the lander's own error, or an exception of what it calls. -/
inductive Failure where
  | landError (text : String)
  | raised (text : String)
  deriving DecidableEq, Repr

inductive Outcome where
  | merged
  | deferred (reason : String)
  | timeout
  | failed (e : Failure)
  deriving DecidableEq, Repr

/-- What the loop asks of the world, in order. -/
inductive Call (T : Type) where
  | prState (answer : Except Failure PrState)
  | merge
  | updateBranch
  | resolveThread (id : String)
  | sleep (duration : T)

/-- The answers to each pass of the loop. The first reading of the clock is `start`, the others are
taken at the end of a pass. -/
structure World (T : Type) where
  start : T
  monotonic : Nat → T
  prState : Nat → Except Failure PrState
  merge : Nat → Except Failure Unit
  updateBranch : Nat → Except Failure Unit
  resolveThread : Nat → String → Except Failure Unit
  sleep : Nat → T → Except Failure Unit

structure Options (T : Type) where
  pr : Int
  pollInterval : T
  maxWait : T
  onlyIfContentionLe : Option Int

/-- The calls of a pass and, where it is the last one, how it ends. -/
abbrev Pass (T : Type) := List (Call T) × Option Outcome

/-- One thread after the other, up to the first that raises. -/
def resolveThreads (resolve : String → Except Failure Unit) : List String → Pass T
  | [] => ([], none)
  | id :: rest =>
    match resolve id with
    | .error e => ([.resolveThread id], some (.failed e))
    | .ok () =>
      let after := resolveThreads resolve rest
      (.resolveThread id :: after.1, after.2)

section

variable [LinearOrder T] [Add T] [Sub T]

/-- The end of a pass that found nothing final. -/
def pause (w : World T) (o : Options T) (i : Nat) : Pass T :=
  let deadline := w.start + o.maxWait
  let now := w.monotonic i
  if deadline ≤ now then ([], some .timeout)
  else
    let duration := min o.pollInterval (deadline - now)
    match w.sleep i duration with
    | .error e => ([.sleep duration], some (.failed e))
    | .ok () => ([.sleep duration], none)

def andThen (first : Pass T) (next : Pass T) : Pass T :=
  match first.2 with
  | some outcome => (first.1, some outcome)
  | none => (first.1 ++ next.1, next.2)

def contentionOf (s : PrState) : Int := s.contention.getD 0

def blockedText (pr : Int) : String := s!"PR #{pr}: landing blocked — cannot proceed safely"

variable [Lowercase]

/-- What a pass does with its snapshot. -/
def act (w : World T) (o : Options T) (i : Nat) (s : PrState) : Pass T :=
  match nextStep s with
  | .done => ([], some .merged)
  | .fail => ([], some (.failed (.landError (blockedText o.pr))))
  | .merge =>
    match w.merge i with
    | .ok () => ([.merge], some .merged)
    | .error e => ([.merge], some (.failed e))
  | .rebase =>
    match w.updateBranch i with
    | .ok () => andThen ([.updateBranch], none) (pause w o i)
    | .error e => ([.updateBranch], some (.failed e))
  | .resolveThreads =>
    andThen (resolveThreads (w.resolveThread i) (s.unresolvedThreadIds.getD [])) (pause w o i)
  | .wait => pause w o i

/-- The contention gate: `some` when the pass is deferred. -/
def gate (o : Options T) (s : PrState) : Option Outcome :=
  match o.onlyIfContentionLe with
  | some ceiling =>
    if ceiling < contentionOf s then some (.deferred s!"contention={contentionOf s}") else none
  | none => none

/-- One pass of `while True`. -/
def pass (w : World T) (o : Options T) (i : Nat) : Pass T :=
  match w.prState i with
  | .error e => ([.prState (.error e)], some (.failed e))
  | .ok s =>
    andThen ([.prState (.ok s)], none)
      (match gate o s with
        | some outcome => ([], some outcome)
        | none => act w o i s)

/-- The first `n` passes of `land`. -/
def land (w : World T) (o : Options T) : Nat → Pass T
  | 0 => ([], none)
  | n + 1 => andThen (land w o n) (pass w o n)

end

end Onmc.Land

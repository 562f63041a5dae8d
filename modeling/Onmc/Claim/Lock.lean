import Mathlib.Data.List.Induction
import Mathlib.Data.List.Infix
import Mathlib.Data.Rat.Defs
import Mathlib.Algebra.Order.Ring.Rat
import Mathlib.Logic.Function.Basic
import Mathlib.Tactic.Linarith

/-! The lock file of the claim ledger, one atomic step of one process after another. Each creation of
the file has a number of its own, which nobody in the program reads: it only says which file a
process meant. -/
namespace Onmc.ClaimLedger.Lock

structure File where
  number : Nat
  creator : Nat
  mtime : ℚ
  deriving DecidableEq

/-- Where a process is in `_locked`; `number` is the file it created or found stale. -/
inductive Stage where
  | idle
  /-- About to create the file. -/
  | trying
  /-- The file was there; about to look at its age. -/
  | blocked
  /-- The file was too old; about to unlink it. -/
  | breaking (number : Nat)
  | sleeping
  /-- The file is created, the process id is not yet written into it. -/
  | entered (number : Nat) (since : ℚ)
  | inside (number : Nat) (since : ℚ)
  /-- The section is over; about to unlink the file. -/
  | leaving (number : Nat)
  | crashed
  deriving DecidableEq

/-- The creation a process holds the lock by, from its creation to its own unlink. -/
def Stage.holds : Stage → Option Nat
  | .entered number _ | .inside number _ | .leaving number => some number
  | _ => none

/-- Since when a process has been in its critical section. -/
def Stage.since : Stage → Option ℚ
  | .entered _ since | .inside _ since => some since
  | _ => none

structure System where
  now : ℚ
  file : Option File
  created : Nat
  stage : Nat → Stage

def System.begin (now : ℚ) : System := ⟨now, none, 0, fun _ => .idle⟩

inductive Move where
  | elapse (duration : ℚ)
  | start (p : Nat)
  | create (p : Nat)
  | stat (p : Nat)
  | breakLock (p : Nat)
  | wake (p : Nat)
  | write (p : Nat)
  | finish (p : Nat)
  | unlock (p : Nat)
  | crash (p : Nat)
  deriving DecidableEq

/-- `LOCK_STALE_SECONDS` -/
def lockStaleSeconds : ℚ := 30

/-- `_is_stale_lock` -/
def isStale (now : ℚ) (file : File) : Bool := lockStaleSeconds < now - file.mtime

namespace System

def put (s : System) (p : Nat) (stage : Stage) : System := { s with stage := Function.update s.stage p stage }

/-- One step; a process that is elsewhere does not take it. -/
def step (s : System) : Move → System
  | .elapse duration => if 0 ≤ duration then { s with now := s.now + duration } else s
  | .start p => if s.stage p = .idle then s.put p .trying else s
  | .create p =>
    if s.stage p = .trying then
      match s.file with
      | some _ => s.put p .blocked
      | none =>
        { s.put p (.entered s.created s.now) with
          file := some ⟨s.created, p, s.now⟩
          created := s.created + 1 }
    else s
  | .stat p =>
    if s.stage p = .blocked then
      match s.file with
      | some file => if isStale s.now file then s.put p (.breaking file.number) else s.put p .sleeping
      | none => s.put p .sleeping
    else s
  | .breakLock p =>
    match s.stage p with
    | .breaking _ => { s.put p .trying with file := none }
    | _ => s
  | .wake p => if s.stage p = .sleeping then s.put p .trying else s
  | .write p =>
    match s.stage p with
    | .entered number since =>
      -- The write goes to the file the process opened, wherever that is by now.
      { s.put p (.inside number since) with
        file := s.file.map (fun file => if file.number = number then { file with mtime := s.now } else file) }
    | _ => s
  | .finish p =>
    match s.stage p with
    | .inside number _ => s.put p (.leaving number)
    | _ => s
  | .unlock p =>
    match s.stage p with
    | .leaving _ => { s.put p .idle with file := none }
    | _ => s
  | .crash p => s.put p .crashed

def run (s : System) (moves : List Move) : System := moves.foldl step s

end System

/-- A critical section that is not longer than the lock lives. -/
def Short (s : System) : Prop :=
  ∀ p since, (s.stage p).since = some since → s.now - since ≤ lockStaleSeconds

/-- What is asked of a state: at most one process holds the lock. -/
def Alone (s : System) : Prop :=
  ∀ p q, (s.stage p).holds.isSome → (s.stage q).holds.isSome → p = q

/-- What is asked of a step: no process takes away the file of another live one. -/
def Spares (s : System) (m : Move) : Prop :=
  ∀ file, s.file = some file → (s.step m).file = none →
    m = .unlock file.creator ∨ m = .breakLock file.creator ∨ s.stage file.creator = .crashed

/-- The steps that keep the protocol: who breaks a stale lock finds nothing any more or the very file
it found stale, and not in the moment when the file's creator is about to unlink it. -/
def steady (s : System) : Move → Bool
  | .breakLock p =>
    match s.stage p, s.file with
    | .breaking number, some file => file.number = number ∧ s.stage file.creator ≠ .leaving number
    | _, _ => true
  | _ => true

/-- What holds between the steps. -/
structure Sound (s : System) : Prop where
  /-- Who holds the lock has its file there, no older than the time of entry. -/
  held : ∀ p number, (s.stage p).holds = some number → ∃ file, s.file = some file ∧
    file.number = number ∧ file.creator = p ∧ ∀ since, (s.stage p).since = some since → since ≤ file.mtime
  /-- The file is that of a process that holds the lock or has crashed. -/
  owned : ∀ file, s.file = some file → file.number < s.created ∧
    ((s.stage file.creator).holds = some file.number ∨ s.stage file.creator = .crashed)
  /-- A file that was found stale, and is still there, is not held by anybody at work. -/
  stale : ∀ p number, s.stage p = .breaking number → number < s.created ∧
    ∀ file, s.file = some file → file.number = number →
      s.stage file.creator = .leaving number ∨ s.stage file.creator = .crashed
  past : ∀ p since, (s.stage p).since = some since → since ≤ s.now

@[simp] theorem put_stage (s : System) (p q : Nat) (stage : Stage) :
    (s.put p stage).stage q = if q = p then stage else s.stage q := by
  simp [System.put, Function.update_apply]

@[simp] theorem put_file (s : System) (p : Nat) (stage : Stage) : (s.put p stage).file = s.file := rfl

@[simp] theorem put_now (s : System) (p : Nat) (stage : Stage) : (s.put p stage).now = s.now := rfl

@[simp] theorem put_created (s : System) (p : Nat) (stage : Stage) : (s.put p stage).created = s.created := rfl

theorem sound_begin (now : ℚ) : Sound (.begin now) := by
  constructor <;> simp [System.begin, Stage.holds, Stage.since]

theorem Sound.alone {s : System} (sound : Sound s) : Alone s := by
  intro p q hp hq
  obtain ⟨n, hp⟩ := Option.isSome_iff_exists.mp hp
  obtain ⟨k, hq⟩ := Option.isSome_iff_exists.mp hq
  obtain ⟨file, there, -, created, -⟩ := sound.held p n hp
  obtain ⟨file', there', -, created', -⟩ := sound.held q k hq
  obtain rfl := Option.some.inj (there.symm.trans there')
  exact created.symm.trans created'

/-- The steps of a process that leave the file alone and keep or give up what it holds. -/
theorem Sound.put {s : System} (sound : Sound s) {p : Nat} {stage : Stage} (settled : stage.since = none)
    (keeps : stage = .crashed ∨ stage.holds = (s.stage p).holds ∧ s.stage p ≠ .crashed ∧
      ∀ number, s.stage p ≠ .leaving number)
    (stale : ∀ number, stage = .breaking number → number < s.created ∧
      ∀ file, s.file = some file → file.number = number →
        s.stage file.creator = .leaving number ∨ s.stage file.creator = .crashed) :
    Sound (s.put p stage) := by
  have aside : ∀ number file, file.number = number → s.file = some file →
      s.stage file.creator = .leaving number ∨ s.stage file.creator = .crashed →
      (s.put p stage).stage file.creator = .leaving number ∨ (s.put p stage).stage file.creator = .crashed := by
    intro number file _ _ creator
    by_cases own : file.creator = p
    · rcases keeps with rfl | ⟨-, alive, working⟩
      · simp [own]
      · rw [own] at creator
        rcases creator with creator | creator
        · exact absurd creator (working number)
        · exact absurd creator alive
    · simpa [own] using creator
  constructor
  · intro q number holds
    by_cases own : q = p
    · subst own
      rw [put_stage, if_pos rfl] at holds
      rcases keeps with rfl | ⟨same, -, -⟩
      · simp [Stage.holds] at holds
      · obtain ⟨file, there, named, created, -⟩ := sound.held q number (same ▸ holds)
        exact ⟨file, there, named, created, by simp [settled]⟩
    · rw [put_stage, if_neg own] at holds ⊢
      exact sound.held q number holds
  · intro file there
    obtain ⟨numbered, creator⟩ := sound.owned file there
    refine ⟨numbered, ?_⟩
    by_cases own : file.creator = p
    · rw [own] at creator ⊢
      rcases keeps with rfl | ⟨same, alive, -⟩
      · simp
      · rw [put_stage, if_pos rfl, same]
        exact .inl (creator.resolve_right alive)
    · simpa [own] using creator
  · intro q number breaking
    by_cases own : q = p
    · rw [own, put_stage, if_pos rfl] at breaking
      obtain ⟨numbered, creator⟩ := stale number breaking
      exact ⟨numbered, fun file there named => aside number file named there (creator file there named)⟩
    · rw [put_stage, if_neg own] at breaking
      obtain ⟨numbered, creator⟩ := sound.stale q number breaking
      exact ⟨numbered, fun file there named => aside number file named there (creator file there named)⟩
  · intro q since entered
    by_cases own : q = p
    · rw [own, put_stage, if_pos rfl, settled] at entered
      cases entered
    · rw [put_stage, if_neg own] at entered
      exact sound.past q since entered

/-- A file found stale is not that of a process still in its critical section. -/
theorem Sound.stale_creator {s : System} (sound : Sound s) (short : Short s) {file : File}
    (there : s.file = some file) (old : isStale s.now file = true) :
    s.stage file.creator = .leaving file.number ∨ s.stage file.creator = .crashed := by
  rcases (sound.owned file there).2 with holds | crashed
  · obtain ⟨file', there', -, -, fresh⟩ := sound.held _ _ holds
    obtain rfl := Option.some.inj (there.symm.trans there')
    have working : ∀ since, (s.stage file.creator).since ≠ some since := by
      intro since entered
      have limit := short _ _ entered
      have later := fresh since entered
      simp only [isStale, decide_eq_true_eq] at old
      linarith
    left
    cases stage : s.stage file.creator with
    | leaving number =>
      rw [stage] at holds
      rw [Option.some.inj holds]
    | entered number since => exact absurd (by rw [stage]; rfl) (working since)
    | inside number since => exact absurd (by rw [stage]; rfl) (working since)
    | _ =>
      rw [stage] at holds
      cases holds
  · exact .inr crashed

theorem Sound.elapse {s : System} (sound : Sound s) {duration : ℚ} (forward : 0 ≤ duration) :
    Sound { s with now := s.now + duration } := by
  refine ⟨sound.held, sound.owned, sound.stale, ?_⟩
  intro p since entered
  have := sound.past p since entered
  dsimp only
  linarith

/-- With no file there, nobody holds the lock. -/
theorem Sound.free {s : System} (sound : Sound s) (none_there : s.file = none) (p : Nat) :
    (s.stage p).holds = none := by
  cases holds : (s.stage p).holds with
  | none => rfl
  | some number =>
    obtain ⟨file, there, -⟩ := sound.held p number holds
    rw [none_there] at there
    cases there

theorem Sound.create {s : System} (sound : Sound s) (p : Nat) (free : s.file = none) :
    Sound { s.put p (.entered s.created s.now) with
      file := some ⟨s.created, p, s.now⟩
      created := s.created + 1 } := by
  constructor
  · intro q number holds
    dsimp only at holds ⊢
    by_cases own : q = p
    · subst own
      simp only [put_stage, if_true, Stage.holds, Option.some.injEq] at holds
      refine ⟨_, rfl, holds, rfl, ?_⟩
      intro since entered
      simp only [put_stage, if_true, Stage.since, Option.some.injEq] at entered
      exact entered ▸ le_refl _
    · rw [put_stage, if_neg own, sound.free free q] at holds
      cases holds
  · intro file there
    obtain rfl := Option.some.inj there
    exact ⟨Nat.lt_succ_self _, .inl (by simp [Stage.holds])⟩
  · intro q number breaking
    dsimp only at breaking ⊢
    by_cases own : q = p
    · simp [own] at breaking
    · rw [put_stage, if_neg own] at breaking
      have older := (sound.stale q number breaking).1
      refine ⟨Nat.lt_succ_of_lt older, ?_⟩
      intro file there named
      obtain rfl := Option.some.inj there
      dsimp only at named
      omega
  · intro q since entered
    dsimp only at entered ⊢
    by_cases own : q = p
    · simp only [own, put_stage, if_true, Stage.since, Option.some.injEq] at entered
      exact entered ▸ le_refl _
    · rw [put_stage, if_neg own] at entered
      exact sound.past q since entered

/-- Taking the file away, when nobody else holds the lock by it. -/
theorem Sound.unlink {s : System} (sound : Sound s) {p : Nat} {stage : Stage} (gone : stage.holds = none)
    (settled : stage.since = none) (calm : ∀ number, stage ≠ .breaking number)
    (others : ∀ q, q ≠ p → (s.stage q).holds = none) : Sound { s.put p stage with file := none } := by
  constructor
  · intro q number holds
    dsimp only at holds
    by_cases own : q = p
    · rw [own, put_stage, if_pos rfl, gone] at holds
      cases holds
    · rw [put_stage, if_neg own, others q own] at holds
      cases holds
  · intro file there
    cases there
  · intro q number breaking
    dsimp only at breaking
    by_cases own : q = p
    · rw [own, put_stage, if_pos rfl] at breaking
      exact absurd breaking (calm number)
    · rw [put_stage, if_neg own] at breaking
      exact ⟨(sound.stale q number breaking).1, fun file there => nomatch there⟩
  · intro q since entered
    dsimp only at entered ⊢
    by_cases own : q = p
    · rw [own, put_stage, if_pos rfl, settled] at entered
      cases entered
    · rw [put_stage, if_neg own] at entered
      exact sound.past q since entered

theorem Sound.write {s : System} (sound : Sound s) {p number : Nat} {since : ℚ}
    (entered : s.stage p = .entered number since) : Sound { s.put p (.inside number since) with
      file := s.file.map (fun file => if file.number = number then { file with mtime := s.now } else file) } := by
  obtain ⟨file, there, named, created, -⟩ := sound.held p number (by rw [entered]; rfl)
  have before := sound.past p since (by rw [entered]; rfl)
  have others : ∀ q, q ≠ p → (s.stage q).holds = none := by
    intro q differ
    cases holds : (s.stage q).holds with
    | none => rfl
    | some _ => exact absurd (sound.alone q p (by simp [holds]) (by simp [entered, Stage.holds])) differ
  have written : s.file.map (fun file => if file.number = number then { file with mtime := s.now } else file) =
      some ⟨number, p, s.now⟩ := by
    simp [there, ← named, ← created]
  rw [written]
  constructor
  · intro q number' holds
    dsimp only at holds ⊢
    by_cases own : q = p
    · subst own
      simp only [put_stage, if_true, Stage.holds, Option.some.injEq] at holds
      refine ⟨_, rfl, holds, rfl, ?_⟩
      intro since' begun
      simp only [put_stage, if_true, Stage.since, Option.some.injEq] at begun
      exact begun ▸ before
    · rw [put_stage, if_neg own, others q own] at holds
      cases holds
  · intro file' there'
    obtain rfl := Option.some.inj there'
    exact ⟨named ▸ (sound.owned file there).1, .inl (by simp [Stage.holds])⟩
  · intro q number' breaking
    dsimp only at breaking ⊢
    by_cases own : q = p
    · simp [own] at breaking
    · rw [put_stage, if_neg own] at breaking
      obtain ⟨numbered, creator⟩ := sound.stale q number' breaking
      refine ⟨numbered, ?_⟩
      intro file' there' named'
      obtain rfl := Option.some.inj there'
      have idle := creator file there (named.trans named')
      simp [created, entered] at idle
  · intro q since' begun
    dsimp only at begun ⊢
    by_cases own : q = p
    · simp only [own, put_stage, if_true, Stage.since, Option.some.injEq] at begun
      exact begun ▸ before
    · rw [put_stage, if_neg own] at begun
      exact sound.past q since' begun

theorem Sound.step {s : System} (sound : Sound s) (short : Short s) (m : Move) (careful : steady s m = true) :
    Sound (s.step m) ∧ Spares s m := by
  have same : ∀ t : System, t.file = s.file → s.step m = t → Spares s m := by
    intro t kept stepped file there gone
    rw [stepped, kept, there] at gone
    cases gone
  cases m with
  | elapse duration =>
    refine ⟨?_, same _ (by simp only [System.step]; split <;> rfl) rfl⟩
    simp only [System.step]
    split
    · rename_i forward
      exact sound.elapse forward
    · exact sound
  | start p =>
    refine ⟨?_, same _ (by simp only [System.step]; split <;> rfl) rfl⟩
    simp only [System.step]
    split
    · rename_i idle
      exact sound.put rfl (.inr ⟨by rw [idle]; rfl, by simp [idle], by simp [idle]⟩) (by simp)
    · exact sound
  | create p =>
    simp only [System.step]
    split
    · rename_i trying
      cases there : s.file with
      | none =>
        refine ⟨?_, ?_⟩
        · simpa [System.step, trying, there] using sound.create p there
        · intro file present
          rw [there] at present
          cases present
      | some file =>
        refine ⟨?_, same (s.put p .blocked) rfl (by simp [System.step, trying, there])⟩
        exact sound.put rfl (.inr ⟨by rw [trying]; rfl, by simp [trying], by simp [trying]⟩) (by simp)
    · rename_i elsewhere
      exact ⟨sound, same s rfl (by simp [System.step, elsewhere])⟩
  | stat p =>
    have kept : (s.step (.stat p)).file = s.file := by
      simp only [System.step]
      split
      · split
        · split <;> rfl
        · rfl
      · rfl
    refine ⟨?_, same _ kept rfl⟩
    simp only [System.step]
    split
    · rename_i blocked
      have keeps : ∀ stage : Stage, stage.holds = none → stage.holds = (s.stage p).holds ∧
          s.stage p ≠ .crashed ∧ ∀ number, s.stage p ≠ .leaving number := by
        intro stage free
        exact ⟨by rw [free, blocked]; rfl, by simp [blocked], by simp [blocked]⟩
      split
      · rename_i file there
        split
        · rename_i old
          refine sound.put rfl (.inr (keeps _ rfl)) ?_
          intro number found
          obtain rfl := Stage.breaking.inj found
          refine ⟨(sound.owned file there).1, ?_⟩
          intro file' there' _
          obtain rfl := Option.some.inj (there.symm.trans there')
          exact sound.stale_creator short there old
        · exact sound.put rfl (.inr (keeps _ rfl)) (by simp)
      · exact sound.put rfl (.inr (keeps _ rfl)) (by simp)
    · exact sound
  | breakLock p =>
    cases breaking : s.stage p with
    | breaking number =>
      have dead : ∀ file, s.file = some file → s.stage file.creator = .crashed := by
        intro file there
        obtain ⟨named, staying⟩ : file.number = number ∧ s.stage file.creator ≠ .leaving number := by
          simpa [steady, breaking, there] using careful
        exact ((sound.stale p number breaking).2 file there named).resolve_left staying
      refine ⟨?_, fun file there _ => .inr (.inr (dead file there))⟩
      simp only [System.step, breaking]
      apply sound.unlink rfl rfl (by simp)
      intro q _
      cases holds : (s.stage q).holds with
      | none => rfl
      | some number' =>
        obtain ⟨file, there, -, created, -⟩ := sound.held q number' holds
        have crashed := dead file there
        rw [created] at crashed
        simp [crashed, Stage.holds] at holds
    | _ => exact ⟨by simpa [System.step, breaking] using sound, same s rfl (by simp [System.step, breaking])⟩
  | wake p =>
    refine ⟨?_, same _ (by simp only [System.step]; split <;> rfl) rfl⟩
    simp only [System.step]
    split
    · rename_i asleep
      exact sound.put rfl (.inr ⟨by rw [asleep]; rfl, by simp [asleep], by simp [asleep]⟩) (by simp)
    · exact sound
  | write p =>
    cases entered : s.stage p with
    | entered number since =>
      refine ⟨by simpa [System.step, entered] using sound.write entered, ?_⟩
      intro file there gone
      simp [System.step, entered, there] at gone
    | _ => exact ⟨by simpa [System.step, entered] using sound, same s rfl (by simp [System.step, entered])⟩
  | finish p =>
    cases inside : s.stage p with
    | inside number since =>
      refine ⟨?_, same (s.put p (.leaving number)) rfl (by simp [System.step, inside])⟩
      simp only [System.step, inside]
      exact sound.put rfl (.inr ⟨by rw [inside]; rfl, by simp [inside], by simp [inside]⟩) (by simp)
    | _ => exact ⟨by simpa [System.step, inside] using sound, same s rfl (by simp [System.step, inside])⟩
  | unlock p =>
    cases leaving : s.stage p with
    | leaving number =>
      obtain ⟨file, there, -, created, -⟩ := sound.held p number (by rw [leaving]; rfl)
      refine ⟨?_, ?_⟩
      · simp only [System.step, leaving]
        apply sound.unlink rfl rfl (by simp)
        intro q differ
        cases holds : (s.stage q).holds with
        | none => rfl
        | some _ => exact absurd (sound.alone q p (by simp [holds]) (by simp [leaving, Stage.holds])) differ
      · intro file' there' _
        obtain rfl := Option.some.inj (there.symm.trans there')
        exact .inl (by rw [created])
    | _ => exact ⟨by simpa [System.step, leaving] using sound, same s rfl (by simp [System.step, leaving])⟩
  | crash p => exact ⟨sound.put rfl (.inl rfl) (by simp), same (s.put p .crashed) rfl rfl⟩

theorem run_append (s : System) (moves : List Move) (m : Move) : s.run (moves ++ [m]) = (s.run moves).step m := by
  simp [System.run, List.foldl_append]

/-- Every interleaving of steady steps in which no critical section outlasts the lock: one process at
most holds the lock, and no live one loses its file to another. -/
theorem run_alone (now : ℚ) (moves : List Move)
    (short : ∀ before, before <+: moves → Short ((System.begin now).run before))
    (careful : ∀ before m, before ++ [m] <+: moves → steady ((System.begin now).run before) m = true) :
    (∀ before, before <+: moves → Alone ((System.begin now).run before)) ∧
      ∀ before m, before ++ [m] <+: moves → Spares ((System.begin now).run before) m := by
  have sound : ∀ before, before <+: moves → Sound ((System.begin now).run before) := by
    intro before
    induction before using List.reverseRecOn with
    | nil => exact fun _ => sound_begin now
    | append_singleton before m ih =>
      intro starts
      have earlier := (List.prefix_append before [m]).trans starts
      rw [run_append]
      exact ((ih earlier).step (short before earlier) m (careful before m starts)).1
  refine ⟨fun before starts => (sound before starts).alone, ?_⟩
  intro before m starts
  have earlier := (List.prefix_append before [m]).trans starts
  exact ((sound before earlier).step (short before earlier) m (careful before m starts)).2

/-! A process that takes no step stays where it is, so that a schedule is judged by those that do. -/

def Move.process : Move → Option Nat
  | .elapse _ => none
  | .start p | .create p | .stat p | .breakLock p | .wake p | .write p | .finish p | .unlock p | .crash p => some p

theorem step_other (s : System) (m : Move) (p : Nat) (h : m.process ≠ some p) :
    (s.step m).stage p = s.stage p := by
  cases m <;> simp only [System.step] <;> simp only [Move.process, ne_eq, Option.some.injEq] at h <;>
    repeat' split
  all_goals first
    | rfl
    | simp [Ne.symm h]

def within (n : Nat) (s : System) : Bool :=
  (List.range n).all (fun p => match (s.stage p).since with
    | some since => s.now - since ≤ lockStaleSeconds
    | none => true)

theorem short_of_within (now : ℚ) (n : Nat) {moves : List Move}
    (few : ∀ m ∈ moves, ∀ p, m.process = some p → p < n)
    (h : ∀ before ∈ moves.inits, within n ((System.begin now).run before) = true) :
    ∀ before, before <+: moves → Short ((System.begin now).run before) := by
  have idle : ∀ p, n ≤ p → ∀ before, before <+: moves → ((System.begin now).run before).stage p = .idle := by
    intro p beyond before
    induction before using List.reverseRecOn with
    | nil => exact fun _ => rfl
    | append_singleton before m ih =>
      intro starts
      rw [run_append, step_other _ _ _ ?_]
      · exact ih ((List.prefix_append before [m]).trans starts)
      · intro acts
        have := few m (starts.subset (by simp)) p acts
        omega
  intro before starts p since entered
  by_cases known : p < n
  · have checked := List.all_eq_true.mp (h before ((List.mem_inits _ _).mpr starts)) p (List.mem_range.mpr known)
    simpa [entered] using checked
  · rw [idle p (by omega) before starts] at entered
    cases entered

/-- One process crashes in its section; two others find its file stale, one after the other break it
and create their own. -/
def overtaken : List Move :=
  [.start 0, .create 0, .crash 0, .elapse 31, .start 1, .create 1, .start 2, .create 2, .stat 1, .stat 2,
    .breakLock 1, .create 1, .breakLock 2, .create 2]

theorem overtaken_collides :
    (∀ before, before <+: overtaken → Short ((System.begin 0).run before)) ∧
      ¬Spares ((System.begin 0).run (overtaken.take 12)) (.breakLock 2) ∧
      ¬Alone ((System.begin 0).run overtaken) := by
  refine ⟨short_of_within 0 3 (by decide +kernel) (by decide +kernel), ?_, ?_⟩
  · intro spares
    have taken := spares ⟨1, 1, 31⟩ (by decide +kernel) (by decide +kernel)
    revert taken
    decide +kernel
  · intro alone
    have same := alone 1 2 (by decide +kernel) (by decide +kernel)
    omega

/-- The same crash with one process after the other. -/
def recovered : List Move :=
  [.start 0, .create 0, .crash 0, .elapse 31, .start 1, .create 1, .stat 1, .breakLock 1, .create 1, .write 1,
    .finish 1, .unlock 1]

theorem run_alone_recovered : Alone ((System.begin 0).run recovered) := by
  refine (run_alone 0 recovered (short_of_within 0 2 (by decide +kernel) (by decide +kernel)) ?_).1 _
    (List.prefix_refl _)
  intro before m starts
  have checked : ∀ before ∈ recovered.inits, ∀ m ∈ recovered[before.length]?,
      steady ((System.begin 0).run before) m = true := by decide +kernel
  refine checked before ((List.mem_inits _ _).mpr ((List.prefix_append before [m]).trans starts)) m ?_
  obtain ⟨rest, whole⟩ := starts
  rw [← whole]
  simp

end Onmc.ClaimLedger.Lock

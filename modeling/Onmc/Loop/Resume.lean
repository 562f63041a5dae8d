import Onmc.Loop.Checkpoint

/-! Whose checkpoint a resumed run picks up, after any runs of the loop and in any order of their steps. -/
namespace Onmc.Loop

/-- What a run is asked to do. -/
@[ext] structure Mission where
  goal : String
  verifyCommand : String
deriving DecidableEq

/-- What the runs do to the store. -/
inductive Event where
  | saved (mission : Mission) (state : LoopState)
  | stopped (mission : Mission) (stopReason : String)

namespace Event

def mission : Event → Mission
  | .saved mission _ => mission
  | .stopped mission _ => mission

/-- A stop that can be resumed leaves the store alone. -/
def acts : Event → Bool
  | .saved _ _ => true
  | .stopped _ stopReason => !resumableStops.contains stopReason

end Event

section

variable (digest : String → String)

def Mission.key (m : Mission) : String := loopSpecSha8 digest m.goal m.verifyCommand

def applyEvent (store : FileCheckpointStore) : Event → FileCheckpointStore
  | .saved m state => store.save (m.key digest) (state.checkpoint m.goal m.verifyCommand)
  | .stopped m stopReason => if resumableStops.contains stopReason then store else store.clear (m.key digest)

def storeAfter (history : List Event) : FileCheckpointStore := history.foldl (applyEvent digest) .empty

/-- A run that resumes restores only what a run with its own goal and verify command has saved. -/
def PicksOwn (history : List Event) (m : Mission) : Prop :=
  ∀ saved, (storeAfter digest history).load (m.key digest) = some saved →
    ∃ state, .saved m state ∈ history ∧ saved = state.checkpoint m.goal m.verifyCommand

end

/-! Two missions with one key. -/

/-- A separator can be read in two places. -/
inductive Twins : Mission → Mission → Prop
  | bar (goal verifyCommand : String) : Twins ⟨goal, "|" ++ verifyCommand⟩ ⟨goal ++ "|", verifyCommand⟩
  | separator (goal middle verifyCommand : String) :
      Twins ⟨goal, middle ++ "||" ++ verifyCommand⟩ ⟨goal ++ "||" ++ middle, verifyCommand⟩

def Mission.text (m : Mission) : String := m.goal ++ "||" ++ m.verifyCommand

theorem text_toList (m : Mission) : m.text.toList = m.goal.toList ++ '|' :: '|' :: m.verifyCommand.toList := by
  have bars : "||".toList = ['|', '|'] := rfl
  simp [Mission.text, bars]

theorem Twins.text {a b : Mission} (twins : Twins a b) : a.text = b.text := by
  apply String.toList_inj.mp
  rw [text_toList, text_toList]
  have bar : "|".toList = ['|'] := rfl
  have bars : "||".toList = ['|', '|'] := rfl
  cases twins with
  | bar goal verifyCommand => simp [bar]
  | separator goal middle verifyCommand => simp [bars]

/-- Of two missions with one text, the one with the longer goal is a twin of the other. -/
theorem twins_of_longer {a b : Mission} {more : List Char} (goals : b.goal.toList = a.goal.toList ++ more)
    (rest : '|' :: '|' :: a.verifyCommand.toList = more ++ '|' :: '|' :: b.verifyCommand.toList) :
    a = b ∨ Twins a b := by
  obtain ⟨goal, verifyCommand⟩ := a
  obtain ⟨goal', verifyCommand'⟩ := b
  simp only at goals rest
  have bar : "|".toList = ['|'] := rfl
  have bars : "||".toList = ['|', '|'] := rfl
  cases more with
  | nil =>
    have commands := (List.cons.inj (List.cons.inj rest).2).2
    rw [List.append_nil] at goals
    exact .inl (Mission.ext (String.toList_inj.mp goals.symm) (String.toList_inj.mp commands))
  | cons c more =>
    rw [List.cons_append, List.cons.injEq] at rest
    obtain ⟨rfl, rest⟩ := rest
    cases more with
    | nil =>
      have command : verifyCommand = "|" ++ verifyCommand' := by
        apply String.toList_inj.mp
        rw [String.toList_append, bar]
        exact (List.cons.inj rest).2
      have longer : goal' = goal ++ "|" := by
        apply String.toList_inj.mp
        rw [String.toList_append, bar, goals]
      rw [command, longer]
      exact .inr (.bar goal verifyCommand')
    | cons d more =>
      rw [List.cons_append, List.cons.injEq] at rest
      obtain ⟨rfl, rest⟩ := rest
      have command : verifyCommand = String.ofList more ++ "||" ++ verifyCommand' := by
        apply String.toList_inj.mp
        simp [bars, rest]
      have longer : goal' = goal ++ "||" ++ String.ofList more := by
        apply String.toList_inj.mp
        simp [bars, goals]
      rw [command, longer]
      exact .inr (.separator goal (String.ofList more) verifyCommand')

theorem text_eq_iff (a b : Mission) : a.text = b.text ↔ a = b ∨ Twins a b ∨ Twins b a := by
  constructor
  · intro same
    have texts := congrArg String.toList same
    rw [text_toList, text_toList] at texts
    rcases List.append_eq_append_iff.mp texts with ⟨more, goals, rest⟩ | ⟨more, goals, rest⟩
    · exact (twins_of_longer goals rest).imp_right .inl
    · rcases twins_of_longer goals rest with equal | twins
      · exact .inl equal.symm
      · exact .inr (.inr twins)
  · rintro (rfl | twins | twins)
    · rfl
    · exact twins.text
    · exact twins.text.symm

/-- Missions that are different and share a file: they are twins, or their digests begin with the same eight digits. -/
def Shares (digest : String → String) (m other : Mission) : Prop :=
  Twins m other ∨ Twins other m ∨
    (m.text ≠ other.text ∧ PyText.first 8 (digest m.text) = PyText.first 8 (digest other.text))

theorem Twins.ne {a b : Mission} (twins : Twins a b) : a ≠ b := by
  intro same
  have lengths := congrArg (fun m : Mission => m.goal.toList.length) same
  cases twins with
  | bar goal verifyCommand => simp at lengths
  | separator goal middle verifyCommand => simp at lengths

theorem Shares.ne {digest : String → String} {m other : Mission} (shares : Shares digest m other) : other ≠ m := by
  rcases shares with twins | twins | ⟨texts, -⟩
  · exact twins.ne.symm
  · exact twins.ne
  · exact fun same => texts (congrArg Mission.text same.symm)

theorem key_eq_iff (digest : String → String) (m other : Mission) :
    other.key digest = m.key digest ↔ other = m ∨ Shares digest m other := by
  have keys (a : Mission) : a.key digest = PyText.first 8 (digest a.text) := rfl
  rw [keys, keys]
  constructor
  · intro same
    by_cases texts : m.text = other.text
    · rcases (text_eq_iff m other).mp texts with equal | twins | twins
      · exact .inl equal.symm
      · exact .inr (.inl twins)
      · exact .inr (.inr (.inl twins))
    · exact .inr (.inr (.inr ⟨texts, same.symm⟩))
  · rintro (rfl | twins | twins | ⟨-, same⟩)
    · rfl
    · rw [twins.text]
    · rw [twins.text]
    · exact same.symm

/-! Steps and runs. -/

/-- What an event that acts leaves in its file. -/
def Event.left : Event → Option CheckpointState
  | .saved m state => some (state.checkpoint m.goal m.verifyCommand)
  | .stopped _ _ => none

section

variable {digest : String → String}

theorem load_applyEvent (store : FileCheckpointStore) (event : Event) (key : String) :
    (applyEvent digest store event).load key =
      if event.acts = true ∧ event.mission.key digest = key then event.left else store.load key := by
  cases event with
  | saved m state =>
    rw [applyEvent, FileCheckpointStore.load_save]
    simp [Event.acts, Event.mission, Event.left, eq_comm]
  | stopped m stopReason =>
    cases kept : resumableStops.contains stopReason with
    | true => simp only [applyEvent, Event.acts, kept, if_true, Bool.not_true, Bool.false_eq_true, false_and, if_false]
    | false =>
      simp only [applyEvent, Event.acts, kept, Bool.false_eq_true, if_false, Bool.not_false, true_and,
        FileCheckpointStore.load_clear, Event.mission, Event.left, eq_comm]

theorem storeAfter_concat (history : List Event) (event : Event) :
    storeAfter digest (history ++ [event]) = applyEvent digest (storeAfter digest history) event := by
  rw [storeAfter, List.foldl_append, List.foldl_cons, List.foldl_nil]
  rfl

/-- No event writes or removes the file of the key. -/
def Untouched (digest : String → String) (key : String) (events : List Event) : Prop :=
  ∀ event ∈ events, event.acts = true → event.mission.key digest ≠ key

theorem concat_split {α : Type} {items earlier later : List α} {last item : α}
    (same : items ++ [last] = earlier ++ item :: later) :
    (later = [] ∧ items = earlier ∧ last = item) ∨ ∃ front, later = front ++ [last] ∧ items = earlier ++ item :: front := by
  cases later using List.reverseRecOn with
  | nil =>
    obtain ⟨items, ends⟩ := List.append_inj' same rfl
    exact .inl ⟨rfl, items, (List.cons.inj ends).1⟩
  | append_singleton front final =>
    rw [← List.cons_append, ← List.append_assoc] at same
    obtain ⟨items, ends⟩ := List.append_inj' same rfl
    exact .inr ⟨front, by rw [(List.cons.inj ends).1], items⟩

/-- What can be loaded is what was saved last under the key. -/
theorem load_storeAfter {history : List Event} {key : String} {saved : CheckpointState} :
    (storeAfter digest history).load key = some saved ↔ ∃ earlier event later, history = earlier ++ event :: later ∧
      event.acts = true ∧ event.mission.key digest = key ∧ event.left = some saved ∧ Untouched digest key later := by
  induction history using List.reverseRecOn with
  | nil =>
    constructor
    · intro found
      cases found
    · rintro ⟨earlier, event, later, split, -⟩
      exact absurd split.symm (by simp)
  | append_singleton history last ih =>
    rw [storeAfter_concat, load_applyEvent]
    by_cases here : last.acts = true ∧ last.mission.key digest = key
    · rw [if_pos here]
      constructor
      · intro left
        exact ⟨history, last, [], rfl, here.1, here.2, left, fun _ member => absurd member List.not_mem_nil⟩
      · rintro ⟨earlier, event, later, whole, acts, named, left, quiet⟩
        rcases concat_split whole with ⟨-, -, rfl⟩ | ⟨front, rfl, -⟩
        · exact left
        · exact absurd here.2 (quiet last (List.mem_append_right _ (List.mem_singleton_self _)) here.1)
    · rw [if_neg here, ih]
      constructor
      · rintro ⟨earlier, event, later, rfl, acts, named, left, quiet⟩
        refine ⟨earlier, event, later ++ [last], List.append_assoc _ _ _, acts, named, left, fun other member acting => ?_⟩
        rcases List.mem_append.mp member with before | final
        · exact quiet other before acting
        · obtain rfl := List.mem_singleton.mp final
          exact fun same => here ⟨acting, same⟩
      · rintro ⟨earlier, event, later, whole, acts, named, left, quiet⟩
        rcases concat_split whole with ⟨-, -, rfl⟩ | ⟨front, rfl, rfl⟩
        · exact absurd ⟨acts, named⟩ here
        · exact ⟨earlier, event, front, rfl, acts, named, left,
            fun other member => quiet other (List.mem_append_left _ member)⟩

end

/-- The last to write the mission's file, before anyone removed it, was a run with another mission. -/
def LeftByOther (digest : String → String) (history : List Event) (m : Mission) : Prop :=
  ∃ earlier other state later, history = earlier ++ .saved other state :: later ∧ Shares digest m other ∧
    ∀ event ∈ later, event.acts = true → event.mission ≠ m ∧ ¬ Shares digest m event.mission

/-- A resumed run has its own checkpoint unless the last one in its file is that of a mission that shares the file. -/
theorem resume_iff (digest : String → String) (history : List Event) (m : Mission) :
    PicksOwn digest history m ↔ ¬ LeftByOther digest history m := by
  have quiet_iff (later : List Event) : (∀ event ∈ later, event.acts = true →
      event.mission ≠ m ∧ ¬ Shares digest m event.mission) ↔ Untouched digest (m.key digest) later := by
    simp only [Untouched, ne_eq, key_eq_iff, not_or]
  constructor
  · rintro own ⟨earlier, other, state, later, split, shares, quiet⟩
    have found : (storeAfter digest history).load (m.key digest) = some (state.checkpoint other.goal other.verifyCommand) :=
      load_storeAfter.mpr ⟨earlier, .saved other state, later, split, rfl, (key_eq_iff digest m other).mpr (.inr shares),
        rfl, (quiet_iff later).mp quiet⟩
    obtain ⟨state', -, same⟩ := own _ found
    exact shares.ne (Mission.ext (congrArg CheckpointState.goal same) (congrArg CheckpointState.verifyCommand same))
  · intro mine saved found
    obtain ⟨earlier, event, later, split, acts, named, left, quiet⟩ := load_storeAfter.mp found
    cases event with
    | stopped other stopReason => cases left
    | saved other state =>
      obtain rfl := Option.some.inj left
      rcases (key_eq_iff digest m other).mp named with rfl | shares
      · exact ⟨state, by simp [split], rfl⟩
      · exact absurd ⟨earlier, other, state, later, split, shares, (quiet_iff later).mpr quiet⟩ mine

theorem Twins.bar_mem {a b : Mission} (twins : Twins a b) : '|' ∈ b.goal.toList := by
  have single : "|".toList = ['|'] := rfl
  have double : "||".toList = ['|', '|'] := rfl
  cases twins with
  | bar goal verifyCommand => simp [single]
  | separator goal middle verifyCommand => simp [double]

/-- Goals without bars keep their checkpoints apart, short of a collision of the short digests. -/
theorem barless_own {digest : String → String} {history : List Event} {m : Mission} (barless : '|' ∉ m.goal.toList)
    (others : ∀ event ∈ history, '|' ∉ event.mission.goal.toList)
    (apart : ∀ event ∈ history, PyText.first 8 (digest m.text) = PyText.first 8 (digest event.mission.text) →
      m.text = event.mission.text) : PicksOwn digest history m := by
  rw [resume_iff]
  rintro ⟨earlier, other, state, later, rfl, shares, -⟩
  have member : Event.saved other state ∈ earlier ++ .saved other state :: later :=
    List.mem_append_right _ List.mem_cons_self
  rcases shares with twins | twins | ⟨texts, digits⟩
  · exact others _ member twins.bar_mem
  · exact barless twins.bar_mem
  · exact texts (apart _ member digits)

theorem LoopState.start_loads (digest : String → String) (store : FileCheckpointStore) (m : Mission) :
    LoopState.start digest (some store) true m.goal m.verifyCommand =
      match store.load (m.key digest) with
      | some saved => .restore saved
      | none => .fresh :=
  rfl

/-- What a resumed run begins with, if it picks its own. -/
theorem PicksOwn.start {digest : String → String} {history : List Event} {m : Mission} (own : PicksOwn digest history m) :
    LoopState.start digest (some (storeAfter digest history)) true m.goal m.verifyCommand = .fresh ∨
      ∃ state, .saved m state ∈ history ∧
        LoopState.start digest (some (storeAfter digest history)) true m.goal m.verifyCommand =
          .restore (state.checkpoint m.goal m.verifyCommand) := by
  rw [LoopState.start_loads]
  cases found : (storeAfter digest history).load (m.key digest) with
  | none => exact .inl rfl
  | some saved =>
    obtain ⟨state, member, rfl⟩ := own saved found
    exact .inr ⟨state, member, rfl⟩

/-- A run that ran out of its budget. -/
def interrupted : List Event :=
  [.saved ⟨"fix||ruff check .", "pytest"⟩ .fresh, .stopped ⟨"fix||ruff check .", "pytest"⟩ "budget"]

theorem interrupted_taken : (storeAfter Sha256.sha256 interrupted).load
      (loopSpecSha8 Sha256.sha256 "fix" "ruff check .||pytest") =
        some (LoopState.fresh.checkpoint "fix||ruff check ." "pytest") ∧
    ¬ PicksOwn Sha256.sha256 interrupted ⟨"fix", "ruff check .||pytest"⟩ := by
  have twins : Twins ⟨"fix", "ruff check .||pytest"⟩ ⟨"fix||ruff check .", "pytest"⟩ :=
    .separator "fix" "ruff check ." "pytest"
  have named := (key_eq_iff Sha256.sha256 _ _).mpr (.inr (.inl twins))
  have found := load_storeAfter.mpr ⟨[], .saved ⟨"fix||ruff check .", "pytest"⟩ .fresh,
    [.stopped ⟨"fix||ruff check .", "pytest"⟩ "budget"], rfl, rfl, named, rfl, fun event member acting => by
      obtain rfl := List.mem_singleton.mp member
      cases acting⟩
  refine ⟨found, fun own => ?_⟩
  obtain ⟨state, -, same⟩ := own _ found
  have goals : "fix||ruff check ." = "fix" := congrArg CheckpointState.goal same
  exact absurd goals (by decide)

end Onmc.Loop

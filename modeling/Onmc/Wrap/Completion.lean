import Onmc.Sha256
import Onmc.Wrap.Runtime

/-! Every run of prompts, changes of the workspace and Stops: what the completion contract gives at each
step, and when. -/
namespace Onmc.Wrap

open ToolBroker (WordChars)

inductive Event where
  /-- Edits, commits, staging: any change of the workspace. -/
  | work (after : Workspace)
  | prompt (sessionId text : String) (strict : Bool) (now : Int) (project : Project)
  | stop (sessionId : String) (strict : Bool) (now : Int) (verifierRunner : String → Bool × String)

/-- The state with what an observer keeps of the mission at each key: the workspace in which it was armed,
and how many Stops it has blocked. -/
structure Watched where
  state : State
  armedOn : String → Option Workspace
  blocked : String → Nat

/-- Nothing is armed. -/
def Watched.start (w : Workspace) : Watched := ⟨⟨w, fun _ => none⟩, fun _ => none, fun _ => 0⟩

section
variable [Tools]

/-- The mission that a session waits for. -/
def State.pending (s : State) (sessionId : String) : Option InteractiveMission :=
  (s.load sessionId).filter (fun m => m.status = .active)

section
variable [WordChars] [Planner]

/-- A prompt that starts a new mission. -/
def State.arms (s : State) (sessionId prompt : String) (strict : Bool) (project : Project) : Bool :=
  strict && sessionId != "" && promptIsCodingWork prompt && (s.pending sessionId).isNone &&
    (detectVerifier project).isSome

theorem armMission_new {s : State} {sessionId prompt : String} {strict : Bool} {project : Project}
    (new : s.arms sessionId prompt strict project = true) (now : Int) :
    ∃ verifier, (armMission s sessionId prompt strict now project).1 =
      s.write (missionKey sessionId) (newMission s.workspace sessionId prompt verifier now) := by
  simp only [State.arms, Bool.and_eq_true, bne_iff_ne, ne_eq, Option.isNone_iff_eq_none] at new
  obtain ⟨⟨⟨⟨rfl, named⟩, coding⟩, free⟩, detected⟩ := new
  obtain ⟨verifier, found⟩ := Option.isSome_iff_exists.mp detected
  refine ⟨verifier, ?_⟩
  rw [State.pending] at free
  simp [armMission, named, coding, free, found]

theorem armMission_same {s : State} {sessionId prompt : String} {strict : Bool} {project : Project}
    (old : s.arms sessionId prompt strict project = false) (now : Int) :
    (armMission s sessionId prompt strict now project).1 = s := by
  unfold armMission
  split
  · rfl
  · rename_i passes
    split
    · rfl
    · rename_i free
      cases found : detectVerifier project with
      | none => rfl
      | some verifier =>
        have new : s.arms sessionId prompt strict project = true := by
          simp only [Bool.or_eq_true, Bool.not_eq_true', beq_iff_eq, not_or, Bool.not_eq_false] at passes
          simp [State.arms, passes, State.pending, free, found]
        rw [new] at old
        cases old

end

theorem evaluateCompletion_none {s : State} {sessionId : String} {strict : Bool}
    (idle : strict = false ∨ sessionId = "" ∨ s.pending sessionId = none) (now : Int)
    (verifierRunner : String → Bool × String) :
    evaluateCompletion s sessionId strict now verifierRunner = (s, none) := by
  rw [State.pending] at idle
  rcases idle with rfl | rfl | free
  · rfl
  · simp [evaluateCompletion]
  · simp [evaluateCompletion, free]

theorem evaluateCompletion_pending {s : State} {sessionId : String} {m : InteractiveMission}
    (named : sessionId ≠ "") (pending : s.pending sessionId = some m) (now : Int)
    (verifierRunner : String → Bool × String) :
    evaluateCompletion s sessionId true now verifierRunner =
      (s.write (missionKey sessionId) (judge s.workspace m now verifierRunner).1,
        some (judge s.workspace m now verifierRunner).2) := by
  rw [State.pending] at pending
  simp [evaluateCompletion, named, pending]

theorem pending_eq {s : State} {sessionId : String} {m : InteractiveMission}
    (pending : s.pending sessionId = some m) :
    s.missions (missionKey sessionId) = some m ∧ m.status = .active := by
  simpa [State.pending, State.load, Option.filter_eq_some_iff] using pending

/-! What one Stop does to a mission. -/

/-- The code takes the workspace for a change of the mission's baseline. -/
def Changed (w : Workspace) (m : InteractiveMission) : Prop :=
  workspaceFingerprint w ≠ "" ∧ workspaceFingerprint w ≠ m.baselineFingerprint

/-- The budget of the mission is not used up. -/
def Within (m : InteractiveMission) (now : Int) : Prop := m.blocksUsed < m.maxBlocks ∧ now < m.deadlineAtEpoch

section
variable {w : Workspace} {m : InteractiveMission} {now : Int} {verifierRunner : String → Bool × String}

theorem judge_spent (spent : ¬ Within m now) : judge w m now verifierRunner =
    ({ m with status := .exhausted, lastReason := exhaustedReason m }, ⟨false, exhaustedReason m, .exhausted⟩) := by
  have used_up : m.maxBlocks ≤ m.blocksUsed ∨ m.deadlineAtEpoch ≤ now := by
    simp only [Within] at spent
    omega
  rw [judge, if_pos used_up]

theorem examine_iff : (examine w m verifierRunner).1 = true ↔
    Changed w m ∧ (verifierRunner m.verifier).1 = true := by
  unfold examine Changed
  by_cases same : workspaceFingerprint w = "" ∨ workspaceFingerprint w = m.baselineFingerprint
  · simp only [if_pos same, Bool.false_eq_true, false_iff]
    tauto
  · simp only [if_neg same]
    tauto

theorem judge_passes (within : Within m now) (changed : Changed w m)
    (passed : (verifierRunner m.verifier).1 = true) : ∃ evidence, judge w m now verifierRunner =
      ({ m with status := .verified, lastReason := evidence }, ⟨false, "", .verified⟩) := by
  have unspent : ¬ (m.maxBlocks ≤ m.blocksUsed ∨ m.deadlineAtEpoch ≤ now) := by
    simp only [Within] at within
    omega
  have passes := examine_iff.mpr ⟨changed, passed⟩
  exact ⟨(examine w m verifierRunner).2, by simp only [judge, if_neg unspent, passes, if_true]⟩

theorem judge_blocks (within : Within m now)
    (unmet : ¬ (Changed w m ∧ (verifierRunner m.verifier).1 = true)) :
    ∃ evidence, judge w m now verifierRunner = ({ m with blocksUsed := m.blocksUsed + 1, lastReason := evidence },
      ⟨true, blockedReason m evidence, .active⟩) := by
  have unspent : ¬ (m.maxBlocks ≤ m.blocksUsed ∨ m.deadlineAtEpoch ≤ now) := by
    simp only [Within] at within
    omega
  have fails : ¬ (examine w m verifierRunner).1 = true := fun passes => unmet (examine_iff.mp passes)
  exact ⟨(examine w m verifierRunner).2, by simp only [judge, if_neg unspent, if_neg fails]⟩

end

/-- A Stop does not touch what the observer knows. -/
theorem judge_keeps {w : Workspace} {m : InteractiveMission} (now : Int)
    (verifierRunner : String → Bool × String) (bounded : m.blocksUsed ≤ m.maxBlocks) :
    let m' := (judge w m now verifierRunner).1
    m'.baselineFingerprint = m.baselineFingerprint ∧ m'.maxBlocks = m.maxBlocks ∧ m'.blocksUsed ≤ m.maxBlocks ∧
      m'.blocksUsed = if (judge w m now verifierRunner).2.block then m.blocksUsed + 1 else m.blocksUsed := by
  by_cases within : Within m now
  · by_cases met : Changed w m ∧ (verifierRunner m.verifier).1 = true
    · obtain ⟨evidence, outcome⟩ := judge_passes within met.1 met.2
      rw [outcome]
      exact ⟨rfl, rfl, bounded, rfl⟩
    · obtain ⟨evidence, outcome⟩ := judge_blocks within met
      rw [outcome]
      exact ⟨rfl, rfl, within.1, rfl⟩
  · rw [judge_spent within]
    exact ⟨rfl, rfl, bounded, rfl⟩

/-! Runs. -/

/-- What the observer knows of each mission. -/
def Known (g : Watched) : Prop :=
  ∀ key m, g.state.missions key = some m → g.blocked key = m.blocksUsed ∧ m.blocksUsed ≤ m.maxBlocks ∧
    ∃ w, g.armedOn key = some w ∧ m.baselineFingerprint = workspaceFingerprint w

theorem Known.start (w : Workspace) : Known (.start w) := by
  intro key m found
  cases found

section
variable [WordChars] [Planner]

/-- One event, and what the observer notes of it. -/
def Watched.watch (g : Watched) : Event → Watched
  | .work after => { g with state := { g.state with workspace := after } }
  | .prompt sessionId text strict now project =>
    let state := (armMission g.state sessionId text strict now project).1
    if g.state.arms sessionId text strict project then
      { state := state
        armedOn := fun key => if key = missionKey sessionId then some g.state.workspace else g.armedOn key
        blocked := fun key => if key = missionKey sessionId then 0 else g.blocked key }
    else { g with state := state }
  | .stop sessionId strict now verifierRunner =>
    let (state, decision) := evaluateCompletion g.state sessionId strict now verifierRunner
    { g with
      state := state
      blocked := fun key =>
        if key = missionKey sessionId ∧ decision.any (·.block) then g.blocked key + 1 else g.blocked key }

def Watched.run (g : Watched) (events : List Event) : Watched := events.foldl Watched.watch g

theorem Known.watch {g : Watched} (known : Known g) (e : Event) : Known (g.watch e) := by
  cases e with
  | work after => exact known
  | prompt sessionId text strict now project =>
    cases new : g.state.arms sessionId text strict project with
    | false =>
      simp only [Watched.watch, new, Bool.false_eq_true, if_false, armMission_same new]
      exact known
    | true =>
      obtain ⟨verifier, written⟩ := armMission_new new now
      simp only [Watched.watch, new, if_true, written]
      intro key m found
      simp only [State.write] at found ⊢
      by_cases here : key = missionKey sessionId
      · rw [if_pos here] at found
        obtain rfl := Option.some.inj found
        simp only [if_pos here]
        exact ⟨rfl, Nat.zero_le _, g.state.workspace, rfl, rfl⟩
      · rw [if_neg here] at found
        simp only [if_neg here]
        exact known key m found
  | stop sessionId strict now verifierRunner =>
    by_cases idle : strict = false ∨ sessionId = "" ∨ g.state.pending sessionId = none
    · simp only [Watched.watch, evaluateCompletion_none idle]
      simpa using known
    · obtain ⟨is_strict, named, waits⟩ := not_or.mp idle |>.imp_right not_or.mp
      obtain rfl : strict = true := by simpa using is_strict
      obtain ⟨m, pending⟩ := Option.ne_none_iff_exists'.mp waits
      simp only [Watched.watch, evaluateCompletion_pending named pending]
      obtain ⟨count, bounded, w, armed, base⟩ := known _ m (pending_eq pending).1
      obtain ⟨same_base, same_max, bounded', count'⟩ :=
        judge_keeps (w := g.state.workspace) now verifierRunner bounded
      intro key m' found
      simp only [State.write] at found ⊢
      by_cases here : key = missionKey sessionId
      · rw [if_pos here] at found
        obtain rfl := Option.some.inj found
        rw [here, count, count', same_max, same_base]
        refine ⟨by simp, ?_, w, armed, base⟩
        rw [← count']
        exact bounded'
      · rw [if_neg here] at found
        simpa [here] using known key m' found

theorem Known.run {g : Watched} (known : Known g) (events : List Event) : Known (g.run events) := by
  induction events generalizing g with
  | nil => exact known
  | cons e events ih => exact ih (known.watch e)

end

/-! The contract. -/

/-- Two workspaces that show different things and still give the same bytes. -/
def Confused (w w' : Workspace) : Prop := w.shown ≠ w'.shown ∧ w.hashed = w'.hashed

/-- What is shown of the workspace, against what was shown when the mission was armed, tells whether the
content is another one. -/
def Telling (armed w : Workspace) : Prop :=
  if w.readable then
    if armed.readable then
      (Confused w armed → w.content = armed.content) ∧
        (¬ Confused w armed → (w.content = armed.content ↔ w.shown = armed.shown))
    else w.content ≠ armed.content
  else w.content = armed.content

theorem telling_iff [LawfulTools] {armed w : Workspace} {m : InteractiveMission}
    (base : m.baselineFingerprint = workspaceFingerprint armed) :
    Telling armed w ↔ (Changed w m ↔ w.content ≠ armed.content) := by
  cases readable : w.readable with
  | false =>
    have blind : ¬ Changed w m := by simp [Changed, workspaceFingerprint, readable]
    simp [Telling, readable, blind]
  | true =>
    have tells : Changed w m ↔ (armed.readable = true → w.hashed ≠ armed.hashed) := by
      rw [Changed, base]
      exact fingerprint_tells readable
    rw [tells]
    cases before : armed.readable with
    | false => simp [Telling, readable, before]
    | true =>
      simp only [Telling, readable, before, if_true, forall_const]
      by_cases confused : Confused w armed
      · simp [confused, confused.2]
      · have bytes : w.hashed = armed.hashed ↔ w.shown = armed.shown := by
          constructor
          · intro same
            by_contra differs
            exact confused ⟨differs, same⟩
          · exact hashed_of_shown
        simp only [confused, false_implies, true_and, not_false_eq_true, true_implies, ne_eq, bytes]
        tauto

section
variable [WordChars] [Planner]

/-- The answer to an event. -/
def Watched.decision (g : Watched) : Event → Option CompletionDecision
  | .stop sessionId strict now verifierRunner => (evaluateCompletion g.state sessionId strict now verifierRunner).2
  | _ => none

/-- A prompt that arms the mission at a key. -/
def Watched.armsAt (g : Watched) (key : String) : Event → Prop
  | .prompt sessionId text strict _ project =>
    key = missionKey sessionId ∧ g.state.arms sessionId text strict project = true
  | _ => False

/-- What the completion contract promises of one event. -/
structure Contract (g : Watched) (e : Event) : Prop where
  bounded : ∀ key m, (g.watch e).state.missions key = some m → (g.watch e).blocked key ≤ m.maxBlocks
  timely : ∀ sessionId strict now verifierRunner m d, e = .stop sessionId strict now verifierRunner →
    g.state.load sessionId = some m → g.decision e = some d → d.block = true → now < m.deadlineAtEpoch
  honest : ∀ key m, (g.watch e).state.missions key = some m → m.status = .verified →
    g.state.missions key = some m ∨ ∃ sessionId strict now verifierRunner armed,
      e = .stop sessionId strict now verifierRunner ∧ key = missionKey sessionId ∧ g.armedOn key = some armed ∧
      g.state.workspace.content ≠ armed.content ∧ (verifierRunner m.verifier).1 = true
  released : ∀ sessionId strict now verifierRunner m armed d, e = .stop sessionId strict now verifierRunner →
    g.state.load sessionId = some m → g.armedOn (missionKey sessionId) = some armed → g.decision e = some d →
    g.state.workspace.content ≠ armed.content → (verifierRunner m.verifier).1 = true → d.block = false
  final : ∀ key m, g.state.missions key = some m → m.status ≠ .active →
    (g.watch e).state.missions key = some m ∨ g.armsAt key e

/-- Where a Stop could be answered by a verifier that passes, the workspace tells whether it has changed. -/
def Meets (g : Watched) : Event → Prop
  | .stop sessionId strict now verifierRunner => ∀ m armed, strict = true → sessionId ≠ "" →
      g.state.pending sessionId = some m → Within m now → (verifierRunner m.verifier).1 = true →
      g.armedOn (missionKey sessionId) = some armed → Telling armed g.state.workspace
  | _ => True

theorem contract_work (g : Watched) (known : Known g) (after : Workspace) : Contract g (.work after) := by
  constructor
  · intro key m found
    obtain ⟨count, bounded, -⟩ := known key m found
    exact count ▸ bounded
  · intro _ _ _ _ _ _ stop
    cases stop
  · exact fun key m found _ => .inl found
  · intro _ _ _ _ _ _ _ stop
    cases stop
  · exact fun key m found _ => .inl found

theorem contract_prompt (g : Watched) (known : Known g) (sessionId text : String) (strict : Bool) (now : Int)
    (project : Project) : Contract g (.prompt sessionId text strict now project) := by
  have after := known.watch (.prompt sessionId text strict now project)
  have missions : ∀ key, (g.watch (.prompt sessionId text strict now project)).state.missions key =
      g.state.missions key ∨ (g.armsAt key (.prompt sessionId text strict now project) ∧
        ∃ verifier, (g.watch (.prompt sessionId text strict now project)).state.missions key =
          some (newMission g.state.workspace sessionId text verifier now)) := by
    intro key
    cases new : g.state.arms sessionId text strict project with
    | false =>
      left
      simp only [Watched.watch, new, Bool.false_eq_true, if_false, armMission_same new]
    | true =>
      obtain ⟨verifier, written⟩ := armMission_new new now
      simp only [Watched.watch, new, if_true, written, State.write, Watched.armsAt, and_true]
      by_cases here : key = missionKey sessionId
      · exact .inr ⟨here, verifier, if_pos here⟩
      · exact .inl (if_neg here)
  constructor
  · intro key m found
    obtain ⟨count, bounded, -⟩ := after key m found
    exact count ▸ bounded
  · intro _ _ _ _ _ _ stop
    cases stop
  · intro key m found verified
    rcases missions key with same | ⟨-, verifier, armed⟩
    · exact .inl (same ▸ found)
    · rw [armed] at found
      obtain rfl := Option.some.inj found
      cases verified
  · intro _ _ _ _ _ _ _ stop
    cases stop
  · intro key m found _
    rcases missions key with same | ⟨arms, -⟩
    · exact .inl (same.trans found)
    · exact .inr arms

theorem contract_stop_idle (g : Watched) (known : Known g) {sessionId : String} {strict : Bool}
    (idle : strict = false ∨ sessionId = "" ∨ g.state.pending sessionId = none) (now : Int)
    (verifierRunner : String → Bool × String) : Contract g (.stop sessionId strict now verifierRunner) := by
  have silent : g.decision (.stop sessionId strict now verifierRunner) = none := by
    rw [Watched.decision, evaluateCompletion_none idle]
  have same : (g.watch (.stop sessionId strict now verifierRunner)).state = g.state := by
    simp only [Watched.watch, evaluateCompletion_none idle]
  have after := known.watch (.stop sessionId strict now verifierRunner)
  constructor
  · intro key m found
    obtain ⟨count, bounded, -⟩ := after key m found
    exact count ▸ bounded
  · intro _ _ _ _ m d stop _ answered
    cases stop
    rw [silent] at answered
    cases answered
  · exact fun key m found _ => .inl (same ▸ found)
  · intro _ _ _ _ m armed d stop _ _ answered
    cases stop
    rw [silent] at answered
    cases answered
  · exact fun key m found _ => .inl (same ▸ found)

/-- At a Stop of a pending mission the contract comes down to the judgement of its workspace. -/
theorem contract_stop_pending (g : Watched) (known : Known g) {sessionId : String} {m : InteractiveMission}
    {armed : Workspace} (named : sessionId ≠ "") (pending : g.state.pending sessionId = some m)
    (arming : g.armedOn (missionKey sessionId) = some armed) (now : Int)
    (verifierRunner : String → Bool × String) :
    Contract g (.stop sessionId true now verifierRunner) ↔
      (Within m now → (verifierRunner m.verifier).1 = true →
        (Changed g.state.workspace m ↔ g.state.workspace.content ≠ armed.content)) := by
  obtain ⟨loaded, active⟩ := pending_eq pending
  have outcome := evaluateCompletion_pending named pending now verifierRunner
  have answer : g.decision (.stop sessionId true now verifierRunner) =
      some (judge g.state.workspace m now verifierRunner).2 := by
    rw [Watched.decision, outcome]
  have written : (g.watch (.stop sessionId true now verifierRunner)).state.missions =
      fun key => if key = missionKey sessionId then some (judge g.state.workspace m now verifierRunner).1
        else g.state.missions key := by
    simp only [Watched.watch, outcome]
    rfl
  constructor
  · intro contract within passed
    constructor
    · intro changed
      obtain ⟨evidence, verdict⟩ := judge_passes within changed passed
      have kept := contract.honest (missionKey sessionId) { m with status := .verified, lastReason := evidence }
        (by rw [written]; simp [verdict]) rfl
      rcases kept with before | ⟨_, _, _, _, armed', stop, _, arming', differs, _⟩
      · rw [loaded] at before
        have status := congrArg InteractiveMission.status (Option.some.inj before)
        rw [active] at status
        cases status
      · rw [arming] at arming'
        obtain rfl := Option.some.inj arming'
        exact differs
    · intro differs
      by_contra unchanged
      obtain ⟨evidence, verdict⟩ := @judge_blocks _ g.state.workspace m now verifierRunner within
        (fun met => unchanged met.1)
      have released := contract.released sessionId true now verifierRunner m armed _ rfl loaded arming answer differs
        passed
      rw [verdict] at released
      cases released
  · intro tells
    have after := known.watch (.stop sessionId true now verifierRunner)
    constructor
    · intro key m' found
      obtain ⟨count, bounded, -⟩ := after key m' found
      exact count ▸ bounded
    · intro _ _ _ _ m' d stop found answered blocked
      cases stop
      rw [State.load, loaded] at found
      obtain rfl := Option.some.inj found
      rw [answer] at answered
      obtain rfl := Option.some.inj answered
      by_contra late
      rw [judge_spent (fun within => late within.2)] at blocked
      cases blocked
    · intro key m' found verified
      rw [written] at found
      simp only at found
      split at found
      · rename_i here
        right
        obtain rfl := Option.some.inj found
        refine ⟨sessionId, true, now, verifierRunner, armed, rfl, here, here ▸ arming, ?_⟩
        by_cases within : Within m now
        · by_cases met : Changed g.state.workspace m ∧ (verifierRunner m.verifier).1 = true
          · obtain ⟨evidence, verdict⟩ := judge_passes within met.1 met.2
            rw [verdict]
            exact ⟨(tells within met.2).mp met.1, met.2⟩
          · obtain ⟨evidence, verdict⟩ := judge_blocks within met
            rw [verdict, active] at verified
            cases verified
        · rw [judge_spent within] at verified
          cases verified
      · exact .inl found
    · intro _ _ _ _ m' armed' d stop found arming' answered differs passed
      cases stop
      rw [State.load, loaded] at found
      obtain rfl := Option.some.inj found
      rw [arming] at arming'
      obtain rfl := Option.some.inj arming'
      rw [answer] at answered
      obtain rfl := Option.some.inj answered
      by_cases within : Within m now
      · obtain ⟨evidence, verdict⟩ := judge_passes within ((tells within passed).mpr differs) passed
        rw [verdict]
      · rw [judge_spent within]
    · intro key m' found terminal
      left
      rw [written]
      by_cases here : key = missionKey sessionId
      · rw [here, loaded] at found
        obtain rfl := Option.some.inj found
        exact absurd active terminal
      · simpa [here] using found

end

end

/-! A change that is committed before the Stop. -/

/-- Bytes as characters. -/
def textOf (bytes : Bytes) : String := String.ofList (bytes.map (fun b => Char.ofNat b.toNat))

theorem textOf_injective : Function.Injective textOf := by
  intro a b same
  have value : ∀ z : UInt8, (Char.ofNat z.toNat).toNat = z.toNat := by
    intro z
    have small := z.toNat_lt
    have valid : z.toNat.isValidChar := .inl (by omega)
    have spelled : Char.ofNat z.toNat = Char.ofNatAux z.toNat valid := dif_pos valid
    rw [spelled]
    rfl
  have chars : Function.Injective (fun z : UInt8 => Char.ofNat z.toNat) := by
    intro x y equal
    have values := congrArg Char.toNat equal
    simp only [value] at values
    exact UInt8.toNat_inj.mp values
  exact List.map_injective_iff.mpr chars (String.ofList_inj.mp same)

/-- git without a change to show, and SHA-256 on the bytes that are hashed below. -/
@[reducible] def cleanTools : Tools where
  gitDiff := fun changes => if changes = [] then [] else utf8 "diff --git"
  sha256 := fun bytes => Sha256.sha256On ["", "s1"] (textOf bytes)

theorem cleanTools_lawful : @LawfulTools cleanTools := by
  have injective : Function.Injective (fun bytes => Sha256.sha256On ["", "s1"] (textOf bytes)) := by
    refine (Sha256.sha256On_injective ?_).comp textOf_injective
    have apart : Sha256.sha256 "" ≠ Sha256.sha256 "s1" := by decide +kernel
    intro t ht u hu same
    rcases List.mem_pair.mp ht with rfl | rfl <;> rcases List.mem_pair.mp hu with rfl | rfl
    · rfl
    · exact absurd same apart
    · exact absurd same.symm apart
    · rfl
  have filled : ∀ bytes, Sha256.sha256On ["", "s1"] (textOf bytes) ≠ "" := by
    intro bytes same
    have chars := congrArg String.toList same
    unfold Sha256.sha256On at chars
    split at chars
    · obtain ⟨n, rest, -, head⟩ := Sha256.sha256_head (textOf bytes)
      rw [head] at chars
      cases chars
    · simp at chars
  exact @LawfulTools.mk cleanTools (if_pos rfl) injective filled

@[reducible] def noPlanner : Planner := ⟨fun _ _ => none⟩

/-- One file with the given content. -/
def oneFile (content : Bytes) : Tree where
  paths := {"app.py"}
  node := fun path => if path = "app.py" then some (.regular content) else none
  mem_paths := by
    intro p
    by_cases here : p = "app.py" <;> simp [here]

/-- One file, committed as it is. -/
def committed (content : Bytes) : Workspace where
  readable := true
  head := some (oneFile content)
  index := {"app.py"}
  files := oneFile content
  ignored := fun _ => false

theorem committed_shown (content : Bytes) : (committed content).shown = ([], []) := by
  have changes : (committed content).changes = [] := by
    simp only [Workspace.changes, committed, List.filterMap_eq_nil_iff]
    intro path listed
    simp only [oneFile, Finset.union_idempotent, Finset.sort_singleton, List.mem_singleton] at listed
    simp [Workspace.tracked, oneFile, listed]
  have entries : (committed content).entries = [] := by
    have none_left : (committed content).candidates = ∅ := by
      simp [Workspace.candidates, committed, oneFile]
    simp [Workspace.entries, none_left]
  rw [Workspace.shown, changes, entries]

/-- A project with `pyproject.toml`. -/
def pyproject : Project := ⟨fun name => name == "pyproject.toml", .obj [], ""⟩

section
local instance : Tools := cleanTools
local instance : WordChars := .ascii
local instance : Planner := noPlanner

/-- What a prompt that arms leaves. -/
theorem prompted : ∃ verifier, (Watched.start (committed [49])).watch (.prompt "s1" "Fix the bug" true 0 pyproject) =
    ⟨⟨committed [49], fun k => if k = missionKey "s1" then
        some (newMission (committed [49]) "s1" "Fix the bug" verifier 0) else none⟩,
      fun key => if key = missionKey "s1" then some (committed [49]) else none, fun _ => 0⟩ := by
  have arms : (Watched.start (committed [49])).state.arms "s1" "Fix the bug" true pyproject = true := by
    decide +kernel
  obtain ⟨verifier, written⟩ := armMission_new arms 0
  refine ⟨verifier, ?_⟩
  simp only [Watched.watch, arms, if_true, written]
  simp [Watched.start, State.write]

theorem telling_self (w : Workspace) : Telling w w := by
  unfold Telling
  split <;> simp

end

end Onmc.Wrap

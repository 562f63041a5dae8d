import Onmc.WorkingContext.Reordering
import Onmc.WorkingContext.Deliveries

/-! What a packet's text depends on: the task, the withdrawals, the exclusions and the ranked candidates, and
of the hashed files only which they are. -/
namespace Onmc.WorkingContext

def Draft.rehash (d : Draft) (hashes : List (String × String)) : Draft := { d with hashes }

theorem Draft.rehash_hashes (d : Draft) : d.rehash d.hashes = d := rfl

/-- The same draft, whatever the order in which files were hashed. -/
structure Draft.Same (w : World) (d d' : Draft) : Prop where
  text : d' = d.rehash d'.hashes
  hashes : Agree w d.hashes d'.hashes

namespace Draft.Same

variable {w : World} {d d' : Draft}

/-- An operation that neither reads nor writes the hashes. -/
theorem lift {f : Draft → Draft} (each : ∀ d hashes, f (d.rehash hashes) = (f d).rehash hashes) (h : d.Same w d') :
    (f d).Same w (f d') := by
  obtain ⟨text, agree⟩ := h
  generalize d'.hashes = hashes at text agree
  subst text
  have kept := each d d.hashes
  rw [Draft.rehash_hashes] at kept
  rw [each]
  refine ⟨rfl, ?_⟩
  rw [kept]
  exact agree

theorem append (limit : Nat) (block : String) (h : d.Same w d') : (d.append limit block).Same w (d'.append limit block) := by
  refine h.lift ?_
  intro d hashes
  unfold Draft.append Draft.fits Draft.rehash
  dsimp only
  split <;> rfl

theorem warn (warning : String) (h : d.Same w d') : (d.warn warning).Same w (d'.warn warning) :=
  h.lift (fun _ _ => rfl)

theorem warnIf (condition : Prop) [Decidable condition] (warning : String) (h : d.Same w d') :
    (d.warnIf condition warning).Same w (d'.warnIf condition warning) := by
  unfold Draft.warnIf
  split
  · exact h.warn warning
  · exact h

theorem appendNote (limit : Nat) (block : String) (h : d.Same w d') :
    (d.appendNote limit block).Same w (d'.appendNote limit block) := by
  refine h.lift ?_
  intro d hashes
  unfold Draft.appendNote Draft.append Draft.fits Draft.rehash
  dsimp only
  split <;> rfl

theorem foldl {α : Type} {f : Draft → α → Draft} (each : ∀ {d d' : Draft} a, d.Same w d' → (f d a).Same w (f d' a))
    (items : List α) (h : d.Same w d') : (items.foldl f d).Same w (items.foldl f d') := by
  induction items generalizing d d' with
  | nil => exact h
  | cons a items ih => exact ih (each a h)

theorem renderWithdrawals (limit : Nat) (withdrawals : List (String × String)) (h : d.Same w d') :
    (renderWithdrawals limit withdrawals d).Same w (renderWithdrawals limit withdrawals d') := by
  unfold WorkingContext.renderWithdrawals
  split
  · exact h
  · exact foldl (fun item same => same.append limit (withdrawnLine item)) withdrawals
      ((h.warn _).append limit withdrawnHeading)

theorem sourceStatus (note : WorkingNote) (h : d.Same w d') :
    (sourceStatus w note d).1.Same w (sourceStatus w note d').1 ∧
      (WorkingContext.sourceStatus w note d).2 = (WorkingContext.sourceStatus w note d').2 := by
  obtain ⟨text, agree⟩ := h
  generalize d'.hashes = hashes at text agree
  subst text
  unfold WorkingContext.sourceStatus
  split
  · exact ⟨⟨rfl, agree⟩, rfl⟩
  · obtain ⟨agree', found⟩ := hashFiles_agree agree (Dict.keys note.anchors)
    unfold Draft.rehash
    cases first : hashFiles w d.hashes (Dict.keys note.anchors) with
    | mk after result =>
      cases second : hashFiles w hashes (Dict.keys note.anchors) with
      | mk after' result' =>
        rw [first, second] at agree' found
        dsimp only at agree' found
        subst found
        cases result with
        | error e => exact ⟨⟨rfl, agree'⟩, rfl⟩
        | ok files => exact ⟨⟨rfl, agree'⟩, rfl⟩

theorem renderFocus (limit : Nat) (session : WorkingSession) (h : d.Same w d') :
    (renderFocus limit session d).Same w (renderFocus limit session d') := by
  refine h.lift ?_
  intro d hashes
  unfold WorkingContext.renderFocus
  split
  · dsimp only
    unfold Draft.append Draft.fits Draft.rehash
    dsimp only
    split <;> rfl
  · rfl

theorem renderFiles (limit : Nat) (session : WorkingSession) (h : d.Same w d') :
    (renderFiles limit session d).Same w (renderFiles limit session d') := by
  unfold WorkingContext.renderFiles
  split
  · exact h
  · exact h.append limit _

theorem renderWarnings (limit : Nat) (h : d.Same w d') : (renderWarnings limit d).Same w (renderWarnings limit d') := by
  have warnings : d'.warnings = d.warnings := by
    rw [h.text]
    rfl
  unfold WorkingContext.renderWarnings
  rw [warnings]
  exact foldl (fun warning same => same.append limit ("\nNotice: " ++ warning ++ "\n")) d.warnings h

variable [Lowercase]

theorem renderNote (limit : Nat) (note : WorkingNote) (h : d.Same w d') :
    (renderNote w limit d note).Same w (renderNote w limit d' note) := by
  obtain ⟨same, status⟩ := h.sourceStatus note
  unfold WorkingContext.renderNote
  dsimp only
  rw [← status]
  split
  · apply appendNote
    apply warn
    exact same
  · apply appendNote
    exact same

theorem renderItem (limit : Nat) (item : ContextItem) (h : d.Same w d') :
    (renderItem limit d item).Same w (renderItem limit d' item) := by
  refine h.lift (f := fun d => WorkingContext.renderItem limit d item) ?_
  intro d hashes
  unfold WorkingContext.renderItem Draft.append Draft.fits Draft.rehash
  dsimp only
  split
  · rfl
  · split <;> rfl

end Draft.Same

variable [Lowercase]

/-- Two sessions that a packet shows alike. -/
structure ShownAlike (session session' : WorkingSession) : Prop where
  task : session'.task = session.task
  withdrawals : session'.withdrawals = session.withdrawals

theorem draft_same {w : World} {session session' : WorkingSession} {s s' : Screening} (alike : ShownAlike session session')
    (hashes : Agree w s.checks.hashes s'.checks.hashes) (exclusions : s'.exclusions = s.exclusions)
    (candidates : ranked s'.candidates = ranked s.candidates) (budget : Nat) :
    (draft w session s budget).Same w (draft w session' s' budget) := by
  obtain ⟨task, withdrawals⟩ := alike
  simp only [WorkingSession.task, Prod.mk.injEq] at task
  obtain ⟨sessionId, goal, constraints, focus, files, notes, pruned⟩ := task
  have start : Draft.Same w ⟨mandatory session, [], s.checks.hashes, 0, [], [], s.exclusions⟩
      ⟨mandatory session', [], s'.checks.hashes, 0, [], [], s'.exclusions⟩ := by
    refine ⟨?_, hashes⟩
    simp only [mandatory, sessionId, goal, constraints, exclusions]
    rfl
  have opening_same : (opening w session s budget).Same w (opening w session' s' budget) := by
    unfold opening
    dsimp only
    rw [withdrawals, pruned, notes, exclusions] at *
    have focused : renderFocus (budget - 220) session' = renderFocus (budget - 220) session := by
      funext d
      simp only [renderFocus, focus, goal]
    have filed : renderFiles (budget - 220) session' = renderFiles (budget - 220) session := by
      funext d
      simp only [renderFiles, files]
    rw [focused, filed]
    apply Draft.Same.renderFiles
    apply Draft.Same.renderFocus
    apply Draft.Same.foldl (fun note same => same.renderNote (budget - 220) note)
    apply Draft.Same.warnIf
    apply Draft.Same.warnIf
    apply Draft.Same.warnIf
    apply Draft.Same.warnIf
    apply Draft.Same.renderWithdrawals
    exact start
  unfold draft
  dsimp only
  rw [candidates]
  have items := opening_same.foldl (fun item same => same.renderItem (budget - 220) item) (ranked s.candidates)
  have dropped := congrArg Draft.noteDropped items.text
  apply Draft.Same.renderWarnings
  generalize List.foldl (renderItem (budget - 220)) (opening w session s budget) (ranked s.candidates) = d at items dropped
  generalize List.foldl (renderItem (budget - 220)) (opening w session' s' budget) (ranked s.candidates) = d' at items dropped
  rw [show d'.noteDropped = d.noteDropped from dropped]
  apply Draft.Same.warnIf
  exact items

end Onmc.WorkingContext

import Onmc.WorkingContext.Screened

/-! The budget of a packet: each rendering step keeps the text within its limit, and what the footer
adds fits into the reserve. -/
namespace Onmc.WorkingContext

/-- Rendering only adds to the text, within the limit; it adds so many warnings, and so many items
selected or excluded. -/
structure Draft.Grows (limit warnings items : Nat) (d d' : Draft) : Prop where
  text : ∃ more, d'.markdown = d.markdown ++ more
  bounded : d.markdown.length ≤ limit → d'.markdown.length ≤ limit
  warned : d'.warnings.length ≤ d.warnings.length + warnings
  chosen : d'.selected.length ≤ d.selected.length + items
  dropped : d'.exclusions.length ≤ d.exclusions.length + items

namespace Draft

variable {limit m n i j : Nat} {d d' d'' : Draft}

theorem Grows.refl (d : Draft) : Grows limit 0 0 d d := by
  refine ⟨⟨"", by simp⟩, id, ?_, ?_, ?_⟩ <;> omega

theorem Grows.trans (h : Grows limit m i d d') (h' : Grows limit n j d' d'') : Grows limit (m + n) (i + j) d d'' := by
  obtain ⟨⟨more, text⟩, bounded, warned, chosen, dropped⟩ := h
  obtain ⟨⟨more', text'⟩, bounded', warned', chosen', dropped'⟩ := h'
  refine ⟨⟨more ++ more', ?_⟩, fun fits => bounded' (bounded fits), ?_, ?_, ?_⟩
  · rw [text', text, String.append_assoc]
  all_goals omega

theorem Grows.mono (h : Grows limit m i d d') (hm : m ≤ n) (hi : i ≤ j) : Grows limit n j d d' := by
  obtain ⟨text, bounded, warned, chosen, dropped⟩ := h
  refine ⟨text, bounded, ?_, ?_, ?_⟩
  all_goals omega

theorem append_grows (limit : Nat) (block : String) (d : Draft) : Grows limit 0 0 d (d.append limit block) := by
  unfold append
  split
  · rename_i fit
    simp only [fits, decide_eq_true_eq] at fit
    refine ⟨⟨block, rfl⟩, fun _ => ?_, ?_, ?_, ?_⟩
    · simp only [String.length_append]
      exact fit
    all_goals simp
  · exact .refl d

theorem warn_grows (limit : Nat) (warning : String) (d : Draft) : Grows limit 1 0 d (d.warn warning) := by
  refine ⟨⟨"", by simp [warn]⟩, id, ?_, ?_, ?_⟩ <;> simp [warn]

theorem warnIf_grows (limit : Nat) (condition : Prop) [Decidable condition] (warning : String) (d : Draft) :
    Grows limit 1 0 d (d.warnIf condition warning) := by
  unfold warnIf
  split
  · exact warn_grows limit warning d
  · exact (Grows.refl d).mono (by omega) (by omega)

theorem appendNote_grows (limit : Nat) (block : String) (d : Draft) :
    Grows limit 0 0 d (d.appendNote limit block) := by
  unfold appendNote
  split
  · exact append_grows limit block d
  · refine ⟨⟨"", by simp⟩, id, ?_, ?_, ?_⟩ <;> simp

theorem exclude_grows (limit : Nat) (id reason : String) (d : Draft) : Grows limit 0 1 d (d.exclude id reason) :=
  ⟨⟨"", by simp [exclude]⟩, fun fits => fits, Nat.le_refl _, Nat.le_succ _, Dict.length_setItem_le ..⟩

theorem select_grows (limit : Nat) (item : ContextItem) (text : String) (d : Draft) :
    Grows limit 0 1 d (d.select item text) :=
  ⟨⟨"", by simp [select]⟩, fun fits => fits, Nat.le_refl _, by simp [select], Nat.le_succ _⟩

theorem foldl_grows {α : Type} {step : Draft → α → Draft} (each : ∀ d a, Grows limit m i d (step d a))
    (items : List α) (d : Draft) : Grows limit (items.length * m) (items.length * i) d (items.foldl step d) := by
  induction items generalizing d with
  | nil => exact (Grows.refl d).mono (by omega) (by omega)
  | cons a items ih =>
    have both := (each d a).trans (ih (step d a))
    refine both.mono ?_ ?_
    all_goals
      simp only [List.length_cons, Nat.add_mul, Nat.one_mul]
      omega

end Draft

open Draft

theorem renderWithdrawals_grows (limit : Nat) (withdrawals : List (String × String)) (d : Draft) :
    Grows limit 1 0 d (renderWithdrawals limit withdrawals d) := by
  unfold renderWithdrawals
  split
  · exact (Grows.refl d).mono (by omega) (by omega)
  · have warned := warn_grows limit "Previously supplied memories withdrawn; recheck their sources." d
    generalize d.warn "Previously supplied memories withdrawn; recheck their sources." = d' at warned
    have heading := warned.trans (append_grows limit withdrawnHeading d')
    have lines := foldl_grows (fun d item => append_grows limit (withdrawnLine item) d) withdrawals
      (d'.append limit withdrawnHeading)
    have all := heading.trans lines
    simpa using all

theorem sourceStatus_grows (limit : Nat) (w : World) (note : WorkingNote) (d : Draft) :
    Grows limit 0 0 d (sourceStatus w note d).1 := by
  unfold sourceStatus
  split
  · exact .refl d
  · split
    · exact ⟨⟨"", by simp⟩, id, by simp, by simp, by simp⟩
    · exact ⟨⟨"", by simp⟩, id, by simp, by simp, by simp⟩

theorem renderFocus_grows (limit : Nat) (session : WorkingSession) (d : Draft) :
    Grows limit 1 0 d (renderFocus limit session d) := by
  unfold renderFocus
  split
  · dsimp only
    split
    · exact (append_grows limit _ d).mono (by omega) (by omega)
    · exact warn_grows limit _ d
  · exact (Grows.refl d).mono (by omega) (by omega)

theorem renderFiles_grows (limit : Nat) (session : WorkingSession) (d : Draft) :
    Grows limit 0 0 d (renderFiles limit session d) := by
  unfold renderFiles
  split
  · exact .refl d
  · exact append_grows limit _ d

theorem renderWarnings_grows (limit : Nat) (d : Draft) : Grows limit 0 0 d (renderWarnings limit d) :=
  (foldl_grows (fun d warning => append_grows limit ("\nNotice: " ++ warning ++ "\n") d) d.warnings d).mono
    (by omega) (by omega)

variable [Lowercase]

theorem renderNote_grows (w : World) (limit : Nat) (d : Draft) (note : WorkingNote) :
    Grows limit 1 0 d (renderNote w limit d note) := by
  have status := sourceStatus_grows limit w note d
  unfold renderNote
  dsimp only
  split
  · exact (status.trans (warn_grows limit _ _)).trans (appendNote_grows limit _ _)
  · exact (status.trans (appendNote_grows limit _ _)).mono (by omega) (by omega)

theorem renderItem_grows (limit : Nat) (d : Draft) (item : ContextItem) :
    Grows limit 0 1 d (renderItem limit d item) := by
  unfold renderItem
  split
  · exact exclude_grows limit item.id "duplicate" d
  · split
    · exact (append_grows limit (itemBlock item) d).trans (select_grows limit item _ _)
    · exact exclude_grows limit item.id "budget" d

omit [Lowercase] in
theorem length_orderedNotes (notes : List WorkingNote) : (orderedNotes notes).length = notes.length := by
  have parts := List.length_eq_length_filter_add (l := notes) (fun n => decide (n.kind = .nextStep))
  simp only [orderedNotes, List.length_append, parts, ne_eq, decide_not]

omit [Lowercase] in
theorem length_ranked (candidates : List (String × ContextItem)) : (ranked candidates).length = candidates.length := by
  simp [ranked]

/-- The start of a draft, and what rendering makes of it. -/
theorem draft_grows (w : World) (session : WorkingSession) (s : Screening) (budget : Nat) :
    Grows (budget - 220) (session.notes.length + 7) s.candidates.length
      ⟨mandatory session, [], s.checks.hashes, 0, [], [], s.exclusions⟩ (draft w session s budget) := by
  unfold draft opening
  dsimp only
  refine Grows.mono (Grows.trans (Grows.trans (Grows.trans (Grows.trans (Grows.trans (Grows.trans (Grows.trans
    (Grows.trans (Grows.trans (Grows.trans (renderWithdrawals_grows _ _ _) (warnIf_grows _ _ _ _))
      (warnIf_grows _ _ _ _)) (warnIf_grows _ _ _ _)) (warnIf_grows _ _ _ _))
      (foldl_grows (renderNote_grows w _) _ _)) (renderFocus_grows _ _ _)) (renderFiles_grows _ _ _))
      (foldl_grows (renderItem_grows _) _ _)) (warnIf_grows _ _ _ _)) (renderWarnings_grows _ _)) ?_ ?_
  · rw [length_orderedNotes]
    omega
  · rw [length_ranked]
    omega

omit [Lowercase] in
theorem length_toString {n k : Nat} (positive : 0 < k) (h : n < 10 ^ k) : (toString n).length ≤ k := by
  have digits := (Nat.length_toDigits_le_iff (b := 10) (by decide) positive).mpr h
  simpa [Nat.repr] using digits

omit [Lowercase] in
/-- The footer of a draft with counts of up to 20 digits. -/
theorem length_footer {d : Draft} (warnings : d.warnings.length < 10 ^ 20) (selected : d.selected.length < 10 ^ 20)
    (exclusions : d.exclusions.length < 10 ^ 20) : (footer d).length ≤ 220 := by
  have texts : "\nPacket: ".length + " memories; ".length + " excluded; ".length +
      " notices. Full reasons: onmc working context --session ".length + "<session-id> --json.\n".length = 107 := by
    decide
  have memories := length_toString (by decide) selected
  have excluded := length_toString (by decide) exclusions
  have notices := length_toString (by decide) warnings
  simp only [footer, String.length_append]
  omega

omit [Lowercase] in
theorem mandatory_text (session : WorkingSession) :
    mandatory session = header ++ "\nSession: " ++ String.ofList (Json.renderString session.sessionId) ++
      "\n### Goal\n" ++ session.goal ++ "\n\n### Pinned constraints\n" ++
      PyText.join "\n" (constraintLines session.constraints) ++ "\n" := by
  have lines : constraintLines session.constraints ≠ [] := by
    unfold constraintLines
    split
    · simp
    · rename_i some
      simpa using some
  obtain ⟨line, rest, split⟩ := List.exists_cons_of_ne_nil lines
  have session' : "\nSession: " = "\n" ++ "Session: " := by decide
  have goal : "\n### Goal\n" = "\n" ++ ("### Goal" ++ "\n") := by decide
  have pinned : "\n\n### Pinned constraints\n" = "\n" ++ ("" ++ ("\n" ++ ("### Pinned constraints" ++ "\n"))) := by
    decide
  simp only [mandatory, PyText.join, split, List.cons_append, List.nil_append, String.intercalate_cons_cons,
    session', goal, pinned, String.append_assoc]

/-- What screening can leave fits, once the mandatory part does. -/
theorem rendered_fits (w : World) (session : WorkingSession) {s : Screening} {ids : List String} {budget : Nat}
    (screened : Screened ids s) (few : ids.length ≤ maxCandidates)
    (room : (mandatory session).length + 240 ≤ budget) :
    ((draft w session s budget).markdown ++ footer (draft w session s budget)).length ≤ budget := by
  obtain ⟨_, bounded, warned, chosen, dropped⟩ := draft_grows w session s budget
  have candidates := length_le_of_nodup screened.candidateOnce screened.candidateKnown
  have excluded := length_le_of_nodup screened.excludedOnce screened.excludedKnown
  have notes := session.notesFit
  dsimp only at bounded warned chosen dropped
  have fits := bounded (by omega)
  simp only [Dict.keys, List.length_map] at candidates excluded
  simp only [List.length_nil] at warned chosen
  simp only [maxCandidates, maxSize] at few notes
  have last := length_footer (d := draft w session s budget) (by omega) (by omega) (by omega)
  rw [String.length_append]
  omega

/-! The renderer's own error. -/

/-- Whatever it raises, it is not the renderer's error. -/
def Quiet (x : Outcome α) : Prop := x ≠ .error exceeded

omit [Lowercase] in
theorem Quiet.bind {x : Outcome α} {f : α → Outcome β} (h : Quiet x) (rest : ∀ a, x = .ok a → Quiet (f a)) :
    Quiet (x >>= f) := by
  cases x with
  | error e =>
    intro same
    obtain rfl : e = exceeded := Except.error.inj same
    exact h rfl
  | ok a => exact rest a rfl

omit [Lowercase] in
theorem quiet_ok (a : α) : Quiet (.ok a : Outcome α) := by
  intro same
  cases same

omit [Lowercase] in
theorem quiet_valueError {message : String} (other : message ≠ exceeded.message) :
    Quiet (valueError message : Outcome α) := by
  intro same
  exact other (congrArg Raised.message (Except.error.inj same))

omit [Lowercase] in
theorem quiet_raiseIf {condition : Prop} [Decidable condition] {message : String}
    (other : message ≠ exceeded.message) : Quiet (raiseIf condition message) := by
  unfold raiseIf
  split
  · exact quiet_valueError other
  · exact quiet_ok ()

omit [Lowercase] in
theorem quiet_mapM {f : α → Outcome β} (each : ∀ a, Quiet (f a)) (items : List α) : Quiet (items.mapM f) := by
  induction items with
  | nil => exact quiet_ok []
  | cons a items ih =>
    rw [List.mapM_cons]
    exact (each a).bind (fun b _ => ih.bind (fun bs _ => quiet_ok (b :: bs)))

omit [Lowercase] in
theorem quiet_relative (w : World) (value : String) : Quiet (relative w value) := by
  refine (quiet_raiseIf (by decide)).bind (fun _ _ => (quiet_raiseIf (by decide)).bind (fun _ _ => ?_))
  split
  · exact quiet_valueError (by decide)
  · exact (quiet_raiseIf (by decide)).bind (fun _ _ => quiet_ok _)

omit [Lowercase] in
theorem quiet_anchorPaths (w : World) (sourceRef : String) : Quiet (anchorPaths w sourceRef) := by
  have references : Quiet (fileReferences sourceRef) := by
    unfold fileReferences
    split
    · exact quiet_ok []
    · dsimp only
      split
      · exact quiet_valueError (by decide)
      · exact quiet_ok _
  exact references.bind (fun found _ => (quiet_mapM (quiet_relative w) found).bind (fun _ _ => quiet_ok _))

omit [Lowercase] in
theorem quiet_cleanText (text label : String) (limit : Nat)
    (other : label ++ " must contain 1–" ++ toString limit ++ " characters without NUL" ≠ exceeded.message) :
    Quiet (cleanText text limit label) :=
  (quiet_raiseIf other).bind (fun _ _ => quiet_ok _)

variable [Sha256]

omit [Lowercase] in
theorem quiet_freshness (w : World) (checks : Checks) (memory : MemoryEntry) : Quiet (freshness w checks memory) := by
  unfold freshness
  cases anchorPaths w memory.sourceRef with
  | error e => exact quiet_ok _
  | ok paths =>
    cases paths with
    | nil =>
      dsimp only
      split <;> exact quiet_ok _
    | cons path paths =>
      dsimp only
      rcases hashFiles w checks.hashes (path :: paths) with ⟨hashes, files⟩
      cases files with
      | error e => exact quiet_ok _
      | ok files =>
        dsimp only
        cases w.acknowledged memory.id with
        | none =>
          intro same
          cases same
        | some explicit =>
          dsimp only
          split
          · exact quiet_ok _
          · split
            · split <;> exact quiet_ok _
            · split
              · exact quiet_ok _
              · split <;> exact quiet_ok _

theorem quiet_screen (w : World) (session : WorkingSession) : Quiet (screen w session) := by
  have each : ∀ queryTokens s memory, Quiet (screenMemory w session queryTokens s memory) := by
    intro queryTokens s memory
    unfold screenMemory
    split
    · exact quiet_ok _
    · split
      · exact quiet_ok _
      · refine (quiet_freshness w s.checks memory).bind (fun found _ => ?_)
        obtain ⟨checks, label, rejected⟩ := found
        cases rejected with
        | some reason => exact quiet_ok _
        | none =>
          refine (quiet_anchorPaths w memory.sourceRef).bind (fun paths _ => ?_)
          dsimp only
          split <;> exact quiet_ok _
  have all : ∀ queryTokens (memories : List MemoryEntry) s,
      Quiet (memories.foldlM (screenMemory w session queryTokens) s) := by
    intro queryTokens memories
    induction memories with
    | nil => exact fun s => quiet_ok s
    | cons memory memories ih =>
      intro s
      rw [List.foldlM_cons]
      exact (each queryTokens s memory).bind (fun next _ => ih next)
  exact (all _ _ _).bind (fun _ _ => quiet_ok _)

/-- Compiling within a budget that holds the mandatory part stays within it, and begins with that part. -/
theorem compile_bounded {w : World} {session : WorkingSession} {budget : Nat} {force : Bool}
    (room : (mandatory session).length + 240 ≤ budget) :
    Quiet (compile w session budget force) ∧
      ∀ packet compiled, compile w session budget force = .ok (packet, compiled) →
        packet.markdown.length ≤ budget ∧ ∃ rest, packet.markdown = mandatory session ++ rest := by
  cases screening : screen w session with
  | error e =>
    have failed : compile w session budget force = .error e := by
      simp only [compile, screening, Except.error_bind]
    rw [failed]
    have quiet := quiet_screen w session
    rw [screening] at quiet
    refine ⟨fun same => quiet (by rw [Except.error.inj same]), ?_⟩
    intro packet compiled ok
    cases ok
  | ok s =>
    have fits := rendered_fits w { session with
      bindings := s.checks.bindings
      withdrawals := withdraw w session s } (screen_screened screening) (length_screenedIds w session) room
    obtain ⟨⟨more, text⟩, _⟩ := draft_grows w { session with
      bindings := s.checks.bindings
      withdrawals := withdraw w session s } s budget
    have compiled : ∃ packet after, compile w session budget force = .ok (packet, after) ∧
        packet.markdown.length ≤ budget ∧ ∃ rest, packet.markdown = mandatory session ++ rest := by
      simp only [compile, screening, Except.ok_bind]
      rw [if_neg (Nat.not_lt.mpr fits)]
      refine ⟨_, _, rfl, fits, ?_⟩
      rw [text, String.append_assoc]
      exact ⟨_, rfl⟩
    obtain ⟨packet, after, ok, result⟩ := compiled
    rw [ok]
    refine ⟨quiet_ok _, ?_⟩
    intro packet' after' same
    obtain ⟨rfl, rfl⟩ := Prod.mk.inj (Except.ok.inj same)
    exact result

omit [Lowercase] [Sha256] in
theorem quiet_requireSession (sessions : Sessions) (sessionId : String) : Quiet (requireSession sessions sessionId) := by
  refine (quiet_raiseIf (by decide)).bind (fun _ _ => ?_)
  split
  · exact quiet_ok _
  · exact quiet_valueError (by decide)

omit [Lowercase] [Sha256] in
theorem quiet_focusSession (w : World) (session : WorkingSession) (args : ContextArgs) :
    Quiet (focusSession w session args) := by
  have focused : Quiet (setFocus args.focus session) := by
    unfold setFocus
    split
    · exact quiet_ok _
    · exact (quiet_cleanText _ "focus" 4000 (by decide)).bind (fun _ _ => quiet_ok _)
  refine focused.bind (fun session' _ => ?_)
  unfold setFiles
  split
  · exact quiet_ok _
  · exact (quiet_mapM (quiet_relative w) _).bind (fun _ _ => quiet_ok _)

omit [Lowercase] [Sha256] in
theorem focusSession_mandatory {w : World} {session session' : WorkingSession} {args : ContextArgs}
    (ok : focusSession w session args = .ok session') : mandatory session' = mandatory session := by
  obtain ⟨focused, first, ok⟩ := Except.bind_ok.mp ok
  have same : mandatory focused = mandatory session := by
    unfold setFocus at first
    split at first
    · cases first
      rfl
    · obtain ⟨focus, _, first⟩ := Except.bind_ok.mp first
      cases first
      rfl
  rw [← same]
  unfold setFiles at ok
  split at ok
  · cases ok
    rfl
  · obtain ⟨paths, _, ok⟩ := Except.bind_ok.mp ok
    cases ok
    rfl

omit [Lowercase] [Sha256] in
theorem checkBudget_ok {session : WorkingSession} {budget : Nat} (ok : checkBudget session budget = .ok ()) :
    (mandatory session).length + 240 ≤ budget := by
  unfold checkBudget raiseIf at ok
  split at ok
  · cases ok
  · omega

omit [Lowercase] [Sha256] in
theorem requireSession_ok {sessions : Sessions} {sessionId : String} {session : WorkingSession}
    (ok : requireSession sessions sessionId = .ok session) : sessions.lookup sessionId = some session := by
  obtain ⟨_, _, ok⟩ := Except.bind_ok.mp ok
  split at ok
  · rename_i found lookup
    cases ok
    exact lookup
  · cases ok

theorem quiet_contextSession (w : World) (config : WorkingConfig) (sessionId : String) (args : ContextArgs)
    (sessions : Sessions) : Quiet (contextSession w config sessionId args sessions) := by
  refine (quiet_requireSession sessions sessionId).bind (fun session _ => ?_)
  refine (quiet_focusSession w session args).bind (fun focused _ => ?_)
  refine (quiet_raiseIf (by decide)).bind (fun _ room => ?_)
  exact (compile_bounded (checkBudget_ok room)).1.bind (fun _ _ => quiet_ok _)

theorem contextSession_bounded {w : World} {config : WorkingConfig} {sessionId : String} {args : ContextArgs}
    {sessions after : Sessions} {packet : ContextPacket}
    (ok : contextSession w config sessionId args sessions = .ok (after, packet)) :
    ∃ session, sessions.lookup sessionId = some session ∧ packet.markdown.length ≤ config.budgetChars ∧
      ∃ rest, packet.markdown = mandatory session ++ rest := by
  obtain ⟨session, found, ok⟩ := Except.bind_ok.mp ok
  obtain ⟨focused, focusing, ok⟩ := Except.bind_ok.mp ok
  obtain ⟨_, room, ok⟩ := Except.bind_ok.mp ok
  obtain ⟨⟨packet', compiled⟩, compiling, ok⟩ := Except.bind_ok.mp ok
  obtain ⟨bounded, rest, text⟩ := (compile_bounded (checkBudget_ok room)).2 packet' compiled compiling
  cases ok
  rw [focusSession_mandatory focusing] at text
  exact ⟨session, requireSession_ok found, bounded, rest, text⟩

/-- A call either raises, leaving the sessions as they were and never for the renderer's own error, or
its packet is within the budget and begins with the goal and every constraint. -/
theorem context_bounded (w : World) (sessionId : String) (args : ContextArgs) (sessions : Sessions) :
    (∃ e, context w sessionId args sessions = (sessions, .error e) ∧ e ≠ exceeded) ∨
      ∃ config session after packet, w.config = some config ∧ sessions.lookup sessionId = some session ∧
        context w sessionId args sessions = (after, .ok packet) ∧ packet.markdown.length ≤ config.budgetChars ∧
        ∃ rest, packet.markdown = header ++ "\nSession: " ++ String.ofList (Json.renderString session.sessionId) ++
          "\n### Goal\n" ++ session.goal ++ "\n\n### Pinned constraints\n" ++
          PyText.join "\n" (constraintLines session.constraints) ++ "\n" ++ rest := by
  have read : w.config = none ∨ ∃ config, w.config = some config := by
    cases w.config with
    | none => exact .inl rfl
    | some config => exact .inr ⟨config, rfl⟩
  rcases read with read | ⟨config, read⟩
  · refine .inl ⟨⟨.validationError, "validation error for WorkingConfig"⟩, ?_, by decide⟩
    simp only [context, readConfig, read]
  · have opened : context w sessionId args sessions =
        transaction (contextSession w config sessionId args) sessions := by
      simp only [context, readConfig, read]
    have quiet := quiet_contextSession w config sessionId args sessions
    cases body : contextSession w config sessionId args sessions with
    | error e =>
      refine .inl ⟨e, ?_, fun same => quiet (by rw [body, same])⟩
      simp only [opened, transaction, body]
    | ok result =>
      obtain ⟨after, packet⟩ := result
      obtain ⟨session, found, bounded, rest, text⟩ := contextSession_bounded body
      refine .inr ⟨config, session, after, packet, read, found, ?_, bounded, rest, ?_⟩
      · simp only [opened, transaction, body]
      · rw [text, mandatory_text]

end Onmc.WorkingContext

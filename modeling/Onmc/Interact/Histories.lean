import Onmc.Interact.System

/-! What holds of the histories of every reachable run: each thread stands where its program
stands after what it was told, and between two steps of a thread the world changes only as the
other threads and the outsiders may change it. -/
namespace Interact

theorem getElem?_concat_cases {α : Type} {l : List α} {a b : α} {j : Nat} (h : (l ++ [a])[j]? = some b) :
    l[j]? = some b ∨ (j = l.length ∧ b = a) := by
  rcases Nat.lt_or_ge j l.length with here | there
  · exact .inl (by simpa [List.getElem?_append_left here] using h)
  · rw [List.getElem?_append_right there] at h
    obtain ⟨last, value⟩ := List.getElem?_eq_some_iff.mp h
    simp only [List.length_singleton] at last
    refine .inr ⟨by omega, ?_⟩
    rw [← value]
    simp

theorem getElem?_set_cases {α : Type} {l : List α} {a b : α} {i j : Nat} (h : (l.set i a)[j]? = some b) :
    (i = j ∧ b = a) ∨ (i ≠ j ∧ l[j]? = some b) := by
  by_cases same : i = j
  · subst same
    rw [List.getElem?_set_self (by simpa using (List.getElem?_eq_some_iff.mp h).1)] at h
    exact .inl ⟨rfl, (Option.some.inj h).symm⟩
  · rw [List.getElem?_set_ne same] at h
    exact .inr ⟨same, h⟩

variable {I : Interface} {S : Semantics I}

def marks (h : List (Stamp S)) : List (Mark I) := h.map Stamp.mark

@[simp] theorem marks_concat (h : List (Stamp S)) (stamp : Stamp S) :
    marks (h ++ [stamp]) = marks h ++ [stamp.mark] := by
  simp [marks]

/-- The history of a step is that of the thread that takes it. -/
structure Call.Grounded (c : Call S) : Prop where
  main : Follows (S.main c.start) (marks c.main.history) c.main.program
  task : ∀ (j : Nat) (t : I.Task) (thread : Thread S I.Value), c.tasks[j]? = some (t, thread) →
    Follows (S.body t) (marks thread.history) thread.program
  submitted : ∀ stamp ∈ c.main.history, ∀ (t : I.Task) (j : Nat), stamp.mark = .submitted t j →
    ∃ thread, c.tasks[j]? = some (t, thread)
  launched : ∀ (j : Nat) (t : I.Task) (thread : Thread S I.Value), c.tasks[j]? = some (t, thread) →
    ∃ stamp ∈ c.main.history, stamp.mark = .submitted t j
  awaited : ∀ stamp ∈ c.main.history, ∀ j outcome, stamp.mark = .awaited j outcome →
    c.finished j = some outcome

theorem Call.grounded_fresh (start : S.Start) (w : S.World) : (Call.fresh start w).Grounded where
  main := .refl _
  task := by
    intro j t thread h
    simp [fresh] at h
  submitted := by
    intro stamp h
    cases h
  launched := by
    intro j t thread h
    simp [fresh] at h
  awaited := by
    intro stamp h
    cases h

/-- A finished task stays finished. -/
theorem Call.finished_set {c : Call S} {future : Nat} {task : I.Task} {thread thread' : Thread S I.Value}
    (found : c.tasks[future]? = some (task, thread)) (running : thread.outcome? = none) {j : Nat}
    {outcome : Except I.Failure I.Value} (h : c.finished j = some outcome) :
    ({ c with tasks := c.tasks.set future (task, thread') } : Call S).finished j = some outcome := by
  by_cases same : future = j
  · subst same
    simp [finished, found, running] at h
  · simpa [finished, List.getElem?_set_ne same] using h

theorem Call.finished_append {c : Call S} {main : Thread S S.Result} {entry : I.Task × Thread S I.Value}
    {j : Nat} {outcome : Except I.Failure I.Value} (h : c.finished j = some outcome) :
    ({ c with main := main, tasks := c.tasks ++ [entry] } : Call S).finished j = some outcome := by
  obtain ⟨e, found, out⟩ := Option.bind_eq_some_iff.mp h
  have here : j < c.tasks.length := (List.getElem?_eq_some_iff.mp found).1
  simp [finished, List.getElem?_append_left here, found, out]

theorem Call.Step.grounded {c c' : Call S} {oracle : S.Oracle} {w : S.World} {who : Turn}
    {stamp : Stamp S} (step : c.Step oracle w who stamp c') (h : c.Grounded) : c'.Grounded := by
  cases step with
  | asked request next program stamp made =>
    subst made
    refine ⟨?_, h.task, ?_, ?_, ?_⟩
    · have follows := h.main
      rw [program] at follows
      simpa [Thread.take] using follows.ask _
    · intro s hs t j hm
      rcases List.mem_append.mp hs with hs | hs
      · exact h.submitted s hs t j hm
      · rw [List.mem_singleton.mp hs] at hm
        cases hm
    · intro j t thread found
      obtain ⟨s, hs, hm⟩ := h.launched j t thread found
      exact ⟨s, List.mem_append_left _ hs, hm⟩
    · intro s hs j outcome hm
      rcases List.mem_append.mp hs with hs | hs
      · exact h.awaited s hs j outcome hm
      · rw [List.mem_singleton.mp hs] at hm
        cases hm
  | submitted task next program stamp made =>
    subst made
    refine ⟨?_, ?_, ?_, ?_, ?_⟩
    · have follows := h.main
      rw [program] at follows
      simpa [Thread.take] using follows.submit _
    · intro j t thread found
      rcases getElem?_concat_cases found with found | ⟨_, found⟩
      · exact h.task j t thread found
      · cases found
        exact .refl _
    · intro s hs t j hm
      rcases List.mem_append.mp hs with hs | hs
      · obtain ⟨thread, found⟩ := h.submitted s hs t j hm
        have here : j < c.tasks.length := (List.getElem?_eq_some_iff.mp found).1
        exact ⟨thread, by simp [List.getElem?_append_left here, found]⟩
      · rw [List.mem_singleton.mp hs] at hm
        cases hm
        exact ⟨⟨w, S.body task, []⟩, by simp⟩
    · intro j t thread found
      rcases getElem?_concat_cases found with found | ⟨hj, found⟩
      · obtain ⟨s, hs, hm⟩ := h.launched j t thread found
        exact ⟨s, List.mem_append_left _ hs, hm⟩
      · cases found
        exact ⟨_, List.mem_append_right _ (List.mem_singleton_self _), by rw [hj]⟩
    · intro s hs j outcome hm
      rcases List.mem_append.mp hs with hs | hs
      · exact Call.finished_append (h.awaited s hs j outcome hm)
      · rw [List.mem_singleton.mp hs] at hm
        cases hm
  | awaited future next program outcome finished stamp made =>
    subst made
    refine ⟨?_, h.task, ?_, ?_, ?_⟩
    · have follows := h.main
      rw [program] at follows
      simpa [Thread.take] using follows.await _
    · intro s hs t j hm
      rcases List.mem_append.mp hs with hs | hs
      · exact h.submitted s hs t j hm
      · rw [List.mem_singleton.mp hs] at hm
        cases hm
    · intro j t thread found
      obtain ⟨s, hs, hm⟩ := h.launched j t thread found
      exact ⟨s, List.mem_append_left _ hs, hm⟩
    · intro s hs j out hm
      rcases List.mem_append.mp hs with hs | hs
      · exact h.awaited s hs j out hm
      · rw [List.mem_singleton.mp hs] at hm
        cases hm
        exact finished
  | task future task thread found request next program stamp made =>
    subst made
    have running : thread.outcome? = none := by simp [Thread.outcome?, program]
    refine ⟨h.main, ?_, ?_, ?_, ?_⟩
    · intro j t other hj
      rcases getElem?_set_cases hj with ⟨rfl, same⟩ | ⟨_, hj⟩
      · cases same
        have follows := h.task future task thread found
        rw [program] at follows
        simpa [Thread.take] using follows.ask _
      · exact h.task j t other hj
    · intro s hs t j hm
      obtain ⟨other, hj⟩ := h.submitted s hs t j hm
      by_cases same : future = j
      · subst same
        rw [found] at hj
        cases hj
        exact ⟨_, List.getElem?_set_self (List.getElem?_eq_some_iff.mp found).1⟩
      · exact ⟨other, by simpa [List.getElem?_set_ne same] using hj⟩
    · intro j t other hj
      rcases getElem?_set_cases hj with ⟨rfl, same⟩ | ⟨_, hj⟩
      · cases same
        exact h.launched future task thread found
      · exact h.launched j t other hj
    · intro s hs j outcome hm
      exact Call.finished_set found running (h.awaited s hs j outcome hm)

variable {allowed : System S → Move S → Prop} {w₀ : S.World}

theorem Reached.grounded {s : System S} (reached : Reached allowed w₀ s) :
    ∀ (i : Nat) (c : Call S), s.calls[i]? = some c → c.Grounded := by
  induction reached with
  | start =>
    intro i c h
    simp at h
  | move s m reached ok ih =>
    intro i c h
    rcases move_cases s m with same | ⟨start, _, here⟩ | ⟨k, who, oracle, b, stamp, b', _, found, _, step, here⟩ |
      ⟨k, b, _, found, here⟩ | ⟨act, _, here⟩
    · rw [same] at h
      exact ih i c h
    · rw [here] at h
      rcases getElem?_concat_cases h with h | ⟨_, rfl⟩
      · exact ih i c h
      · exact Call.grounded_fresh start s.world
    · rw [here] at h
      rcases getElem?_set_cases h with ⟨rfl, rfl⟩ | ⟨_, h⟩
      · exact (Call.advance_step step).grounded (ih _ _ found)
      · exact ih i c h
    · rw [here] at h
      rcases getElem?_set_cases h with ⟨rfl, rfl⟩ | ⟨_, h⟩
      · have was := ih _ _ found
        exact ⟨was.main, was.task, was.submitted, was.launched, was.awaited⟩
      · exact ih i c h
    · rw [here] at h
      exact ih i c h

/-- The thread whose turn it is keeps its history and adds the stamp; the others keep theirs, and
a submitted task starts with none. -/
theorem Call.Step.runs {c c' : Call S} {oracle : S.Oracle} {w begun : S.World} {who turn : Turn}
    {stamp : Stamp S} {h : List (Stamp S)} (step : c.Step oracle w turn stamp c') (runs : c'.Runs begun h who) :
    (who = turn ∧ ∃ h', h = h' ++ [stamp] ∧ c.Runs begun h' who) ∨ (who ≠ turn ∧ c.Runs begun h who) ∨
      (begun = w ∧ h = [] ∧ stamp.after = w) := by
  cases step with
  | asked request next program stamp made =>
    cases who with
    | main =>
      obtain ⟨rfl, rfl⟩ := runs
      exact .inl ⟨rfl, _, rfl, rfl, rfl⟩
    | task future => exact .inr (.inl ⟨by simp, runs⟩)
  | submitted task next program stamp made =>
    cases who with
    | main =>
      obtain ⟨rfl, rfl⟩ := runs
      exact .inl ⟨rfl, _, rfl, rfl, rfl⟩
    | task future =>
      obtain ⟨t, thread, found, rfl, rfl⟩ := runs
      rcases getElem?_concat_cases found with found | ⟨_, same⟩
      · exact .inr (.inl ⟨by simp, t, thread, found, rfl, rfl⟩)
      · cases same
        exact .inr (.inr ⟨rfl, rfl, by rw [made]⟩)
  | awaited future next program outcome finished stamp made =>
    cases who with
    | main =>
      obtain ⟨rfl, rfl⟩ := runs
      exact .inl ⟨rfl, _, rfl, rfl, rfl⟩
    | task future => exact .inr (.inl ⟨by simp, runs⟩)
  | task future task thread found request next program stamp made =>
    cases who with
    | main => exact .inr (.inl ⟨by simp, runs⟩)
    | task j =>
      obtain ⟨t, other, here, rfl, rfl⟩ := runs
      rcases getElem?_set_cases here with ⟨rfl, same⟩ | ⟨ne, here⟩
      · cases same
        exact .inl ⟨rfl, _, rfl, task, thread, found, rfl, rfl⟩
      · exact .inr (.inl ⟨by simpa using Ne.symm ne, t, other, here, rfl, rfl⟩)

theorem Call.Step.before {c c' : Call S} {oracle : S.Oracle} {w : S.World} {who : Turn} {stamp : Stamp S}
    (step : c.Step oracle w who stamp c') : stamp.before = w := by
  cases step with
  | asked request next program stamp made => rw [made]
  | submitted task next program stamp made => rw [made]
  | awaited future next program outcome finished stamp made => rw [made]
  | task future task thread found request next program stamp made => rw [made]

/-- A stamp tells what the request did. -/
def Stamp.Honest (stamp : Stamp S) : Prop :=
  match stamp.mark with
  | .asked request reply => ∃ oracle, S.perform oracle request stamp.before = (stamp.after, reply)
  | _ => stamp.before = stamp.after

theorem Call.Step.honest {c c' : Call S} {oracle : S.Oracle} {w : S.World} {who : Turn} {stamp : Stamp S}
    (step : c.Step oracle w who stamp c') : stamp.Honest := by
  cases step with
  | asked request next program stamp made =>
    subst made
    exact ⟨oracle, rfl⟩
  | submitted task next program stamp made =>
    subst made
    exact rfl
  | awaited future next program outcome finished stamp made =>
    subst made
    exact rfl
  | task future task thread found request next program stamp made =>
    subst made
    exact ⟨oracle, rfl⟩

/-- What holds of every stamp when it is made holds of every stamp in a history. -/
theorem Reached.stamps {Q : Stamp S → Prop} {s : System S} (reached : Reached allowed w₀ s)
    (make : ∀ (s : System S) (i : Nat) (who : Turn) (oracle : S.Oracle) (c : Call S) (stamp : Stamp S)
      (c' : Call S), Reached allowed w₀ s → allowed s (.turn i who oracle) →
      s.calls[i]? = some c → c.advance who oracle s.world = some (stamp, c') → Q stamp) :
    ∀ (i : Nat) (c : Call S), s.calls[i]? = some c → ∀ who begun h, c.Runs begun h who →
      ∀ stamp ∈ h, Q stamp := by
  induction reached with
  | start =>
    intro i c h
    simp at h
  | move s m reached ok ih =>
    intro i c h who begun past runs
    rcases move_cases s m with same | ⟨start, _, here⟩ |
      ⟨k, turn, oracle, b, stamp, b', rfl, found, _, step, here⟩ | ⟨k, b, _, found, here⟩ | ⟨act, _, here⟩
    · rw [same] at h
      exact ih i c h who begun past runs
    · rw [here] at h
      rcases getElem?_concat_cases h with h | ⟨_, rfl⟩
      · exact ih i c h who begun past runs
      · cases who with
        | main =>
          obtain ⟨_, rfl⟩ := runs
          intro stamp hs
          cases hs
        | task future =>
          obtain ⟨_, _, found, _⟩ := runs
          simp [Call.fresh] at found
    · rw [here] at h
      rcases getElem?_set_cases h with ⟨rfl, rfl⟩ | ⟨_, h⟩
      · rcases (Call.advance_step step).runs runs with ⟨rfl, before, rfl, ran⟩ | ⟨_, ran⟩ | ⟨_, rfl, _⟩
        · intro s' hs
          rcases List.mem_append.mp hs with hs | hs
          · exact ih _ _ found _ begun before ran s' hs
          · rw [List.mem_singleton.mp hs]
            exact make s _ _ oracle b stamp c reached ok found step
        · exact ih _ _ found who begun past ran
        · intro s' hs
          cases hs
      · exact ih i c h who begun past runs
    · rw [here] at h
      rcases getElem?_set_cases h with ⟨rfl, rfl⟩ | ⟨_, h⟩
      · exact ih _ _ found who begun past runs
      · exact ih i c h who begun past runs
    · rw [here] at h
      exact ih i c h who begun past runs

theorem Reached.honest {s : System S} (reached : Reached allowed w₀ s) :
    ∀ (i : Nat) (c : Call S), s.calls[i]? = some c → ∀ who begun h, c.Runs begun h who →
      ∀ stamp ∈ h, Stamp.Honest stamp :=
  reached.stamps (fun _ _ _ _ _ _ _ _ _ _ step => (Call.advance_step step).honest)

/-! The worlds along a history. -/

/-- Between the steps of a history the world changes within a relation. -/
def Chained (R : S.World → S.World → Prop) : S.World → List (Stamp S) → S.World → Prop
  | begun, [], now => R begun now
  | begun, stamp :: h, now => R begun stamp.before ∧ Chained R stamp.after h now

section Chains

variable {R : S.World → S.World → Prop}

theorem Chained.append {h h' : List (Stamp S)} {stamp : Stamp S} {begun now : S.World} :
    Chained R begun (h ++ stamp :: h') now ↔ Chained R begun h stamp.before ∧ Chained R stamp.after h' now := by
  induction h generalizing begun with
  | nil => exact Iff.rfl
  | cons s h ih => simp only [List.cons_append, Chained, ih, and_assoc]

theorem Chained.later (trans : ∀ a b c, R a b → R b c → R a c) {h : List (Stamp S)} {begun now next : S.World}
    (chained : Chained R begun h now) (change : R now next) : Chained R begun h next := by
  induction h generalizing begun with
  | nil => exact trans _ _ _ chained change
  | cons s h ih => exact ⟨chained.1, ih chained.2⟩

/-- Where the thread's own steps stay within the relation, so does the whole history. -/
theorem Chained.whole (trans : ∀ a b c, R a b → R b c → R a c) {h : List (Stamp S)} {begun now : S.World}
    (own : ∀ stamp ∈ h, R stamp.before stamp.after) (chained : Chained R begun h now) : R begun now := by
  induction h generalizing begun with
  | nil => exact chained
  | cons s h ih =>
    have rest := ih (fun stamp hs => own stamp (List.mem_cons_of_mem _ hs)) chained.2
    exact trans _ _ _ (trans _ _ _ chained.1 (own s List.mem_cons_self)) rest

end Chains

/-- In a run where the others disturb a thread within a relation only, its history is chained. -/
theorem Reached.chained {R : S.World → S.World → Prop} (refl : ∀ w, R w w)
    (trans : ∀ a b c, R a b → R b c → R a c) (kind : Turn → Prop) {s : System S}
    (reached : Reached allowed w₀ s)
    (quiet : ∀ s m, Reached allowed w₀ s → allowed s m → ∀ (i : Nat) (c : Call S) (who : Turn), s.calls[i]? = some c →
      c.crashed = false → kind who → (∀ oracle, m ≠ .turn i who oracle) → R s.world (s.move m).world) :
    ∀ (i : Nat) (c : Call S), s.calls[i]? = some c → c.crashed = false → ∀ who begun h, kind who → c.Runs begun h who →
      Chained R begun h s.world := by
  induction reached with
  | start =>
    intro i c h
    simp at h
  | move s m reached ok ih =>
    intro i c h live who begun past hk runs
    rcases move_cases s m with same | ⟨start, hm, here⟩ |
      ⟨k, turn, oracle, b, stamp, b', hm, found, alive, step, here⟩ | ⟨k, b, hm, found, here⟩ | ⟨act, hm, here⟩
    · rw [same] at h ⊢
      exact ih i c h live who begun past hk runs
    · rw [here] at h ⊢
      rcases getElem?_concat_cases h with h | ⟨_, rfl⟩
      · exact ih i c h live who begun past hk runs
      · cases who with
        | main =>
          obtain ⟨rfl, rfl⟩ := runs
          exact refl _
        | task future =>
          obtain ⟨_, _, found, _⟩ := runs
          simp [Call.fresh] at found
    · have change := quiet s m reached ok
      rw [here] at h change ⊢
      rcases getElem?_set_cases h with ⟨rfl, rfl⟩ | ⟨other, h⟩
      · rcases (Call.advance_step step).runs runs with ⟨rfl, before, rfl, ran⟩ | ⟨ne, ran⟩ | ⟨rfl, rfl, hw⟩
        · have was := ih _ _ found alive _ begun before hk ran
          rw [← (Call.advance_step step).before] at was
          exact Chained.append.mpr ⟨was, refl _⟩
        · refine (ih _ _ found alive who begun past hk ran).later trans (change _ b who found alive hk ?_)
          intro oracle' hm'
          rw [hm] at hm'
          cases hm'
          exact ne rfl
        · rw [hw]
          exact refl _
      · refine (ih i c h live who begun past hk runs).later trans (change i c who h live hk ?_)
        intro oracle' hm'
        rw [hm] at hm'
        cases hm'
        exact other rfl
    · rw [here] at h ⊢
      rcases getElem?_set_cases h with ⟨rfl, rfl⟩ | ⟨_, h⟩
      · cases live
      · exact ih i c h live who begun past hk runs
    · have change := quiet s m reached ok i c who
      rw [here] at h change ⊢
      refine (ih i c h live who begun past hk runs).later trans (change h live hk ?_)
      intro oracle' hm'
      rw [hm] at hm'
      cases hm'

end Interact

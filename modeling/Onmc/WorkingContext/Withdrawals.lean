import Onmc.WorkingContext.Budget

/-! What consumed packets deliver and withdraw, over every run of calls on the stored sessions. -/
namespace Onmc.WorkingContext

/-! What rendering selects. -/

/-- The memories chosen so far, and those left out. -/
def Draft.choice (d : Draft) : List ContextItem × List String × List (String × String) :=
  (d.selected, d.seenTexts, d.exclusions)

section Selected

variable (limit : Nat) (d : Draft)

@[simp] theorem choice_append (block : String) : (d.append limit block).choice = d.choice := by
  unfold Draft.append
  split <;> rfl

@[simp] theorem choice_warn (warning : String) : (d.warn warning).choice = d.choice := rfl

@[simp] theorem choice_warnIf (condition : Prop) [Decidable condition] (warning : String) :
    (d.warnIf condition warning).choice = d.choice := by
  unfold Draft.warnIf
  split <;> rfl

@[simp] theorem choice_appendNote (block : String) : (d.appendNote limit block).choice = d.choice := by
  unfold Draft.appendNote
  split
  · exact choice_append limit d block
  · rfl

theorem choice_foldl {α : Type} {f : Draft → α → Draft} (each : ∀ d a, (f d a).choice = d.choice) (items : List α)
    (d : Draft) : (items.foldl f d).choice = d.choice := by
  induction items generalizing d with
  | nil => rfl
  | cons a items ih => rw [List.foldl_cons, ih, each]

@[simp] theorem choice_renderWithdrawals (withdrawals : List (String × String)) :
    (renderWithdrawals limit withdrawals d).choice = d.choice := by
  unfold renderWithdrawals
  split
  · rfl
  · rw [choice_foldl (fun d item => choice_append limit d (withdrawnLine item)), choice_append, choice_warn]

@[simp] theorem choice_sourceStatus (w : World) (note : WorkingNote) :
    (sourceStatus w note d).1.choice = d.choice := by
  unfold sourceStatus
  split
  · rfl
  · split <;> rfl

@[simp] theorem choice_renderFocus (session : WorkingSession) : (renderFocus limit session d).choice = d.choice := by
  unfold renderFocus
  split
  · dsimp only
    split
    · exact choice_append limit d _
    · rfl
  · rfl

@[simp] theorem choice_renderFiles (session : WorkingSession) : (renderFiles limit session d).choice = d.choice := by
  unfold renderFiles
  split
  · rfl
  · exact choice_append limit d _

@[simp] theorem choice_renderWarnings : (renderWarnings limit d).choice = d.choice :=
  choice_foldl (fun d warning => choice_append limit d ("\nNotice: " ++ warning ++ "\n")) d.warnings d

variable [Lowercase]

@[simp] theorem choice_renderNote (w : World) (note : WorkingNote) :
    (renderNote w limit d note).choice = d.choice := by
  unfold renderNote
  dsimp only
  split <;> simp

/-- Neither a duplicate of what is shown nor over the budget. -/
def Shown (limit : Nat) (d : Draft) (item : ContextItem) : Prop :=
  normalized item.text ∉ d.seenTexts ∧ d.fits limit (itemBlock item) = true

theorem selected_renderItem_of_shown {limit : Nat} {d : Draft} {item : ContextItem} (h : Shown limit d item) :
    (renderItem limit d item).selected = d.selected ++ [item] := by
  unfold renderItem
  rw [if_neg h.1, if_pos h.2]
  have same : (d.append limit (itemBlock item)).selected = d.selected :=
    (Prod.mk.inj (choice_append limit d (itemBlock item))).1
  rw [Draft.select, same]

theorem selected_renderItem (item : ContextItem) :
    (renderItem limit d item).selected = d.selected ∨ (renderItem limit d item).selected = d.selected ++ [item] := by
  by_cases shown : Shown limit d item
  · exact .inr (selected_renderItem_of_shown shown)
  · left
    unfold renderItem
    split
    · rfl
    · rename_i unseen
      split
      · rename_i fit
        exact absurd ⟨unseen, fit⟩ shown
      · rfl

theorem selected_renderItems (items : List ContextItem) (d : Draft) :
    d.selected ⊆ (items.foldl (renderItem limit) d).selected ∧
      ∀ item ∈ (items.foldl (renderItem limit) d).selected, item ∈ d.selected ∨ item ∈ items := by
  induction items generalizing d with
  | nil => exact ⟨List.Subset.refl _, fun item member => .inl member⟩
  | cons item items ih =>
    obtain ⟨grown, known⟩ := ih (renderItem limit d item)
    simp only [List.foldl_cons]
    rcases selected_renderItem limit d item with same | more
    · rw [same] at grown known
      refine ⟨grown, ?_⟩
      intro other member
      rcases known other member with member | member
      · exact .inl member
      · exact .inr (List.mem_cons_of_mem _ member)
    · rw [more] at grown known
      refine ⟨fun other member => grown (List.mem_append_left _ member), ?_⟩
      intro other member
      rcases known other member with member | member
      · rcases List.mem_append.mp member with member | member
        · exact .inl member
        · exact .inr (by simp [List.mem_singleton.mp member])
      · exact .inr (List.mem_cons_of_mem _ member)

theorem opening_choice (w : World) (session : WorkingSession) (s : Screening) (budget : Nat) :
    (opening w session s budget).choice = ([], [], s.exclusions) := by
  simp only [opening, choice_renderFiles, choice_renderFocus,
    choice_foldl (fun d note => choice_renderNote (budget - 220) d w note), choice_warnIf, choice_renderWithdrawals]
  rfl

theorem draft_choice (w : World) (session : WorkingSession) (s : Screening) (budget : Nat) :
    (draft w session s budget).choice =
      ((ranked s.candidates).foldl (renderItem (budget - 220)) (opening w session s budget)).choice := by
  simp only [draft, choice_renderWarnings, choice_warnIf]

theorem opening_selected (w : World) (session : WorkingSession) (s : Screening) (budget : Nat) :
    (opening w session s budget).selected = [] := (Prod.mk.inj (opening_choice w session s budget)).1

theorem draft_selected (w : World) (session : WorkingSession) (s : Screening) (budget : Nat) :
    (draft w session s budget).selected =
      ((ranked s.candidates).foldl (renderItem (budget - 220)) (opening w session s budget)).selected :=
  (Prod.mk.inj (draft_choice w session s budget)).1

theorem draft_selected_ranked {w : World} {session : WorkingSession} {s : Screening} {budget : Nat} {item : ContextItem}
    (h : item ∈ (draft w session s budget).selected) : item ∈ ranked s.candidates := by
  rw [draft_selected] at h
  rcases (selected_renderItems _ _ _).2 item h with none | member
  · rw [opening_selected] at none
    cases none
  · exact member

theorem draft_selected_of_shown {w : World} {session : WorkingSession} {s : Screening} {budget : Nat}
    {before after : List ContextItem} {item : ContextItem} (order : ranked s.candidates = before ++ item :: after)
    (shown : Shown (budget - 220) (before.foldl (renderItem (budget - 220)) (opening w session s budget)) item) :
    item ∈ (draft w session s budget).selected := by
  rw [draft_selected, order, List.foldl_append, List.foldl_cons]
  apply (selected_renderItems _ _ _).1
  rw [selected_renderItem_of_shown shown]
  simp

end Selected

/-! What a session withdraws. -/

/-- What was delivered last stands at the end of the withdrawals, if it stands there at all. -/
structure Tracked (session : WorkingSession) : Prop where
  few : session.lastSelected.length ≤ maxCandidates
  once : (Dict.keys session.withdrawals).Nodup
  split : ∃ old recent, session.withdrawals = old ++ recent ∧ (∀ id ∈ Dict.keys old, id ∉ session.lastSelected) ∧
    ∀ id ∈ Dict.keys recent, id ∈ session.lastSelected

/-- Noting what was delivered last and is not eligible only adds at the end. -/
theorem note_delivered (eligible : List String) (reason : String → String) {latest : List String} {old : List (String × String)}
    (earlier : ∀ id ∈ Dict.keys old, id ∉ latest) {delivered : List String} (delivers : delivered ⊆ latest)
    {recent : List (String × String)} (once : (Dict.keys (old ++ recent)).Nodup) (known : Dict.keys recent ⊆ latest) :
    ∃ noted, delivered.foldl (fun items id => if id ∈ eligible then items else Dict.setItem id (reason id) items)
        (old ++ recent) = old ++ noted ∧ (Dict.keys (old ++ noted)).Nodup ∧ Dict.keys noted ⊆ latest ∧
      Dict.keys recent ⊆ Dict.keys noted ∧ ∀ id ∈ delivered, id ∉ eligible → id ∈ Dict.keys noted := by
  induction delivered generalizing recent with
  | nil => exact ⟨recent, rfl, once, known, List.Subset.refl _, by simp⟩
  | cons id delivered ih =>
    have member : id ∈ latest := delivers List.mem_cons_self
    have rest : delivered ⊆ latest := fun other found => delivers (List.mem_cons_of_mem _ found)
    rw [List.foldl_cons]
    by_cases fit : id ∈ eligible
    · obtain ⟨noted, same, once, known, kept, added⟩ := ih rest once known
      rw [if_pos fit]
      refine ⟨noted, same, once, known, kept, ?_⟩
      intro other found unfit
      rcases List.mem_cons.mp found with rfl | found
      · exact absurd fit unfit
      · exact added other found unfit
    · have fresh : id ∉ Dict.keys old := fun found => earlier id found member
      have once' : (Dict.keys (old ++ Dict.setItem id (reason id) recent)).Nodup := by
        rw [← Dict.setItem_append _ fresh]
        exact Dict.nodup_keys_setItem once
      have known' : Dict.keys (Dict.setItem id (reason id) recent) ⊆ latest := by
        intro other found
        rcases Dict.mem_keys_setItem.mp found with rfl | found
        · exact member
        · exact known found
      obtain ⟨noted, same, once, known, kept, added⟩ := ih rest once' known'
      rw [if_neg fit, Dict.setItem_append _ fresh]
      refine ⟨noted, same, once, known, ?_, ?_⟩
      · exact fun other found => kept (Dict.mem_keys_setItem.mpr (.inr found))
      · intro other found unfit
        rcases List.mem_cons.mp found with rfl | found
        · exact kept (Dict.mem_keys_setItem.mpr (.inl rfl))
        · exact added other found unfit

theorem keys_filter {items : List (String × String)} {ids : List String} {id : String} :
    id ∈ Dict.keys (items.filter (fun item => item.1 ∉ ids)) ↔ id ∈ Dict.keys items ∧ id ∉ ids := by
  simp only [Dict.keys, List.mem_map, List.mem_filter, decide_eq_true_eq]
  constructor
  · rintro ⟨item, ⟨member, apart⟩, rfl⟩
    exact ⟨⟨item, member, rfl⟩, apart⟩
  · rintro ⟨⟨item, member, rfl⟩, apart⟩
    exact ⟨item, ⟨member, apart⟩, rfl⟩

/-- What was delivered last and is not eligible is withdrawn; nothing eligible is. -/
theorem withdraw_tracked {w : World} {session : WorkingSession} {s : Screening} (h : Tracked session) :
    (Dict.keys (withdraw w session s)).Nodup ∧
    (∀ id ∈ Dict.keys (withdraw w session s), id ∉ Dict.keys s.candidates) ∧
    (∀ id ∈ session.lastSelected, id ∉ Dict.keys s.candidates → id ∈ Dict.keys (withdraw w session s)) ∧
    ∃ old recent, withdraw w session s = old ++ recent ∧ (∀ id ∈ Dict.keys old, id ∉ session.lastSelected) ∧
      ∀ id ∈ Dict.keys recent, id ∈ session.lastSelected := by
  obtain ⟨few, once, old, recent, split, earlier, known⟩ := h
  rw [split] at once
  obtain ⟨noted, same, once, known, _, added⟩ := note_delivered (Dict.keys s.candidates)
    (fun id => (s.exclusions.lookup id).getD
      (if w.learningEnabled then "no_longer_retrieved" else "learning_disabled"))
    earlier (List.Subset.refl _) once known
  have noting : session.lastSelected.foldl (fun withdrawals id =>
      if id ∈ Dict.keys s.candidates then withdrawals
      else Dict.setItem id ((s.exclusions.lookup id).getD
        (if w.learningEnabled then "no_longer_retrieved" else "learning_disabled")) withdrawals) session.withdrawals =
      old ++ noted := by
    rw [split]
    exact same
  have all : (Dict.keys ((old ++ noted).filter (fun item => item.1 ∉ Dict.keys s.candidates))).Nodup :=
    once.sublist (List.filter_sublist.map Prod.fst)
  have recentKept : ∀ id ∈ Dict.keys (noted.filter (fun item => item.1 ∉ Dict.keys s.candidates)),
      id ∈ session.lastSelected := fun id member => known (keys_filter.mp member).1
  have oldKept : ∀ id ∈ Dict.keys (old.filter (fun item => item.1 ∉ Dict.keys s.candidates)),
      id ∉ session.lastSelected := fun id member => earlier id (keys_filter.mp member).1
  unfold withdraw
  dsimp only
  rw [noting, Dict.foldl_pop]
  rw [List.filter_append] at all ⊢
  generalize rest : old.filter (fun item => item.1 ∉ Dict.keys s.candidates) = old' at all oldKept ⊢
  generalize kept : noted.filter (fun item => item.1 ∉ Dict.keys s.candidates) = recent at all recentKept ⊢
  have size : recent.length ≤ maxCandidates := by
    have once : (Dict.keys recent).Nodup := all.sublist ((List.sublist_append_right old' recent).map Prod.fst)
    have bound := length_le_of_nodup once recentKept
    simp only [Dict.keys, List.length_map] at bound
    omega
  have excess : (old' ++ recent).length - maxCandidates ≤ old'.length := by
    rw [List.length_append]
    omega
  rw [List.drop_append_of_le_length excess]
  generalize (old' ++ recent).length - maxCandidates = n
  have dropped : ∀ id ∈ Dict.keys (old'.drop n), id ∈ Dict.keys old' :=
    fun id member => ((List.drop_sublist n old').map Prod.fst).subset member
  refine ⟨?_, ?_, ?_, old'.drop n, recent, rfl, fun id member => oldKept id (dropped id member), recentKept⟩
  · exact all.sublist (((List.drop_sublist n old').append_right recent).map Prod.fst)
  · intro id member
    rw [Dict.keys, List.map_append, List.mem_append] at member
    rcases member with member | member
    · have found := dropped id member
      rw [← rest] at found
      exact (keys_filter.mp found).2
    · rw [← Dict.keys, ← kept] at member
      exact (keys_filter.mp member).2
  · intro id member unfit
    rw [Dict.keys, List.map_append, List.mem_append]
    right
    rw [← Dict.keys, ← kept]
    exact keys_filter.mpr ⟨added id member unfit, unfit⟩

end Onmc.WorkingContext

import Onmc.WorkingContext.Deliveries
import Onmc.WorkingContext.Retrieval

/-! A packet's footer counts every retrieved memory: each is either selected or excluded. -/
namespace Onmc.WorkingContext

variable [Lowercase] [Sha256]

omit [Lowercase] [Sha256] in
theorem keys_setItem_perm {α : Type} {id : String} {value : α} {items : List (String × α)} (new : id ∉ Dict.keys items) :
    (Dict.keys (Dict.setItem id value items)).Perm (id :: Dict.keys items) := by
  rw [Dict.keys_setItem_of_not_mem value new]
  exact List.perm_append_singleton id (Dict.keys items)

/-- The ids that a screening has placed. -/
def Screening.placed (s : Screening) : List String := Dict.keys s.exclusions ++ Dict.keys s.candidates

theorem screenMemory_places {w : World} {session : WorkingSession} {queryTokens : List String} {s t : Screening}
    {memory : MemoryEntry} (new : memory.id ∉ s.placed) (ok : screenMemory w session queryTokens s memory = .ok t) :
    t.placed.Perm (memory.id :: s.placed) := by
  rw [Screening.placed, List.mem_append, not_or] at new
  have excluded : ∀ reason (checks : Checks), t = ({ s with checks } : Screening).exclude memory.id reason →
      t.placed.Perm (memory.id :: s.placed) := by
    rintro reason checks rfl
    exact (keys_setItem_perm new.1).append_right (Dict.keys s.candidates)
  unfold screenMemory at ok
  split at ok
  · exact excluded "quarantined" s.checks (Except.ok.inj ok).symm
  · split at ok
    · exact excluded "rejected" s.checks (Except.ok.inj ok).symm
    · obtain ⟨⟨checks, label, rejected⟩, _, ok⟩ := Except.bind_ok.mp ok
      cases rejected with
      | some reason => exact excluded reason checks (Except.ok.inj ok).symm
      | none =>
        obtain ⟨paths, _, ok⟩ := Except.bind_ok.mp ok
        dsimp only at ok
        split at ok
        · exact excluded "irrelevant" checks (Except.ok.inj ok).symm
        · obtain rfl := Except.ok.inj ok
          refine List.Perm.trans ((keys_setItem_perm new.2).append_left (Dict.keys s.exclusions)) ?_
          exact List.perm_middle

theorem screenAll_places {w : World} {session : WorkingSession} {queryTokens : List String} {memories : List MemoryEntry}
    {s t : Screening} (once : (idsOf memories ++ s.placed).Nodup)
    (ok : memories.foldlM (screenMemory w session queryTokens) s = .ok t) : t.placed.Perm (idsOf memories ++ s.placed) := by
  induction memories generalizing s with
  | nil =>
    cases ok
    exact List.Perm.refl _
  | cons memory memories ih =>
    rw [List.foldlM_cons] at ok
    obtain ⟨next, first, rest⟩ := Except.bind_ok.mp ok
    rw [idsOf, List.map_cons, ← idsOf, List.cons_append, List.nodup_cons, List.mem_append, not_or] at once
    have step := screenMemory_places once.1.2 first
    have moved : (idsOf memories ++ next.placed).Perm (memory.id :: (idsOf memories ++ s.placed)) :=
      (step.append_left (idsOf memories)).trans List.perm_middle
    refine (ih ?_ rest).trans moved
    rw [moved.nodup_iff, List.nodup_cons, List.mem_append, not_or]
    exact once

omit [Lowercase] [Sha256] in
theorem nodup_screenedIds (w : World) (session : WorkingSession) : (screenedIds w session).Nodup := by
  unfold screenedIds
  split
  · exact nodup_retrieve w session
  · exact List.nodup_nil

theorem screen_places {w : World} {session : WorkingSession} {s : Screening} (ok : screen w session = .ok s) :
    s.placed.Perm (screenedIds w session) := by
  obtain ⟨seen, all, ok⟩ := Except.bind_ok.mp ok
  have ids : idsOf (if w.learningEnabled then retrieve w session else []) = screenedIds w session := by
    unfold screenedIds
    split <;> rfl
  have once := nodup_screenedIds w session
  have placed : seen.placed.Perm (screenedIds w session) := by
    have all := screenAll_places (by simpa [Screening.placed, Dict.keys, ids] using once) all
    simpa [Screening.placed, Dict.keys, ids] using all
  have distinct := placed.nodup_iff.mpr once
  rw [Screening.placed, List.nodup_append] at distinct
  have edges : (Dict.keys ((edgeRows w seen.candidates).foldl excludeEdge seen.exclusions)).Nodup ∧
      ∀ id ∈ Dict.keys ((edgeRows w seen.candidates).foldl excludeEdge seen.exclusions), id ∈ seen.placed :=
    excludeEdges_keys distinct.1 (fun id member => List.mem_append_left _ member) (fun edge member =>
      ⟨List.mem_append_right _ (mem_edgeRows member).1, List.mem_append_right _ (mem_edgeRows member).2⟩)
  have kept := excludeEdges_keeps (edgeRows w seen.candidates) seen.exclusions
  cases ok
  refine List.Perm.trans ?_ placed
  generalize (edgeRows w seen.candidates).foldl excludeEdge seen.exclusions = exclusions at edges kept
  refine (List.perm_ext_iff_of_nodup ?_ ?_).mpr ?_
  · rw [Screening.placed, List.nodup_append]
    refine ⟨edges.1, distinct.2.1.sublist (List.filter_sublist.map Prod.fst), ?_⟩
    intro id excluded other candidate same
    subst same
    obtain ⟨item, member, rfl⟩ := List.mem_map.mp candidate
    have apart := (List.mem_filter.mp member).2
    rw [decide_eq_true_eq] at apart
    exact apart excluded
  · exact placed.nodup_iff.mpr once
  · intro id
    rw [Screening.placed, List.mem_append]
    constructor
    · rintro (excluded | candidate)
      · exact edges.2 id excluded
      · exact List.mem_append_right _ ((List.filter_sublist.map Prod.fst).subset candidate)
    · intro member
      by_cases excluded : id ∈ Dict.keys exclusions
      · exact .inl excluded
      · right
        rcases List.mem_append.mp member with before | candidate
        · exact absurd (kept before) excluded
        · obtain ⟨item, held, rfl⟩ := List.mem_map.mp candidate
          exact List.mem_map_of_mem (List.mem_filter.mpr ⟨held, decide_eq_true excluded⟩)

/-- The ids that a draft has placed. -/
def Draft.placed (d : Draft) : List String := d.selected.map ContextItem.id ++ Dict.keys d.exclusions

omit [Lowercase] [Sha256] in
theorem placed_of_choice {d d' : Draft} (same : d.choice = d'.choice) : d.placed = d'.placed := by
  simp only [Draft.choice, Prod.mk.injEq] at same
  rw [Draft.placed, Draft.placed, same.1, same.2.2]

omit [Sha256] in
/-- Rendering an item selects it or excludes it. -/
theorem renderItem_places (limit : Nat) {d : Draft} {item : ContextItem} (new : item.id ∉ Dict.keys d.exclusions) :
    (renderItem limit d item).placed.Perm (item.id :: d.placed) ∧
      ∀ id ∈ Dict.keys (renderItem limit d item).exclusions, id = item.id ∨ id ∈ Dict.keys d.exclusions := by
  have excluded : ∀ reason, (d.exclude item.id reason).placed.Perm (item.id :: d.placed) := by
    intro reason
    exact ((keys_setItem_perm new).append_left (d.selected.map ContextItem.id)).trans List.perm_middle
  unfold renderItem
  split
  · exact ⟨excluded "duplicate", fun id member => Dict.mem_keys_setItem.mp member⟩
  · split
    · obtain ⟨chosen, _, kept⟩ : (d.append limit (itemBlock item)).selected = d.selected ∧ _ ∧
          (d.append limit (itemBlock item)).exclusions = d.exclusions := by
        simpa [Draft.choice] using choice_append limit d (itemBlock item)
      generalize d.append limit (itemBlock item) = next at chosen kept
      simp only [Draft.select, Draft.placed, chosen, kept, List.map_append, List.map_cons, List.map_nil,
        List.append_assoc, List.singleton_append]
      exact ⟨List.perm_middle, fun id member => .inr member⟩
    · exact ⟨excluded "budget", fun id member => Dict.mem_keys_setItem.mp member⟩

omit [Sha256] in
theorem renderItems_places (limit : Nat) {items : List ContextItem} {d : Draft}
    (once : (items.map ContextItem.id).Nodup) (new : ∀ item ∈ items, item.id ∉ Dict.keys d.exclusions) :
    (items.foldl (renderItem limit) d).placed.Perm (items.map ContextItem.id ++ d.placed) := by
  induction items generalizing d with
  | nil => exact List.Perm.refl _
  | cons item items ih =>
    rw [List.map_cons, List.nodup_cons] at once
    obtain ⟨placed, known⟩ := renderItem_places limit (new item List.mem_cons_self)
    have later : ∀ other ∈ items, other.id ∉ Dict.keys (renderItem limit d item).exclusions := by
      intro other member held
      rcases known other.id held with same | held
      · exact once.1 (same ▸ List.mem_map_of_mem member)
      · exact new other (List.mem_cons_of_mem _ member) held
    rw [List.foldl_cons, List.map_cons]
    refine (ih once.2 later).trans ?_
    exact (placed.append_left (items.map ContextItem.id)).trans List.perm_middle

/-- Every retrieved memory is selected or excluded. -/
theorem draft_places {w : World} {session : WorkingSession} {s : Screening} (ok : screen w session = .ok s)
    (shown : WorkingSession) (budget : Nat) : (draft w shown s budget).placed.Perm (screenedIds w session) := by
  have screened := screen_screened ok
  have distinct := (screen_places ok).nodup_iff.mpr (nodup_screenedIds w session)
  rw [Screening.placed, List.nodup_append] at distinct
  have names : s.candidates.map (fun entry => entry.2.id) = Dict.keys s.candidates :=
    List.map_congr_left (fun entry member => screened.named entry member)
  have perm : (ranked s.candidates).Perm (s.candidates.map Prod.snd) := List.perm_insertionSort _ _
  have ids : ((ranked s.candidates).map ContextItem.id).Perm (Dict.keys s.candidates) := by
    refine (perm.map ContextItem.id).trans ?_
    rw [List.map_map]
    exact .of_eq names
  have start : (opening w shown s budget).placed = Dict.keys s.exclusions := by
    have choice := opening_choice w shown s budget
    simp only [Draft.choice, Prod.mk.injEq] at choice
    rw [Draft.placed, choice.1, choice.2.2, List.map_nil, List.nil_append]
  have rendered := renderItems_places (budget - 220) (d := opening w shown s budget)
    (ids.nodup_iff.mpr distinct.2.1) (by
      intro item member
      obtain ⟨entry, held, rfl⟩ := mem_ranked member
      have choice := opening_choice w shown s budget
      simp only [Draft.choice, Prod.mk.injEq] at choice
      rw [choice.2.2, screened.named entry held]
      intro excluded
      exact distinct.2.2 _ excluded _ (List.mem_map_of_mem held) rfl)
  rw [placed_of_choice (draft_choice w shown s budget)]
  refine rendered.trans ?_
  rw [start]
  exact ((ids.append_right _).trans List.perm_append_comm).trans (screen_places ok)

theorem length_draft {w : World} {session : WorkingSession} {s : Screening} (ok : screen w session = .ok s)
    (shown : WorkingSession) (budget : Nat) :
    (draft w shown s budget).selected.length + (draft w shown s budget).exclusions.length =
      (screenedIds w session).length := by
  have size := (draft_places ok shown budget).length_eq
  simpa [Draft.placed, Dict.keys] using size

/-! The counts can be read off the text. -/

omit [Lowercase] [Sha256] in
theorem number_inj {before before' : List Char} {n n' : Nat}
    (same : before ++ ' ' :: Nat.toDigits 10 n = before' ++ ' ' :: Nat.toDigits 10 n') : n = n' ∧ before = before' := by
  have last : ∀ (before : List Char) (n : Nat),
      (before ++ ' ' :: Nat.toDigits 10 n).reverse.takeWhile Char.isDigit = (Nat.toDigits 10 n).reverse ∧
        (before ++ ' ' :: Nat.toDigits 10 n).reverse.dropWhile Char.isDigit = ' ' :: before.reverse := by
    intro before n
    have digits : ∀ c ∈ (Nat.toDigits 10 n).reverse, c.isDigit = true := by
      intro c member
      exact Nat.isDigit_of_mem_toDigits (by decide) (by decide) (List.mem_reverse.mp member)
    rw [List.reverse_append, List.reverse_cons, List.append_assoc]
    constructor
    · rw [List.takeWhile_append_of_pos digits]
      simp
    · rw [List.dropWhile_append_of_pos digits]
      simp
  obtain ⟨digits, rest⟩ := last before n
  obtain ⟨digits', rest'⟩ := last before' n'
  rw [same] at digits rest
  have values := List.reverse_inj.mp (digits.symm.trans digits')
  have others := List.reverse_inj.mp (List.cons.inj (rest.symm.trans rest')).2
  refine ⟨?_, others⟩
  have read := congrArg (fun cs => Nat.ofDigitChars 10 cs 0) values
  simpa using read

omit [Lowercase] [Sha256] in
theorem toList_footer (d : Draft) : (footer d).toList = "\nPacket:".toList ++ ' ' :: Nat.toDigits 10 d.selected.length ++
    (" memories;".toList ++ ' ' :: Nat.toDigits 10 d.exclusions.length ++ (" excluded;".toList ++ ' ' ::
      Nat.toDigits 10 d.warnings.length ++ (" notices. Full reasons: onmc working context --session " ++
        "<session-id> --json.\n").toList)) := by
  have first : "\nPacket: ".toList = "\nPacket:".toList ++ [' '] := by decide
  have second : " memories; ".toList = " memories;".toList ++ [' '] := by decide
  have third : " excluded; ".toList = " excluded;".toList ++ [' '] := by decide
  have digits : ∀ n : Nat, (toString n).toList = Nat.toDigits 10 n := by
    intro n
    simp [Nat.repr]
  simp only [footer, String.toList_append, digits, first, second, third, List.append_assoc, List.cons_append,
    List.nil_append]

omit [Lowercase] [Sha256] in
theorem footer_counts {text text' : String} {d d' : Draft} (same : text ++ footer d = text' ++ footer d') :
    d.selected.length = d'.selected.length ∧ d.exclusions.length = d'.exclusions.length := by
  have chars := congrArg String.toList same
  rw [String.toList_append, String.toList_append, toList_footer, toList_footer] at chars
  simp only [← List.append_assoc] at chars
  have notices := List.append_cancel_right chars
  obtain ⟨_, notices⟩ := number_inj notices
  have excluded := List.append_cancel_right notices
  obtain ⟨exclusions, excluded⟩ := number_inj excluded
  have memories := List.append_cancel_right excluded
  exact ⟨(number_inj memories).1, exclusions⟩

end Onmc.WorkingContext

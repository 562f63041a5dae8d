import Mathlib.Data.List.Basic

/-! Fields joined by a separator. A field without the separator can be read back; a field that may
hold it can take over what comes next. -/
namespace Onmc.Separated

variable {α : Type} {sep : α}

/-- A first field that cannot hold the separator is determined by the whole. -/
theorem first_determined {a b x y : List α} (ha : sep ∉ a) (hb : sep ∉ b)
    (h : a ++ sep :: x = b ++ sep :: y) : a = b ∧ x = y := by
  induction a generalizing b with
  | nil =>
    cases b with
    | nil => exact ⟨rfl, (List.cons.inj h).2⟩
    | cons c b => exact absurd (by simp [(List.cons.inj h).1]) hb
  | cons c a ih =>
    cases b with
    | nil => exact absurd (by simp [(List.cons.inj h).1]) ha
    | cons d b =>
      obtain ⟨rfl, tail⟩ := List.cons.inj h
      obtain ⟨rfl, rest⟩ := ih (fun m => ha (List.mem_cons_of_mem _ m))
        (fun m => hb (List.mem_cons_of_mem _ m)) tail
      exact ⟨rfl, rest⟩

/-- So is a last field. -/
theorem last_determined {a b x y : List α} (ha : sep ∉ a) (hb : sep ∉ b)
    (h : x ++ sep :: a = y ++ sep :: b) : x = y ∧ a = b := by
  have reversed := congrArg List.reverse h
  simp only [List.reverse_append, List.reverse_cons, List.append_assoc, List.singleton_append] at reversed
  obtain ⟨last, rest⟩ := first_determined (fun m => ha (List.mem_reverse.mp m)) (fun m => hb (List.mem_reverse.mp m))
    reversed
  exact ⟨List.reverse_injective rest, List.reverse_injective last⟩

/-- No field of a split text holds the separator. -/
theorem not_mem_of_mem_splitOn [DecidableEq α] {text field : List α} (member : field ∈ text.splitOn sep) : sep ∉ field := by
  induction text generalizing field with
  | nil =>
    have : field = [] := by simpa using member
    simp [this]
  | cons c rest ih =>
    rw [List.splitOn_cons_eq_if_modifyHead] at member
    split at member
    · rcases List.mem_cons.mp member with rfl | member
      · simp
      · exact ih member
    · rename_i differ
      obtain ⟨head, fields, split⟩ := List.exists_cons_of_ne_nil (List.splitOn_ne_nil sep rest)
      rw [split] at member ih
      rw [List.modifyHead_cons] at member
      rcases List.mem_cons.mp member with rfl | member
      · have same : ¬sep = c := fun h => differ (by simp [h])
        simpa [same] using ih List.mem_cons_self
      · exact ih (List.mem_cons_of_mem _ member)

/-- The fields of the second text lie inside the first and the last field of the first one: its
first field reaches over `first` and `middle`, and the last field of the first text holds the
rest. -/
def Overlaps (sep : α) (first middle last first' middle' last' : List α) : Prop :=
  ∃ rest, first' ++ [sep] = first ++ sep :: (middle ++ sep :: rest) ∧
    last = rest ++ (middle' ++ sep :: last')

theorem overlaps_same {first middle last first' middle' last' : List α}
    (h : Overlaps sep first middle last first' middle' last') :
    first ++ sep :: (middle ++ sep :: last) = first' ++ sep :: (middle' ++ sep :: last') := by
  obtain ⟨rest, head, tail⟩ := h
  have whole := congrArg (· ++ (middle' ++ sep :: last')) head
  simp only [List.append_assoc, List.cons_append, List.nil_append] at whole
  rw [tail]
  exact whole.symm

/-- A shorter first field is overlapped by the longer one. -/
theorem overlaps_of_longer {first middle last longer middle' last' : List α} (hm : sep ∉ middle)
    (other : middle ≠ middle') (hm' : sep ∉ middle')
    (h : sep :: (middle ++ sep :: last) = longer ++ sep :: (middle' ++ sep :: last')) :
    Overlaps sep first middle last (first ++ longer) middle' last' := by
  cases longer with
  | nil =>
    have fields := (List.cons.inj h).2
    exact absurd (first_determined hm hm' fields).1 other
  | cons c inner =>
    obtain ⟨rfl, tail⟩ := List.cons.inj h
    rcases List.append_eq_append_iff.mp tail with ⟨more, rfl, rest⟩ | ⟨more, rfl, rest⟩
    · cases more with
      | nil =>
        refine ⟨[], ?_, (List.cons.inj rest).2⟩
        simp
      | cons d more =>
        obtain ⟨rfl, fields⟩ := List.cons.inj rest
        refine ⟨more ++ [sep], ?_, ?_⟩
        · simp
        · simpa using fields
    · cases more with
      | nil =>
        refine ⟨[], ?_, (List.cons.inj rest).2.symm⟩
        simp
      | cons d more =>
        obtain ⟨rfl, _⟩ := List.cons.inj rest
        exact absurd (by simp) hm

/-- Two texts of three fields are the same exactly when one overlaps the other, once their middle
fields differ and do not hold the separator. -/
theorem same_iff {first middle last first' middle' last' : List α} (hm : sep ∉ middle)
    (hm' : sep ∉ middle') (other : middle ≠ middle') :
    first ++ sep :: (middle ++ sep :: last) = first' ++ sep :: (middle' ++ sep :: last') ↔
      Overlaps sep first middle last first' middle' last' ∨
        Overlaps sep first' middle' last' first middle last := by
  constructor
  · intro h
    rcases List.append_eq_append_iff.mp h with ⟨longer, rfl, rest⟩ | ⟨longer, rfl, rest⟩
    · exact .inl (overlaps_of_longer hm other hm' rest)
    · exact .inr (overlaps_of_longer hm' other.symm hm rest)
  · rintro (h | h)
    · exact overlaps_same h
    · exact (overlaps_same h).symm

end Onmc.Separated

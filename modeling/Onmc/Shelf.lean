import Mathlib.Data.List.Basic

/-! A shelf for the newest items of a record. A pinned item replaces the pinned item before it, and
the oldest items retire when there is no room for them. -/
namespace Shelf

variable {α : Type} (pin : α → Bool) (room : Nat)

/-- What stays on the shelf when `item` is put there, but for room. -/
def kept (items : List α) (item : α) : List α :=
  if pin item then items.filter (fun other => !pin other) else items

def put (items : List α) (item : α) : List α :=
  (kept pin items item ++ [item]).drop ((kept pin items item).length + 1 - room)

/-- How many items retire. -/
def retires (items : List α) (item : α) : Nat := (kept pin items item).length + 1 - room

/-- How many items of the record were replaced: pinned ones with another pinned item among the next
`room`. -/
def replaced : List α → Nat
  | [] => 0
  | item :: later => replaced later + if pin item && (later.take room).any pin then 1 else 0

/-- The last pinned item of a record, with what came after it. -/
def Latest (record : List α) (item : α) (after : List α) : Prop :=
  (∃ before, record = before ++ item :: after) ∧ pin item = true ∧ ∀ other ∈ after, pin other = false

/-- A shelf that the items of a record were put on, with how many of them have retired. -/
structure Holds (record items : List α) (retired : Nat) : Prop where
  fits : items.length ≤ room
  ordered : items.Sublist record
  shown : ∀ item after, Latest pin record item after → after.length < room →
    ∃ before, items = before ++ item :: after ∧ ∀ other ∈ before, pin other = false
  hidden : ∀ item after, Latest pin record item after → room ≤ after.length → ∀ other ∈ items, pin other = false
  counted : record.length = items.length + retired + replaced pin room record

variable {pin room}

theorem latest_or (record : List α) : (∀ item ∈ record, pin item = false) ∨ ∃ item after, Latest pin record item after := by
  induction record with
  | nil => exact .inl (by simp)
  | cons first record ih =>
    rcases ih with unpinned | ⟨item, after, ⟨before, rfl⟩, pinned, last⟩
    · cases head : pin first with
      | true => exact .inr ⟨first, record, ⟨[], rfl⟩, head, unpinned⟩
      | false =>
        left
        intro item member
        rcases List.mem_cons.mp member with rfl | member
        · exact head
        · exact unpinned item member
    · exact .inr ⟨item, after, ⟨first :: before, rfl⟩, pinned, last⟩

theorem latest_concat {record : List α} {item other : α} {after : List α}
    (latest : Latest pin (record ++ [item]) other after) :
    (other = item ∧ after = []) ∨ ∃ earlier, after = earlier ++ [item] ∧ Latest pin record other earlier := by
  obtain ⟨⟨before, split⟩, pinned, last⟩ := latest
  rcases List.eq_nil_or_concat after with rfl | ⟨front, final, rfl⟩
  · obtain ⟨_, ends⟩ := List.append_inj' split rfl
    cases ends
    exact .inl ⟨rfl, rfl⟩
  · rw [List.concat_eq_append] at split last ⊢
    rw [← List.cons_append, ← List.append_assoc] at split
    obtain ⟨same, ends⟩ := List.append_inj' split rfl
    cases ends
    exact .inr ⟨front, rfl, ⟨before, same⟩, pinned, fun later member => last later (List.mem_append_left _ member)⟩

theorem any_take_concat {record : List α} {item : α} (plain : pin item = false) :
    ((record ++ [item]).take room).any pin = (record.take room).any pin := by
  rw [List.take_append, List.any_append]
  have none_new : ((([item] : List α)).take (room - record.length)).any pin = false := by
    rcases room - record.length with _ | n
    · rfl
    · simp [plain]
  rw [none_new, Bool.or_false]

theorem replaced_concat_plain {record : List α} {item : α} (plain : pin item = false) :
    replaced pin room (record ++ [item]) = replaced pin room record := by
  induction record with
  | nil => simp [replaced, plain]
  | cons first record ih => simp only [List.cons_append, replaced, ih, any_take_concat plain]

theorem replaced_concat_first {record : List α} {item : α} (unpinned : ∀ other ∈ record, pin other = false) :
    replaced pin room (record ++ [item]) = replaced pin room record := by
  induction record with
  | nil => simp [replaced]
  | cons first record ih =>
    have head := unpinned first List.mem_cons_self
    simp only [List.cons_append, replaced, head, Bool.false_and, ih (fun other member => unpinned other
      (List.mem_cons_of_mem _ member))]

/-- A pinned item replaces the last one that is not too far back. -/
theorem replaced_concat_pinned {record : List α} {item latest : α} {after : List α} (pinned : pin item = true)
    (h : Latest pin record latest after) :
    replaced pin room (record ++ [item]) = replaced pin room record + if after.length < room then 1 else 0 := by
  obtain ⟨⟨before, rfl⟩, was, last⟩ := h
  have quiet : ∀ n, (after.take n).any pin = false := by
    intro n
    rw [List.any_eq_false]
    intro other member
    rw [last other (List.mem_of_mem_take member)]
    simp
  induction before with
  | nil =>
    have tail : replaced pin room (after ++ [item]) = replaced pin room after := replaced_concat_first last
    simp only [List.nil_append, List.cons_append, replaced, was, Bool.true_and, tail, quiet, List.take_append,
      List.any_append, Bool.false_or]
    rcases Nat.lt_or_ge after.length room with near | far
    · obtain ⟨n, left⟩ : ∃ n, room - after.length = n + 1 := ⟨room - after.length - 1, by omega⟩
      simp [left, pinned, near]
    · have none_left : room - after.length = 0 := by omega
      simp [none_left, Nat.not_lt.mpr far]
  | cons first before ih =>
    have same : ((before ++ latest :: after ++ [item]).take room).any pin =
        ((before ++ latest :: after).take room).any pin := by
      rcases Nat.lt_or_ge before.length room with near | far
      · have seen : ∀ rest, ((before ++ latest :: rest).take room).any pin = true := by
          intro rest
          obtain ⟨n, left⟩ : ∃ n, room - before.length = n + 1 := ⟨room - before.length - 1, by omega⟩
          rw [List.take_append, left, List.take_succ_cons]
          simp [was]
        rw [List.append_assoc, List.cons_append, seen, seen]
      · rw [List.append_assoc, List.take_append_of_le_length far, List.take_append_of_le_length far]
    simp only [List.cons_append, replaced, same, ih]
    omega

theorem length_put (items : List α) (item : α) :
    (put pin room items item).length + retires pin room items item = (kept pin items item).length + 1 := by
  simp only [put, retires, List.length_drop, List.length_append, List.length_singleton]
  omega

theorem kept_unpinned {items : List α} {item : α} (pinned : pin item = true) :
    ∀ other ∈ kept pin items item, pin other = false := by
  intro other member
  rw [kept, if_pos pinned] at member
  simpa using (List.mem_filter.mp member).2

/-- With room for one, what is put on the shelf is there. -/
theorem put_eq (items : List α) (item : α) (pos : 0 < room) :
    ∃ gone left, kept pin items item = gone ++ left ∧ put pin room items item = left ++ [item] ∧
      gone.length = retires pin room items item := by
  have few : (kept pin items item).length + 1 - room ≤ (kept pin items item).length := by omega
  refine ⟨(kept pin items item).take ((kept pin items item).length + 1 - room),
    (kept pin items item).drop ((kept pin items item).length + 1 - room), ?_, ?_, ?_⟩
  · rw [List.take_append_drop]
  · rw [put, List.drop_append_of_le_length few]
  · rw [List.length_take, retires]
    omega

namespace Holds

variable {record items : List α} {retired : Nat}

theorem nil : Holds pin room ([] : List α) [] 0 where
  fits := Nat.zero_le _
  ordered := .slnil
  shown := by
    rintro item after ⟨⟨before, split⟩, _⟩
    simp at split
  hidden := by simp
  counted := rfl

theorem filter_quiet {others : List α} (quiet : ∀ other ∈ others, pin other = false) : others.filter pin = [] := by
  rw [List.filter_eq_nil_iff]
  intro other member
  rw [quiet other member]
  simp

/-- The pinned items of the shelf: the last of the record, unless it is too far back. -/
theorem pinned (h : Holds pin room record items retired) {item : α} {after : List α}
    (latest : Latest pin record item after) : items.filter pin = if after.length < room then [item] else [] := by
  split
  · rename_i near
    obtain ⟨before, rfl, front⟩ := h.shown item after latest near
    rw [List.filter_append, List.filter_cons_of_pos latest.2.1, filter_quiet front, filter_quiet latest.2.2]
    rfl
  · rename_i far
    exact filter_quiet (h.hidden item after latest (Nat.le_of_not_lt far))

theorem length_kept (h : Holds pin room record items retired) (item : α) :
    (kept pin items item).length + replaced pin room (record ++ [item]) = items.length + replaced pin room record := by
  cases new : pin item with
  | false => rw [replaced_concat_plain new, kept, if_neg (by simp [new])]
  | true =>
    have parts := List.length_eq_length_filter_add pin (l := items)
    rw [kept, if_pos new]
    rcases @latest_or _ pin record with unpinned | ⟨last, after, latest⟩
    · rw [replaced_concat_first unpinned]
      rw [filter_quiet (fun other member => unpinned other (h.ordered.subset member))] at parts
      simp only [List.length_nil] at parts
      omega
    · rw [replaced_concat_pinned new latest]
      rw [h.pinned latest] at parts
      split
      · rename_i near
        rw [if_pos near, List.length_singleton] at parts
        omega
      · rename_i far
        rw [if_neg far, List.length_nil] at parts
        omega

theorem put (h : Holds pin room record items retired) (pos : 0 < room) (item : α) :
    Holds pin room (record ++ [item]) (put pin room items item) (retired + retires pin room items item) := by
  obtain ⟨gone, left, parts, shelf, leaving⟩ := put_eq items item pos
  have stays : kept pin items item = items ∨ pin item = true := by
    cases new : pin item with
    | false => exact .inl (if_neg (by simp [new]))
    | true => exact .inr rfl
  have rest : left = (kept pin items item).drop gone.length := by rw [parts, List.drop_left]
  have sublist : (kept pin items item).Sublist items := by
    unfold kept
    split
    · exact List.filter_sublist
    · exact .refl _
  have size : left.length + gone.length = (kept pin items item).length := by
    rw [parts, List.length_append, Nat.add_comm]
  rw [shelf]
  unfold retires at leaving
  refine ⟨?_, ?_, ?_, ?_, ?_⟩
  · rw [List.length_append, List.length_singleton]
    omega
  · rw [rest]
    exact (((List.drop_sublist _ _).trans sublist).trans h.ordered).append (.refl _)
  · intro other after latest near
    rcases latest_concat latest with ⟨rfl, rfl⟩ | ⟨earlier, rfl, latest'⟩
    · refine ⟨left, rfl, ?_⟩
      intro other' member
      exact kept_unpinned latest.2.1 other' (parts ▸ List.mem_append_right gone member)
    · have plain : pin item = false := latest.2.2 item (by simp)
      have same := stays.resolve_right (by simp [plain])
      rw [List.length_append, List.length_singleton] at near
      obtain ⟨before, split, front⟩ := h.shown other earlier latest' (by omega)
      rw [same] at leaving rest
      refine ⟨before.drop gone.length, ?_, fun other' member => front other' (List.mem_of_mem_drop member)⟩
      rw [split, List.length_append, List.length_cons] at leaving
      rw [rest, split, List.drop_append_of_le_length (by omega)]
      simp
  · intro other after latest far
    rcases latest_concat latest with ⟨rfl, rfl⟩ | ⟨earlier, rfl, latest'⟩
    · exact absurd pos (by simpa using far)
    · have plain : pin item = false := latest.2.2 item (by simp)
      have same := stays.resolve_right (by simp [plain])
      have quiet : ∀ other' ∈ left, pin other' = false := by
        rw [same] at leaving rest
        rw [rest]
        rw [List.length_append, List.length_singleton] at far
        rcases Nat.lt_or_ge earlier.length room with near | past
        · obtain ⟨before, split, front⟩ := h.shown other earlier latest' near
          have fits := h.fits
          rw [split, List.length_append, List.length_cons] at leaving fits
          have first : before = [] := List.eq_nil_of_length_eq_zero (by omega)
          have one : gone.length = 1 := by omega
          rw [split, first, one]
          exact latest'.2.2
        · intro other' member
          exact h.hidden other earlier latest' past other' (List.mem_of_mem_drop member)
      intro other' member
      rcases List.mem_append.mp member with member | member
      · exact quiet other' member
      · rw [List.mem_singleton.mp member]
        exact plain
  · have counts := h.counted
    have keeps := h.length_kept item
    rw [List.length_append, List.length_append, List.length_singleton]
    unfold retires
    omega

end Holds

end Shelf

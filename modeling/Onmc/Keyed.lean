import Mathlib.Data.List.Induction
import Mathlib.Data.List.Nodup

/-! Building a dict by entering items one after another: the keys stand where they came first, each with the
value that came last. -/
namespace Keyed

variable {κ α : Type} [DecidableEq κ]

/-- `held[key] = value` -/
def enter (key : κ) (value : α) : List (κ × α) → List (κ × α)
  | [] => [(key, value)]
  | item :: held => if item.1 = key then (key, value) :: held else item :: enter key value held

def build (items : List (κ × α)) : List (κ × α) :=
  items.foldl (fun held item => enter item.1 item.2 held) []

@[simp] theorem build_nil : build ([] : List (κ × α)) = [] := rfl

theorem build_append (items : List (κ × α)) (item : κ × α) :
    build (items ++ [item]) = enter item.1 item.2 (build items) := by
  rw [build, List.foldl_append]
  rfl

theorem keys_enter (key : κ) (value : α) (held : List (κ × α)) : (enter key value held).map Prod.fst =
    if key ∈ held.map Prod.fst then held.map Prod.fst else held.map Prod.fst ++ [key] := by
  induction held with
  | nil => rfl
  | cons item held ih =>
    by_cases same : item.1 = key
    · simp [enter, same]
    · have apart : ¬key = item.1 := fun h => same h.symm
      by_cases member : key ∈ held.map Prod.fst
      · have present : key ∈ (item :: held).map Prod.fst := List.mem_cons_of_mem _ member
        rw [if_pos member] at ih
        rw [enter, if_neg same, List.map_cons, ih, if_pos present, List.map_cons]
      · have absent : key ∉ (item :: held).map Prod.fst := by
          rw [List.map_cons, List.mem_cons, not_or]
          exact ⟨apart, member⟩
        rw [if_neg member] at ih
        rw [enter, if_neg same, List.map_cons, ih, if_neg absent]
        rfl

theorem keys_build (items : List (κ × α)) : (build items).map Prod.fst = (items.map Prod.fst).eraseDups := by
  induction items using List.reverseRecOn with
  | nil => rfl
  | append_singleton items item ih =>
    rw [build_append, keys_enter, ih, List.map_append, List.eraseDups_append, List.map_singleton]
    by_cases member : item.1 ∈ items.map Prod.fst
    · rw [if_pos (List.mem_eraseDups.mpr member)]
      simp [List.removeAll, member]
    · rw [if_neg (fun h => member (List.mem_eraseDups.mp h))]
      have kept : [item.1].removeAll (items.map Prod.fst) = [item.1] := by simp [List.removeAll, member]
      rw [kept]
      rfl

theorem nodup_enter {key : κ} (value : α) {held : List (κ × α)} (nodup : (held.map Prod.fst).Nodup) :
    ((enter key value held).map Prod.fst).Nodup := by
  rw [keys_enter]
  split
  · exact nodup
  · rename_i absent
    exact List.nodup_append.mpr ⟨nodup, List.nodup_singleton key, fun a ha b hb same =>
      absent (List.mem_singleton.mp hb ▸ same ▸ ha)⟩

theorem nodup_build (items : List (κ × α)) : ((build items).map Prod.fst).Nodup := by
  induction items using List.reverseRecOn with
  | nil => exact List.nodup_nil
  | append_singleton items item ih =>
    rw [build_append]
    exact nodup_enter item.2 ih

theorem mem_enter {key k : κ} {value v : α} {held : List (κ × α)} (nodup : (held.map Prod.fst).Nodup)
    (member : (k, v) ∈ enter key value held) : (k, v) = (key, value) ∨ (k ≠ key ∧ (k, v) ∈ held) := by
  induction held with
  | nil => exact .inl (List.mem_singleton.mp member)
  | cons item held ih =>
    rw [List.map_cons, List.nodup_cons] at nodup
    rw [enter] at member
    split at member
    · rename_i same
      rcases List.mem_cons.mp member with here | later
      · exact .inl here
      · refine .inr ⟨?_, List.mem_cons_of_mem _ later⟩
        rintro rfl
        exact nodup.1 (same ▸ List.mem_map_of_mem later)
    · rename_i apart
      rcases List.mem_cons.mp member with here | later
      · exact .inr ⟨fun same => apart (here ▸ same), here ▸ List.mem_cons_self⟩
      · rcases ih nodup.2 later with here | ⟨apart, later⟩
        · exact .inl here
        · exact .inr ⟨apart, List.mem_cons_of_mem _ later⟩

/-- An item of the dict is the last one that was entered under its key. -/
theorem mem_build {items : List (κ × α)} {k : κ} {v : α} (member : (k, v) ∈ build items) :
    ∃ before after, items = before ++ (k, v) :: after ∧ k ∉ after.map Prod.fst := by
  induction items using List.reverseRecOn with
  | nil => cases member
  | append_singleton items item ih =>
    rw [build_append] at member
    rcases mem_enter (nodup_build items) member with here | ⟨apart, held⟩
    · exact ⟨items, [], by rw [here], List.not_mem_nil⟩
    · obtain ⟨before, after, rfl, last⟩ := ih held
      refine ⟨before, after ++ [item], by simp, ?_⟩
      rw [List.map_append, List.mem_append, not_or]
      exact ⟨last, by simpa using apart⟩

theorem mem_enter_self (key : κ) (value : α) (held : List (κ × α)) : (key, value) ∈ enter key value held := by
  induction held with
  | nil => exact List.mem_singleton_self _
  | cons item held ih =>
    rw [enter]
    split
    · exact List.mem_cons_self
    · exact List.mem_cons_of_mem _ ih

theorem mem_enter_of_ne {key k : κ} {value v : α} {held : List (κ × α)} (apart : k ≠ key) (member : (k, v) ∈ held) :
    (k, v) ∈ enter key value held := by
  induction held with
  | nil => cases member
  | cons item held ih =>
    rw [enter]
    split
    · rename_i same
      rcases List.mem_cons.mp member with rfl | later
      · exact absurd same apart
      · exact List.mem_cons_of_mem _ later
    · rcases List.mem_cons.mp member with rfl | later
      · exact List.mem_cons_self
      · exact List.mem_cons_of_mem _ (ih later)

theorem mem_build_of_last (before : List (κ × α)) {after : List (κ × α)} {k : κ} {v : α}
    (last : k ∉ after.map Prod.fst) : (k, v) ∈ build (before ++ (k, v) :: after) := by
  induction after using List.reverseRecOn with
  | nil =>
    rw [build_append]
    exact mem_enter_self k v _
  | append_singleton after item ih =>
    rw [List.map_append, List.mem_append, not_or] at last
    rw [← List.cons_append, ← List.append_assoc, build_append]
    exact mem_enter_of_ne (fun same => last.2 (by simp [same])) (ih last.1)

/-- What a key holds is what was entered under it last. -/
theorem value_build {items before after : List (κ × α)} {k : κ} {v w : α} (member : (k, w) ∈ build items)
    (whole : items = before ++ (k, v) :: after) (last : k ∉ after.map Prod.fst) : w = v := by
  have entered : (k, v) ∈ build items := whole ▸ mem_build_of_last before last
  exact (Prod.mk.inj (List.inj_on_of_nodup_map (nodup_build items) member entered rfl)).2

/-- Distinct items are kept as they are. -/
theorem build_self {items : List (κ × α)} (nodup : (items.map Prod.fst).Nodup) : build items = items := by
  have append : ∀ {key : κ} (value : α) {held : List (κ × α)}, key ∉ held.map Prod.fst →
      enter key value held = held ++ [(key, value)] := by
    intro key value held absent
    induction held with
    | nil => rfl
    | cons item held ih =>
      rw [List.map_cons, List.mem_cons, not_or] at absent
      rw [enter, if_neg (fun same => absent.1 same.symm), ih absent.2, List.cons_append]
  induction items using List.reverseRecOn with
  | nil => rfl
  | append_singleton items item ih =>
    rw [List.map_append, List.nodup_append] at nodup
    rw [build_append, ih nodup.1, append]
    exact fun member => nodup.2.2 _ member _ (List.mem_singleton_self _) rfl

end Keyed

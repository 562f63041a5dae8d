import Mathlib.Data.List.Nodup

/-! Tables with a primary key, as a database keeps them: rows in the order they were inserted, the
statements that change them, and what is found under a key afterwards. -/
namespace Onmc

structure Table (κ ρ : Type) (key : ρ → κ) where
  rows : List ρ
  unique : (rows.map key).Nodup

namespace Table

variable {κ ρ : Type} {key : ρ → κ}

def empty : Table κ ρ key := ⟨[], List.nodup_nil⟩

/-- `DELETE` of the rows that do not satisfy `keep`. -/
def keep (t : Table κ ρ key) (keep : ρ → Bool) : Table κ ρ key :=
  ⟨t.rows.filter keep, t.unique.sublist (List.filter_sublist.map key)⟩

variable [DecidableEq κ]

/-- `SELECT … WHERE key = k` -/
def find (t : Table κ ρ key) (k : κ) : Option ρ := t.rows.find? (fun r => key r = k)

theorem key_of_find {t : Table κ ρ key} {k : κ} {r : ρ} (h : t.find k = some r) : key r = k := by
  simpa using List.find?_some h

theorem mem_of_find {t : Table κ ρ key} {k : κ} {r : ρ} (h : t.find k = some r) : r ∈ t.rows :=
  List.mem_of_find?_eq_some h

theorem find_rows {rows : List ρ} (unique : (rows.map key).Nodup) {r : ρ} (h : r ∈ rows) :
    rows.find? (fun q => key q = key r) = some r := by
  induction rows with
  | nil => cases h
  | cons q rows ih =>
    rw [List.map_cons, List.nodup_cons] at unique
    by_cases same : key q = key r
    · rw [List.find?_cons_of_pos (by simpa using same)]
      rcases List.mem_cons.mp h with rfl | h
      · rfl
      · exact absurd (same ▸ List.mem_map_of_mem h) unique.1
    · rw [List.find?_cons_of_neg (by simpa using same)]
      rcases List.mem_cons.mp h with rfl | h
      · exact absurd rfl same
      · exact ih unique.2 h

theorem find_of_mem {t : Table κ ρ key} {r : ρ} (h : r ∈ t.rows) : t.find (key r) = some r :=
  find_rows t.unique h

theorem find_iff {t : Table κ ρ key} {k : κ} {r : ρ} : t.find k = some r ↔ r ∈ t.rows ∧ key r = k := by
  constructor
  · intro h
    exact ⟨mem_of_find h, key_of_find h⟩
  · rintro ⟨h, rfl⟩
    exact find_of_mem h

theorem find_none {t : Table κ ρ key} {k : κ} : t.find k = none ↔ k ∉ t.rows.map key := by
  simp [find]

@[simp] theorem find_empty (k : κ) : (empty : Table κ ρ key).find k = none := rfl

theorem find_keep (t : Table κ ρ key) (p : ρ → Bool) (k : κ) :
    (t.keep p).find k = (t.find k).filter p := by
  apply Option.ext
  intro r
  rw [Option.filter_eq_some_iff, find_iff, find_iff]
  simp only [keep, List.mem_filter]
  constructor
  · rintro ⟨⟨h, hp⟩, hk⟩
    exact ⟨⟨h, hk⟩, hp⟩
  · rintro ⟨⟨h, hk⟩, hp⟩
    exact ⟨⟨h, hp⟩, hk⟩

/-- Columns set in a row, its key not among them. -/
structure Setter (key : ρ → κ) where
  set : ρ → ρ
  keeps : ∀ r, key (set r) = key r

/-- `UPDATE … WHERE key = k` -/
def update (t : Table κ ρ key) (k : κ) (s : Setter key) : Table κ ρ key where
  rows := t.rows.map (fun r => if key r = k then s.set r else r)
  unique := by
    have same : (t.rows.map (fun r => if key r = k then s.set r else r)).map key = t.rows.map key := by
      rw [List.map_map]
      apply List.map_congr_left
      intro r _
      simp only [Function.comp]
      split
      · exact s.keeps r
      · rfl
    rw [same]
    exact t.unique

theorem mem_update {t : Table κ ρ key} {k : κ} {s : Setter key} {q : ρ} :
    q ∈ (t.update k s).rows ↔ ∃ r ∈ t.rows, (if key r = k then s.set r else r) = q :=
  List.mem_map

theorem forall_update {t : Table κ ρ key} {k : κ} {s : Setter key} {P : ρ → Prop}
    (before : ∀ r ∈ t.rows, P r) (set : ∀ r ∈ t.rows, key r = k → P (s.set r)) :
    ∀ q ∈ (t.update k s).rows, P q := by
  intro q hq
  obtain ⟨r, hr, rfl⟩ := mem_update.mp hq
  split
  · rename_i hk
    exact set r hr hk
  · exact before r hr

theorem find_update (t : Table κ ρ key) (k j : κ) (s : Setter key) :
    (t.update k s).find j = if j = k then (t.find j).map s.set else t.find j := by
  cases h : t.find j with
  | none =>
    have gone : (t.update k s).find j = none := by
      simp only [find_none, List.mem_map, not_exists, not_and] at h ⊢
      intro q hq hk
      obtain ⟨r, hr, rfl⟩ := mem_update.mp hq
      apply h r hr
      rw [← hk]
      split
      · exact (s.keeps r).symm
      · rfl
    simp [gone]
  | some r =>
    obtain ⟨hr, rfl⟩ := find_iff.mp h
    by_cases same : key r = k
    · rw [if_pos same]
      exact find_iff.mpr ⟨mem_update.mpr ⟨r, hr, if_pos same⟩, s.keeps r⟩
    · rw [if_neg same]
      exact find_iff.mpr ⟨mem_update.mpr ⟨r, hr, if_neg same⟩, rfl⟩

theorem find_update_present {t : Table κ ρ key} {j : κ} (present : t.find j ≠ none) (k : κ) (s : Setter key) :
    (t.update k s).find j ≠ none := by
  rw [find_update]
  split
  · simpa using present
  · exact present

/-- An update that finds every column as it sets it changes nothing. -/
theorem update_same {t : Table κ ρ key} {k : κ} {s : Setter key}
    (same : ∀ r, t.find k = some r → s.set r = r) : t.update k s = t := by
  have each : ∀ r ∈ t.rows, (if key r = k then s.set r else r) = r := by
    intro r hr
    split
    · rename_i hk
      exact same r (find_iff.mpr ⟨hr, hk⟩)
    · rfl
  cases t
  simpa only [update, mk.injEq] using (List.map_congr_left each).trans (List.map_id' _)

/-- `INSERT` under a key that is not taken. -/
def insert (t : Table κ ρ key) (r : ρ) (fresh : t.find (key r) = none) : Table κ ρ key where
  rows := t.rows ++ [r]
  unique := by
    rw [List.map_append, List.nodup_append]
    refine ⟨t.unique, by simp, ?_⟩
    intro a ha b hb same
    rw [List.map_singleton, List.mem_singleton] at hb
    subst hb same
    exact find_none.mp fresh ha

theorem find_insert (t : Table κ ρ key) (r : ρ) (fresh : t.find (key r) = none) (k : κ) :
    (t.insert r fresh).find k = if k = key r then some r else t.find k := by
  simp only [find, insert, List.find?_append, List.find?_singleton]
  by_cases same : k = key r
  · subst same
    rw [find] at fresh
    simp [fresh]
  · have other : ¬ key r = k := fun h => same h.symm
    simp [same, other]

theorem find_insert_present {t : Table κ ρ key} {j : κ} (present : t.find j ≠ none) (r : ρ)
    (fresh : t.find (key r) = none) : (t.insert r fresh).find j ≠ none := by
  rw [find_insert]
  split
  · nofun
  · exact present

/-- `INSERT … ON CONFLICT(key) DO UPDATE SET …` -/
def upsert (t : Table κ ρ key) (r : ρ) (s : Setter key) : Table κ ρ key :=
  if fresh : t.find (key r) = none then t.insert r fresh else t.update (key r) s

theorem upsert_fresh {t : Table κ ρ key} {r : ρ} (fresh : t.find (key r) = none) (s : Setter key) :
    t.upsert r s = t.insert r fresh := dif_pos fresh

theorem upsert_taken {t : Table κ ρ key} {r : ρ} (taken : t.find (key r) ≠ none) (s : Setter key) :
    t.upsert r s = t.update (key r) s := dif_neg taken

theorem forall_upsert {t : Table κ ρ key} {r : ρ} {s : Setter key} {P : ρ → Prop}
    (before : ∀ q ∈ t.rows, P q) (new : P r) (set : ∀ q ∈ t.rows, key q = key r → P (s.set q)) :
    ∀ q ∈ (t.upsert r s).rows, P q := by
  unfold upsert
  split
  · intro q hq
    rcases List.mem_append.mp hq with hq | hq
    · exact before q hq
    · rw [List.mem_singleton.mp hq]
      exact new
  · exact forall_update before set

theorem find_upsert (t : Table κ ρ key) (r : ρ) (s : Setter key) (k : κ) :
    (t.upsert r s).find k =
      if k = key r then some ((t.find k).elim r s.set) else t.find k := by
  unfold upsert
  split
  · rename_i fresh
    rw [find_insert]
    by_cases same : k = key r
    · simp [same, fresh]
    · simp [same]
  · rename_i taken
    rw [find_update]
    by_cases same : k = key r
    · subst same
      obtain ⟨old, found⟩ := Option.ne_none_iff_exists'.mp taken
      simp [found]
    · simp [same]

end Table
end Onmc

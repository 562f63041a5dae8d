import Mathlib.Data.List.Basic

/-! A Python dict as the list of its items in insertion order, without repeated keys. -/
namespace Onmc.Dict

/-- `d[key] = value`: an existing key keeps its place. -/
def setItem (key : String) (value : α) : List (String × α) → List (String × α)
  | [] => [(key, value)]
  | item :: items => if item.1 = key then (key, value) :: items else item :: setItem key value items

def keys (items : List (String × α)) : List String := items.map Prod.fst

/-- `d == e`, whatever the order of the items. -/
def same [DecidableEq α] (items others : List (String × α)) : Bool :=
  items.length = others.length && items.all (fun item => decide (others.lookup item.1 = some item.2))

/-- `d.pop(key, None)` -/
def pop (key : String) (items : List (String × α)) : List (String × α) :=
  items.filter (fun item => item.1 ≠ key)

@[simp] theorem lookup_setItem (key j : String) (value : α) (items : List (String × α)) :
    (setItem key value items).lookup j = if j = key then some value else items.lookup j := by
  induction items with
  | nil =>
    by_cases h : j = key
    · simp [setItem, h]
    · simp [setItem, List.lookup_cons, h, beq_eq_false_iff_ne.mpr h]
  | cons item items ih =>
    obtain ⟨k, v⟩ := item
    simp only [setItem]
    split
    · rename_i hk
      by_cases h : j = key
      · simp [h]
      · have hj : j ≠ k := fun e => h (e.trans hk)
        simp [List.lookup_cons, h, beq_eq_false_iff_ne.mpr h, beq_eq_false_iff_ne.mpr hj]
    · rename_i hk
      by_cases hj : j = k
      · simp [hj, hk]
      · simp [List.lookup_cons, beq_eq_false_iff_ne.mpr hj, ih]

/-- Entering what is already held changes nothing. -/
theorem setItem_self {key : String} {value : α} {items : List (String × α)} (found : items.lookup key = some value) :
    setItem key value items = items := by
  induction items with
  | nil => cases found
  | cons item items ih =>
    obtain ⟨k, held⟩ := item
    by_cases same : key = k
    · subst same
      simp only [List.lookup_cons_self, Option.some.injEq] at found
      simp [setItem, found]
    · rw [List.lookup_cons, beq_eq_false_iff_ne.mpr same] at found
      simp [setItem, Ne.symm same, ih found]

theorem nodup_keys_nil : (keys ([] : List (String × α))).Nodup := List.nodup_nil

theorem keys_setItem_of_mem {key : String} (value : α) {items : List (String × α)}
    (h : key ∈ keys items) : keys (setItem key value items) = keys items := by
  induction items with
  | nil => cases h
  | cons item items ih =>
    simp only [setItem]
    split
    · rename_i hk
      simp [keys, hk]
    · rename_i hk
      have tail : key ∈ keys items := by
        rcases List.mem_cons.mp h with h | h
        · exact absurd h.symm hk
        · exact h
      simpa [keys] using ih tail

theorem keys_setItem_of_not_mem {key : String} (value : α) {items : List (String × α)}
    (h : key ∉ keys items) : keys (setItem key value items) = keys items ++ [key] := by
  induction items with
  | nil => rfl
  | cons item items ih =>
    simp only [keys, List.map_cons, List.mem_cons, not_or] at h
    have apart : item.1 ≠ key := fun same => h.1 same.symm
    have tail := ih h.2
    simp only [setItem, apart, if_false]
    simpa [keys] using tail

theorem setItem_append {key : String} (value : α) {before : List (String × α)} (h : key ∉ keys before)
    (items : List (String × α)) : setItem key value (before ++ items) = before ++ setItem key value items := by
  induction before with
  | nil => rfl
  | cons item before ih =>
    simp only [keys, List.map_cons, List.mem_cons, not_or] at h
    have apart : item.1 ≠ key := fun same => h.1 same.symm
    simp only [List.cons_append, setItem, apart, if_false, ih h.2]

theorem mem_keys_setItem {key k : String} {value : α} {items : List (String × α)} :
    k ∈ keys (setItem key value items) ↔ k = key ∨ k ∈ keys items := by
  by_cases h : key ∈ keys items
  · rw [keys_setItem_of_mem value h]
    constructor
    · exact .inr
    · rintro (rfl | found)
      · exact h
      · exact found
  · rw [keys_setItem_of_not_mem value h, List.mem_append, List.mem_singleton, or_comm]

theorem nodup_keys_setItem {key : String} {value : α} {items : List (String × α)}
    (h : (keys items).Nodup) : (keys (setItem key value items)).Nodup := by
  by_cases known : key ∈ keys items
  · rw [keys_setItem_of_mem value known]
    exact h
  · rw [keys_setItem_of_not_mem value known]
    refine List.nodup_append.mpr ⟨h, by simp, ?_⟩
    intro k found other member same
    rw [List.mem_singleton.mp member] at same
    exact known (same ▸ found)

theorem length_setItem_le (key : String) (value : α) (items : List (String × α)) :
    (setItem key value items).length ≤ items.length + 1 := by
  induction items with
  | nil => simp [setItem]
  | cons item items ih =>
    simp only [setItem]
    split
    · simp
    · simp only [List.length_cons]
      omega

theorem mem_setItem {key : String} {value : α} {items : List (String × α)} {item : String × α}
    (h : item ∈ setItem key value items) : item = (key, value) ∨ item ∈ items := by
  induction items with
  | nil => exact .inl (List.mem_singleton.mp h)
  | cons other items ih =>
    simp only [setItem] at h
    split at h
    · rcases List.mem_cons.mp h with h | h
      · exact .inl h
      · exact .inr (List.mem_cons_of_mem _ h)
    · rcases List.mem_cons.mp h with h | h
      · exact .inr (h ▸ List.mem_cons_self)
      · rcases ih h with h | h
        · exact .inl h
        · exact .inr (List.mem_cons_of_mem _ h)

theorem foldl_pop (ids : List String) (items : List (String × α)) :
    ids.foldl (fun items id => pop id items) items = items.filter (fun item => item.1 ∉ ids) := by
  induction ids generalizing items with
  | nil => simp
  | cons id ids ih =>
    rw [List.foldl_cons, ih, pop, List.filter_filter]
    apply List.filter_congr
    intro item _
    simp [Bool.and_comm]

theorem lookup_isSome_iff {key : String} {items : List (String × α)} :
    (items.lookup key).isSome ↔ key ∈ keys items := by
  simp [keys]

theorem mem_keys_of_lookup {key : String} {value : α} {items : List (String × α)}
    (h : items.lookup key = some value) : key ∈ keys items :=
  lookup_isSome_iff.mp (by simp [h])

theorem mem_of_lookup {key : String} {value : α} {items : List (String × α)}
    (h : items.lookup key = some value) : (key, value) ∈ items := by
  obtain ⟨before, after, split, _⟩ := List.lookup_eq_some_iff.mp h
  rw [split]
  exact List.mem_append_right before List.mem_cons_self

theorem lookup_of_mem {items : List (String × α)} {item : String × α} (once : (keys items).Nodup)
    (h : item ∈ items) : items.lookup item.1 = some item.2 := by
  obtain ⟨before, after, split⟩ := List.append_of_mem h
  refine List.lookup_eq_some_iff.mpr ⟨before, after, split, ?_⟩
  intro other found
  rw [split, keys, List.map_append, List.nodup_append] at once
  have apart := once.2.2 other.1 (List.mem_map_of_mem found) item.1 List.mem_cons_self
  simpa using Ne.symm apart

/-- Mapping the values of a dict, with the key in view. -/
def mapValues (f : String → α → β) (items : List (String × α)) : List (String × β) :=
  items.map (fun item => (item.1, f item.1 item.2))

@[simp] theorem lookup_mapValues (f : String → α → β) (items : List (String × α)) (key : String) :
    (mapValues f items).lookup key = (items.lookup key).map (f key) := by
  induction items with
  | nil => simp [mapValues]
  | cons item items ih =>
    obtain ⟨k, v⟩ := item
    by_cases h : key = k
    · simp [mapValues, h]
    · simp only [mapValues, List.map_cons, List.lookup_cons, beq_eq_false_iff_ne.mpr h] at ih ⊢
      exact ih

@[simp] theorem keys_mapValues (f : String → α → β) (items : List (String × α)) :
    keys (mapValues f items) = keys items := by
  simp [keys, mapValues]

/-- `d.setdefault(key, value)` -/
def setDefault (key : String) (value : α) (items : List (String × α)) : List (String × α) :=
  if (items.lookup key).isSome then items else items ++ [(key, value)]

theorem lookup_setDefault (key k : String) (value : α) (items : List (String × α)) :
    (setDefault key value items).lookup k =
      if k = key then some ((items.lookup key).getD value) else items.lookup k := by
  unfold setDefault
  cases known : items.lookup key with
  | some held =>
    by_cases same : k = key
    · simp [same, known]
    · simp [same]
  | none =>
    have absent : (items ++ [(key, value)]).lookup k = (items.lookup k).or ([(key, value)].lookup k) :=
      List.lookup_append
    by_cases same : k = key
    · subst same
      simp [absent, known]
    · simp [absent, same, List.lookup_cons, beq_eq_false_iff_ne.mpr same]

/-- Keys given in turn, each to the first value that asks for it. -/
theorem lookup_foldl_setDefault (pairs : List (String × α)) (items : List (String × α)) (key : String) :
    (pairs.foldl (fun items pair => setDefault pair.1 pair.2 items) items).lookup key =
      (items.lookup key).or (pairs.lookup key) := by
  induction pairs generalizing items with
  | nil => simp
  | cons pair pairs ih =>
    obtain ⟨k, v⟩ := pair
    rw [List.foldl_cons, ih, lookup_setDefault]
    by_cases same : key = k
    · subst same
      cases items.lookup key <;> simp
    · simp [same, List.lookup_cons, beq_eq_false_iff_ne.mpr same]

/-- `d.setdefault(key, set()).add(item)` -/
def addTo [DecidableEq α] (key : String) (item : α) (items : List (String × List α)) : List (String × List α) :=
  setItem key (((items.lookup key).getD []).insert item) items

/-- `d.get(key, [])` -/
def listed (items : List (String × List α)) (key : String) : List α := (items.lookup key).getD []

theorem mem_listed_addTo [DecidableEq α] {key k : String} {item a : α} {items : List (String × List α)} :
    a ∈ listed (addTo key item items) k ↔ k = key ∧ a = item ∨ a ∈ listed items k := by
  by_cases same : k = key
  · subst same
    simp [listed, addTo]
  · simp [listed, addTo, same]

/-- Pairs filed one after the other are listed where they belong. -/
theorem mem_listed_foldl_addTo [DecidableEq α] {key : String} {a : α} (pairs : List (String × α))
    (items : List (String × List α)) :
    a ∈ listed (pairs.foldl (fun items pair => addTo pair.1 pair.2 items) items) key ↔
      (key, a) ∈ pairs ∨ a ∈ listed items key := by
  induction pairs generalizing items with
  | nil => simp
  | cons pair pairs ih =>
    obtain ⟨k, b⟩ := pair
    rw [List.foldl_cons, ih, mem_listed_addTo, List.mem_cons, Prod.mk.injEq]
    constructor
    · rintro (h | h | h)
      · exact .inl (.inr h)
      · exact .inl (.inl h)
      · exact .inr h
    · rintro ((h | h) | h)
      · exact .inr (.inl h)
      · exact .inl h
      · exact .inr (.inr h)

theorem nodup_keys_foldl_addTo [DecidableEq α] (pairs : List (String × α)) {items : List (String × List α)}
    (once : (keys items).Nodup) :
    (keys (pairs.foldl (fun items pair => addTo pair.1 pair.2 items) items)).Nodup := by
  induction pairs generalizing items with
  | nil => exact once
  | cons pair pairs ih => exact ih (nodup_keys_setItem once)

/-- The order of the items does not change what a key stands for. -/
theorem lookup_perm {items others : List (String × α)} (once : (keys items).Nodup) (perm : items.Perm others)
    (key : String) : others.lookup key = items.lookup key := by
  have distinct : (keys others).Nodup := (perm.map Prod.fst).nodup_iff.mp once
  cases held : items.lookup key with
  | some value => exact lookup_of_mem distinct (perm.mem_iff.mp (mem_of_lookup held))
  | none =>
    cases other : others.lookup key with
    | none => rfl
    | some value =>
      have found := lookup_of_mem once (perm.mem_iff.mpr (mem_of_lookup other))
      rw [held] at found
      cases found

end Onmc.Dict

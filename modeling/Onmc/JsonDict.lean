import Onmc.Json

/-! JSON as a program holds it after loading: dicts that are equal when they answer every key alike, and
lists and texts among them. -/
namespace Onmc

/-- A JSON value whose dicts are all in the one order that comparison disregards. -/
@[ext] structure JsonValue where
  json : Json
  canonical : json.canonical = json

/-- A dict. -/
structure JsonDict where
  items : List (String × JsonValue)
  increasing : items.Pairwise (fun a b => a.1 < b.1)

namespace JsonDict

def empty : JsonDict := ⟨[], .nil⟩

/-- `d.get(key)` -/
def get (d : JsonDict) (key : String) : Option JsonValue := d.items.lookup key

def insert (key : String) (value : JsonValue) : List (String × JsonValue) → List (String × JsonValue)
  | [] => [(key, value)]
  | item :: items =>
    if key < item.1 then (key, value) :: item :: items
    else if key = item.1 then (key, value) :: items
    else item :: insert key value items

theorem mem_insert {key : String} {value : JsonValue} {items : List (String × JsonValue)} {item : String × JsonValue}
    (member : item ∈ insert key value items) : item = (key, value) ∨ item ∈ items := by
  induction items with
  | nil => exact .inl (by simpa [insert] using member)
  | cons first items ih =>
    simp only [insert] at member
    split at member
    · exact List.mem_cons.mp member
    · split at member
      · rcases List.mem_cons.mp member with same | later
        · exact .inl same
        · exact .inr (List.mem_cons_of_mem _ later)
      · rcases List.mem_cons.mp member with same | later
        · exact .inr (same ▸ List.mem_cons_self)
        · exact (ih later).imp_right (List.mem_cons_of_mem _)

theorem insert_increasing (key : String) (value : JsonValue) {items : List (String × JsonValue)}
    (increasing : items.Pairwise (fun a b => a.1 < b.1)) :
    (insert key value items).Pairwise (fun a b => a.1 < b.1) := by
  induction items with
  | nil => exact List.pairwise_singleton _ _
  | cons first items ih =>
    obtain ⟨above, rest⟩ := List.pairwise_cons.mp increasing
    simp only [insert]
    split
    · rename_i before
      refine List.pairwise_cons.mpr ⟨fun item member => ?_, increasing⟩
      rcases List.mem_cons.mp member with rfl | later
      · exact before
      · exact lt_trans before (above item later)
    · split
      · rename_i _ same
        exact List.pairwise_cons.mpr ⟨fun item member => same ▸ above item member, rest⟩
      · rename_i after differs
        refine List.pairwise_cons.mpr ⟨fun item member => ?_, ih rest⟩
        rcases mem_insert member with rfl | later
        · exact lt_of_le_of_ne (not_lt.mp after) (Ne.symm differs)
        · exact above item later

/-- `d[key] = value` -/
def set (d : JsonDict) (key : String) (value : JsonValue) : JsonDict :=
  ⟨insert key value d.items, insert_increasing key value d.increasing⟩

/-- `d.pop(key, None)` -/
def pop (d : JsonDict) (key : String) : JsonDict :=
  ⟨d.items.filter (fun item => item.1 ≠ key), d.increasing.filter _⟩

def isEmpty (d : JsonDict) : Bool := d.items.isEmpty

/-- The value under the key; without one the key is out. -/
def put (d : JsonDict) (key : String) : Option JsonValue → JsonDict
  | none => d.pop key
  | some value => d.set key value

/-! What a key answers. -/

@[simp] theorem get_empty (key : String) : empty.get key = none := rfl

theorem get_set (d : JsonDict) (key k : String) (value : JsonValue) :
    (d.set key value).get k = if k = key then some value else d.get k := by
  obtain ⟨items, increasing⟩ := d
  simp only [get, set]
  clear increasing
  induction items with
  | nil =>
    by_cases same : k = key
    · simp [insert, same]
    · simp [insert, List.lookup_cons, same, beq_eq_false_iff_ne.mpr same]
  | cons first items ih =>
    obtain ⟨j, v⟩ := first
    simp only [insert]
    split
    · by_cases same : k = key
      · simp [same]
      · simp [List.lookup_cons, same, beq_eq_false_iff_ne.mpr same]
    · split
      · rename_i _ here
        by_cases same : k = key
        · simp [same]
        · have other : (k == j) = false := beq_eq_false_iff_ne.mpr (here ▸ same)
          simp [List.lookup_cons, same, beq_eq_false_iff_ne.mpr same, other]
      · rename_i _ differs
        rw [List.lookup_cons, List.lookup_cons, ih]
        by_cases there : k = j
        · have other : j ≠ key := fun same => differs same.symm
          simp [there, other]
        · simp [beq_eq_false_iff_ne.mpr there]

@[simp] theorem get_set_self (d : JsonDict) (key : String) (value : JsonValue) :
    (d.set key value).get key = some value := by simp [get_set]

theorem get_set_other (d : JsonDict) {key k : String} (value : JsonValue) (other : k ≠ key) :
    (d.set key value).get k = d.get k := by simp [get_set, other]

theorem get_pop (d : JsonDict) (key k : String) :
    (d.pop key).get k = if k = key then none else d.get k := by
  obtain ⟨items, increasing⟩ := d
  simp only [get, pop]
  clear increasing
  induction items with
  | nil => simp
  | cons first items ih =>
    obtain ⟨j, v⟩ := first
    by_cases dropped : j = key
    · rw [List.filter_cons, if_neg (by simpa using dropped), ih, List.lookup_cons]
      by_cases same : k = key
      · simp [same]
      · have other : (k == j) = false := beq_eq_false_iff_ne.mpr (dropped ▸ same)
        simp [same, other]
    · rw [List.filter_cons, if_pos (by simpa using dropped), List.lookup_cons, List.lookup_cons, ih]
      by_cases there : k = j
      · simp [there, dropped]
      · simp [beq_eq_false_iff_ne.mpr there]

@[simp] theorem get_pop_self (d : JsonDict) (key : String) : (d.pop key).get key = none := by simp [get_pop]

theorem get_put (d : JsonDict) (key k : String) (value : Option JsonValue) :
    (d.put key value).get k = if k = key then value else d.get k := by
  cases value with
  | none => exact get_pop d key k
  | some v => exact get_set d key k v

theorem isEmpty_iff (d : JsonDict) : d.isEmpty = true ↔ ∀ key, d.get key = none := by
  obtain ⟨items, increasing⟩ := d
  cases items with
  | nil => simp [isEmpty, get]
  | cons first items =>
    obtain ⟨j, v⟩ := first
    simp only [isEmpty, List.isEmpty_cons, Bool.false_eq_true, false_iff, not_forall]
    exact ⟨j, by simp [get]⟩

theorem lookup_above {items : List (String × JsonValue)} {key : String} (above : ∀ item ∈ items, key < item.1) :
    items.lookup key = none := by
  rw [List.lookup_eq_none_iff]
  intro item member
  simpa using ne_of_lt (above item member)

/-- Dicts that answer every key alike are equal. -/
theorem ext {d e : JsonDict} (same : ∀ key, d.get key = e.get key) : d = e := by
  obtain ⟨items, increasing⟩ := d
  obtain ⟨others, increasing'⟩ := e
  suffices items = others by
    subst this
    rfl
  simp only [get] at same
  induction items generalizing others with
  | nil =>
    cases others with
    | nil => rfl
    | cons other others =>
      obtain ⟨k', v'⟩ := other
      have found := same k'
      simp at found
  | cons item items ih =>
    obtain ⟨k, v⟩ := item
    cases others with
    | nil =>
      have found := same k
      simp at found
    | cons other others =>
      obtain ⟨k', v'⟩ := other
      obtain ⟨above, rest⟩ := List.pairwise_cons.mp increasing
      obtain ⟨above', rest'⟩ := List.pairwise_cons.mp increasing'
      have key : k = k' := by
        rcases lt_trichotomy k k' with before | equal | after
        · have found := same k
          have missed : ((k', v') :: others).lookup k = none := by
            apply lookup_above
            intro x member
            rcases List.mem_cons.mp member with rfl | member
            · exact before
            · exact lt_trans before (above' x member)
          simp [missed] at found
        · exact equal
        · have found := same k'
          have missed : ((k, v) :: items).lookup k' = none := by
            apply lookup_above
            intro x member
            rcases List.mem_cons.mp member with rfl | member
            · exact after
            · exact lt_trans after (above x member)
          simp [missed] at found
      subst key
      have value : v = v' := by simpa using same k
      have tails : items = others := by
        refine ih rest others rest' (fun j => ?_)
        by_cases here : j = k
        · rw [here, lookup_above above, lookup_above above']
        · simpa [List.lookup_cons, beq_eq_false_iff_ne.mpr here] using same j
      rw [tails, value]

/-- Writing what is there already changes nothing. -/
theorem set_same {d : JsonDict} {key : String} {value : JsonValue} (here : d.get key = some value) :
    d.set key value = d := by
  apply ext
  intro k
  rw [get_set]
  split
  · rename_i same
    rw [same, here]
  · rfl

theorem put_same (d : JsonDict) (key : String) : d.put key (d.get key) = d := by
  apply ext
  intro k
  simp only [get_put]
  split
  · rename_i same
    rw [same]
  · rfl

theorem set_set (d : JsonDict) (key : String) (value value' : JsonValue) :
    (d.set key value).set key value' = d.set key value' := by
  apply ext
  intro k
  simp only [get_set]
  split <;> rfl

end JsonDict

namespace JsonValue

/-- `json.loads` of what was written, and the other way round. -/
def load (v : Json) : JsonValue := ⟨v.canonical, Json.canonical_canonical v⟩

def str (text : String) : JsonValue := ⟨.str text, Json.canonical_str text⟩

def list (items : List JsonValue) : JsonValue where
  json := .arr (items.map JsonValue.json)
  canonical := by
    rw [Json.canonical_arr, Json.canonicalItems_eq_map, List.map_map]
    congr 1
    apply List.map_congr_left
    intro item _
    exact item.canonical

def dict (d : JsonDict) : JsonValue where
  json := .obj (d.items.map (fun item => (item.1, item.2.json)))
  canonical := by
    rw [Json.canonical_obj, Json.canonicalFields_canonical]
    · exact List.pairwise_map.mpr d.increasing
    · intro field member
      obtain ⟨item, -, rfl⟩ := List.mem_map.mp member
      exact item.2.canonical

theorem canonical_item {items : List Json} (canonical : (Json.arr items).canonical = .arr items) :
    ∀ item ∈ items, item.canonical = item := by
  rw [Json.canonical_arr, Json.arr.injEq, Json.canonicalItems_eq_map] at canonical
  intro item member
  exact List.map_eq_map_iff.mp (canonical.trans (List.map_id items).symm) item member

theorem canonical_fields {fields : List (String × Json)} (canonical : (Json.obj fields).canonical = .obj fields) :
    Json.Increasing fields ∧ ∀ field ∈ fields, field.2.canonical = field.2 := by
  rw [Json.canonical_obj, Json.obj.injEq] at canonical
  rw [← canonical]
  exact ⟨Json.increasing_canonicalFields fields, Json.values_canonical fields⟩

/-- `isinstance(v, list)`, and its items. -/
def asList : JsonValue → Option (List JsonValue)
  | ⟨.arr items, canonical⟩ => some (items.pmap JsonValue.mk (canonical_item canonical))
  | _ => none

/-- `isinstance(v, dict)`, and what it answers. -/
def asDict : JsonValue → Option JsonDict
  | ⟨.obj fields, canonical⟩ =>
    some ⟨fields.pmap (fun field good => (field.1, ⟨field.2, good⟩)) (canonical_fields canonical).2,
      (canonical_fields canonical).1.pmap (canonical_fields canonical).2 (fun _ _ _ _ before => before)⟩
  | _ => none

/-- The text of a string. -/
def asStr : JsonValue → Option String
  | ⟨.str text, _⟩ => some text
  | _ => none

@[simp] theorem asList_list (items : List JsonValue) : (list items).asList = some items := by
  simp only [list, asList, List.pmap_map, Option.some.injEq]
  exact List.pmap_eq_self.mpr (fun item _ => rfl)

@[simp] theorem asDict_dict (d : JsonDict) : (dict d).asDict = some d := by
  obtain ⟨items, increasing⟩ := d
  simp only [dict, asDict, List.pmap_map, Option.some.injEq, JsonDict.mk.injEq]
  exact List.pmap_eq_self.mpr (fun item _ => rfl)

@[simp] theorem asStr_str (text : String) : (str text).asStr = some text := rfl

@[simp] theorem asDict_list (items : List JsonValue) : (list items).asDict = none := rfl

@[simp] theorem asList_dict (d : JsonDict) : (dict d).asList = none := rfl

theorem asList_eq {v : JsonValue} {items : List JsonValue} (listed : v.asList = some items) : v = list items := by
  obtain ⟨json, canonical⟩ := v
  cases json with
  | arr values =>
    simp only [asList, Option.some.injEq] at listed
    subst listed
    simp only [list, List.map_pmap, List.pmap_eq_map, List.map_id']
  | _ => cases listed

theorem asDict_eq {v : JsonValue} {d : JsonDict} (mapped : v.asDict = some d) : v = dict d := by
  obtain ⟨json, canonical⟩ := v
  cases json with
  | obj fields =>
    simp only [asDict, Option.some.injEq] at mapped
    subst mapped
    simp only [dict, List.map_pmap, List.pmap_eq_map, Prod.mk.eta, List.map_id']
  | _ => cases mapped

theorem list_inj {items others : List JsonValue} (same : list items = list others) : items = others := by
  have listed := congrArg asList same
  simpa using listed

theorem dict_inj {d e : JsonDict} (same : dict d = dict e) : d = e := by
  have mapped := congrArg asDict same
  simpa using mapped

end JsonValue
end Onmc

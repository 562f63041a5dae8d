import Onmc.EventLog
import Onmc.WorkingContext.Sources

/-! What a packet's hash cache adds to hashing: within its size, nothing. The digests it holds are those of
the files, so what a memory's sources are does not depend on which memories were looked at before. -/
namespace Onmc.WorkingContext

/-- The digests of the files a list of paths names, in order. -/
def readAll (w : World) (paths : List String) : Outcome (List (String × String)) :=
  paths.mapM (fun value => do
    let path ← relative w value
    return (path, ← hashFile w path))

/-- Entries entered into a dict one after the other. -/
def store (entries items : List (String × String)) : List (String × String) :=
  entries.foldl (fun items entry => Dict.setItem entry.1 entry.2 items) items

theorem mem_keys_store {entries items : List (String × String)} {key : String} :
    key ∈ Dict.keys (store entries items) ↔ key ∈ Dict.keys entries ∨ key ∈ Dict.keys items := by
  induction entries generalizing items with
  | nil => simp [store, Dict.keys]
  | cons entry entries ih =>
    rw [store, List.foldl_cons, ← store, ih, Dict.mem_keys_setItem]
    simp only [Dict.keys, List.map_cons, List.mem_cons]
    tauto

theorem hashAnchors_eq (w : World) (paths : List String) (few : paths.length ≤ maxFiles) :
    hashAnchors w paths = (readAll w paths).map (fun entries => store entries []) := by
  have loop : ∀ (paths : List String) (result : List (String × String)),
      paths.foldlM (fun result value => do
        let path ← relative w value
        return Dict.setItem path (← hashFile w path) result) result =
      (readAll w paths).map (fun entries => store entries result) := by
    intro paths
    induction paths with
    | nil => exact fun result => rfl
    | cons value paths ih =>
      intro result
      rw [List.foldlM_cons, readAll, List.mapM_cons, ← readAll]
      cases relative w value with
      | error e => rfl
      | ok path =>
        cases hashed : hashFile w path with
        | error e => simp only [Except.ok_bind, Except.error_bind, hashed]; rfl
        | ok digest =>
          simp only [Except.ok_bind, hashed, pure_bind]
          rw [ih]
          cases readAll w paths with
          | error e => rfl
          | ok entries => rfl
  have allowed : raiseIf (maxFiles < paths.length) "At most 16 file anchors are supported" = .ok () := by
    unfold raiseIf
    rw [if_neg (by omega)]
  rw [hashAnchors, allowed, Except.ok_bind, loop]

/-- A cache that holds what the files contain, each once and no more than fit. -/
structure Faithful (w : World) (hashes : List (String × String)) : Prop where
  once : (Dict.keys hashes).Nodup
  current : ∀ item ∈ hashes, w.file item.1 = .content item.2
  few : hashes.length ≤ maxSources

namespace Faithful

variable {w : World} {hashes : List (String × String)}

theorem nil (w : World) : Faithful w [] := by
  refine ⟨List.nodup_nil, ?_, Nat.zero_le _⟩
  intro item member
  cases member

theorem lookup (h : Faithful w hashes) {path digest : String} (found : hashes.lookup path = some digest) :
    w.file path = .content digest :=
  h.current (path, digest) (Dict.mem_of_lookup found)

theorem setItem (h : Faithful w hashes) {path digest : String} (content : w.file path = .content digest)
    (room : (Dict.setItem path digest hashes).length ≤ maxSources) : Faithful w (Dict.setItem path digest hashes) := by
  refine ⟨Dict.nodup_keys_setItem h.once, ?_, room⟩
  intro item member
  rcases Dict.mem_setItem member with rfl | member
  · exact content
  · exact h.current item member

end Faithful

theorem hashFile_ok {w : World} {path digest : String} : hashFile w path = .ok digest ↔ w.file path = .content digest := by
  unfold hashFile
  split <;> simp_all [valueError]

theorem length_setItem_of_lookup (digest : String) {path : String} {hashes : List (String × String)}
    (found : hashes.lookup path = none) : (Dict.setItem path digest hashes).length = hashes.length + 1 := by
  have absent : path ∉ Dict.keys hashes := by
    intro member
    have some := Dict.lookup_isSome_iff.mpr member
    rw [found] at some
    cases some
  have keys := congrArg List.length (Dict.keys_setItem_of_not_mem digest absent)
  simpa [Dict.keys] using keys

theorem length_store_le (entries items : List (String × String)) : items.length ≤ (store entries items).length := by
  induction entries generalizing items with
  | nil => exact Nat.le_refl _
  | cons entry entries ih =>
    have first : items.length ≤ (Dict.setItem entry.1 entry.2 items).length := by
      cases found : items.lookup entry.1 with
      | none =>
        rw [length_setItem_of_lookup entry.2 found]
        omega
      | some digest =>
        have known : entry.1 ∈ Dict.keys items := Dict.mem_keys_of_lookup found
        have keys := congrArg List.length (Dict.keys_setItem_of_mem entry.2 known)
        simp only [Dict.keys, List.length_map] at keys
        omega
    have rest := ih (Dict.setItem entry.1 entry.2 items)
    rw [store, List.foldl_cons, ← store]
    omega

/-- With a faithful cache, the loop reads the files and remembers them, while there is room. -/
theorem hashFilesFrom_ok {w : World} {cache cache' result files : List (String × String)} {values : List String}
    (faithful : Faithful w cache) : hashFilesFrom w cache result values = (cache', .ok files) ↔
      ∃ entries, readAll w values = .ok entries ∧ cache' = store entries cache ∧ files = store entries result ∧
        cache'.length ≤ maxSources := by
  induction values generalizing cache result with
  | nil =>
    simp only [hashFilesFrom, Prod.mk.injEq, Except.ok.injEq]
    constructor
    · rintro ⟨rfl, rfl⟩
      exact ⟨[], rfl, rfl, rfl, faithful.few⟩
    · rintro ⟨entries, read, rfl, rfl, _⟩
      obtain rfl : entries = [] := (Except.ok.inj read).symm
      exact ⟨rfl, rfl⟩
  | cons value values ih =>
    rw [readAll, List.mapM_cons, ← readAll]
    unfold hashFilesFrom
    cases relative w value with
    | error e => simp
    | ok path =>
      simp only [Except.ok_bind]
      have entered : ∀ digest (entries : List (String × String)) (items : List (String × String)),
          store entries (Dict.setItem path digest items) = store ((path, digest) :: entries) items :=
        fun digest entries items => rfl
      cases found : cache.lookup path with
      | some digest =>
        have content := faithful.lookup found
        have kept := Dict.setItem_self found
        simp only [hashFile_ok.mpr content, Except.ok_bind, pure_bind]
        rw [ih faithful]
        cases readAll w values with
        | error e => simp
        | ok entries =>
          simp only [Except.ok_bind, Except.ok.injEq, exists_eq_left', entered]
          constructor
          · rintro ⟨rfl, rfl, few⟩
            exact ⟨(path, digest) :: entries, rfl, by rw [← entered, kept], rfl, few⟩
          · rintro ⟨_, same, rfl, rfl, few⟩
            obtain rfl := Except.ok.inj same
            rw [← entered, kept] at few ⊢
            exact ⟨rfl, rfl, few⟩
      | none =>
        have longer : ∀ digest, (Dict.setItem path digest cache).length = cache.length + 1 :=
          fun digest => length_setItem_of_lookup digest found
        by_cases full : maxSources ≤ cache.length
        · simp only [if_pos full, valueError, Prod.mk.injEq, reduceCtorEq, and_false, false_iff]
          rintro ⟨all, read, rfl, _, few⟩
          cases hashed : hashFile w path with
          | error e =>
            simp only [hashed, Except.error_bind] at read
            cases read
          | ok digest =>
            simp only [hashed, Except.ok_bind, pure_bind] at read
            obtain ⟨entries, _, read⟩ := Except.bind_ok.mp read
            obtain rfl := Except.ok.inj read
            have grown := length_store_le entries (Dict.setItem path digest cache)
            rw [entered] at grown
            have one := longer digest
            omega
        · simp only [if_neg full]
          cases hashed : hashFile w path with
          | error e => simp
          | ok digest =>
            have one := longer digest
            have next := faithful.setItem (hashFile_ok.mp hashed) (by omega)
            simp only [Except.ok_bind, pure_bind]
            rw [ih next]
            cases readAll w values with
            | error e => simp
            | ok entries =>
              simp only [Except.ok_bind, Except.ok.injEq, exists_eq_left', entered]
              constructor
              · rintro ⟨rfl, rfl, few⟩
                exact ⟨(path, digest) :: entries, rfl, rfl, rfl, few⟩
              · rintro ⟨_, same, rfl, rfl, few⟩
                obtain rfl := Except.ok.inj same
                exact ⟨rfl, rfl, few⟩

theorem hashFilesFrom_faithful {w : World} {cache : List (String × String)} (faithful : Faithful w cache)
    (result : List (String × String)) (values : List String) :
    Faithful w (hashFilesFrom w cache result values).1 := by
  induction values generalizing cache result with
  | nil => exact faithful
  | cons value values ih =>
    unfold hashFilesFrom
    cases relative w value with
    | error e => exact faithful
    | ok path =>
      dsimp only
      cases found : cache.lookup path with
      | some digest => exact ih faithful (Dict.setItem path digest result)
      | none =>
        dsimp only
        split
        · exact faithful
        · rename_i room
          cases hashed : hashFile w path with
          | error e => exact faithful
          | ok digest =>
            have one := length_setItem_of_lookup digest found
            exact ih (faithful.setItem (hashFile_ok.mp hashed) (by omega)) (Dict.setItem path digest result)

/-- Two caches of the same files. -/
structure Agree (w : World) (hashes others : List (String × String)) : Prop where
  left : Faithful w hashes
  right : Faithful w others
  keys : ∀ path, path ∈ Dict.keys hashes ↔ path ∈ Dict.keys others

namespace Agree

variable {w : World} {hashes others : List (String × String)}

theorem refl (h : Faithful w hashes) : Agree w hashes hashes := ⟨h, h, fun _ => Iff.rfl⟩

theorem length_eq (h : Agree w hashes others) : hashes.length = others.length := by
  have perm := (List.perm_ext_iff_of_nodup h.left.once h.right.once).mpr h.keys
  simpa [Dict.keys] using perm.length_eq

theorem lookup_eq (h : Agree w hashes others) (path : String) : hashes.lookup path = others.lookup path := by
  cases found : hashes.lookup path with
  | some digest =>
    have member := (h.keys path).mp (Dict.mem_keys_of_lookup found)
    obtain ⟨other, held⟩ := Option.isSome_iff_exists.mp (Dict.lookup_isSome_iff.mpr member)
    have same := (h.left.lookup found).symm.trans (h.right.lookup held)
    rw [held, SourceFile.content.inj same]
  | none =>
    cases held : others.lookup path with
    | none => rfl
    | some digest =>
      have member := (h.keys path).mpr (Dict.mem_keys_of_lookup held)
      have some := Dict.lookup_isSome_iff.mpr member
      rw [found] at some
      cases some

theorem setItem (h : Agree w hashes others) {path digest : String} (content : w.file path = .content digest)
    (room : (Dict.setItem path digest hashes).length ≤ maxSources)
    (room' : (Dict.setItem path digest others).length ≤ maxSources) :
    Agree w (Dict.setItem path digest hashes) (Dict.setItem path digest others) := by
  refine ⟨h.left.setItem content room, h.right.setItem content room', ?_⟩
  intro other
  rw [Dict.mem_keys_setItem, Dict.mem_keys_setItem, h.keys]

end Agree

theorem hashFilesFrom_agree {w : World} {cache others : List (String × String)} (agree : Agree w cache others)
    (result : List (String × String)) (values : List String) :
    Agree w (hashFilesFrom w cache result values).1 (hashFilesFrom w others result values).1 ∧
      (hashFilesFrom w cache result values).2 = (hashFilesFrom w others result values).2 := by
  induction values generalizing cache others result with
  | nil => exact ⟨agree, rfl⟩
  | cons value values ih =>
    unfold hashFilesFrom
    cases relative w value with
    | error e => exact ⟨agree, rfl⟩
    | ok path =>
      dsimp only
      rw [← agree.lookup_eq, ← agree.length_eq]
      cases found : cache.lookup path with
      | some digest => exact ih agree (Dict.setItem path digest result)
      | none =>
        dsimp only
        split
        · exact ⟨agree, rfl⟩
        · rename_i room
          cases hashed : hashFile w path with
          | error e => exact ⟨agree, rfl⟩
          | ok digest =>
            have one := length_setItem_of_lookup digest found
            have other := length_setItem_of_lookup digest ((agree.lookup_eq path).symm.trans found)
            have same := agree.length_eq
            exact ih (agree.setItem (hashFile_ok.mp hashed) (by omega) (by omega)) (Dict.setItem path digest result)

theorem hashFiles_agree {w : World} {cache others : List (String × String)} (agree : Agree w cache others)
    (paths : List String) : Agree w (hashFiles w cache paths).1 (hashFiles w others paths).1 ∧
      (hashFiles w cache paths).2 = (hashFiles w others paths).2 := by
  unfold hashFiles
  split
  · exact ⟨agree, rfl⟩
  · exact hashFilesFrom_agree agree [] paths

theorem hashFiles_faithful {w : World} {cache : List (String × String)} (faithful : Faithful w cache)
    (paths : List String) : Faithful w (hashFiles w cache paths).1 := by
  unfold hashFiles
  split
  · exact faithful
  · exact hashFilesFrom_faithful faithful [] paths

theorem hashFiles_ok {w : World} {cache cache' files : List (String × String)} {paths : List String}
    (faithful : Faithful w cache) : hashFiles w cache paths = (cache', .ok files) ↔
      paths.length ≤ maxFiles ∧ ∃ entries, readAll w paths = .ok entries ∧ cache' = store entries cache ∧
        files = store entries [] ∧ cache'.length ≤ maxSources := by
  unfold hashFiles
  split
  · rename_i many
    simp only [valueError, Prod.mk.injEq, reduceCtorEq, and_false, false_iff, not_and]
    omega
  · rename_i few
    rw [hashFilesFrom_ok faithful]
    constructor
    · exact fun found => ⟨by omega, found⟩
    · exact fun found => found.2

/-- What a packet's cache finds is what hashing finds. -/
theorem hashFiles_current {w : World} {cache cache' files : List (String × String)} {paths : List String}
    (faithful : Faithful w cache) (ok : hashFiles w cache paths = (cache', .ok files)) :
    hashAnchors w paths = .ok files := by
  obtain ⟨few, entries, read, _, rfl, _⟩ := (hashFiles_ok faithful).mp ok
  rw [hashAnchors_eq w paths few, read]
  rfl

end Onmc.WorkingContext

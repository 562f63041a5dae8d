import Onmc.Claim.Ledger
import Onmc.EventLog

/-! No two owners hold one file, as long as each path is spelled the one way the ledger keeps it. -/
namespace Onmc.ClaimLedger

variable {T : Type}

/-- The parts of a path, as a file of the directory tree below the repository's root. -/
def fileOf (root : List PurePath.Part) (path : String) : Option (List PurePath.Part) :=
  PurePath.below root (PurePath.parse path.toList)

/-- Where a path leads, inside the repository or not. -/
def place (root : List PurePath.Part) (path : String) : List PurePath.Part :=
  PurePath.locate root (PurePath.parse path.toList)

/-- The text of a file of the repository, spelled from the root. -/
def spelling (way : List PurePath.Part) : String := String.ofList (['/'].intercalate way)

/-- A path the ledger keeps as it is spelled and, if it is of the repository, spelled from its root. -/
structure Plain (root : List PurePath.Part) (path : String) : Prop where
  unstripped : ∀ n, normalizePath path = .ok n → n = asPosix path
  relative : ∀ n, normalizePath path = .ok n → ∀ way, fileOf root n = some way → n = spelling way

theorem parse_asPosix (path : String) :
    PurePath.parse (asPosix path).toList = PurePath.parse path.toList := by
  rw [asPosix, String.toList_ofList, PurePath.parse_text]

theorem normalizePath_ok {path n : String} (h : normalizePath path = .ok n) :
    n = PyText.strip (asPosix path) ∧ n ≠ "" ∧ n ≠ "." := by
  simp only [normalizePath] at h
  split at h
  · cases h
  · rename_i named
    obtain rfl := Except.ok.inj h
    simp only [not_or] at named
    exact ⟨rfl, named⟩

/-- A path without white space at its ends and without `..`, spelled from the root. -/
theorem plain_of_relative (root : List PurePath.Part) {path : String}
    (relative : (PurePath.parse path.toList).slashes = 0)
    (climbs : ['.', '.'] ∉ (PurePath.parse path.toList).parts)
    (unspaced : PyText.strip (asPosix path) = asPosix path) : Plain root path := by
  have same : ∀ n, normalizePath path = .ok n → n = asPosix path := by
    intro n h
    rw [(normalizePath_ok h).1, unspaced]
  refine ⟨same, ?_⟩
  intro n h way located
  rw [same n h] at located ⊢
  rw [fileOf, parse_asPosix, PurePath.below_relative root relative climbs] at located
  obtain rfl := Option.some.inj located
  have named : (PurePath.parse path.toList).parts ≠ [] := by
    intro empty
    apply (normalizePath_ok h).2.2
    rw [same n h, asPosix, PurePath.text, if_pos ⟨relative, empty⟩]
  simp [asPosix, spelling, PurePath.text, relative, named]

/-- A path that is kept in the file as it is, the only one of its file. -/
structure Stored (root : List PurePath.Part) (path : String) : Prop where
  fixed : normalizePath path = .ok path
  relative : ∀ way, fileOf root path = some way → path = spelling way

theorem Plain.stored {root : List PurePath.Part} {path n : String} (plain : Plain root path)
    (h : normalizePath path = .ok n) : Stored root n ∧ place root n = place root path := by
  obtain ⟨stripped, nonempty, named⟩ := normalizePath_ok h
  have kept := plain.unstripped n h
  have spelled : asPosix n = n := by
    rw [kept, asPosix, parse_asPosix, ← asPosix]
  refine ⟨⟨?_, plain.relative n h⟩, ?_⟩
  · have unspaced : PyText.strip (asPosix n) = n := by
      rw [spelled]
      exact kept ▸ stripped.symm
    simp [normalizePath, unspaced, nonempty, named]
  · rw [place, kept, parse_asPosix, ← place]

/-- What the file looks like between the calls. -/
structure Sound (root : List PurePath.Part) (file : List (Claim T)) : Prop where
  stored : ∀ c ∈ file, Stored root c.path
  exclusive : ∀ c ∈ file, ∀ d ∈ file, c.path = d.path → c.owner = d.owner

theorem mem_sortClaims {claims : List (Claim T)} {c : Claim T} : c ∈ sortClaims claims ↔ c ∈ claims :=
  List.mem_insertionSort _

theorem Sound.mem_readClaims {root : List PurePath.Part} {file : List (Claim T)} (sound : Sound root file)
    {c : Claim T} : c ∈ readClaims file ↔ c ∈ file := by
  have same : ∀ d ∈ file, claimFromPayload d = some d := by
    intro d hd
    simp [claimFromPayload, (sound.stored d hd).fixed]
  rw [readClaims, mem_sortClaims, List.mem_filterMap]
  constructor
  · rintro ⟨d, hd, read⟩
    rw [same d hd] at read
    exact Option.some.inj read ▸ hd
  · intro hc
    exact ⟨c, hc, same c hc⟩

theorem Sound.of_mem {root : List PurePath.Part} {file file' : List (Claim T)} (sound : Sound root file)
    (sub : ∀ c ∈ file', c ∈ file) : Sound root file' :=
  ⟨fun c hc => sound.stored c (sub c hc),
    fun c hc d hd => sound.exclusive c (sub c hc) d (sub d hd)⟩

theorem normalizePaths_ok {paths wanted : List String} (h : normalizePaths paths = .ok wanted) :
    (∀ n, n ∈ wanted ↔ ∃ p ∈ paths, normalizePath p = .ok n) ∧
      ∀ p ∈ paths, ∃ n, normalizePath p = .ok n := by
  simp only [normalizePaths] at h
  obtain ⟨normalized, read, h⟩ := Except.bind_ok.mp h
  split at h
  · cases h
  · obtain rfl := Except.ok.inj h
    refine ⟨?_, Except.mapM_total read⟩
    intro n
    rw [PyText.fromKeys, List.mem_eraseDups, Except.mem_mapM read]

variable [LinearOrder T]

theorem Sound.mem_activeClaims {root : List PurePath.Part} {file : List (Claim T)} (sound : Sound root file)
    {now : T} {c : Claim T} : c ∈ activeClaims file now ↔ c ∈ file ∧ now < c.expiresAt := by
  simp [activeClaims, sound.mem_readClaims]

/-- Whose claims a call may change. -/
def Command.caller : Command T → Option String
  | .acquire owner _ _ => some owner
  | .release owner _ => some owner
  | _ => none

/-- What every call is asked to keep. -/
structure Keeps (root : List PurePath.Part) (file : List (Claim T)) (now : T) (command : Command T)
    (file' : List (Claim T)) (reply : Reply T) [Add T] : Prop where
  /-- At no time do two owners hold one file of the repository. -/
  exclusive : ∀ t, ∀ c ∈ activeClaims file' t, ∀ d ∈ activeClaims file' t, c.owner ≠ d.owner →
    ∀ way, fileOf root c.path = some way → fileOf root d.path ≠ some way
  held : ∀ owner paths ttl result, command = .acquire owner paths ttl → reply = .claims result →
    result.ok = true → ∀ p ∈ paths, ∃ c ∈ readClaims file', c.owner = owner ∧
      c.expiresAt = now + ttl ∧ place root c.path = place root p
  failed : ∀ owner paths ttl, command = .acquire owner paths ttl →
    (∀ result, reply = .claims result → result.ok = false) → file' = file
  others : ∀ c, command.caller ≠ some c.owner →
    (c ∈ activeClaims file' now ↔ c ∈ activeClaims file now)
  released : ∀ owner path, command = .release owner path → ∀ c ∈ activeClaims file' now,
    c ∈ activeClaims file now

/-- The only calls that matter are those that bring in new paths. -/
def PlainCommand (root : List PurePath.Part) : Command T → Prop
  | .acquire _ paths _ => ∀ p ∈ paths, Plain root p
  | _ => True

theorem Sound.exclusive_files {root : List PurePath.Part} {file : List (Claim T)} (sound : Sound root file)
    (t : T) : ∀ c ∈ activeClaims file t, ∀ d ∈ activeClaims file t, c.owner ≠ d.owner →
      ∀ way, fileOf root c.path = some way → fileOf root d.path ≠ some way := by
  intro c hc d hd differ way first second
  have hc := (sound.mem_activeClaims.mp hc).1
  have hd := (sound.mem_activeClaims.mp hd).1
  apply differ
  apply sound.exclusive c hc d hd
  rw [(sound.stored c hc).relative way first, (sound.stored d hd).relative way second]

/-- What a call of each kind can do to a sound file. -/
theorem acquire_cases [Add T] {root : List PurePath.Part} {file : List (Claim T)} (sound : Sound root file)
    (now : T) (owner : String) (paths : List String) (ttl : T) :
    ((acquire file now owner paths ttl).1 = file ∧
      ∀ result, (acquire file now owner paths ttl).2 = .claims result → result.ok = false) ∨
    ∃ wanted claims, normalizePaths paths = .ok wanted ∧
      (acquire file now owner paths ttl).1 = claims ∧
      (∃ result, (acquire file now owner paths ttl).2 = .claims result ∧ result.ok = true) ∧
      (∀ c ∈ file, now < c.expiresAt → c.path ∈ wanted → c.owner = owner) ∧
      ∀ c, c ∈ claims ↔ (c ∈ file ∧ now < c.expiresAt ∧ c.path ∉ wanted) ∨
        ∃ path ∈ wanted, c = ⟨owner, path, now, now + ttl⟩ := by
  cases normal : normalizePaths paths with
  | error message => exact .inl (by simp [acquire, normal])
  | ok wanted =>
    by_cases free : (activeClaims file now).filter (fun claim => claim.path ∈ wanted ∧ claim.owner ≠ owner) = []
    · right
      refine ⟨wanted, _, rfl, rfl, ?_, ?_, ?_⟩
      · simp only [acquire, normal, if_neg (not_not.mpr free)]
        exact ⟨_, rfl, rfl⟩
      · intro c hc unexpired named
        by_contra differ
        have listed := List.filter_eq_nil_iff.mp free c (sound.mem_activeClaims.mpr ⟨hc, unexpired⟩)
        simp [named, differ] at listed
      · intro c
        have held : c ∈ activeClaims file now → c.path ∈ wanted → c.owner = owner := by
          intro hc named
          by_contra differ
          have listed := List.filter_eq_nil_iff.mp free c hc
          simp [named, differ] at listed
        simp only [acquire, normal, free, ne_eq, not_true_eq_false, if_false, writeClaims,
          mem_sortClaims, List.mem_append, List.mem_filter, List.mem_map, decide_eq_true_eq]
        rw [sound.mem_activeClaims] at held ⊢
        constructor
        · rintro (⟨⟨hc, unexpired⟩, kept⟩ | ⟨path, named, rfl⟩)
          · exact .inl ⟨hc, unexpired, fun named => kept ⟨held ⟨hc, unexpired⟩ named, named⟩⟩
          · exact .inr ⟨path, named, rfl⟩
        · rintro (⟨hc, unexpired, free⟩ | ⟨path, named, rfl⟩)
          · exact .inl ⟨⟨hc, unexpired⟩, fun taken => free taken.2⟩
          · exact .inr ⟨path, named, rfl⟩
    · left
      simp only [acquire, normal, if_pos free]
      exact ⟨trivial, fun result answered => by cases answered; rfl⟩

/-- The other calls only drop claims: those that have run out, and the caller's own. -/
theorem keeps_of_sub [Add T] {root : List PurePath.Part} {file file' : List (Claim T)} {now : T}
    {command : Command T} {reply : Reply T} (sound : Sound root file) (sub : ∀ c ∈ file', c ∈ file)
    (kept : ∀ c ∈ file, now < c.expiresAt → command.caller ≠ some c.owner → c ∈ file')
    (other : ∀ owner paths ttl, command ≠ .acquire owner paths ttl) :
    Sound root file' ∧ Keeps root file now command file' reply := by
  have sound' := sound.of_mem sub
  refine ⟨sound', sound'.exclusive_files, fun owner paths ttl _ h => absurd h (other owner paths ttl),
    fun owner paths ttl h => absurd h (other owner paths ttl), ?_, ?_⟩
  · intro c stranger
    rw [sound.mem_activeClaims, sound'.mem_activeClaims]
    exact ⟨fun h => ⟨sub c h.1, h.2⟩, fun h => ⟨kept c h.1 h.2 stranger, h.2⟩⟩
  · intro _ _ _ c hc
    have hc := sound'.mem_activeClaims.mp hc
    exact sound.mem_activeClaims.mpr ⟨sub c hc.1, hc.2⟩

theorem acquire_keeps [Add T] {root : List PurePath.Part} {file : List (Claim T)} (sound : Sound root file)
    (now : T) (owner : String) (paths : List String) (ttl : T) (plain : ∀ p ∈ paths, Plain root p) :
    Sound root (acquire file now owner paths ttl).1 ∧
      Keeps root file now (.acquire owner paths ttl) (acquire file now owner paths ttl).1
        (acquire file now owner paths ttl).2 := by
  rcases acquire_cases sound now owner paths ttl with ⟨same, refused⟩ | ⟨wanted, claims, normal, made, granted, free, mem⟩
  · rw [same]
    refine ⟨sound, sound.exclusive_files, ?_, fun _ _ _ _ _ => rfl, fun _ _ => Iff.rfl, fun _ _ h => nomatch h⟩
    intro owner' paths' ttl' result _ answered ok
    simp [refused result answered] at ok
  · obtain ⟨mem_wanted, normalized⟩ := normalizePaths_ok normal
    have stored : ∀ n ∈ wanted, Stored root n := by
      intro n hn
      obtain ⟨p, hp, read⟩ := (mem_wanted n).mp hn
      exact ((plain p hp).stored read).1
    have sound' : Sound root claims := by
      constructor
      · intro c hc
        rcases (mem c).mp hc with ⟨hc, -, -⟩ | ⟨path, named, rfl⟩
        · exact sound.stored c hc
        · exact stored path named
      · intro c hc d hd same
        rcases (mem c).mp hc with ⟨hc, -, freec⟩ | ⟨path, named, rfl⟩ <;>
          rcases (mem d).mp hd with ⟨hd, -, freed⟩ | ⟨path', named', rfl⟩
        · exact sound.exclusive c hc d hd same
        · exact absurd (same ▸ named') freec
        · exact absurd (same ▸ named) freed
        · rfl
    rw [made]
    refine ⟨sound', sound'.exclusive_files, ?_, ?_, ?_, fun _ _ h => nomatch h⟩
    · rintro owner' paths' ttl' result ⟨⟩ _ _ p hp
      obtain ⟨n, read⟩ := normalized p hp
      have named := (mem_wanted n).mpr ⟨p, hp, read⟩
      exact ⟨⟨owner, n, now, now + ttl⟩, sound'.mem_readClaims.mpr ((mem _).mpr (.inr ⟨n, named, rfl⟩)),
        rfl, rfl, ((plain p hp).stored read).2⟩
    · intro _ _ _ _ refused
      obtain ⟨result, answered, ok⟩ := granted
      simp [refused result answered] at ok
    · intro c stranger
      rw [sound.mem_activeClaims, sound'.mem_activeClaims, mem]
      constructor
      · rintro ⟨⟨hc, unexpired, -⟩ | ⟨path, named, rfl⟩, -⟩
        · exact ⟨hc, unexpired⟩
        · exact absurd rfl stranger
      · rintro ⟨hc, unexpired⟩
        refine ⟨.inl ⟨hc, unexpired, fun named => stranger ?_⟩, unexpired⟩
        rw [Command.caller, free c hc unexpired named]

theorem perform_keeps [Add T] {root : List PurePath.Part} {file : List (Claim T)} (sound : Sound root file)
    (now : T) (command : Command T) (plain : PlainCommand root command) :
    Sound root (perform file now command).1 ∧
      Keeps root file now command (perform file now command).1 (perform file now command).2 := by
  have active : ∀ c ∈ activeClaims file now, c ∈ file := fun c hc => (sound.mem_activeClaims.mp hc).1
  cases command with
  | acquire owner paths ttl => exact acquire_keeps sound now owner paths ttl plain
  | release owner path =>
    apply keeps_of_sub sound
    · intro c hc
      simp only [perform, release] at hc
      split at hc
      · exact hc
      · exact active c (List.mem_of_mem_filter (mem_sortClaims.mp hc))
    · intro c hc unexpired stranger
      simp only [perform, release]
      split
      · exact hc
      · refine mem_sortClaims.mpr (List.mem_filter.mpr ⟨sound.mem_activeClaims.mpr ⟨hc, unexpired⟩, ?_⟩)
        have differ : c.owner ≠ owner := fun same => stranger (by rw [Command.caller, same])
        simp [differ]
    · intro _ _ _ h
      cases h
  | status =>
    apply keeps_of_sub sound
    · intro c hc
      exact active c (mem_sortClaims.mp hc)
    · intro c hc unexpired _
      exact mem_sortClaims.mpr (sound.mem_activeClaims.mpr ⟨hc, unexpired⟩)
    · intro _ _ _ h
      cases h
  | check paths owner =>
    have same : (perform file now (.check paths owner)).1 = file := by
      simp only [perform, check]
      split <;> rfl
    rw [same]
    exact keeps_of_sub sound (fun _ h => h) (fun _ h _ _ => h) (fun _ _ _ h => nomatch h)

/-- In every run whose acquired paths are plain, every call keeps what it is asked to. -/
theorem run_keeps [Add T] (root : List PurePath.Part) (calls : List (T × Command T))
    (plain : ∀ call ∈ calls, PlainCommand root call.2) : ∀ before now command after,
      calls = before ++ (now, command) :: after →
      Keeps root (run before) now command (perform (run before) now command).1
        (perform (run before) now command).2 := by
  have sound : ∀ before, before <+: calls → Sound root (run before) := by
    intro before
    induction before using List.reverseRecOn with
    | nil => exact fun _ => ⟨by simp [run], by simp [run]⟩
    | append_singleton before call ih =>
      intro starts
      have earlier := ih ((List.prefix_append _ _).trans starts)
      have named := plain call (starts.subset (by simp))
      rw [run, List.foldl_append]
      exact (perform_keeps earlier call.1 call.2 named).1
  intro before now command after split
  have named := plain (now, command) (by simp [split])
  exact (perform_keeps (sound before (split ▸ List.prefix_append _ _)) now command named).2

/-- Two owners take one file, the second one by way of a directory and back. -/
def taken : List (Nat × Command Nat) := [(0, .acquire "agent-a" ["app.py"] 60)]

def detour : Command Nat := .acquire "agent-b" ["src/../app.py"] 60

theorem doubly_held : ¬Keeps ["repo".toList] (run taken) 1 detour (perform (run taken) 1 detour).1
    (perform (run taken) 1 detour).2 := by
  intro keeps
  have first : ⟨"agent-a", "app.py", 0, 60⟩ ∈ activeClaims (perform (run taken) 1 detour).1 2 := by
    decide
  have second : ⟨"agent-b", "src/../app.py", 1, 61⟩ ∈ activeClaims (perform (run taken) 1 detour).1 2 := by
    decide
  have located : fileOf ["repo".toList] "app.py" = some ["app.py".toList] := by decide
  have located' : fileOf ["repo".toList] "src/../app.py" = some ["app.py".toList] := by decide
  exact keeps.exclusive 2 _ first _ second (by decide) _ located located'

/-- The same two owners with a file each. -/
def apart : Command Nat := .acquire "agent-b" ["./src//app.py"] 60

theorem run_keeps_apart : Keeps ["repo".toList] (run taken) 1 apart (perform (run taken) 1 apart).1
    (perform (run taken) 1 apart).2 := by
  refine run_keeps ["repo".toList] (taken ++ [(1, apart)]) ?_ taken 1 apart [] rfl
  intro call h
  rcases List.mem_append.mp h with h | h <;> obtain rfl := List.mem_singleton.mp h
  · intro p hp
    obtain rfl := List.mem_singleton.mp hp
    exact plain_of_relative _ (by decide) (by decide) (by decide)
  · intro p hp
    obtain rfl := List.mem_singleton.mp hp
    exact plain_of_relative _ (by decide) (by decide) (by decide)

end Onmc.ClaimLedger

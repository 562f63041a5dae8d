import Onmc.Hooks.InstallLaws

/-! What installing and uninstalling the hooks leaves of the files that were there. -/
namespace Onmc.Hooks

/-- The other settings of an MCP file, and the other servers. -/
def withoutServer (payload : JsonDict) : JsonDict :=
  payload.put "mcpServers" (foreignServers (payload.get "mcpServers"))

/-- Nothing that could be lost. -/
def File.Blank : File → Prop
  | .absent => True
  | .malformed raw => PyText.strip raw = ""
  | .json _ => False

/-- The file holds a dict. -/
def File.IsDict : File → Prop
  | .json v => (JsonValue.load v).asDict.isSome
  | _ => False

/-- A copy of what the other file holds. -/
def File.Holds (copy : File) : File → Prop
  | .absent => True
  | .malformed raw => copy = .malformed raw
  | .json v => ∃ w, copy = .json w ∧ JsonValue.load w = JsonValue.load v

/-- A file keeps in its place what it held, as far as the view shows it. -/
def Kept (view : JsonDict → JsonDict) (before after : File) : Prop :=
  after = before ∨ before.Blank ∨ (before.IsDict ∧ view (loadJson after) = view (loadJson before))

/-- What the installer leaves as it was. -/
structure NonDestructive (registerMcp cleanGlobal : Bool) (f : Files) : Prop where
  again : (installClaudeHooks registerMcp cleanGlobal (installClaudeHooks registerMcp cleanGlobal f)).settings =
    (installClaudeHooks registerMcp cleanGlobal f).settings
  back : holdsOnmc (loadJson f.settings) = false →
    loadJson (uninstallClaudeHooks (installClaudeHooks registerMcp cleanGlobal f)).settings = loadJson f.settings
  installed : foreign (loadJson (installClaudeHooks registerMcp cleanGlobal f).settings) =
    foreign (loadJson f.settings)
  uninstalled : foreign (loadJson (uninstallClaudeHooks f).settings) = foreign (loadJson f.settings)
  registered : withoutServer (loadJson (installClaudeHooks registerMcp cleanGlobal f).mcp) =
    withoutServer (loadJson f.mcp)
  unregistered : withoutServer (loadJson (uninstallClaudeHooks f).mcp) = withoutServer (loadJson f.mcp)
  legacy_installed : foreign (loadJson (installClaudeHooks registerMcp cleanGlobal f).globalSettings) =
    foreign (loadJson f.globalSettings)
  legacy_uninstalled : foreign (loadJson (uninstallClaudeHooks f).globalSettings) =
    foreign (loadJson f.globalSettings)
  wrapped : ∀ r ∈ wrapHooks, hasCommandHook (loadJson f.settings) r = true →
    hasCommandHook (loadJson (installClaudeHooks registerMcp cleanGlobal f).settings) r = true
  saved : Kept foreign f.settings (installClaudeHooks registerMcp cleanGlobal f).settings ∨
    (installClaudeHooks registerMcp cleanGlobal f).backup.Holds f.settings ∨
    (installClaudeHooks registerMcp cleanGlobal f).corrupt.Holds f.settings
  saved_uninstalled : Kept foreign f.settings (uninstallClaudeHooks f).settings
  saved_mcp : Kept withoutServer f.mcp (installClaudeHooks registerMcp cleanGlobal f).mcp
  saved_unregistered : Kept withoutServer f.mcp (uninstallClaudeHooks f).mcp

/-- The settings are a dict, or blank, or a copy of them is or will be put aside. -/
def Copied (f : Files) : Prop :=
  f.settings.IsDict ∨ f.settings.Blank ∨ f.backup.Holds f.settings ∨ f.corrupt.Holds f.settings ∨
    (f.corrupt = .absent ∧ ∃ raw, f.settings = .malformed raw)

/-- A server can be put into the file and taken out of it. -/
def Registrable (mcp : File) : Prop :=
  mcp.Blank ∨ (mcp.IsDict ∧ ∀ v, (loadJson mcp).get "mcpServers" = some v →
    ∃ servers, v.asDict = some servers ∧ servers.isEmpty = false)

/-- The files that the installer leaves as they were. -/
def Safe (registerMcp : Bool) (f : Files) : Prop :=
  raises (loadJson f.settings) = true ∨
    (Tidy (loadJson f.settings) ∧ (∀ r ∈ wrapHooks, hasCommandHook (loadJson f.settings) r = false) ∧ Copied f ∧
      (registerMcp = true → Registrable f.mcp) ∧
      (raises (loadJson f.globalSettings) = true ∨ Unbare (loadJson f.globalSettings)))

/-! Reading what was written. -/

@[simp] theorem loadJson_writeJson (d : JsonDict) : loadJson (writeJson d) = d := by
  have same : JsonValue.load (JsonValue.dict d).json = JsonValue.dict d := JsonValue.ext (JsonValue.dict d).canonical
  simp [loadJson, writeJson, same]

theorem loadJson_undict {file : File} (undict : ¬ file.IsDict) : loadJson file = .empty := by
  cases file with
  | json v =>
    have none_there : (JsonValue.load v).asDict = none := by simpa [File.IsDict] using undict
    simp [loadJson, none_there]
  | _ => rfl

theorem backUp_eq (f : Files) : ∃ backup corrupt, backUp f = { f with backup := backup, corrupt := corrupt } := by
  have preserved : ∃ corrupt, preserveCorruptSettings f = { f with corrupt := corrupt } := by
    unfold preserveCorruptSettings
    split
    · split
      · exact ⟨f.corrupt, rfl⟩
      · split
        · exact ⟨f.corrupt, rfl⟩
        · exact ⟨_, rfl⟩
    · exact ⟨f.corrupt, rfl⟩
  obtain ⟨corrupt, same⟩ := preserved
  simp only [backUp, same]
  split
  · exact ⟨f.backup, corrupt, rfl⟩
  · exact ⟨_, corrupt, rfl⟩

@[simp] theorem backUp_settings (f : Files) : (backUp f).settings = f.settings := by
  obtain ⟨backup, corrupt, same⟩ := backUp_eq f
  rw [same]

@[simp] theorem backUp_mcp (f : Files) : (backUp f).mcp = f.mcp := by
  obtain ⟨backup, corrupt, same⟩ := backUp_eq f
  rw [same]

@[simp] theorem backUp_globalSettings (f : Files) : (backUp f).globalSettings = f.globalSettings := by
  obtain ⟨backup, corrupt, same⟩ := backUp_eq f
  rw [same]

/-! One file at a time. -/

theorem cleaned_raises {file : File} (raised : raises (loadJson file) = true) : cleaned file = none := by
  rw [cleaned, stripOnmcEntries_raises raised]
  rfl

theorem cleaned_runs {file : File} (runs : raises (loadJson file) = false) :
    ∃ file', cleaned file = some file' ∧ loadJson file' = stripped (loadJson file) ∧
      (file' = file ∨ file.IsDict) := by
  obtain ⟨changed, strip, same⟩ := stripOnmcEntries_some runs
  cases changed with
  | false =>
    refine ⟨file, ?_, (same rfl).symm, .inl rfl⟩
    rw [cleaned, strip]
    rfl
  | true =>
    refine ⟨writeJson (stripped (loadJson file)), ?_, loadJson_writeJson _, .inr ?_⟩
    · rw [cleaned, strip]
      rfl
    · by_contra undict
      rw [loadJson_undict undict] at strip
      have nothing : stripOnmcEntries .empty = some (.empty, false) := rfl
      rw [nothing] at strip
      cases strip

/-- A legacy file keeps what is not of onmc exactly if nothing is stripped from it or no event of it is empty. -/
theorem foreign_cleaned (file : File) :
    foreign (loadJson ((cleaned file).getD file)) = foreign (loadJson file) ↔
      raises (loadJson file) = true ∨ Unbare (loadJson file) := by
  cases raised : raises (loadJson file) with
  | true => simp [cleaned_raises raised]
  | false =>
    obtain ⟨file', same, value, -⟩ := cleaned_runs raised
    simp only [same, Option.getD_some, value, foreign_stripped, Bool.false_eq_true, false_or]

theorem withoutServer_eq_iff {d e : JsonDict} (rest : ∀ key, key ≠ "mcpServers" → d.get key = e.get key) :
    withoutServer d = withoutServer e ↔
      foreignServers (d.get "mcpServers") = foreignServers (e.get "mcpServers") := by
  constructor
  · intro same
    have found := congrArg (·.get "mcpServers") same
    simpa [withoutServer, JsonDict.get_put] using found
  · intro same
    apply JsonDict.ext
    intro key
    simp only [withoutServer, JsonDict.get_put]
    split
    · exact same
    · exact rest key ‹_›

/-- Registering leaves the other servers exactly where the servers are missing or a dict with something in it. -/
theorem withoutServer_withServer (payload : JsonDict) :
    withoutServer (withServer payload) = withoutServer payload ↔
      ∀ v, payload.get "mcpServers" = some v → ∃ servers, v.asDict = some servers ∧ servers.isEmpty = false := by
  have added : ∀ servers : JsonDict, foreignServers (some (.dict
      (if (servers.get "onmc").isSome then servers else servers.set "onmc" onmcServer))) =
      if (servers.pop "onmc").isEmpty then none else some (.dict (servers.pop "onmc")) := by
    intro servers
    have popped : (servers.set "onmc" onmcServer).pop "onmc" = servers.pop "onmc" := by
      apply JsonDict.ext
      intro key
      simp only [JsonDict.get_pop, JsonDict.get_set]
      split <;> rfl
    split
    · rename_i there
      simp [foreignServers, there]
    · simp [foreignServers, popped]
  have popped_free : ∀ servers : JsonDict, servers.get "onmc" = none → servers.pop "onmc" = servers := by
    intro servers free
    have same := JsonDict.put_same servers "onmc"
    rwa [free] at same
  have rest : ∀ key, key ≠ "mcpServers" → (withServer payload).get key = payload.get key :=
    fun key other => JsonDict.get_set_other _ _ other
  rw [withoutServer_eq_iff rest, withServer, JsonDict.get_set_self, added]
  cases found : payload.get "mcpServers" with
  | none =>
    have nothing : (JsonDict.empty.pop "onmc").isEmpty = true := rfl
    simp [foreignServers, nothing]
  | some v =>
    cases mapped : v.asDict with
    | none =>
      simp only [Option.bind_some, mapped, foreignServers, Option.getD_none, Option.some.injEq, forall_eq']
      constructor
      · intro same
        have nothing : (JsonDict.empty.pop "onmc").isEmpty = true := rfl
        rw [if_pos nothing] at same
        cases same
      · rintro ⟨servers, mapped', _⟩
        cases mapped'
    | some servers =>
      simp only [Option.bind_some, mapped, Option.getD_some, Option.some.injEq, forall_eq', exists_eq_left']
      cases there : servers.get "onmc" with
      | some server =>
        have filled : servers.isEmpty = false := by
          rw [Bool.eq_false_iff]
          intro empty
          rw [(JsonDict.isEmpty_iff servers).mp empty] at there
          cases there
        simp [foreignServers, mapped, there, filled]
      | none =>
        have kept : foreignServers (some v) = some v := foreignServers_free (by simpa using mapped) there
        rw [kept, popped_free servers there, JsonValue.asDict_eq mapped]
        cases servers.isEmpty <;> simp

theorem unregisterMcpServer_keeps (mcp : File) :
    withoutServer (loadJson (unregisterMcpServer mcp)) = withoutServer (loadJson mcp) ∧
      (unregisterMcpServer mcp = mcp ∨ mcp.IsDict) := by
  unfold unregisterMcpServer
  cases changed : (stripServers (loadJson mcp)).2 with
  | false => simp [changed]
  | true =>
    have value : loadJson (if (stripServers (loadJson mcp)).1.isEmpty then .absent
        else writeJson (stripServers (loadJson mcp)).1) = withoutServer (loadJson mcp) := by
      rw [withoutServer, ← stripServers_fst]
      split
      · rename_i empty
        apply JsonDict.ext
        intro key
        rw [(JsonDict.isEmpty_iff _).mp empty key]
        rfl
      · exact loadJson_writeJson _
    have again : withoutServer (withoutServer (loadJson mcp)) = withoutServer (loadJson mcp) := by
      rw [withoutServer_eq_iff (fun key other => by simp [withoutServer, JsonDict.get_put, other]),
        withoutServer, JsonDict.get_put, if_pos rfl, foreignServers_foreignServers]
    simp only [changed, if_true, value]
    refine ⟨again, .inr ?_⟩
    by_contra undict
    rw [loadJson_undict undict] at changed
    cases changed

/-! All files. -/

section
variable (registerMcp cleanGlobal : Bool) {f : Files}

theorem install_raises (raised : raises (loadJson f.settings) = true) :
    installClaudeHooks registerMcp cleanGlobal f = backUp f := by
  simp [installClaudeHooks, stripOnmcEntries_raises raised]

theorem install_runs (runs : raises (loadJson f.settings) = false) :
    installClaudeHooks registerMcp cleanGlobal f = { backUp f with
      settings := writeJson (installed (loadJson f.settings))
      mcp := if registerMcp then registerMcpServer f.mcp else f.mcp
      globalSettings := if cleanGlobal then (cleaned f.globalSettings).getD f.globalSettings
        else f.globalSettings } := by
  obtain ⟨changed, strip, -⟩ := stripOnmcEntries_some runs
  simp only [installClaudeHooks, backUp_settings, strip, backUp_mcp]
  cases registerMcp <;> cases cleanGlobal <;>
    simp [cleanLegacyGlobalSettings, installed, backUp_globalSettings]

end

theorem uninstall_raises {f : Files} (raised : raises (loadJson f.settings) = true) : uninstallClaudeHooks f = f := by
  simp [uninstallClaudeHooks, cleaned_raises raised]

theorem uninstall_runs {f : Files} (runs : raises (loadJson f.settings) = false) :
    ∃ settings, uninstallClaudeHooks f = { f with
        settings := settings
        mcp := unregisterMcpServer f.mcp
        globalSettings := (cleaned f.globalSettings).getD f.globalSettings } ∧
      loadJson settings = stripped (loadJson f.settings) ∧ (settings = f.settings ∨ f.settings.IsDict) := by
  obtain ⟨settings, same, value, dict⟩ := cleaned_runs runs
  refine ⟨settings, ?_, value, dict⟩
  simp only [uninstallClaudeHooks, same, cleanLegacyGlobalSettings]

/-- What is no dict and not blank is in a copy after the backup exactly if it is copied. -/
theorem backUp_saves {f : Files} (undict : ¬ f.settings.IsDict) (filled : ¬ f.settings.Blank) :
    ((backUp f).backup.Holds f.settings ∨ (backUp f).corrupt.Holds f.settings) ↔ Copied f := by
  simp only [Copied, undict, filled, false_or]
  obtain ⟨settings, backup, corrupt, mcp, legacy⟩ := f
  cases settings with
  | absent => exact absurd trivial filled
  | malformed raw =>
    have unblank : ¬ PyText.strip raw = "" := filled
    have backup_same : (backUp ⟨.malformed raw, backup, corrupt, mcp, legacy⟩).backup.Holds (.malformed raw) ↔
        backup.Holds (.malformed raw) := by
      simp only [backUp, preserveCorruptSettings, unblank, if_false]
      cases corrupt <;> cases backup <;> simp [File.isThere, File.Holds, writeJson]
    have corrupt_holds : (backUp ⟨.malformed raw, backup, corrupt, mcp, legacy⟩).corrupt.Holds (.malformed raw) ↔
        corrupt.Holds (.malformed raw) ∨ corrupt = .absent := by
      simp only [backUp, preserveCorruptSettings, unblank, if_false]
      cases corrupt <;> cases backup <;> simp [File.isThere, File.Holds]
    rw [backup_same, corrupt_holds]
    simp
  | json v =>
    have backup_same : (backUp ⟨.json v, backup, corrupt, mcp, legacy⟩).backup.Holds (.json v) ↔
        backup.Holds (.json v) := by
      simp only [backUp, preserveCorruptSettings]
      cases backup with
      | absent =>
        simp only [File.isThere, Bool.false_eq_true, if_false, File.Holds, reduceCtorEq, false_and, exists_false,
          iff_false]
        rintro ⟨w, written, same⟩
        rw [loadJson_undict undict] at written
        have mapped : loadJson (.json w) = .empty := by
          rw [← written]
          exact loadJson_writeJson _
        apply undict
        have empty_dict : (JsonValue.load w).asDict.isSome = true := by
          rw [← File.json.inj written, show JsonValue.load (JsonValue.dict .empty).json = JsonValue.dict .empty from
            JsonValue.ext (JsonValue.dict .empty).canonical, JsonValue.asDict_dict]
          rfl
        simpa [File.IsDict, ← same] using empty_dict
      | malformed raw => simp [File.isThere]
      | json w => simp [File.isThere]
    have corrupt_same : (backUp ⟨.json v, backup, corrupt, mcp, legacy⟩).corrupt = corrupt := by
      cases backup <;> rfl
    rw [backup_same, corrupt_same]
    simp

theorem kept_iff {view : JsonDict → JsonDict} {before : File} {d : JsonDict} (filled : ¬ before.Blank) :
    Kept view before (writeJson d) ↔ before.IsDict ∧ view d = view (loadJson before) := by
  constructor
  · rintro (same | blank | kept)
    · rw [← same, loadJson_writeJson]
      refine ⟨?_, rfl⟩
      have mapped : JsonValue.load (JsonValue.dict d).json = JsonValue.dict d := JsonValue.ext (JsonValue.dict d).canonical
      simp [File.IsDict, writeJson, mapped]
    · exact absurd blank filled
    · simpa using kept
  · intro ⟨dict, same⟩
    exact .inr (.inr ⟨dict, by simpa using same⟩)

theorem registered_iff (mcp : File) : Kept withoutServer mcp (registerMcpServer mcp) ↔ Registrable mcp := by
  by_cases blank : mcp.Blank
  · exact ⟨fun _ => .inl blank, fun _ => .inr (.inl blank)⟩
  · simp only [registerMcpServer, kept_iff blank, withoutServer_withServer, Registrable, blank, false_or]

theorem registrable_keeps {mcp : File} (registrable : Registrable mcp) :
    withoutServer (loadJson (registerMcpServer mcp)) = withoutServer (loadJson mcp) := by
  rw [registerMcpServer, loadJson_writeJson, withoutServer_withServer]
  rcases registrable with blank | ⟨-, fits⟩
  · cases mcp with
    | json v => exact absurd blank id
    | _ => exact fun v found => nomatch found
  · exact fits

/-- The installer is not destructive exactly on the files that are safe. -/
theorem nonDestructive_iff (registerMcp cleanGlobal : Bool) (f : Files) :
    NonDestructive registerMcp cleanGlobal f ↔ Safe registerMcp f := by
  cases raised : raises (loadJson f.settings) with
  | true =>
    have install := install_raises registerMcp cleanGlobal raised
    have install' := install_raises registerMcp cleanGlobal (f := backUp f) (by simpa using raised)
    have uninstall := uninstall_raises raised
    have uninstall' := uninstall_raises (f := backUp f) (by simpa using raised)
    refine ⟨fun _ => .inl raised, fun _ => ?_⟩
    constructor <;> simp [install, install', uninstall, uninstall', Kept]
  | false =>
    have install := install_runs registerMcp cleanGlobal raised
    have runs := installed_runs raised
    obtain ⟨settings, uninstall, value, dict⟩ := uninstall_runs raised
    have safe_iff : Safe registerMcp f ↔
        Tidy (loadJson f.settings) ∧ (∀ r ∈ wrapHooks, hasCommandHook (loadJson f.settings) r = false) ∧ Copied f ∧
        (registerMcp = true → Registrable f.mcp) ∧
        (raises (loadJson f.globalSettings) = true ∨ Unbare (loadJson f.globalSettings)) := by
      simp [Safe, raised]
    have installed_same : foreign (loadJson (installClaudeHooks registerMcp cleanGlobal f).settings) =
        foreign (loadJson f.settings) ↔ Tidy (loadJson f.settings) := by
      rw [install, loadJson_writeJson, foreign_installed]
    rw [safe_iff]
    constructor
    · intro kept
      have tidy := installed_same.mp kept.installed
      refine ⟨tidy, fun r wrap => ?_, ?_, fun register => ?_, ?_⟩
      · by_contra present
        have after := kept.wrapped r wrap (by simpa using present)
        rw [install, loadJson_writeJson, installed_unwrapped _ wrap] at after
        cases after
      · by_cases is_dict : f.settings.IsDict
        · exact .inl is_dict
        · by_cases blank : f.settings.Blank
          · exact .inr (.inl blank)
          · have saved := kept.saved
            rw [install] at saved
            rcases saved with inside | copied
            · exact absurd ((kept_iff blank).mp inside).1 is_dict
            · exact (backUp_saves is_dict blank).mp copied
      · have saved := kept.saved_mcp
        rw [install, register] at saved
        exact (registered_iff f.mcp).mp saved
      · have legacy := kept.legacy_uninstalled
        rw [uninstall] at legacy
        exact (foreign_cleaned f.globalSettings).mp legacy
    · intro ⟨tidy, unwrapped, copied, registrable, legacy⟩
      have legacy_kept := (foreign_cleaned f.globalSettings).mpr legacy
      have install_again := install_runs registerMcp cleanGlobal
        (f := installClaudeHooks registerMcp cleanGlobal f) (by simpa [install] using runs)
      obtain ⟨unregistered, untouched⟩ := unregisterMcpServer_keeps f.mcp
      have uninstalled : foreign (loadJson settings) = foreign (loadJson f.settings) := by
        rw [value, foreign_stripped]
        exact tidy.unbare
      refine ⟨?_, fun free => ?_, installed_same.mpr tidy, ?_, ?_, ?_, ?_, ?_, fun r wrap present => ?_, ?_, ?_,
        ?_, ?_⟩
      · rw [install_again, install]
        simp [installed_installed tidy]
      · obtain ⟨after, uninstall_after, value_after, -⟩ :=
          uninstall_runs (f := installClaudeHooks registerMcp cleanGlobal f) (by simpa [install] using runs)
        rw [uninstall_after]
        simp only [value_after, install, loadJson_writeJson, stripped_installed tidy, foreign_of_free free]
      · rw [uninstall]
        exact uninstalled
      · rw [install]
        cases registerMcp with
        | false => rfl
        | true => exact registrable_keeps (registrable rfl)
      · rw [uninstall]
        exact unregistered
      · rw [install]
        cases cleanGlobal with
        | false => rfl
        | true => exact legacy_kept
      · rw [uninstall]
        exact legacy_kept
      · rw [unwrapped r wrap] at present
        cases present
      · rw [install]
        by_cases blank : f.settings.Blank
        · exact .inl (.inr (.inl blank))
        · by_cases is_dict : f.settings.IsDict
          · exact .inl ((kept_iff blank).mpr ⟨is_dict, (foreign_installed _).mpr tidy⟩)
          · exact .inr ((backUp_saves is_dict blank).mpr copied)
      · rw [uninstall]
        rcases dict with same | is_dict
        · exact .inl same
        · exact .inr (.inr ⟨is_dict, uninstalled⟩)
      · rw [install]
        cases registerMcp with
        | false => exact .inl rfl
        | true => exact (registered_iff f.mcp).mpr (registrable rfl)
      · rw [uninstall]
        rcases untouched with same | is_dict
        · exact .inl same
        · exact .inr (.inr ⟨is_dict, unregistered⟩)

/-- The wrap layer goes when the base hooks are installed over it. -/
theorem wrap_lost :
    ¬ NonDestructive true true (installWrapHooks ⟨.absent, .absent, .absent, .absent, .absent⟩) := by
  intro kept
  have written : loadJson (installWrapHooks ⟨.absent, .absent, .absent, .absent, .absent⟩).settings =
      mergeHooks .empty wrapHooks := loadJson_writeJson _
  have present : hasCommandHook (mergeHooks .empty wrapHooks) ⟨"Stop", "", "onmc hooks runtime-stop"⟩ = true := by
    decide +kernel
  have runs : raises (mergeHooks .empty wrapHooks) = false := by decide +kernel
  have lost := kept.wrapped ⟨"Stop", "", "onmc hooks runtime-stop"⟩ (by decide) (by rw [written, present])
  rw [install_runs true true (by rw [written, runs]), loadJson_writeJson,
    installed_unwrapped _ (by decide)] at lost
  cases lost

end Onmc.Hooks

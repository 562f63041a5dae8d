import Onmc.Hooks.Stripping

/-! What the installer keeps of the settings and of the servers that it did not write, and when. -/
namespace Onmc.Hooks

/-! Going through the events. -/

/-- No event has an empty list. -/
def Unbare (settings : JsonDict) : Prop :=
  ∀ event ∈ hookEvents, ((hooksOf settings).get event).bind JsonValue.asList ≠ some []

theorem foreignEvent_strippedEvent (value : Option JsonValue) :
    foreignEvent (strippedEvent onmcCommands value) = foreignEvent value ↔ value.bind JsonValue.asList ≠ some [] := by
  unfold strippedEvent
  cases listed : value.bind JsonValue.asList with
  | none => simp
  | some entries =>
    cases entries with
    | nil => simp [foreignEvent, listed]
    | cons entry rest =>
      simp only [ne_eq, Option.some.injEq, reduceCtorEq, not_false_eq_true, iff_true]
      split
      · rename_i gone
        simp [foreignEvent, listed, gone]
      · rename_i left
        have again := strip_clean (clean_strip onmcCommands (entry :: rest))
        simp [foreignEvent, listed, again, left]

theorem strippedEvent_eq_foreignEvent {value : Option JsonValue} (unbare : value.bind JsonValue.asList ≠ some []) :
    strippedEvent onmcCommands value = foreignEvent value := by
  unfold strippedEvent foreignEvent
  cases listed : value.bind JsonValue.asList with
  | none => rfl
  | some entries =>
    have filled : entries.isEmpty = false := by
      cases entries with
      | nil => exact absurd listed unbare
      | cons entry rest => rfl
    simp [filled]

theorem strippedEvent_unbare (value : Option JsonValue) :
    (strippedEvent onmcCommands value).bind JsonValue.asList ≠ some [] := by
  unfold strippedEvent
  cases listed : value.bind JsonValue.asList with
  | none => simp [listed]
  | some entries =>
    simp only
    split
    · simp
    · rename_i left
      simpa using left

theorem hooksOf_eq {settings : JsonDict} {hooks : JsonDict}
    (mapped : (settings.get "hooks").bind JsonValue.asDict = some hooks) : hooksOf settings = hooks := by
  simp [hooksOf, mapped]

theorem hooksOf_throughHooks {f : Option JsonValue → Option JsonValue} (nothing : f none = none)
    {settings settings' : JsonDict} (found : settings'.get "hooks" = throughHooks f (settings.get "hooks")) :
    hooksOf settings' = eachEvent f (hooksOf settings) := by
  unfold hooksOf
  rw [found]
  unfold throughHooks
  cases mapped : (settings.get "hooks").bind JsonValue.asDict with
  | none =>
    apply JsonDict.ext
    intro key
    simp [mapped, get_eachEvent, nothing]
  | some hooks =>
    simp only [Option.getD_some]
    split
    · rename_i gone
      have empty := (JsonDict.isEmpty_iff _).mp (Bool.and_eq_true_iff.mp gone).1
      apply JsonDict.ext
      intro key
      simp [empty key]
    · simp

theorem hooksOf_through {f : Option JsonValue → Option JsonValue} (nothing : f none = none) (settings : JsonDict) :
    hooksOf (through f settings) = eachEvent f (hooksOf settings) := by
  apply hooksOf_throughHooks nothing
  simp [get_through]

theorem foreignServers_free {value : Option JsonValue} {servers : JsonDict}
    (mapped : value.bind JsonValue.asDict = some servers) (free : servers.get "onmc" = none) :
    foreignServers value = value := by
  simp [foreignServers, mapped, free]

theorem foreignServers_foreignServers (value : Option JsonValue) :
    foreignServers (foreignServers value) = foreignServers value := by
  cases mapped : value.bind JsonValue.asDict with
  | none => simp [foreignServers, mapped]
  | some servers =>
    cases found : servers.get "onmc" with
    | none => rw [foreignServers_free mapped found, foreignServers_free mapped found]
    | some server =>
      have popped : foreignServers value =
          if (servers.pop "onmc").isEmpty then none else some (.dict (servers.pop "onmc")) := by
        simp [foreignServers, mapped, found]
      rw [popped]
      split
      · rfl
      · exact foreignServers_free (JsonValue.asDict_dict _) (JsonDict.get_pop_self _ _)

/-- Two changes of the events agree on settings whose events they agree on. -/
theorem through_congr {f g : Option JsonValue → Option JsonValue} {settings : JsonDict}
    (same : ∀ event ∈ hookEvents, f ((hooksOf settings).get event) = g ((hooksOf settings).get event)) :
    through f settings = through g settings := by
  apply JsonDict.ext
  intro key
  simp only [get_through]
  congr 2
  unfold throughHooks
  cases mapped : (settings.get "hooks").bind JsonValue.asDict with
  | none => rfl
  | some hooks =>
    rw [hooksOf_eq mapped] at same
    have equal : eachEvent f hooks = eachEvent g hooks := by
      apply JsonDict.ext
      intro event
      simp only [get_eachEvent]
      split
      · exact same event ‹_›
      · rfl
    simp only [equal]

theorem stripped_eq_foreign {settings : JsonDict} (unbare : Unbare settings) :
    stripped settings = foreign settings :=
  through_congr (fun event known => strippedEvent_eq_foreignEvent (unbare event known))

/-- One dict of hooks for another, where the settings had a dict already or had none. -/
theorem foreign_set_hooks {settings settings' hooks' : JsonDict} (filled : hooks'.isEmpty = false)
    (there : settings'.get "hooks" = some (.dict hooks'))
    (rest : ∀ key, key ≠ "hooks" → key ≠ "mcpServers" → settings'.get key = settings.get key)
    (servers : foreignServers (settings'.get "mcpServers") = foreignServers (settings.get "mcpServers")) :
    foreign settings' = foreign settings ↔
      (∀ v, settings.get "hooks" = some v → ∃ hooks, v.asDict = some hooks ∧ hooks.isEmpty = false) ∧
      eachEvent foreignEvent hooks' = eachEvent foreignEvent (hooksOf settings) := by
  have whole : foreign settings' = foreign settings ↔
      throughHooks foreignEvent (settings'.get "hooks") = throughHooks foreignEvent (settings.get "hooks") := by
    constructor
    · intro same
      have found := congrArg (·.get "hooks") same
      simpa [foreign, get_through] using found
    · intro same
      apply JsonDict.ext
      intro key
      simp only [foreign, get_through]
      split
      · exact servers
      · split
        · exact same
        · exact rest key ‹_› ‹_›
  have after : throughHooks foreignEvent (settings'.get "hooks") =
      if (eachEvent foreignEvent hooks').isEmpty then none else some (.dict (eachEvent foreignEvent hooks')) := by
    simp [throughHooks, there, filled]
  rw [whole, after]
  cases found : settings.get "hooks" with
  | none =>
    have before : hooksOf settings = .empty := by simp [hooksOf, found]
    have empty : eachEvent foreignEvent .empty = .empty := by
      apply JsonDict.ext
      intro key
      simp [get_eachEvent, foreignEvent]
    simp only [throughHooks, Option.bind_none, ite_eq_left_iff, reduceCtorEq, imp_false, Bool.not_eq_true,
      Bool.not_eq_false, false_implies, implies_true, true_and, before, empty]
    constructor
    · intro gone
      apply JsonDict.ext
      exact (JsonDict.isEmpty_iff _).mp gone
    · intro same
      rw [same]
      rfl
  | some v =>
    cases mapped : v.asDict with
    | none =>
      have kept : throughHooks foreignEvent (some v) = some v := by simp [throughHooks, mapped]
      rw [kept]
      constructor
      · intro same
        split at same
        · cases same
        · rw [← Option.some.inj same, JsonValue.asDict_dict] at mapped
          cases mapped
      · intro ⟨dict, _⟩
        obtain ⟨hooks, mapped', _⟩ := dict v rfl
        rw [mapped] at mapped'
        cases mapped'
    | some hooks =>
      have before : hooksOf settings = hooks := hooksOf_eq (by simp [found, mapped])
      have kept : throughHooks foreignEvent (some v) =
          if (eachEvent foreignEvent hooks).isEmpty && !hooks.isEmpty then none
          else some (.dict (eachEvent foreignEvent hooks)) := by
        simp [throughHooks, mapped]
      rw [kept, before]
      cases empty : hooks.isEmpty with
      | true =>
        have gone := eachEvent_empty (f := foreignEvent) rfl empty
        simp only [gone, Bool.not_true, Bool.and_false, Bool.false_eq_true, if_false]
        constructor
        · intro same
          split at same
          · cases same
          · rename_i left
            rw [JsonValue.dict_inj (Option.some.inj same)] at left
            exact absurd gone left
        · intro ⟨dict, _⟩
          obtain ⟨hooks', mapped', filled'⟩ := dict v rfl
          rw [mapped] at mapped'
          rw [Option.some.inj mapped', filled'] at empty
          cases empty
      | false =>
        have dict : ∀ w, some v = some w → ∃ hooks, w.asDict = some hooks ∧ hooks.isEmpty = false := by
          rintro w ⟨⟩
          exact ⟨hooks, mapped, empty⟩
        simp only [Bool.not_false, Bool.and_true]
        constructor
        · intro same
          refine ⟨dict, ?_⟩
          split at same
          · rename_i gone
            split at same
            · rename_i gone'
              apply JsonDict.ext
              intro key
              rw [(JsonDict.isEmpty_iff _).mp gone key, (JsonDict.isEmpty_iff _).mp gone' key]
            · cases same
          · split at same
            · cases same
            · exact JsonValue.dict_inj (Option.some.inj same)
        · intro ⟨_, same⟩
          rw [same]

/-! What `install_claude_hooks` writes. -/

theorem get_merged {registrations : List Registration} (once : (registrations.map Registration.event).Nodup)
    (hooks : JsonDict) :
    (∀ r ∈ registrations, (registrations.foldl mergeCommandHook hooks).get r.event =
      some (.list (mergeInto r (entriesOf (hooks.get r.event))))) ∧
    ∀ k, k ∉ registrations.map Registration.event →
      (registrations.foldl mergeCommandHook hooks).get k = hooks.get k := by
  induction registrations generalizing hooks with
  | nil => exact ⟨fun r member => absurd member List.not_mem_nil, fun _ _ => rfl⟩
  | cons first rest ih =>
    obtain ⟨fresh, once'⟩ := List.nodup_cons.mp once
    obtain ⟨merged, others⟩ := ih once' (mergeCommandHook hooks first)
    constructor
    · intro r member
      rcases List.mem_cons.mp member with rfl | later
      · rw [List.foldl_cons, others _ fresh]
        exact JsonDict.get_set_self _ _ _
      · have other : r.event ≠ first.event := by
          intro same
          exact fresh (same ▸ List.mem_map_of_mem later)
        rw [List.foldl_cons, merged r later]
        simp only [mergeCommandHook, JsonDict.get_set_other _ _ other]
    · intro k new
      simp only [List.map_cons, List.mem_cons, not_or] at new
      rw [List.foldl_cons, others k new.2]
      exact JsonDict.get_set_other _ _ new.1

/-- The settings after an installation of the base hooks that does not raise. -/
def installed (settings : JsonDict) : JsonDict := mergeHooks (stripped settings) baseHooks

/-- The hooks of the settings after that. -/
def installedHooks (settings : JsonDict) : JsonDict :=
  baseHooks.foldl mergeCommandHook (eachEvent (strippedEvent onmcCommands) (hooksOf settings))

theorem installed_eq (settings : JsonDict) :
    installed settings = (stripped settings).set "hooks" (.dict (installedHooks settings)) := by
  rw [installed, mergeHooks, stripped, hooksOf_through rfl]
  rfl

theorem hooksOf_installed (settings : JsonDict) : hooksOf (installed settings) = installedHooks settings :=
  hooksOf_eq (by simp [installed_eq])

theorem base_known : ∀ r ∈ baseHooks, r.event ∈ hookEvents ∧ r.command ∈ onmcCommands := by decide

theorem get_installedHooks (settings : JsonDict) {r : Registration} (base : r ∈ baseHooks) :
    (installedHooks settings).get r.event = some (.list (mergeInto r
      (entriesOf (strippedEvent onmcCommands ((hooksOf settings).get r.event))))) := by
  rw [installedHooks, (get_merged (by decide) _).1 r base, get_eachEvent, if_pos (base_known r base).1]

theorem get_installedHooks_other (settings : JsonDict) {k : String}
    (other : k ∉ baseHooks.map Registration.event) :
    (installedHooks settings).get k =
      (eachEvent (strippedEvent onmcCommands) (hooksOf settings)).get k :=
  (get_merged (by decide) _).2 k other

theorem mergeInto_ne_nil (r : Registration) (entries : List JsonValue) : mergeInto r entries ≠ [] := by
  cases entries with
  | nil => exact List.cons_ne_nil _ _
  | cons entry rest =>
    simp only [mergeInto]
    split
    · exact List.cons_ne_nil _ _
    · split
      · split
        · exact List.cons_ne_nil _ _
        · exact List.cons_ne_nil _ _
      · exact List.cons_ne_nil _ _

theorem installed_unbare (settings : JsonDict) : Unbare (installed settings) := by
  intro event known
  rw [hooksOf_installed]
  by_cases base : event ∈ baseHooks.map Registration.event
  · obtain ⟨r, member, rfl⟩ := List.mem_map.mp base
    rw [get_installedHooks settings member]
    simp [mergeInto_ne_nil]
  · rw [get_installedHooks_other settings base, get_eachEvent, if_pos known]
    exact strippedEvent_unbare _

/-- An event that a hook can be put into and taken out of. -/
def TidyEvent (matcher : String) (value : Option JsonValue) : Prop :=
  ∀ v, value = some v → ∃ entries, v.asList = some entries ∧ entries ≠ [] ∧
    Roomy matcher (entries.filterMap (stripEntry onmcCommands))

theorem foreignEvent_merged {r : Registration} (known : r.command ∈ onmcCommands) (value : Option JsonValue) :
    foreignEvent (some (.list (mergeInto r (entriesOf (strippedEvent onmcCommands value))))) =
      foreignEvent value ↔ TidyEvent r.matcher value := by
  have merged : ∀ entries : List JsonValue, foreignEvent (some (.list (mergeInto r entries))) =
      if ((mergeInto r entries).filterMap (stripEntry onmcCommands)).isEmpty then none
      else some (.list ((mergeInto r entries).filterMap (stripEntry onmcCommands))) := by
    intro entries
    have filled : (mergeInto r entries).isEmpty = false := by simpa using mergeInto_ne_nil r entries
    simp [foreignEvent, filled]
  have fresh : foreignEvent (some (.list (mergeInto r []))) = none := by
    rw [merged, (@strip_mergeInto _ r known [] (fun e member => absurd member List.not_mem_nil)).mpr trivial]
    rfl
  cases value with
  | none => simpa [TidyEvent, strippedEvent, entriesOf, foreignEvent] using fresh
  | some v =>
    simp only [TidyEvent, Option.some.injEq, forall_eq']
    cases listed : v.asList with
    | none =>
      have nothing : entriesOf (strippedEvent onmcCommands (some v)) = [] := by
        simp [entriesOf, strippedEvent, listed]
      rw [nothing, fresh]
      simp [foreignEvent, listed]
    | some entries =>
      simp only [Option.some.injEq, exists_eq_left']
      by_cases gone : entries.filterMap (stripEntry onmcCommands) = []
      · have nothing : entriesOf (strippedEvent onmcCommands (some v)) = [] := by
          simp [entriesOf, strippedEvent, listed, gone]
        rw [nothing, fresh]
        simp [foreignEvent, listed, gone, Roomy]
      · have filled : entries ≠ [] := by
          rintro rfl
          exact gone rfl
        have left : entriesOf (strippedEvent onmcCommands (some v)) =
            entries.filterMap (stripEntry onmcCommands) := by
          simp [entriesOf, strippedEvent, listed, gone]
        have before : foreignEvent (some v) = some (.list (entries.filterMap (stripEntry onmcCommands))) := by
          simp [foreignEvent, listed, gone]
        rw [left, merged, before, ← strip_mergeInto known (clean_strip onmcCommands entries)]
        constructor
        · intro same
          split at same
          · cases same
          · exact ⟨filled, JsonValue.list_inj (Option.some.inj same)⟩
        · rintro ⟨_, same⟩
          rw [same, if_neg (by simpa using gone)]

/-- Settings that hooks can be put into and taken out of. -/
structure Tidy (settings : JsonDict) : Prop where
  hooks : ∀ v, settings.get "hooks" = some v → ∃ hooks, v.asDict = some hooks ∧ hooks.isEmpty = false
  room : ∀ r ∈ baseHooks, TidyEvent r.matcher ((hooksOf settings).get r.event)
  unbare : Unbare settings

/-- An installation leaves what is not of onmc exactly in the settings that are tidy. -/
theorem foreign_installed (settings : JsonDict) : foreign (installed settings) = foreign settings ↔ Tidy settings := by
  have filled : (installedHooks settings).isEmpty = false := by
    rw [Bool.eq_false_iff]
    intro empty
    have stop := (JsonDict.isEmpty_iff _).mp empty "Stop"
    rw [get_installedHooks settings (r := ⟨"Stop", "", "onmc hooks subagent-stop"⟩) (by decide)] at stop
    cases stop
  have get_installed : ∀ key, key ≠ "hooks" → (installed settings).get key = (stripped settings).get key := by
    intro key other
    rw [installed_eq, JsonDict.get_set_other _ _ other]
  have rest : ∀ key, key ≠ "hooks" → key ≠ "mcpServers" → (installed settings).get key = settings.get key := by
    intro key hooks servers
    simp [get_installed key hooks, stripped, get_through, servers, hooks]
  have servers : foreignServers ((installed settings).get "mcpServers") =
      foreignServers (settings.get "mcpServers") := by
    rw [get_installed _ (by decide), stripped, get_through, if_pos rfl, foreignServers_foreignServers]
  rw [foreign_set_hooks filled (by simp [installed_eq]) rest servers]
  constructor
  · intro ⟨dict, same⟩
    have each : ∀ event ∈ hookEvents,
        foreignEvent ((installedHooks settings).get event) = foreignEvent ((hooksOf settings).get event) := by
      intro event known
      have found := congrArg (·.get event) same
      simpa [get_eachEvent, known] using found
    have room : ∀ r ∈ baseHooks, TidyEvent r.matcher ((hooksOf settings).get r.event) := by
      intro r base
      have here := each r.event (base_known r base).1
      rw [get_installedHooks settings base] at here
      exact (foreignEvent_merged (base_known r base).2 _).mp here
    refine ⟨dict, room, fun event known => ?_⟩
    by_cases base : event ∈ baseHooks.map Registration.event
    · obtain ⟨r, member, rfl⟩ := List.mem_map.mp base
      intro bare
      obtain ⟨v, found, listed⟩ := Option.bind_eq_some_iff.mp bare
      obtain ⟨entries, listed', nonempty, -⟩ := room r member v found
      rw [listed] at listed'
      exact nonempty (Option.some.inj listed').symm
    · have here := each event known
      rw [get_installedHooks_other settings base, get_eachEvent, if_pos known] at here
      exact (foreignEvent_strippedEvent _).mp here
  · intro tidy
    refine ⟨tidy.hooks, JsonDict.ext (fun event => ?_)⟩
    simp only [get_eachEvent]
    by_cases base : event ∈ baseHooks.map Registration.event
    · obtain ⟨r, member, rfl⟩ := List.mem_map.mp base
      rw [if_pos (base_known r member).1, if_pos (base_known r member).1, get_installedHooks settings member]
      exact (foreignEvent_merged (base_known r member).2 _).mpr (tidy.room r member)
    · rw [get_installedHooks_other settings base, get_eachEvent]
      split
      · rename_i known
        exact (foreignEvent_strippedEvent _).mpr (tidy.unbare event known)
      · rfl

theorem eachEvent_eachEvent {f : Option JsonValue → Option JsonValue} (same : ∀ value, f (f value) = f value)
    (hooks : JsonDict) : eachEvent f (eachEvent f hooks) = eachEvent f hooks := by
  apply JsonDict.ext
  intro event
  simp only [get_eachEvent]
  split
  · exact same _
  · rfl

theorem through_through {f : Option JsonValue → Option JsonValue} (same : ∀ value, f (f value) = f value)
    (settings : JsonDict) : through f (through f settings) = through f settings := by
  have hooks : throughHooks f (throughHooks f (settings.get "hooks")) = throughHooks f (settings.get "hooks") := by
    cases mapped : (settings.get "hooks").bind JsonValue.asDict with
    | none => simp [throughHooks, mapped]
    | some hooks =>
      have after : throughHooks f (settings.get "hooks") =
          if (eachEvent f hooks).isEmpty && !hooks.isEmpty then none else some (.dict (eachEvent f hooks)) := by
        simp [throughHooks, mapped]
      rw [after]
      split
      · rfl
      · simp [throughHooks, eachEvent_eachEvent same]
  apply JsonDict.ext
  intro key
  simp only [get_through, if_true]
  split
  · exact foreignServers_foreignServers _
  · split
    · simpa using hooks
    · rfl

theorem strippedEvent_strippedEvent (value : Option JsonValue) :
    strippedEvent onmcCommands (strippedEvent onmcCommands value) = strippedEvent onmcCommands value := by
  cases listed : value.bind JsonValue.asList with
  | none => simp [strippedEvent, listed]
  | some entries =>
    have after : strippedEvent onmcCommands value =
        if (entries.filterMap (stripEntry onmcCommands)).isEmpty then none
        else some (.list (entries.filterMap (stripEntry onmcCommands))) := by
      simp [strippedEvent, listed]
    rw [after]
    split
    · rfl
    · rename_i left
      simp [strippedEvent, strip_clean (clean_strip onmcCommands entries), left]

theorem stripped_unbare (settings : JsonDict) : Unbare (stripped settings) := by
  intro event known
  rw [stripped, hooksOf_through rfl, get_eachEvent, if_pos known]
  exact strippedEvent_unbare _

/-- Stripping leaves what is not of onmc exactly in the settings without an empty event. -/
theorem foreign_stripped (settings : JsonDict) : foreign (stripped settings) = foreign settings ↔ Unbare settings := by
  constructor
  · intro same event known
    have hooks := congrArg (fun settings => (hooksOf settings).get event) same
    simp only [foreign, stripped, hooksOf_through (f := foreignEvent) rfl,
      hooksOf_through (f := strippedEvent onmcCommands) rfl, get_eachEvent, if_pos known] at hooks
    exact (foreignEvent_strippedEvent _).mp hooks
  · intro unbare
    rw [← stripped_eq_foreign (stripped_unbare settings), ← stripped_eq_foreign unbare]
    exact through_through strippedEvent_strippedEvent settings

/-- Settings without an entry of onmc are all foreign. -/
theorem foreign_of_free {settings : JsonDict} (free : holdsOnmc settings = false) : foreign settings = settings := by
  obtain ⟨hooks_free, server_free⟩ := Bool.or_eq_false_iff.mp free
  have events : ∀ event ∈ hookEvents, foreignEvent ((hooksOf settings).get event) = (hooksOf settings).get event := by
    intro event known
    have clean := List.any_eq_false.mp hooks_free event known
    unfold foreignEvent
    cases listed : ((hooksOf settings).get event).bind JsonValue.asList with
    | none => rfl
    | some entries =>
      obtain ⟨v, found, items⟩ := Option.bind_eq_some_iff.mp listed
      have same : entries.filterMap (stripEntry onmcCommands) = entries := by
        apply strip_clean
        intro e member
        have all : (entriesOf ((hooksOf settings).get event)).any
            (fun entry => (hookItems entry).any (isTarget onmcCommands)) = false := by simpa using clean
        rw [entriesOf, listed] at all
        simpa [Clean] using List.any_eq_false.mp all e member
      simp [same, found, JsonValue.asList_eq items]
  have hooks : throughHooks foreignEvent (settings.get "hooks") = settings.get "hooks" := by
    unfold throughHooks
    cases mapped : (settings.get "hooks").bind JsonValue.asDict with
    | none => rfl
    | some hooks =>
      obtain ⟨v, found, dict⟩ := Option.bind_eq_some_iff.mp mapped
      rw [hooksOf_eq mapped] at events
      have same : eachEvent foreignEvent hooks = hooks := by
        apply JsonDict.ext
        intro event
        rw [get_eachEvent]
        split
        · exact events event ‹_›
        · rfl
      simp [same, found, JsonValue.asDict_eq dict]
  have servers : foreignServers (settings.get "mcpServers") = settings.get "mcpServers" := by
    cases mapped : (settings.get "mcpServers").bind JsonValue.asDict with
    | none => simp [foreignServers, mapped]
    | some servers => exact foreignServers_free mapped (by simpa [mapped] using server_free)
  rw [foreign, through, hooks, servers, JsonDict.put_same, JsonDict.put_same]

/-- What is stripped from the settings after an installation into tidy ones. -/
theorem stripped_installed {settings : JsonDict} (tidy : Tidy settings) :
    stripped (installed settings) = foreign settings := by
  rw [stripped_eq_foreign (installed_unbare settings), (foreign_installed settings).mpr tidy]

theorem installed_installed {settings : JsonDict} (tidy : Tidy settings) :
    installed (installed settings) = installed settings := by
  have stripped_same : stripped (installed settings) = stripped settings := by
    rw [stripped_installed tidy, stripped_eq_foreign tidy.unbare]
  rw [installed, stripped_same]
  rfl

/-! The items of the hooks. -/

/-- The items at an event. -/
def itemsAt (settings : JsonDict) (event : String) : List JsonValue :=
  (entriesOf ((hooksOf settings).get event)).flatMap hookItems

theorem items_mergeInto {r : Registration} {entries : List JsonValue} {item : JsonValue}
    (member : item ∈ (mergeInto r entries).flatMap hookItems) :
    item = commandItem r.command ∨ item ∈ entries.flatMap hookItems := by
  induction entries with
  | nil =>
    have items : hookItems (newEntry r) = [commandItem r.command] := hookItems_set _ _
    simpa [mergeInto, items] using member
  | cons entry rest ih =>
    have later : item ∈ (entry :: mergeInto r rest).flatMap hookItems →
        item = commandItem r.command ∨ item ∈ (entry :: rest).flatMap hookItems := by
      intro inside
      rcases List.mem_append.mp (by simpa only [List.flatMap_cons] using inside) with here | there
      · exact .inr (List.mem_append_left _ here)
      · exact (ih there).imp_right (List.mem_append_right _)
    cases mapped : entry.asDict with
    | none =>
      simp only [mergeInto, mapped] at member
      exact later member
    | some d =>
      simp only [mergeInto, mapped] at member
      split at member
      · split at member
        · exact .inr member
        · simp only [List.flatMap_cons, hookItems_set, List.mem_append, List.mem_singleton] at member ⊢
          tauto
      · exact later member

theorem items_stripEntry {commands : List String} {entry entry' item : JsonValue}
    (kept : stripEntry commands entry = some entry') (member : item ∈ hookItems entry') :
    item ∈ hookItems entry ∧ isTarget commands item = false := by
  have clean := List.any_eq_false.mp (stripEntry_keeps_clean kept) item member
  refine ⟨?_, by simpa using clean⟩
  unfold stripEntry at kept
  split at kept
  · rw [Option.some.inj kept]
    exact member
  · split at kept
    · simp only at kept
      split at kept
      · cases kept
      · obtain rfl := Option.some.inj kept
        rw [hookItems_set] at member
        exact (List.mem_filter.mp member).1
    · rw [Option.some.inj kept]
      exact member

theorem items_strippedEvent {value : Option JsonValue} {item : JsonValue}
    (member : item ∈ (entriesOf (strippedEvent onmcCommands value)).flatMap hookItems) :
    item ∈ (entriesOf value).flatMap hookItems ∧ isTarget onmcCommands item = false := by
  cases listed : value.bind JsonValue.asList with
  | none => simp [entriesOf, strippedEvent, listed] at member
  | some entries =>
    have inside : item ∈ (entries.filterMap (stripEntry onmcCommands)).flatMap hookItems := by
      simp only [entriesOf, strippedEvent, listed] at member
      split at member
      · simp at member
      · simpa using member
    obtain ⟨entry', stays, here⟩ := List.mem_flatMap.mp inside
    obtain ⟨entry, there, kept⟩ := List.mem_filterMap.mp stays
    obtain ⟨before, free⟩ := items_stripEntry kept here
    exact ⟨List.mem_flatMap.mpr ⟨entry, by simpa [entriesOf, listed] using there, before⟩, free⟩

/-- An item after an installation is one of onmc's own or was there before and is none of onmc's. -/
theorem installed_item {settings : JsonDict} {event : String} {item : JsonValue} (known : event ∈ hookEvents)
    (member : item ∈ itemsAt (installed settings) event) :
    (∃ r ∈ baseHooks, item = commandItem r.command) ∨
      (item ∈ itemsAt settings event ∧ isTarget onmcCommands item = false) := by
  rw [itemsAt, hooksOf_installed] at member
  by_cases base : event ∈ baseHooks.map Registration.event
  · obtain ⟨r, registered, rfl⟩ := List.mem_map.mp base
    rw [get_installedHooks settings registered] at member
    rcases items_mergeInto (by simpa [entriesOf] using member) with own | before
    · exact .inl ⟨r, registered, own⟩
    · exact .inr (items_strippedEvent before)
  · rw [get_installedHooks_other settings base, get_eachEvent, if_pos known] at member
    exact .inr (items_strippedEvent member)

theorem raises_iff (settings : JsonDict) :
    raises settings = true ↔ ∃ event ∈ hookEvents, ∃ item ∈ itemsAt settings event, isUnhashable item = true := by
  unfold raises itemsAt hooksOf entriesOf
  cases (settings.get "hooks").bind JsonValue.asDict with
  | none => simp
  | some hooks =>
    simp only [Option.any_some, List.any_eq_true, Option.getD_some]
    apply exists_congr
    intro event
    apply and_congr_right
    intro _
    cases (hooks.get event).bind JsonValue.asList with
    | none => simp
    | some entries =>
      simp only [Option.any_some, List.any_eq_true, Option.getD_some, List.mem_flatMap]
      constructor
      · rintro ⟨entry, member, item, inside, unhashable⟩
        exact ⟨item, ⟨entry, member, inside⟩, unhashable⟩
      · rintro ⟨item, ⟨entry, member, inside⟩, unhashable⟩
        exact ⟨entry, member, item, inside, unhashable⟩

theorem isUnhashable_commandItem (command : String) : isUnhashable (commandItem command) = false := by
  have text : (JsonValue.str command).asList = none ∧ (JsonValue.str command).asDict = none := ⟨rfl, rfl⟩
  simp [isUnhashable, commandItem, text]

theorem installed_runs {settings : JsonDict} (runs : raises settings = false) :
    raises (installed settings) = false := by
  rw [Bool.eq_false_iff] at runs ⊢
  intro raised
  obtain ⟨event, known, item, member, unhashable⟩ := (raises_iff _).mp raised
  rcases installed_item known member with ⟨r, -, rfl⟩ | ⟨before, -⟩
  · rw [isUnhashable_commandItem] at unhashable
    cases unhashable
  · exact runs ((raises_iff settings).mpr ⟨event, known, item, before, unhashable⟩)

/-- No hook of the wrap layer is there after an installation of the base hooks. -/
theorem installed_unwrapped (settings : JsonDict) {r : Registration} (wrap : r ∈ wrapHooks) :
    hasCommandHook (installed settings) r = false := by
  rw [Bool.eq_false_iff]
  intro present
  obtain ⟨entry, member, here⟩ := List.any_eq_true.mp present
  obtain ⟨item, inside, target⟩ := List.any_eq_true.mp (Bool.and_eq_true_iff.mp here).2
  have wrap_known : ∀ r ∈ wrapHooks, r.event ∈ hookEvents ∧ r.command ∈ onmcCommands := by decide
  obtain ⟨known, command⟩ := wrap_known r wrap
  rcases installed_item known (List.mem_flatMap.mpr ⟨entry, member, inside⟩) with ⟨b, base, rfl⟩ | ⟨-, free⟩
  · have apart : ∀ b ∈ baseHooks, ∀ r ∈ wrapHooks, b.command ∉ [r.command] := by decide
    exact apart b base r wrap ((isTarget_commandItem_iff _ _).mp target)
  · rw [isTarget_mono (by simpa using command) target] at free
    cases free

end Onmc.Hooks

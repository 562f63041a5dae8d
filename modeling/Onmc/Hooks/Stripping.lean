import Onmc.Hooks.Installer

/-! What the installer's stripping and merging do to the entries of one event. -/
namespace Onmc.Hooks

/-- No target among the items of the entry. -/
def Clean (commands : List String) (entry : JsonValue) : Prop := (hookItems entry).any (isTarget commands) = false

theorem stripEntry_clean {commands : List String} {entry : JsonValue} (clean : Clean commands entry) :
    stripEntry commands entry = some entry := by
  unfold stripEntry
  cases entry.asDict with
  | none => rfl
  | some d => simp [show (hookItems entry).any (isTarget commands) = false from clean]

theorem hookItems_set (d : JsonDict) (items : List JsonValue) :
    hookItems (.dict (d.set "hooks" (.list items))) = items := by
  simp [hookItems]

theorem stripEntry_keeps_clean {commands : List String} {entry entry' : JsonValue}
    (kept : stripEntry commands entry = some entry') : Clean commands entry' := by
  unfold stripEntry at kept
  cases mapped : entry.asDict with
  | none =>
    rw [mapped] at kept
    obtain rfl := Option.some.inj kept
    simp [Clean, hookItems, mapped]
  | some d =>
    rw [mapped] at kept
    simp only at kept
    split at kept
    · split at kept
      · cases kept
      · obtain rfl := Option.some.inj kept
        simp [Clean, hookItems_set]
    · obtain rfl := Option.some.inj kept
      simpa [Clean] using ‹¬ (hookItems entry).any (isTarget commands) = true›

theorem strip_clean {commands : List String} {entries : List JsonValue} (clean : ∀ e ∈ entries, Clean commands e) :
    entries.filterMap (stripEntry commands) = entries := by
  induction entries with
  | nil => rfl
  | cons entry entries ih =>
    rw [List.filterMap_cons_some (stripEntry_clean (clean entry List.mem_cons_self)),
      ih (fun e member => clean e (List.mem_cons_of_mem _ member))]

theorem clean_strip (commands : List String) (entries : List JsonValue) :
    ∀ e ∈ entries.filterMap (stripEntry commands), Clean commands e := by
  intro e member
  obtain ⟨entry, -, kept⟩ := List.mem_filterMap.mp member
  exact stripEntry_keeps_clean kept

theorem isTarget_mono {commands commands' : List String} (among : ∀ c ∈ commands, c ∈ commands') {item : JsonValue}
    (target : isTarget commands item = true) : isTarget commands' item = true := by
  simp only [isTarget, Option.any_eq_true, Bool.and_eq_true, List.contains_iff_mem] at target ⊢
  obtain ⟨d, mapped, typed, command, written, listed⟩ := target
  exact ⟨d, mapped, typed, command, written, among _ listed⟩

theorem isTarget_commandItem_iff (commands : List String) (command : String) :
    isTarget commands (commandItem command) = true ↔ command ∈ commands := by
  simp [isTarget, commandItem, isCommandItem, JsonDict.get_set]

theorem isTarget_commandItem {commands : List String} {command : String} (known : command ∈ commands) :
    isTarget commands (commandItem command) = true :=
  (isTarget_commandItem_iff commands command).mpr known

/-- The first entry with the matcher, if there is one, has a hook of its own. -/
def Roomy (matcher : String) : List JsonValue → Prop
  | [] => True
  | entry :: rest =>
    match entry.asDict with
    | none => Roomy matcher rest
    | some d => if hasMatcher d matcher then hookItems entry ≠ [] else Roomy matcher rest

theorem hookItems_dict {d : JsonDict} (filled : hookItems (.dict d) ≠ []) :
    d.get "hooks" = some (.list (hookItems (.dict d))) := by
  simp only [hookItems, JsonValue.asDict_dict, Option.bind_some] at filled ⊢
  cases found : d.get "hooks" with
  | none => simp [found] at filled
  | some v =>
    cases listed : v.asList with
    | none => simp [found, listed] at filled
    | some items => simp [JsonValue.asList_eq listed]

/-- A hook that goes into clean entries comes out without a trace exactly if there is room for it. -/
theorem strip_mergeInto {commands : List String} {r : Registration} (known : r.command ∈ commands)
    {entries : List JsonValue} (clean : ∀ e ∈ entries, Clean commands e) :
    (mergeInto r entries).filterMap (stripEntry commands) = entries ↔ Roomy r.matcher entries := by
  induction entries with
  | nil =>
    have dropped : stripEntry commands (newEntry r) = none := by
      have items : hookItems (newEntry r) = [commandItem r.command] := hookItems_set _ _
      have mapped : (newEntry r).asDict =
          some ((JsonDict.empty.set "matcher" (.str r.matcher)).set "hooks" (.list [commandItem r.command])) :=
        JsonValue.asDict_dict _
      simp [stripEntry, mapped, items, isTarget_commandItem known]
    simp [mergeInto, dropped, Roomy]
  | cons entry rest ih =>
    have here := clean entry List.mem_cons_self
    have later := ih (fun e member => clean e (List.mem_cons_of_mem _ member))
    cases mapped : entry.asDict with
    | none =>
      simp only [mergeInto, Roomy, mapped]
      rw [List.filterMap_cons_some (stripEntry_clean here), List.cons.injEq]
      simpa using later
    | some d =>
      obtain rfl := JsonValue.asDict_eq mapped
      simp only [mergeInto, Roomy, JsonValue.asDict_dict]
      cases matching : hasMatcher d r.matcher with
      | false =>
        simp only [Bool.false_eq_true, if_false]
        rw [List.filterMap_cons_some (stripEntry_clean here), List.cons.injEq]
        simpa using later
      | true =>
        have absent : (hookItems (.dict d)).any (isTarget [r.command]) = false := by
          rw [List.any_eq_false]
          intro item member target
          have free := List.any_eq_false.mp here item member
          exact free (isTarget_mono (by simpa using known) target)
        have items := hookItems_set d (hookItems (.dict d) ++ [commandItem r.command])
        have filtered : (hookItems (.dict d) ++ [commandItem r.command]).filter (fun item => !isTarget commands item) =
            hookItems (.dict d) := by
          rw [List.filter_append, List.filter_cons, isTarget_commandItem known]
          have all : ∀ item ∈ hookItems (.dict d), (!isTarget commands item) = true := by
            intro item member
            simpa using List.any_eq_false.mp here item member
          simp [List.filter_eq_self.mpr all]
        have stripped : stripEntry commands
            (.dict (d.set "hooks" (.list (hookItems (.dict d) ++ [commandItem r.command])))) =
            if (hookItems (.dict d)).isEmpty then none
            else some (.dict (d.set "hooks" (.list (hookItems (.dict d))))) := by
          simp only [stripEntry, JsonValue.asDict_dict, items, List.any_append, List.any_cons, List.any_nil,
            isTarget_commandItem known, Bool.true_or, Bool.or_true, if_true, filtered, JsonDict.set_set]
        have remaining : rest.filterMap (stripEntry commands) = rest :=
          strip_clean (fun e member => clean e (List.mem_cons_of_mem _ member))
        simp only [absent, Bool.false_eq_true, if_false, if_true]
        by_cases filled : hookItems (.dict d) = []
        · have dropped : stripEntry commands
              (.dict (d.set "hooks" (.list (hookItems (.dict d) ++ [commandItem r.command])))) = none := by
            rw [stripped, filled]
            rfl
          rw [List.filterMap_cons_none dropped, remaining]
          simp [filled]
        · have kept : stripEntry commands
              (.dict (d.set "hooks" (.list (hookItems (.dict d) ++ [commandItem r.command])))) = some (.dict d) := by
            rw [stripped, if_neg (by simpa using filled), JsonDict.set_same (hookItems_dict filled)]
          rw [List.filterMap_cons_some kept, remaining]
          simp [filled]

/-! The events. -/

/-- What an event holds after stripping. -/
def strippedEvent (commands : List String) (value : Option JsonValue) : Option JsonValue :=
  match value.bind JsonValue.asList with
  | none => value
  | some entries =>
    let remaining := entries.filterMap (stripEntry commands)
    if remaining.isEmpty then none else some (.list remaining)

/-- What is not of onmc at an event: an empty list was there before, a list that becomes empty goes. -/
def foreignEvent (value : Option JsonValue) : Option JsonValue :=
  match value.bind JsonValue.asList with
  | none => value
  | some entries =>
    let remaining := entries.filterMap (stripEntry onmcCommands)
    if remaining.isEmpty && !entries.isEmpty then none else some (.list remaining)

/-- One and the same for every event that the installer knows. -/
def eachEvent (f : Option JsonValue → Option JsonValue) (hooks : JsonDict) : JsonDict :=
  hookEvents.foldl (fun hooks event => hooks.put event (f (hooks.get event))) hooks

theorem get_foldl_put (f : Option JsonValue → Option JsonValue) {events : List String} (once : events.Nodup)
    (hooks : JsonDict) (k : String) :
    (events.foldl (fun hooks event => hooks.put event (f (hooks.get event))) hooks).get k =
      if k ∈ events then f (hooks.get k) else hooks.get k := by
  induction events generalizing hooks with
  | nil => simp
  | cons event events ih =>
    obtain ⟨fresh, rest⟩ := List.nodup_cons.mp once
    simp only [List.foldl_cons, ih rest, JsonDict.get_put, List.mem_cons]
    by_cases same : k = event
    · simp [same, fresh]
    · simp [same]

theorem get_eachEvent (f : Option JsonValue → Option JsonValue) (hooks : JsonDict) (k : String) :
    (eachEvent f hooks).get k = if k ∈ hookEvents then f (hooks.get k) else hooks.get k :=
  get_foldl_put f (by decide) hooks k

theorem eachEvent_empty {f : Option JsonValue → Option JsonValue} (nothing : f none = none) {hooks : JsonDict}
    (empty : hooks.isEmpty = true) : (eachEvent f hooks).isEmpty = true := by
  rw [JsonDict.isEmpty_iff] at empty ⊢
  intro key
  simp [get_eachEvent, empty key, nothing]

theorem removeCommands_fst (hooks : JsonDict) (event : String) (commands : List String) :
    (removeCommands hooks event commands).1 = hooks.put event (strippedEvent commands (hooks.get event)) := by
  unfold removeCommands strippedEvent
  cases (hooks.get event).bind JsonValue.asList with
  | none => exact (JsonDict.put_same hooks event).symm
  | some entries =>
    simp only
    split <;> rfl

theorem removeEach_fst (commands events : List String) (hooks : JsonDict) (changed : Bool) :
    (events.foldl (fun (hooks, changed) event =>
      let (hooks', removed) := removeCommands hooks event commands
      (hooks', removed || changed)) (hooks, changed)).1 =
    events.foldl (fun hooks event => hooks.put event (strippedEvent commands (hooks.get event))) hooks := by
  induction events generalizing hooks changed with
  | nil => rfl
  | cons event events ih =>
    simp only [List.foldl_cons]
    rw [ih, removeCommands_fst]

theorem removeAll_fst (hooks : JsonDict) (commands : List String) :
    (removeAll hooks commands).1 = eachEvent (strippedEvent commands) hooks :=
  removeEach_fst commands hookEvents hooks false

theorem removeCommands_unchanged {hooks : JsonDict} {event : String} {commands : List String}
    (unchanged : (removeCommands hooks event commands).2 = false) :
    (removeCommands hooks event commands).1 = hooks := by
  unfold removeCommands at unchanged ⊢
  cases listed : (hooks.get event).bind JsonValue.asList with
  | none => rfl
  | some entries =>
    simp only [listed] at unchanged ⊢
    split at unchanged
    · cases unchanged
    · rename_i filled
      rw [if_neg filled]
      have clean : ∀ e ∈ entries, Clean commands e := by
        intro e member
        simpa [Clean] using List.any_eq_false.mp unchanged e member
      obtain ⟨v, found, items⟩ := Option.bind_eq_some_iff.mp listed
      rw [strip_clean clean, ← JsonValue.asList_eq items]
      exact JsonDict.set_same found

theorem removeEach_unchanged (commands events : List String) (hooks : JsonDict) (changed : Bool) :
    let after := events.foldl (fun (hooks, changed) event =>
      let (hooks', removed) := removeCommands hooks event commands
      (hooks', removed || changed)) (hooks, changed)
    after.2 = false → changed = false ∧ after.1 = hooks := by
  induction events generalizing hooks changed with
  | nil => exact fun still => ⟨still, rfl⟩
  | cons event events ih =>
    intro after still
    obtain ⟨before, same⟩ := ih _ _ still
    obtain ⟨none_here, none_before⟩ := Bool.or_eq_false_iff.mp before
    exact ⟨none_before, same.trans (removeCommands_unchanged none_here)⟩

theorem removeAll_unchanged {hooks : JsonDict} {commands : List String}
    (unchanged : (removeAll hooks commands).2 = false) : (removeAll hooks commands).1 = hooks :=
  (removeEach_unchanged commands hookEvents hooks false unchanged).2

theorem removeEach_empty {hooks : JsonDict} (commands : List String) (empty : hooks.isEmpty = true)
    (events : List String) : events.foldl (fun (hooks, changed) event =>
      let (hooks', removed) := removeCommands hooks event commands
      (hooks', removed || changed)) (hooks, false) = (hooks, false) := by
  induction events with
  | nil => rfl
  | cons event events ih =>
    have here : removeCommands hooks event commands = (hooks, false) := by
      simp [removeCommands, (JsonDict.isEmpty_iff hooks).mp empty event]
    simpa [here] using ih

theorem removeAll_empty {hooks : JsonDict} (commands : List String) (empty : hooks.isEmpty = true) :
    (removeAll hooks commands).2 = false :=
  congrArg Prod.snd (removeEach_empty commands empty hookEvents)

/-! The settings. -/

/-- The hooks with every event changed; a dict that becomes empty goes. -/
def throughHooks (f : Option JsonValue → Option JsonValue) (value : Option JsonValue) : Option JsonValue :=
  match value.bind JsonValue.asDict with
  | none => value
  | some hooks =>
    let hooks' := eachEvent f hooks
    if hooks'.isEmpty && !hooks.isEmpty then none else some (.dict hooks')

/-- The servers without that of onmc; a dict that becomes empty goes. -/
def foreignServers (value : Option JsonValue) : Option JsonValue :=
  match value.bind JsonValue.asDict with
  | none => value
  | some servers =>
    if (servers.get "onmc").isSome then
      (if (servers.pop "onmc").isEmpty then none else some (.dict (servers.pop "onmc")))
    else value

/-- The settings with every event changed, and without the server of onmc. -/
def through (f : Option JsonValue → Option JsonValue) (settings : JsonDict) : JsonDict :=
  (settings.put "hooks" (throughHooks f (settings.get "hooks"))).put "mcpServers"
    (foreignServers (settings.get "mcpServers"))

theorem get_through (f : Option JsonValue → Option JsonValue) (settings : JsonDict) (k : String) :
    (through f settings).get k = if k = "mcpServers" then foreignServers (settings.get "mcpServers")
      else if k = "hooks" then throughHooks f (settings.get "hooks") else settings.get k := by
  simp only [through, JsonDict.get_put]

theorem stripServers_fst (settings : JsonDict) :
    (stripServers settings).1 = settings.put "mcpServers" (foreignServers (settings.get "mcpServers")) := by
  unfold stripServers foreignServers
  cases (settings.get "mcpServers").bind JsonValue.asDict with
  | none => exact (JsonDict.put_same settings _).symm
  | some servers =>
    simp only
    split
    · split <;> rfl
    · exact (JsonDict.put_same settings _).symm

theorem stripServers_unchanged {settings : JsonDict} (unchanged : (stripServers settings).2 = false) :
    (stripServers settings).1 = settings := by
  unfold stripServers at unchanged ⊢
  cases mapped : (settings.get "mcpServers").bind JsonValue.asDict with
  | none => rfl
  | some servers =>
    simp only [mapped] at unchanged ⊢
    split at unchanged
    · cases unchanged
    · rename_i free
      rw [if_neg free]

/-- What the search for commands in the hooks leaves. -/
def strippedHooks (settings : JsonDict) (commands : List String) : JsonDict × Bool :=
  match (settings.get "hooks").bind JsonValue.asDict with
  | none => (settings, false)
  | some hooks =>
    let (hooks, changed) := removeAll hooks commands
    (if changed && hooks.isEmpty then settings.pop "hooks" else settings.set "hooks" (.dict hooks), changed)

theorem strippedHooks_fst (settings : JsonDict) (commands : List String) :
    (strippedHooks settings commands).1 =
      settings.put "hooks" (throughHooks (strippedEvent commands) (settings.get "hooks")) := by
  unfold strippedHooks throughHooks
  cases mapped : (settings.get "hooks").bind JsonValue.asDict with
  | none => exact (JsonDict.put_same settings _).symm
  | some hooks =>
    simp only [← removeAll_fst]
    cases unchanged : (removeAll hooks commands).2 with
    | false =>
      rw [removeAll_unchanged unchanged]
      cases hooks.isEmpty <;> rfl
    | true =>
      cases empty : hooks.isEmpty with
      | false =>
        simp only [Bool.true_and, Bool.not_false, Bool.and_true]
        split <;> rfl
      | true =>
        rw [removeAll_empty commands empty] at unchanged
        cases unchanged

theorem strippedHooks_unchanged {settings : JsonDict} {commands : List String}
    (unchanged : (strippedHooks settings commands).2 = false) :
    (strippedHooks settings commands).1 = settings := by
  unfold strippedHooks at unchanged ⊢
  cases mapped : (settings.get "hooks").bind JsonValue.asDict with
  | none => rfl
  | some hooks =>
    simp only [mapped] at unchanged ⊢
    obtain ⟨v, found, dict⟩ := Option.bind_eq_some_iff.mp mapped
    simp only [unchanged, Bool.false_and, Bool.false_eq_true, if_false, removeAll_unchanged unchanged,
      ← JsonValue.asDict_eq dict]
    exact JsonDict.set_same found

/-- The settings as stripping leaves them. -/
def stripped (settings : JsonDict) : JsonDict := through (strippedEvent onmcCommands) settings

/-- The settings without the entries of onmc. -/
def foreign (settings : JsonDict) : JsonDict := through foreignEvent settings

theorem stripOnmcEntries_raises {settings : JsonDict} (raised : raises settings = true) :
    stripOnmcEntries settings = none := by
  simp [stripOnmcEntries, stripCommands, raised]

theorem stripOnmcEntries_some {settings : JsonDict} (runs : raises settings = false) :
    ∃ changed, stripOnmcEntries settings = some (stripped settings, changed) ∧
      (changed = false → stripped settings = settings) := by
  have shape : stripOnmcEntries settings = some ((stripServers (strippedHooks settings onmcCommands).1).1,
      (stripServers (strippedHooks settings onmcCommands).1).2 || (strippedHooks settings onmcCommands).2) := by
    rw [stripOnmcEntries, stripCommands, if_neg (Bool.eq_false_iff.mp runs)]
    rfl
  have value : (stripServers (strippedHooks settings onmcCommands).1).1 = stripped settings := by
    rw [stripServers_fst, strippedHooks_fst, JsonDict.get_put]
    rfl
  refine ⟨_, by rw [shape, value], fun unchanged => ?_⟩
  obtain ⟨servers, hooks⟩ := Bool.or_eq_false_iff.mp unchanged
  rw [← value, stripServers_unchanged servers, strippedHooks_unchanged hooks]


end Onmc.Hooks

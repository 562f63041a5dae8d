import Onmc.Hooks.InstallLaws

/-! The wrap hooks in the managed settings: what is merged into them and what is taken out again. -/
namespace Onmc.Wrap

open Onmc.Hooks

/-- The hooks of `merge_managed_hooks`; its `_merge_hook` is the installer's, line for line. -/
def managedHooks : List Registration := [
  ⟨"PreToolUse", "Task", "onmc hooks task-intercept"⟩,
  ⟨"PreToolUse", "AskUserQuestion", "onmc hooks decision-intercept"⟩,
  ⟨"UserPromptSubmit", "", "onmc hooks prompt-router"⟩,
  ⟨"Stop", "", "onmc hooks runtime-stop"⟩]

def mergeManagedHooks (existing : JsonDict) : JsonDict := mergeHooks existing managedHooks

/-- `entry.get("hooks", [])`, where that is a list. -/
def listedItems (d : JsonDict) : Option (List JsonValue) :=
  match d.get "hooks" with
  | none => some []
  | some v => v.asList

/-- An entry of the managed settings without the commands, unless nothing is left in it. -/
def pruneEntry (commands : List String) (entry : JsonValue) : Option JsonValue :=
  match entry.asDict with
  | none => some entry
  | some d =>
    match listedItems d with
    | none => some entry
    | some items =>
      let filtered := items.filter (fun item => !isTarget commands item)
      if filtered.isEmpty then none else some (.dict (d.set "hooks" (.list filtered)))

def pruneEvent (commands : List String) (hooks : JsonDict) (event : String) : JsonDict :=
  match (hooks.get event).bind JsonValue.asList with
  | none => hooks
  | some entries =>
    let remaining := entries.filterMap (pruneEntry commands)
    if remaining.isEmpty then hooks.pop event else hooks.set event (.list remaining)

/-- `_strip_commands`; nothing where the lookup of a command raises. -/
def stripCommands (settings : JsonDict) (commands : List String) : Option JsonDict :=
  if raises settings then none
  else
    match (settings.get "hooks").bind JsonValue.asDict with
    | none => some settings
    | some hooks =>
      let hooks := hookEvents.foldl (pruneEvent commands) hooks
      some (if hooks.isEmpty then settings.pop "hooks" else settings.set "hooks" (.dict hooks))

def stripManagedHooks (existing : JsonDict) : Option JsonDict := stripCommands existing wrapCommands

/-! The entries. -/

/-- A dict with no hook in it, neither of onmc nor of anybody. -/
def vacant (entry : JsonValue) : Bool := entry.asDict.any (fun d => (listedItems d).any List.isEmpty)

theorem hookItems_of_listed {d : JsonDict} {items : List JsonValue} (listed : listedItems d = some items) :
    hookItems (.dict d) = items := by
  simp only [hookItems, JsonValue.asDict_dict, Option.bind_some]
  unfold listedItems at listed
  cases found : d.get "hooks" with
  | none => simpa [found] using listed
  | some v => simpa [found] using congrArg (·.getD []) (by simpa [found] using listed : v.asList = some items)

theorem hookItems_unlisted {d : JsonDict} (unlisted : listedItems d = none) : hookItems (.dict d) = [] := by
  simp only [hookItems, JsonValue.asDict_dict, Option.bind_some]
  unfold listedItems at unlisted
  cases found : d.get "hooks" with
  | none => simp
  | some v => simp [show v.asList = none by simpa [found] using unlisted]

theorem vacant_items {entry : JsonValue} (empty : vacant entry = true) : hookItems entry = [] := by
  obtain ⟨d, mapped, rest⟩ := (Option.any_eq_true _ _).mp empty
  obtain ⟨items, listed, none⟩ := (Option.any_eq_true _ _).mp rest
  rw [JsonValue.asDict_eq mapped, hookItems_of_listed listed]
  simpa using none

theorem vacant_clean {commands : List String} {entry : JsonValue} (empty : vacant entry = true) :
    Clean commands entry := by
  simp [Clean, vacant_items empty]

/-- The two ways of stripping an entry differ in the vacant ones alone. -/
theorem pruneEntry_eq (commands : List String) (entry : JsonValue) :
    pruneEntry commands entry = if vacant entry then none else stripEntry commands entry := by
  cases mapped : entry.asDict with
  | none => simp [pruneEntry, stripEntry, vacant, mapped]
  | some d =>
    obtain rfl := JsonValue.asDict_eq mapped
    cases listed : listedItems d with
    | none => simp [pruneEntry, stripEntry, vacant, listed, hookItems_unlisted listed]
    | some items =>
      have all := hookItems_of_listed listed
      simp only [pruneEntry, stripEntry, vacant, JsonValue.asDict_dict, Option.any_some, listed, all]
      cases items with
      | nil => simp
      | cons item items =>
        cases targets : (item :: items).any (isTarget commands) with
        | true => simp
        | false =>
          have kept : (item :: items).filter (fun item => !isTarget commands item) = item :: items := by
            apply List.filter_eq_self.mpr
            intro target member
            simpa using List.any_eq_false.mp targets target member
          have filled : hookItems (.dict d) ≠ [] := by simp [all]
          have same : d.set "hooks" (.list (item :: items)) = d := JsonDict.set_same (all ▸ hookItems_dict filled)
          simp [kept, same]

theorem prune_eq (commands : List String) (entries : List JsonValue) :
    entries.filterMap (pruneEntry commands) = (entries.filter (fun e => !vacant e)).filterMap (stripEntry commands) := by
  induction entries with
  | nil => rfl
  | cons entry entries ih =>
    rw [List.filterMap_cons, pruneEntry_eq, List.filter_cons, ih]
    cases empty : vacant entry with
    | true => simp
    | false => simp [List.filterMap_cons]

theorem prune_full {commands : List String} {entries : List JsonValue} (full : entries.any vacant = false) :
    entries.filterMap (pruneEntry commands) = entries.filterMap (stripEntry commands) := by
  have all : entries.filter (fun e => !vacant e) = entries := by
    apply List.filter_eq_self.mpr
    intro e member
    simpa using List.any_eq_false.mp full e member
  rw [prune_eq, all]

/-- No entry that comes out is vacant. -/
theorem pruned_full {commands : List String} {entry entry' : JsonValue} (kept : pruneEntry commands entry = some entry') :
    vacant entry' = false := by
  cases mapped : entry.asDict with
  | none =>
    obtain rfl : entry = entry' := by simpa [pruneEntry, mapped] using kept
    simp [vacant, mapped]
  | some d =>
    cases listed : listedItems d with
    | none =>
      obtain rfl : entry = entry' := by simpa [pruneEntry, mapped, listed] using kept
      simp [vacant, mapped, listed]
    | some items =>
      simp only [pruneEntry, mapped, listed] at kept
      split at kept
      · cases kept
      · rename_i filled
        obtain rfl := Option.some.inj kept
        simpa [vacant, listedItems] using filled

theorem prune_length_le (commands : List String) (entries : List JsonValue) :
    (entries.filterMap (pruneEntry commands)).length ≤ entries.length := List.length_filterMap_le _ _

/-! Merging into the entries. -/

/-- The entry that a hook with the matcher goes into. -/
def receiver (matcher : String) (entries : List JsonValue) : Option JsonDict :=
  (entries.filterMap JsonValue.asDict).find? (hasMatcher · matcher)

/-- The hooks of that entry are no list, and merging writes over them. -/
def overwritten (matcher : String) (entries : List JsonValue) : Bool :=
  (receiver matcher entries).any (fun d => (listedItems d).isNone)

/-- The command is in that entry already. -/
def present (r : Registration) (entries : List JsonValue) : Bool :=
  (receiver r.matcher entries).any (fun d => (hookItems (.dict d)).any (isTarget [r.command]))

theorem receiver_cons (matcher : String) (entry : JsonValue) (rest : List JsonValue) :
    receiver matcher (entry :: rest) =
      if entry.asDict.any (hasMatcher · matcher) then entry.asDict else receiver matcher rest := by
  cases mapped : entry.asDict with
  | none => simp [receiver, mapped]
  | some d =>
    simp only [receiver, List.filterMap_cons, mapped, List.find?_cons, Option.any_some]
    split
    · rename_i matching
      rw [if_pos matching]
    · rename_i differs
      simp [differs]

theorem hasMatcher_set (d : JsonDict) (matcher : String) (items : List JsonValue) :
    hasMatcher (d.set "hooks" (.list items)) matcher = hasMatcher d matcher := by
  have other : "matcher" ≠ "hooks" := by decide
  simp only [hasMatcher, JsonDict.get_set_other d _ other]

theorem hasMatcher_inj {d : JsonDict} {matcher matcher' : String} (first : hasMatcher d matcher = true)
    (second : hasMatcher d matcher' = true) : matcher = matcher' := by
  unfold hasMatcher at first second
  cases found : d.get "matcher" with
  | none =>
    simp only [found, beq_iff_eq] at first second
    rw [first, second]
  | some v =>
    simp only [found, beq_iff_eq] at first second
    exact Option.some.inj (first.symm.trans second)

/-- The receiver with the hook. -/
def received (r : Registration) : Option JsonDict → JsonDict
  | none => (JsonDict.empty.set "matcher" (.str r.matcher)).set "hooks" (.list [commandItem r.command])
  | some d => d.set "hooks" (.list (hookItems (.dict d) ++ [commandItem r.command]))

theorem received_items (r : Registration) (found : Option JsonDict) :
    ∃ items, hookItems (.dict (received r found)) = items ++ [commandItem r.command] := by
  cases found with
  | none => exact ⟨[], hookItems_set _ _⟩
  | some d => exact ⟨_, hookItems_set _ _⟩

/-- A merge changes the receiver of its own matcher alone. -/
theorem receiver_mergeInto (r : Registration) (matcher : String) (entries : List JsonValue) :
    receiver matcher (mergeInto r entries) =
      if matcher ≠ r.matcher then receiver matcher entries
      else if present r entries then receiver matcher entries
      else some (received r (receiver matcher entries)) := by
  induction entries with
  | nil =>
    have text : hasMatcher ((JsonDict.empty.set "matcher" (.str r.matcher)).set "hooks"
        (.list [commandItem r.command])) matcher = (r.matcher == matcher) := by
      simp [hasMatcher, JsonDict.get_set]
    simp only [mergeInto, newEntry, receiver_cons, JsonValue.asDict_dict, Option.any_some, text]
    by_cases same : matcher = r.matcher
    · simp [same, present, receiver, received]
    · simp [same, receiver, beq_eq_false_iff_ne.mpr (Ne.symm same)]
  | cons entry rest ih =>
    cases mapped : entry.asDict with
    | none =>
      have skipped (matcher : String) (entries : List JsonValue) :
          receiver matcher (entry :: entries) = receiver matcher entries := by simp [receiver_cons, mapped]
      have still : present r (entry :: rest) = present r rest := by simp [present, skipped]
      have next : mergeInto r (entry :: rest) = entry :: mergeInto r rest := by simp [mergeInto, mapped]
      rw [next, skipped, skipped, still]
      exact ih
    | some d =>
      obtain rfl := JsonValue.asDict_eq mapped
      simp only [mergeInto, JsonValue.asDict_dict]
      cases matching : hasMatcher d r.matcher with
      | false =>
        simp only [Bool.false_eq_true, if_false]
        rw [receiver_cons, receiver_cons, ih]
        by_cases same : matcher = r.matcher
        · simp [same, matching, present, receiver_cons]
        · simp [same]
      | true =>
        by_cases same : matcher = r.matcher
        · cases there : (hookItems (.dict d)).any (isTarget [r.command]) with
          | true => simp [same, there, present, receiver_cons, matching]
          | false => simp [same, there, present, receiver_cons, matching, hasMatcher_set, received]
        · have other : hasMatcher d matcher = false := by
            rw [Bool.eq_false_iff]
            intro also
            exact same (hasMatcher_inj also matching)
          cases there : (hookItems (.dict d)).any (isTarget [r.command]) with
          | true => simp [same]
          | false => simp [same, receiver_cons, hasMatcher_set, other]

theorem mergeInto_present {r : Registration} {entries : List JsonValue} (here : present r entries = true) :
    mergeInto r entries = entries := by
  induction entries with
  | nil => simp [present, receiver] at here
  | cons entry rest ih =>
    cases mapped : entry.asDict with
    | none =>
      simp only [present, receiver_cons, mapped, Option.any_none, Bool.false_eq_true, if_false] at here
      simp only [mergeInto, mapped, ih here]
    | some d =>
      obtain rfl := JsonValue.asDict_eq mapped
      simp only [present, receiver_cons, JsonValue.asDict_dict, Option.any_some] at here
      simp only [mergeInto, JsonValue.asDict_dict]
      cases matching : hasMatcher d r.matcher with
      | true =>
        simp only [matching, if_true, Option.any_some] at here
        simp [here]
      | false =>
        simp only [matching, Bool.false_eq_true, if_false] at here
        simp [ih here]

theorem present_mergeInto_self (r : Registration) (entries : List JsonValue) :
    present r (mergeInto r entries) = true := by
  by_cases here : present r entries = true
  · rw [mergeInto_present here]
    exact here
  · have own : isTarget [r.command] (commandItem r.command) = true := isTarget_commandItem List.mem_cons_self
    rw [present, receiver_mergeInto, if_neg (by simp), if_neg here]
    obtain ⟨items, last⟩ := received_items r (receiver r.matcher entries)
    simp [last, own]

/-- A merge leaves the commands that are there. -/
theorem present_mergeInto {r r' : Registration} {entries : List JsonValue} (here : present r entries = true) :
    present r (mergeInto r' entries) = true := by
  obtain ⟨d, found, there⟩ := (Option.any_eq_true _ _).mp here
  rw [present, receiver_mergeInto]
  split
  · exact here
  · split
    · exact here
    · simp only [found, received, Option.any_some, hookItems_set, List.any_append, there, Bool.true_or]

theorem overwritten_mergeInto {r : Registration} {matcher : String} (other : matcher ≠ r.matcher)
    (entries : List JsonValue) : overwritten matcher (mergeInto r entries) = overwritten matcher entries := by
  rw [overwritten, receiver_mergeInto, if_pos other, overwritten]

/-- A hook goes out again as it came in, and with it the entry whose hooks it was written over. -/
theorem prune_mergeInto {commands : List String} {r : Registration} (known : r.command ∈ commands)
    {entries : List JsonValue} (free : ∀ item ∈ entries.flatMap hookItems, isTarget [r.command] item = false) :
    if overwritten r.matcher entries then
      ((mergeInto r entries).filterMap (pruneEntry commands)).length <
        (entries.filterMap (pruneEntry commands)).length
    else (mergeInto r entries).filterMap (pruneEntry commands) = entries.filterMap (pruneEntry commands) := by
  have own := isTarget_commandItem known
  induction entries with
  | nil =>
    have dropped : pruneEntry commands (newEntry r) = none := by
      simp [pruneEntry, newEntry, listedItems, own]
    simp [mergeInto, dropped, overwritten, receiver]
  | cons entry rest ih =>
    have later := ih (fun item member => free item (by simp [List.flatMap_cons, member]))
    have same (next : mergeInto r (entry :: rest) = entry :: mergeInto r rest)
        (here : overwritten r.matcher (entry :: rest) = overwritten r.matcher rest) :
        if overwritten r.matcher (entry :: rest) then
          ((mergeInto r (entry :: rest)).filterMap (pruneEntry commands)).length <
            ((entry :: rest).filterMap (pruneEntry commands)).length
        else (mergeInto r (entry :: rest)).filterMap (pruneEntry commands) =
          (entry :: rest).filterMap (pruneEntry commands) := by
      rw [next, here, List.filterMap_cons, List.filterMap_cons]
      split
      · rename_i hit
        rw [if_pos hit] at later
        cases pruneEntry commands entry with
        | none => exact later
        | some _ => simpa using later
      · rename_i miss
        rw [if_neg miss] at later
        rw [later]
    cases mapped : entry.asDict with
    | none =>
      apply same
      · simp [mergeInto, mapped]
      · simp [overwritten, receiver_cons, mapped]
    | some d =>
      obtain rfl := JsonValue.asDict_eq mapped
      cases matching : hasMatcher d r.matcher with
      | false =>
        apply same
        · simp [mergeInto, matching]
        · simp [overwritten, receiver_cons, matching]
      | true =>
        have absent : (hookItems (.dict d)).any (isTarget [r.command]) = false := by
          apply List.any_eq_false.mpr
          intro item member
          simp [free item (by simp [List.flatMap_cons, member])]
        have merged : mergeInto r (.dict d :: rest) =
            .dict (d.set "hooks" (.list (hookItems (.dict d) ++ [commandItem r.command]))) :: rest := by
          simp [mergeInto, matching, absent]
        have filtered : (hookItems (.dict d) ++ [commandItem r.command]).filter (fun item => !isTarget commands item) =
            (hookItems (.dict d)).filter (fun item => !isTarget commands item) := by
          simp [List.filter_append, own]
        have written : pruneEntry commands (.dict (d.set "hooks" (.list (hookItems (.dict d) ++ [commandItem r.command])))) =
            if ((hookItems (.dict d)).filter (fun item => !isTarget commands item)).isEmpty then none
            else some (.dict (d.set "hooks"
              (.list ((hookItems (.dict d)).filter (fun item => !isTarget commands item))))) := by
          simp only [pruneEntry, JsonValue.asDict_dict, listedItems, JsonDict.get_set_self, JsonValue.asList_list,
            filtered, JsonDict.set_set]
        rw [merged, List.filterMap_cons, List.filterMap_cons, written]
        have across : overwritten r.matcher (.dict d :: rest) = (listedItems d).isNone := by
          simp [overwritten, receiver_cons, matching]
        rw [across]
        cases listed : listedItems d with
        | none =>
          have kept : pruneEntry commands (.dict d) = some (.dict d) := by simp [pruneEntry, listed]
          simp [hookItems_unlisted listed, kept]
        | some items => simp [pruneEntry, listed, hookItems_of_listed listed]

/-! Several hooks at one event. -/

/-- The hooks of an event, one after the other, into its entries. -/
def mergeAll (registrations : List Registration) (entries : List JsonValue) : List JsonValue :=
  registrations.foldl (fun entries r => mergeInto r entries) entries

theorem present_mergeAll {r : Registration} (registrations : List Registration) {entries : List JsonValue}
    (here : present r entries = true) : present r (mergeAll registrations entries) = true := by
  induction registrations generalizing entries with
  | nil => exact here
  | cons first rest ih => exact ih (present_mergeInto here)

theorem present_after {r : Registration} {registrations : List Registration} (member : r ∈ registrations)
    (entries : List JsonValue) : present r (mergeAll registrations entries) = true := by
  induction registrations generalizing entries with
  | nil => cases member
  | cons first rest ih =>
    rcases List.mem_cons.mp member with rfl | later
    · exact present_mergeAll rest (present_mergeInto_self r entries)
    · exact ih later (mergeInto first entries)

theorem mergeAll_present {registrations : List Registration} {entries : List JsonValue}
    (here : ∀ r ∈ registrations, present r entries = true) : mergeAll registrations entries = entries := by
  induction registrations with
  | nil => rfl
  | cons first rest ih =>
    have same := mergeInto_present (here first List.mem_cons_self)
    simp only [mergeAll, List.foldl_cons, same]
    exact ih (fun r member => here r (List.mem_cons_of_mem _ member))

/-- Hooks with matchers and commands of their own go out again as they came in. -/
theorem prune_mergeAll {commands : List String} {registrations : List Registration}
    (known : ∀ r ∈ registrations, r.command ∈ commands)
    (apart : registrations.Pairwise (fun a b => b.matcher ≠ a.matcher ∧ a.command ≠ b.command)) {entries : List JsonValue}
    (free : ∀ r ∈ registrations, ∀ item ∈ entries.flatMap hookItems, isTarget [r.command] item = false) :
    if registrations.any (fun r => overwritten r.matcher entries) then
      ((mergeAll registrations entries).filterMap (pruneEntry commands)).length <
        (entries.filterMap (pruneEntry commands)).length
    else (mergeAll registrations entries).filterMap (pruneEntry commands) =
      entries.filterMap (pruneEntry commands) := by
  induction registrations generalizing entries with
  | nil => simp [mergeAll]
  | cons first rest ih =>
    obtain ⟨others, apart'⟩ := List.pairwise_cons.mp apart
    have once := prune_mergeInto (known first List.mem_cons_self) (free first List.mem_cons_self)
    have free' : ∀ r ∈ rest, ∀ item ∈ (mergeInto first entries).flatMap hookItems,
        isTarget [r.command] item = false := by
      intro r member item inside
      rcases items_mergeInto inside with rfl | before
      · rw [Bool.eq_false_iff]
        intro own
        exact (others r member).2 (List.mem_singleton.mp ((isTarget_commandItem_iff _ _).mp own))
      · exact free r (List.mem_cons_of_mem _ member) item before
    have more := ih (fun r member => known r (List.mem_cons_of_mem _ member)) apart' free'
    have same : rest.any (fun r => overwritten r.matcher (mergeInto first entries)) =
        rest.any (fun r => overwritten r.matcher entries) := by
      rw [Bool.eq_iff_iff, List.any_eq_true, List.any_eq_true]
      apply exists_congr
      intro r
      apply and_congr_right
      intro member
      rw [overwritten_mergeInto (others r member).1 entries]
    rw [same] at more
    have next : mergeAll (first :: rest) entries = mergeAll rest (mergeInto first entries) := rfl
    rw [next, List.any_cons]
    cases across : overwritten first.matcher entries with
    | true =>
      simp only [across, if_true] at once
      simp only [Bool.true_or, if_true]
      split at more
      · exact more.trans once
      · exact more ▸ once
    | false =>
      simp only [across, Bool.false_eq_true, if_false] at once
      simp only [Bool.false_or, ← once]
      exact more

/-- What an event holds after the merge of its hooks. -/
def mergedEvent (registrations : List Registration) (value : Option JsonValue) : Option JsonValue :=
  if registrations = [] then value else some (.list (mergeAll registrations (entriesOf value)))

/-- The hooks of one event. -/
def hooksAt (registrations : List Registration) (event : String) : List Registration :=
  registrations.filter (fun r => r.event = event)

theorem get_mergeHooks (registrations : List Registration) (hooks : JsonDict) (event : String) :
    (registrations.foldl mergeCommandHook hooks).get event =
      mergedEvent (hooksAt registrations event) (hooks.get event) := by
  induction registrations generalizing hooks with
  | nil => rfl
  | cons first rest ih =>
    rw [List.foldl_cons, ih]
    by_cases same : first.event = event
    · have here : hooksAt (first :: rest) event = first :: hooksAt rest event := by simp [hooksAt, same]
      rw [here, mergeCommandHook, ← same, JsonDict.get_set_self]
      simp only [mergedEvent, reduceCtorEq, if_false]
      split
      · rename_i last
        simp [last, mergeAll]
      · simp [mergeAll, entriesOf]
    · have there : hooksAt (first :: rest) event = hooksAt rest event := by simp [hooksAt, same]
      rw [there, mergeCommandHook, JsonDict.get_set_other _ _ (Ne.symm same)]

theorem mergedEvent_again (registrations : List Registration) (value : Option JsonValue) :
    mergedEvent registrations (mergedEvent registrations value) = mergedEvent registrations value := by
  unfold mergedEvent
  split
  · rfl
  · have again : mergeAll registrations (mergeAll registrations (entriesOf value)) =
        mergeAll registrations (entriesOf value) := by
      apply mergeAll_present
      intro r member
      exact present_after member _
    rw [show entriesOf (some (.list (mergeAll registrations (entriesOf value)))) =
      mergeAll registrations (entriesOf value) by simp [entriesOf], again]

theorem hooksOf_mergeHooks (settings : JsonDict) (registrations : List Registration) :
    hooksOf (mergeHooks settings registrations) = registrations.foldl mergeCommandHook (hooksOf settings) :=
  hooksOf_eq (by simp [mergeHooks])

/-- Merging again changes nothing, whatever the settings are. -/
theorem mergeHooks_again (settings : JsonDict) (registrations : List Registration) :
    mergeHooks (mergeHooks settings registrations) registrations = mergeHooks settings registrations := by
  have same : registrations.foldl mergeCommandHook (registrations.foldl mergeCommandHook (hooksOf settings)) =
      registrations.foldl mergeCommandHook (hooksOf settings) := by
    apply JsonDict.ext
    intro event
    rw [get_mergeHooks, get_mergeHooks, mergedEvent_again]
  rw [mergeHooks, hooksOf_mergeHooks, same, mergeHooks, JsonDict.set_set]

/-! One event, merged and stripped. -/

/-- What an event holds after `_strip_commands`. -/
def prunedEvent (commands : List String) (value : Option JsonValue) : Option JsonValue :=
  match value.bind JsonValue.asList with
  | none => value
  | some entries =>
    let remaining := entries.filterMap (pruneEntry commands)
    if remaining.isEmpty then none else some (.list remaining)

theorem entriesOf_prunedEvent (commands : List String) (value : Option JsonValue) :
    entriesOf (prunedEvent commands value) = (entriesOf value).filterMap (pruneEntry commands) := by
  cases listed : value.bind JsonValue.asList with
  | none => simp [entriesOf, prunedEvent, listed]
  | some entries =>
    simp only [entriesOf, prunedEvent, listed, Option.getD_some]
    split
    · rename_i gone
      simpa using (List.isEmpty_iff.mp gone).symm
    · simp

theorem entriesOf_strippedEvent (commands : List String) (value : Option JsonValue) :
    entriesOf (strippedEvent commands value) = (entriesOf value).filterMap (stripEntry commands) := by
  cases listed : value.bind JsonValue.asList with
  | none => simp [entriesOf, strippedEvent, listed]
  | some entries =>
    simp only [entriesOf, strippedEvent, listed, Option.getD_some]
    split
    · rename_i gone
      simpa using (List.isEmpty_iff.mp gone).symm
    · simp

theorem pruneEvent_eq (commands : List String) (hooks : JsonDict) (event : String) :
    pruneEvent commands hooks event = hooks.put event (prunedEvent commands (hooks.get event)) := by
  unfold pruneEvent prunedEvent
  cases (hooks.get event).bind JsonValue.asList with
  | none => exact (JsonDict.put_same hooks event).symm
  | some entries =>
    simp only
    split <;> rfl

theorem prune_events (commands : List String) (hooks : JsonDict) :
    hookEvents.foldl (pruneEvent commands) hooks = eachEvent (prunedEvent commands) hooks := by
  have each : pruneEvent commands = fun hooks event => hooks.put event (prunedEvent commands (hooks.get event)) := by
    funext hooks event
    exact pruneEvent_eq commands hooks event
  rw [each, eachEvent]

/-- An event that the hooks can be merged into and taken out of: no list where no hook goes in, or a list of entries
that all have a hook, or hooks that are no list, and are not written over. -/
def EventFits (registrations : List Registration) (value : Option JsonValue) : Prop :=
  ∀ v, value = some v →
    match v.asList with
    | none => registrations = []
    | some entries => entries ≠ [] ∧ entries.any vacant = false ∧
        registrations.any (fun r => overwritten r.matcher entries) = false

theorem eventFits_iff {commands : List String} {registrations : List Registration}
    (known : ∀ r ∈ registrations, r.command ∈ commands)
    (apart : registrations.Pairwise (fun a b => b.matcher ≠ a.matcher ∧ a.command ≠ b.command)) {value : Option JsonValue}
    (free : ∀ e ∈ entriesOf value, Clean commands e) :
    prunedEvent commands (mergedEvent registrations value) = value ↔ EventFits registrations value := by
  have free' : ∀ r ∈ registrations, ∀ item ∈ (entriesOf value).flatMap hookItems,
      isTarget [r.command] item = false := by
    intro r member item inside
    obtain ⟨e, listed, here⟩ := List.mem_flatMap.mp inside
    rw [Bool.eq_false_iff]
    intro target
    exact List.any_eq_false.mp (free e listed) item here (isTarget_mono (by simpa using known r member) target)
  have whole := prune_mergeAll known apart free'
  have fresh (nothing : entriesOf value = []) (some : registrations ≠ []) :
      prunedEvent commands (mergedEvent registrations value) = none := by
    have none_over : registrations.any (fun r => overwritten r.matcher []) = false := by simp [overwritten, receiver]
    rw [nothing, none_over] at whole
    simp only [Bool.false_eq_true, if_false, List.filterMap_nil] at whole
    simp [mergedEvent, some, prunedEvent, nothing, whole]
  cases value with
  | none =>
    refine ⟨fun _ v none => absurd none (Option.some_ne_none v).symm, fun _ => ?_⟩
    by_cases empty : registrations = []
    · simp [mergedEvent, empty, prunedEvent]
    · exact fresh rfl empty
  | some v =>
    simp only [EventFits, Option.some.injEq, forall_eq']
    cases listed : v.asList with
    | none =>
      constructor
      · intro same
        by_contra some
        rw [fresh (by simp [entriesOf, listed]) some] at same
        cases same
      · intro empty
        simp [mergedEvent, empty, prunedEvent, listed]
    | some entries =>
      obtain rfl := JsonValue.asList_eq listed
      have these : entriesOf (some (.list entries)) = entries := by simp [entriesOf]
      rw [these] at whole free
      have merged : mergedEvent registrations (some (.list entries)) = some (.list (mergeAll registrations entries)) := by
        unfold mergedEvent
        split
        · rename_i empty
          simp [empty, mergeAll]
        · rw [these]
      have clean : entries.filterMap (pruneEntry commands) = entries ↔ entries.any vacant = false := by
        have all : ∀ e ∈ entries.filter (fun e => !vacant e), Clean commands e :=
          fun e member => free e (List.mem_of_mem_filter member)
        rw [prune_eq, strip_clean all, List.filter_eq_self, List.any_eq_false]
        simp
      simp only [merged, prunedEvent, Option.bind_some, JsonValue.asList_list]
      cases across : registrations.any (fun r => overwritten r.matcher entries) with
      | true =>
        rw [across, if_pos rfl] at whole
        have less := Nat.lt_of_lt_of_le whole (prune_length_le commands entries)
        simp only [Bool.true_eq_false, and_false, iff_false]
        split
        · exact (Option.some_ne_none _).symm
        · intro same
          rw [JsonValue.list_inj (Option.some.inj same)] at less
          exact Nat.lt_irrefl _ less
      | false =>
        rw [across] at whole
        simp only [Bool.false_eq_true, if_false] at whole
        rw [whole, ← clean]
        simp only [and_true]
        split
        · rename_i gone
          rw [List.isEmpty_iff] at gone
          rw [gone]
          constructor
          · exact fun none => absurd none (Option.some_ne_none _).symm
          · rintro ⟨filled, same⟩
            exact absurd same.symm filled
        · rename_i left
          constructor
          · intro same
            have equal := JsonValue.list_inj (Option.some.inj same)
            rw [equal] at left
            exact ⟨by simpa using left, equal⟩
          · intro same
            rw [same.2]

/-! The settings. -/

def entriesAt (settings : JsonDict) (event : String) : List JsonValue := entriesOf ((hooksOf settings).get event)

/-- Some entry holds a command of onmc. -/
def holdsCommand (settings : JsonDict) : Bool :=
  hookEvents.any (fun event => (entriesAt settings event).any (fun entry => (hookItems entry).any (isTarget onmcCommands)))

/-- The settings after a `_strip_commands` that does not raise. -/
def pruned (commands : List String) (settings : JsonDict) : JsonDict :=
  match (settings.get "hooks").bind JsonValue.asDict with
  | none => settings
  | some hooks =>
    let hooks := eachEvent (prunedEvent commands) hooks
    if hooks.isEmpty then settings.pop "hooks" else settings.set "hooks" (.dict hooks)

theorem stripCommands_eq (commands : List String) (settings : JsonDict) :
    stripCommands settings commands = if raises settings then none else some (pruned commands settings) := by
  unfold stripCommands pruned
  split
  · rfl
  · cases (settings.get "hooks").bind JsonValue.asDict with
    | none => rfl
    | some hooks => simp only [prune_events]

theorem hooksOf_pruned (commands : List String) (settings : JsonDict) :
    hooksOf (pruned commands settings) = eachEvent (prunedEvent commands) (hooksOf settings) := by
  unfold pruned
  cases mapped : (settings.get "hooks").bind JsonValue.asDict with
  | none =>
    have empty : hooksOf settings = .empty := by simp [hooksOf, mapped]
    rw [empty]
    apply JsonDict.ext
    intro event
    simp [get_eachEvent, prunedEvent]
  | some hooks =>
    rw [hooksOf_eq mapped]
    simp only
    split
    · rename_i gone
      apply JsonDict.ext
      intro event
      rw [(JsonDict.isEmpty_iff _).mp gone event]
      simp [hooksOf]
    · exact hooksOf_eq (by simp)

theorem entriesAt_pruned (commands : List String) (settings : JsonDict) (event : String) :
    entriesAt (pruned commands settings) event =
      if event ∈ hookEvents then (entriesAt settings event).filterMap (pruneEntry commands)
      else entriesAt settings event := by
  rw [entriesAt, hooksOf_pruned, get_eachEvent]
  split
  · exact entriesOf_prunedEvent commands _
  · rfl

theorem entriesAt_strippedHooks (commands : List String) (settings : JsonDict) (event : String) :
    entriesAt (strippedHooks settings commands).1 event =
      if event ∈ hookEvents then (entriesAt settings event).filterMap (stripEntry commands)
      else entriesAt settings event := by
  have found : (strippedHooks settings commands).1.get "hooks" =
      throughHooks (strippedEvent commands) (settings.get "hooks") := by
    rw [strippedHooks_fst, JsonDict.get_put, if_pos rfl]
  rw [entriesAt, hooksOf_throughHooks rfl found, get_eachEvent]
  split
  · exact entriesOf_strippedEvent commands _
  · rfl

theorem installer_eq (commands : List String) (settings : JsonDict) :
    Hooks.stripCommands settings commands false =
      if raises settings then none else some (strippedHooks settings commands) := by
  unfold Hooks.stripCommands
  split <;> rfl

/-- No event that the stripping goes through has a vacant entry. -/
def Occupied (settings : JsonDict) : Prop := ∀ event ∈ hookEvents, (entriesAt settings event).any vacant = false

theorem keeps_iff (commands : List String) (settings : JsonDict) :
    (∀ event, ((entriesAt settings event).filter (fun e => !(hookItems e).any (isTarget commands))).Sublist
      (entriesAt (pruned commands settings) event)) ↔ Occupied settings := by
  constructor
  · intro keeps event known
    rw [List.any_eq_false]
    intro e member empty
    have foreign : e ∈ (entriesAt settings event).filter (fun e => !(hookItems e).any (isTarget commands)) := by
      simp [List.mem_filter, member, vacant_items empty]
    have stays := (keeps event).subset foreign
    rw [entriesAt_pruned, if_pos known] at stays
    obtain ⟨before, -, kept⟩ := List.mem_filterMap.mp stays
    rw [pruned_full kept] at empty
    cases empty
  · intro occupied event
    rw [entriesAt_pruned]
    split
    · rename_i known
      rw [prune_full (occupied event known)]
      have clean : ∀ e ∈ (entriesAt settings event).filter (fun e => !(hookItems e).any (isTarget commands)),
          Clean commands e := by
        intro e member
        simpa [Clean] using (List.mem_filter.mp member).2
      rw [← strip_clean clean]
      exact List.filter_sublist.filterMap _
    · exact List.filter_sublist

theorem agree_iff (commands : List String) (settings : JsonDict) :
    entriesAt (pruned commands settings) = entriesAt (strippedHooks settings commands).1 ↔ Occupied settings := by
  constructor
  · intro same event known
    have here := congrFun same event
    rw [entriesAt_pruned, entriesAt_strippedHooks, if_pos known, if_pos known, prune_eq] at here
    rw [List.any_eq_false]
    intro e member empty
    have kept : e ∈ (entriesAt settings event).filterMap (stripEntry commands) :=
      List.mem_filterMap.mpr ⟨e, member, stripEntry_clean (vacant_clean empty)⟩
    rw [← here, ← prune_eq] at kept
    obtain ⟨before, -, from_before⟩ := List.mem_filterMap.mp kept
    rw [pruned_full from_before] at empty
    cases empty
  · intro occupied
    funext event
    rw [entriesAt_pruned, entriesAt_strippedHooks]
    split
    · rename_i known
      exact prune_full (occupied event known)
    · rfl

/-! Merging and stripping. -/

theorem items_mergeInto_of {r : Registration} {entries : List JsonValue} {item : JsonValue}
    (member : item ∈ entries.flatMap hookItems) : item ∈ (mergeInto r entries).flatMap hookItems := by
  induction entries with
  | nil => cases member
  | cons entry rest ih =>
    have later : item ∈ hookItems entry ∨ item ∈ (mergeInto r rest).flatMap hookItems := by
      rw [List.flatMap_cons, List.mem_append] at member
      exact member.imp_right ih
    cases mapped : entry.asDict with
    | none => simpa [mergeInto, mapped] using later
    | some d =>
      obtain rfl := JsonValue.asDict_eq mapped
      simp only [mergeInto, JsonValue.asDict_dict]
      split
      · split
        · exact member
        · simp only [List.flatMap_cons, hookItems_set, List.mem_append] at member ⊢
          tauto
      · simpa using later

theorem items_mergeAll {registrations : List Registration} {entries : List JsonValue} {item : JsonValue}
    (member : item ∈ entries.flatMap hookItems) : item ∈ (mergeAll registrations entries).flatMap hookItems := by
  induction registrations generalizing entries with
  | nil => exact member
  | cons first rest ih => exact ih (items_mergeInto_of member)

theorem items_mergeAll_cases {registrations : List Registration} {entries : List JsonValue} {item : JsonValue}
    (member : item ∈ (mergeAll registrations entries).flatMap hookItems) :
    (∃ r ∈ registrations, item = commandItem r.command) ∨ item ∈ entries.flatMap hookItems := by
  induction registrations generalizing entries with
  | nil => exact .inr member
  | cons first rest ih =>
    rcases ih member with ⟨r, later, own⟩ | before
    · exact .inl ⟨r, List.mem_cons_of_mem _ later, own⟩
    · rcases items_mergeInto before with own | there
      · exact .inl ⟨first, List.mem_cons_self, own⟩
      · exact .inr there

theorem itemsAt_merged (settings : JsonDict) (event : String) :
    itemsAt (mergeManagedHooks settings) event = if hooksAt managedHooks event = [] then itemsAt settings event
      else (mergeAll (hooksAt managedHooks event) (entriesAt settings event)).flatMap hookItems := by
  rw [itemsAt, mergeManagedHooks, hooksOf_mergeHooks, get_mergeHooks, mergedEvent]
  split
  · rfl
  · simp [entriesOf, entriesAt]

/-- Merging puts nothing in and takes nothing out that makes the lookup of commands raise. -/
theorem raises_merged (settings : JsonDict) : raises (mergeManagedHooks settings) = raises settings := by
  rw [Bool.eq_iff_iff, raises_iff, raises_iff]
  apply exists_congr
  intro event
  apply and_congr_right
  intro _
  rw [itemsAt_merged]
  split
  · rfl
  · constructor
    · rintro ⟨item, member, unhashable⟩
      rcases items_mergeAll_cases member with ⟨r, -, rfl⟩ | before
      · rw [isUnhashable_commandItem] at unhashable
        cases unhashable
      · exact ⟨item, before, unhashable⟩
    · rintro ⟨item, member, unhashable⟩
      exact ⟨item, items_mergeAll member, unhashable⟩

/-- Settings that the managed hooks can be merged into and taken out of: a dict of hooks that is not empty, or none,
and events that fit. -/
structure Fits (settings : JsonDict) : Prop where
  hooks : ∀ v, settings.get "hooks" = some v → ∃ hooks, v.asDict = some hooks ∧ hooks.isEmpty = false
  events : ∀ event ∈ hookEvents, EventFits (hooksAt managedHooks event) ((hooksOf settings).get event)

theorem managed_known : ∀ r ∈ managedHooks, r.event ∈ hookEvents ∧ r.command ∈ wrapCommands := by decide

theorem managed_apart (event : String) :
    (hooksAt managedHooks event).Pairwise (fun a b => b.matcher ≠ a.matcher ∧ a.command ≠ b.command) ∨
      event ∉ hookEvents := by
  by_cases known : event ∈ hookEvents
  · have all : ∀ event ∈ hookEvents,
        (hooksAt managedHooks event).Pairwise (fun a b => b.matcher ≠ a.matcher ∧ a.command ≠ b.command) := by decide
    exact .inl (all event known)
  · exact .inr known

theorem hooksAt_unknown {event : String} (unknown : event ∉ hookEvents) : hooksAt managedHooks event = [] := by
  apply List.filter_eq_nil_iff.mpr
  intro r member
  simp only [decide_eq_true_eq]
  rintro rfl
  exact unknown (managed_known r member).1

theorem free_clean {settings : JsonDict} (free : holdsCommand settings = false) {event : String}
    (known : event ∈ hookEvents) : ∀ e ∈ entriesAt settings event, Clean wrapCommands e := by
  intro e member
  have event_free := List.any_eq_false.mp free event known
  rw [Bool.not_eq_true] at event_free
  have clean := List.any_eq_false.mp event_free e member
  apply List.any_eq_false.mpr
  intro item inside target
  have among : ∀ c ∈ wrapCommands, c ∈ onmcCommands := by decide
  exact clean (List.any_eq_true.mpr ⟨item, inside, isTarget_mono among target⟩)

/-- The hooks that a merge and a strip leave are those from before exactly if every event fits. -/
theorem hooks_back {settings : JsonDict} (free : holdsCommand settings = false) :
    eachEvent (prunedEvent wrapCommands) (hooksOf (mergeManagedHooks settings)) = hooksOf settings ↔
      ∀ event ∈ hookEvents, EventFits (hooksAt managedHooks event) ((hooksOf settings).get event) := by
  have each (event : String) : (eachEvent (prunedEvent wrapCommands) (hooksOf (mergeManagedHooks settings))).get event =
      if event ∈ hookEvents then
        prunedEvent wrapCommands (mergedEvent (hooksAt managedHooks event) ((hooksOf settings).get event))
      else (hooksOf settings).get event := by
    rw [get_eachEvent, mergeManagedHooks, hooksOf_mergeHooks, get_mergeHooks]
    split
    · rfl
    · rename_i unknown
      rw [hooksAt_unknown unknown, mergedEvent, if_pos rfl]
  have fits (event : String) (known : event ∈ hookEvents) :=
    @eventFits_iff wrapCommands (hooksAt managedHooks event)
      (fun r member => (managed_known r (List.mem_of_mem_filter member)).2)
      ((managed_apart event).resolve_right (not_not_intro known)) _ (free_clean free known)
  constructor
  · intro same event known
    have here := each event
    rw [same, if_pos known] at here
    exact (fits event known).mp here.symm
  · intro all
    apply JsonDict.ext
    intro event
    rw [each]
    split
    · rename_i known
      exact (fits event known).mpr (all event known)
    · rfl

theorem inverse_iff {settings : JsonDict} (free : holdsCommand settings = false) :
    stripManagedHooks (mergeManagedHooks settings) = some settings ↔ raises settings = false ∧ Fits settings := by
  have whole : pruned wrapCommands (mergeManagedHooks settings) =
      if (eachEvent (prunedEvent wrapCommands) (hooksOf (mergeManagedHooks settings))).isEmpty then settings.pop "hooks"
      else settings.set "hooks" (.dict (eachEvent (prunedEvent wrapCommands) (hooksOf (mergeManagedHooks settings)))) := by
    have pop : (mergeManagedHooks settings).pop "hooks" = settings.pop "hooks" := by
      apply JsonDict.ext
      intro key
      simp only [mergeManagedHooks, mergeHooks, JsonDict.get_pop, JsonDict.get_set]
      split <;> rfl
    have there : (mergeManagedHooks settings).get "hooks" = some (.dict (hooksOf (mergeManagedHooks settings))) := by
      rw [mergeManagedHooks, hooksOf_mergeHooks, mergeHooks, JsonDict.get_set_self]
    have set (hooks : JsonDict) : (mergeManagedHooks settings).set "hooks" (.dict hooks) =
        settings.set "hooks" (.dict hooks) := JsonDict.set_set _ _ _ _
    simp only [pruned, there, Option.bind_some, JsonValue.asDict_dict, pop, set]
  have events := hooks_back free
  rw [stripManagedHooks, stripCommands_eq, raises_merged]
  cases raises settings with
  | true => simp
  | false =>
    simp only [Bool.false_eq_true, if_false, Option.some.injEq, true_and]
    rw [whole]
    generalize eachEvent (prunedEvent wrapCommands) (hooksOf (mergeManagedHooks settings)) = left at events
    constructor
    · intro same
      cases empty : left.isEmpty with
      | true =>
        rw [empty, if_pos rfl] at same
        have gone : settings.get "hooks" = none := by rw [← same, JsonDict.get_pop_self]
        have nothing : hooksOf settings = .empty := by simp [hooksOf, gone]
        refine ⟨fun v found => absurd (gone.symm.trans found) (Option.some_ne_none v).symm, events.mp ?_⟩
        rw [nothing]
        exact JsonDict.ext ((JsonDict.isEmpty_iff left).mp empty)
      | false =>
        rw [empty] at same
        have there : settings.get "hooks" = some (.dict left) := by
          rw [← same]
          exact JsonDict.get_set_self _ _ _
        refine ⟨?_, events.mp (hooksOf_eq (by simp [there])).symm⟩
        intro v found
        rw [there] at found
        obtain rfl := Option.some.inj found
        exact ⟨left, JsonValue.asDict_dict _, empty⟩
    · intro fits
      have back := events.mpr fits.events
      cases found : settings.get "hooks" with
      | none =>
        have nothing : hooksOf settings = .empty := by simp [hooksOf, found]
        rw [back, nothing, if_pos (by rfl)]
        apply JsonDict.ext
        intro key
        rw [JsonDict.get_pop]
        split
        · rename_i same
          rw [same, found]
        · rfl
      | some v =>
        obtain ⟨hooks, mapped, filled⟩ := fits.hooks v found
        have these : hooksOf settings = hooks := hooksOf_eq (by simp [found, mapped])
        rw [back, these, filled]
        exact JsonDict.set_same (by rw [found, JsonValue.asDict_eq mapped])

/-- Merging and stripping undo one another, on these settings. -/
structure ManagedLaws (settings : JsonDict) : Prop where
  inverse : holdsCommand settings = false → stripManagedHooks (mergeManagedHooks settings) = some settings
  idempotent : mergeManagedHooks (mergeManagedHooks settings) = mergeManagedHooks settings
  keeps : ∀ left, stripManagedHooks settings = some left → ∀ event,
    ((entriesAt settings event).filter (fun e => !(hookItems e).any (isTarget wrapCommands))).Sublist (entriesAt left event)
  agree : (stripManagedHooks settings).map entriesAt =
    (Hooks.stripCommands settings wrapCommands false).map (fun left => entriesAt left.1)

/-- Settings that stripping is exact on. -/
structure Clear (settings : JsonDict) : Prop where
  occupied : raises settings = false → Occupied settings
  fits : holdsCommand settings = false → raises settings = false ∧ Fits settings

theorem managedLaws_iff (settings : JsonDict) : ManagedLaws settings ↔ Clear settings := by
  have strip : stripManagedHooks settings = if raises settings then none else some (pruned wrapCommands settings) :=
    stripCommands_eq wrapCommands settings
  constructor
  · intro laws
    refine ⟨fun runs => ?_, fun free => (inverse_iff free).mp (laws.inverse free)⟩
    apply (keeps_iff wrapCommands settings).mp
    apply laws.keeps
    rw [strip, runs]
    rfl
  · intro clear
    refine ⟨fun free => (inverse_iff free).mpr (clear.fits free), mergeHooks_again settings managedHooks, ?_, ?_⟩
    · intro left stripped
      rw [strip] at stripped
      split at stripped
      · cases stripped
      · rename_i runs
        obtain rfl := Option.some.inj stripped
        exact (keeps_iff wrapCommands settings).mpr (clear.occupied (Bool.eq_false_iff.mpr runs))
    · rw [strip, installer_eq]
      split
      · rfl
      · rename_i runs
        have same := (agree_iff wrapCommands settings).mpr (clear.occupied (Bool.eq_false_iff.mpr runs))
        simpa using same

/-- A matcher that somebody has not put hooks under yet. -/
def bareGroup : JsonDict :=
  JsonDict.empty.set "hooks" (.dict (JsonDict.empty.set "PreToolUse"
    (.list [.dict (JsonDict.empty.set "matcher" (.str "Bash"))])))

/-- The managed strip drops it, with the list and the dict that it was in; the installer's leaves it. -/
theorem bareGroup_dropped :
    stripManagedHooks bareGroup = some .empty ∧
      (Hooks.stripCommands bareGroup wrapCommands false).map Prod.fst = some bareGroup ∧ ¬ ManagedLaws bareGroup := by
  refine ⟨by rfl, by rfl, fun laws => ?_⟩
  have same := congrArg (Option.map (fun entries => (entries "PreToolUse").length)) laws.agree
  revert same
  decide

end Onmc.Wrap

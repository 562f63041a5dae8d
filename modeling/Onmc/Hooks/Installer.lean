import Onmc.JsonDict
import Onmc.PyText

/-! The installer of the Claude Code hooks: what it merges into `settings.json` and `.mcp.json`, what it
strips out of them again, and the copies that it puts aside. -/
namespace Onmc.Hooks

/-- A hook as the installer registers it. -/
structure Registration where
  event : String
  matcher : String
  command : String
  deriving DecidableEq

/-- The hooks of `install_claude_hooks`. -/
def baseHooks : List Registration := [
  ⟨"PreCompact", "", "onmc hooks pre-compact"⟩,
  ⟨"SessionStart", "", "onmc hooks session-start"⟩,
  ⟨"UserPromptSubmit", "", "onmc hooks prompt-recall"⟩,
  ⟨"SessionEnd", "", "onmc hooks session-end"⟩,
  ⟨"PreToolUse", "Read|Bash|Edit|Write|MultiEdit|NotebookEdit", "onmc hooks pre-tool-use"⟩,
  ⟨"PostToolUse", "", "onmc hooks post-tool-use"⟩,
  ⟨"SubagentStop", "", "onmc hooks subagent-stop"⟩,
  ⟨"Stop", "", "onmc hooks subagent-stop"⟩]

/-- The hooks of `install_wrap_hooks`. -/
def wrapHooks : List Registration := [
  ⟨"PreToolUse", "Task", "onmc hooks task-intercept"⟩,
  ⟨"UserPromptSubmit", "", "onmc hooks prompt-router"⟩,
  ⟨"PreToolUse", "AskUserQuestion", "onmc hooks decision-intercept"⟩,
  ⟨"Stop", "", "onmc hooks runtime-stop"⟩]

/-- `_WRAP_COMMANDS` -/
def wrapCommands : List String := ["onmc hooks task-intercept", "onmc hooks prompt-router",
  "onmc hooks decision-intercept", "onmc hooks runtime-stop"]

/-- `_ONMC_COMMANDS` -/
def onmcCommands : List String := ["onmc hooks pre-compact", "onmc hooks session-start", "onmc hooks session-end",
  "onmc hooks prompt-recall", "onmc hooks pre-tool-use", "onmc hooks post-compact", "onmc hooks post-tool-use",
  "onmc hooks subagent-stop"] ++ wrapCommands

/-- `_HOOK_EVENTS` -/
def hookEvents : List String := ["PreCompact", "PostCompact", "PreToolUse", "PostToolUse", "SessionStart",
  "SessionEnd", "UserPromptSubmit", "SubagentStop", "Stop"]

/-! Stripping. -/

def isCommandItem (d : JsonDict) : Bool := (d.get "type").bind JsonValue.asStr == some "command"

/-- The hook items that are taken out. -/
def isTarget (commands : List String) (item : JsonValue) : Bool :=
  item.asDict.any (fun d => isCommandItem d && ((d.get "command").bind JsonValue.asStr).any commands.contains)

/-- `x in commands` raises `TypeError` for a list and for a dict. -/
def isUnhashable (item : JsonValue) : Bool :=
  item.asDict.any (fun d => isCommandItem d &&
    (d.get "command").any (fun c => c.asList.isSome || c.asDict.isSome))

/-- The hook items of an entry, where they are a list. -/
def hookItems (entry : JsonValue) : List JsonValue :=
  ((entry.asDict.bind (JsonDict.get · "hooks")).bind JsonValue.asList).getD []

/-- An entry without its targets; nothing where only targets were in it. -/
def stripEntry (commands : List String) (entry : JsonValue) : Option JsonValue :=
  match entry.asDict with
  | none => some entry
  | some d =>
    if (hookItems entry).any (isTarget commands) then
      let filtered := (hookItems entry).filter (fun item => !isTarget commands item)
      if filtered.isEmpty then none else some (.dict (d.set "hooks" (.list filtered)))
    else some entry

/-- The hooks without the targets of one event, and whether anything changed. -/
def removeCommands (hooks : JsonDict) (event : String) (commands : List String) : JsonDict × Bool :=
  match (hooks.get event).bind JsonValue.asList with
  | none => (hooks, false)
  | some entries =>
    let changed := entries.any (fun entry => (hookItems entry).any (isTarget commands))
    let remaining := entries.filterMap (stripEntry commands)
    if remaining.isEmpty then (hooks.pop event, true) else (hooks.set event (.list remaining), changed)

def removeAll (hooks : JsonDict) (commands : List String) : JsonDict × Bool :=
  hookEvents.foldl (fun (hooks, changed) event =>
    let (hooks', removed) := removeCommands hooks event commands
    (hooks', removed || changed)) (hooks, false)

/-- Some hook item that the search for targets comes across cannot be looked up. -/
def raises (settings : JsonDict) : Bool :=
  ((settings.get "hooks").bind JsonValue.asDict).any (fun hooks => hookEvents.any (fun event =>
    ((hooks.get event).bind JsonValue.asList).any (fun entries =>
      entries.any (fun entry => (hookItems entry).any isUnhashable))))

/-- `servers.pop("onmc")`, and the key with it when nothing is left. -/
def stripServers (settings : JsonDict) : JsonDict × Bool :=
  match (settings.get "mcpServers").bind JsonValue.asDict with
  | none => (settings, false)
  | some servers =>
    if (servers.get "onmc").isSome then
      let servers := servers.pop "onmc"
      (if servers.isEmpty then settings.pop "mcpServers" else settings.set "mcpServers" (.dict servers), true)
    else (settings, false)

/-- `_strip_commands`, and whether anything changed; nothing where it raises. -/
def stripCommands (settings : JsonDict) (commands : List String) (stripMcp : Bool) : Option (JsonDict × Bool) :=
  if raises settings then none
  else
    let (settings, changed) :=
      match (settings.get "hooks").bind JsonValue.asDict with
      | none => (settings, false)
      | some hooks =>
        let (hooks, changed) := removeAll hooks commands
        (if changed && hooks.isEmpty then settings.pop "hooks" else settings.set "hooks" (.dict hooks), changed)
    if stripMcp then
      let (settings, removed) := stripServers settings
      some (settings, removed || changed)
    else some (settings, changed)

def stripOnmcEntries (settings : JsonDict) : Option (JsonDict × Bool) := stripCommands settings onmcCommands true

/-! Merging. -/

def commandItem (command : String) : JsonValue :=
  .dict ((JsonDict.empty.set "type" (.str "command")).set "command" (.str command))

def newEntry (r : Registration) : JsonValue :=
  .dict ((JsonDict.empty.set "matcher" (.str r.matcher)).set "hooks" (.list [commandItem r.command]))

/-- `entry.get("matcher", "") == matcher` -/
def hasMatcher (d : JsonDict) (matcher : String) : Bool :=
  match d.get "matcher" with
  | none => matcher == ""
  | some v => v.asStr == some matcher

/-- A command into the first entry that has its matcher, or into one of its own. -/
def mergeInto (r : Registration) : List JsonValue → List JsonValue
  | [] => [newEntry r]
  | entry :: rest =>
    match entry.asDict with
    | none => entry :: mergeInto r rest
    | some d =>
      if hasMatcher d r.matcher then
        if (hookItems entry).any (isTarget [r.command]) then entry :: rest
        else .dict (d.set "hooks" (.list (hookItems entry ++ [commandItem r.command]))) :: rest
      else entry :: mergeInto r rest

/-- The entries of an event, where they are a list. -/
def entriesOf (value : Option JsonValue) : List JsonValue := (value.bind JsonValue.asList).getD []

def mergeCommandHook (hooks : JsonDict) (r : Registration) : JsonDict :=
  hooks.set r.event (.list (mergeInto r (entriesOf (hooks.get r.event))))

/-- The hooks of the settings, where they are a dict. -/
def hooksOf (settings : JsonDict) : JsonDict := ((settings.get "hooks").bind JsonValue.asDict).getD .empty

def mergeHooks (settings : JsonDict) (registrations : List Registration) : JsonDict :=
  settings.set "hooks" (.dict (registrations.foldl mergeCommandHook (hooksOf settings)))

/-! Looking. -/

/-- `_has_command_hook` -/
def hasCommandHook (settings : JsonDict) (r : Registration) : Bool :=
  (entriesOf ((hooksOf settings).get r.event)).any (fun entry =>
    entry.asDict.any (hasMatcher · r.matcher) && (hookItems entry).any (isTarget [r.command]))

/-- `legacy_global_hooks_present` -/
def holdsOnmc (settings : JsonDict) : Bool :=
  hookEvents.any (fun event => (entriesOf ((hooksOf settings).get event)).any (fun entry =>
    (hookItems entry).any (isTarget onmcCommands))) ||
  ((settings.get "mcpServers").bind JsonValue.asDict).any (fun servers => (servers.get "onmc").isSome)

/-! The files. -/

/-- What a path holds: nothing, a text that is no JSON, or the JSON that its text is read as. -/
inductive File where
  | absent
  | malformed (raw : String)
  | json (v : Json)

def File.isThere : File → Bool
  | .absent => false
  | _ => true

/-- `_load_json` -/
def loadJson : File → JsonDict
  | .json v => ((JsonValue.load v).asDict).getD .empty
  | _ => .empty

/-- `_write_json` -/
def writeJson (d : JsonDict) : File := .json (JsonValue.dict d).json

structure Files where
  settings : File
  /-- `settings.json.onmc-backup` -/
  backup : File
  /-- `settings.json.onmc-corrupt` -/
  corrupt : File
  mcp : File
  globalSettings : File

def preserveCorruptSettings (f : Files) : Files :=
  match f.settings with
  | .malformed raw =>
    if PyText.strip raw = "" then f
    else if f.corrupt.isThere then f
    else { f with corrupt := .malformed raw }
  | _ => f

/-- The malformed text, and the settings as they are read, are put aside where nothing is yet. -/
def backUp (f : Files) : Files :=
  let f := preserveCorruptSettings f
  if f.backup.isThere then f else { f with backup := writeJson (loadJson f.settings) }

def onmcServer : JsonValue :=
  .dict ((JsonDict.empty.set "command" (.str "onmc")).set "args" (.list [.str "serve", .str "--mcp"]))

/-- `servers.setdefault("onmc", …)` -/
def withServer (payload : JsonDict) : JsonDict :=
  let servers := ((payload.get "mcpServers").bind JsonValue.asDict).getD .empty
  payload.set "mcpServers" (.dict (if (servers.get "onmc").isSome then servers else servers.set "onmc" onmcServer))

def registerMcpServer (mcp : File) : File := writeJson (withServer (loadJson mcp))

def unregisterMcpServer (mcp : File) : File :=
  let (payload, changed) := stripServers (loadJson mcp)
  if changed then (if payload.isEmpty then .absent else writeJson payload) else mcp

/-- A settings file without the entries of onmc, written only where that changes it; nothing where it raises. -/
def cleaned (settings : File) : Option File :=
  (stripOnmcEntries (loadJson settings)).map (fun (stripped, changed) =>
    if changed then writeJson stripped else settings)

/-- What raises leaves the files as they are by then. -/
def cleanLegacyGlobalSettings (f : Files) : Files :=
  { f with globalSettings := (cleaned f.globalSettings).getD f.globalSettings }

def installClaudeHooks (registerMcp cleanGlobal : Bool) (f : Files) : Files :=
  let f := backUp f
  match stripOnmcEntries (loadJson f.settings) with
  | none => f
  | some (settings, _) =>
    let f := { f with settings := writeJson (mergeHooks settings baseHooks) }
    let f := if registerMcp then { f with mcp := registerMcpServer f.mcp } else f
    if cleanGlobal then cleanLegacyGlobalSettings f else f

def uninstallClaudeHooks (f : Files) : Files :=
  match cleaned f.settings with
  | none => f
  | some settings => cleanLegacyGlobalSettings { f with settings := settings, mcp := unregisterMcpServer f.mcp }

def installWrapHooks (f : Files) : Files :=
  let f := backUp f
  { f with settings := writeJson (mergeHooks (loadJson f.settings) wrapHooks) }

def uninstallWrapHooks (f : Files) : Files :=
  match stripCommands (loadJson f.settings) wrapCommands false with
  | some (settings, true) => { f with settings := writeJson settings }
  | _ => f

end Onmc.Hooks

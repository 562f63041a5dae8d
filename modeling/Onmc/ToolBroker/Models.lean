import Onmc.PyText
import Onmc.Runtime.Contracts

/-! Immutable policy models of the tool broker. -/
namespace Onmc.ToolBroker

open Onmc.Runtime (Checked check optional)

/-- What the models ask of the file system and of the `ipaddress` and `idna` libraries. -/
class Platform where
  /-- `str(Path(path).resolve(strict=False))` -/
  resolve : String → String
  Address : Type
  Network : Type
  /-- `ipaddress.ip_address(text)`, nothing where it raises. -/
  ipAddress : String → Option Address
  /-- `address.compressed.lower()` -/
  compressed : Address → String
  /-- `ipaddress.ip_network(text, strict=False)`, nothing where it raises. -/
  ipNetwork : String → Option Network
  /-- `network.with_prefixlen.lower()` -/
  withPrefixlen : Network → String
  /-- `address in network` -/
  isIn : Address → Network → Bool
  /-- `text.encode("idna").decode("ascii").lower()`, nothing where it raises. -/
  idna : String → Option String

inductive ActionType where
  | tool | filesystem | command | network | secret | budget | deployment
deriving DecidableEq

def ActionType.value : ActionType → String
  | .tool => "tool"
  | .filesystem => "filesystem"
  | .command => "command"
  | .network => "network"
  | .secret => "secret"
  | .budget => "budget"
  | .deployment => "deployment"

inductive DecisionEffect where
  | allow | requireApproval | deny
deriving DecidableEq

def hasNul (value : String) : Bool := value.toList.contains '\x00'

/-- A non-empty string without NUL bytes. -/
def clean (value : String) : Bool := value ≠ "" && !hasNul value

/-- `_nonempty` -/
def nonempty (value fieldName : String) : Checked Unit :=
  check (clean value = true) (fieldName ++ " must be a non-empty string without NUL bytes")

/-- What a constructor returns: a value as its `__post_init__` left it. -/
structure Made {α : Type} (postInit : α → Checked α) where
  value : α
  made : ∃ given, postInit given = .ok value

/-- Call a constructor. -/
def build {α : Type} (postInit : α → Checked α) (given : α) : Checked (Made postInit) :=
  match h : postInit given with
  | .ok a => .ok ⟨a, given, h⟩
  | .error e => .error e

/-! Hosts. -/

/-- `text.rstrip(".")` -/
def rstripDots (text : String) : String :=
  String.ofList (text.toList.reverse.dropWhile (· = '.')).reverse

def labelOk (label : List Char) : Bool :=
  label ≠ [] && label.length ≤ 63 && label.head? ≠ some '-' && label.getLast? ≠ some '-' &&
    label.all (fun ch => ch.isAlphanum || ch = '-')

section Hosts

variable [Platform]

/-- The part of `canonical_host` after the library found no address. -/
def canonicalName (candidate : String) : Checked String :=
  match Platform.idna candidate with
  | none => .error "host is not a valid IDNA hostname"
  | some canonical => do
    check ((canonical.toList.splitOn '.').all labelOk = true) "host is not a valid hostname"
    return canonical

/-- A comparison-safe hostname or IP literal. -/
def canonicalHost (host : String) : Checked String := do
  nonempty host "host"
  let candidate := rstripDots host
  check (candidate ≠ "" ∧ ["://", "@", "/", "\\", "*"].all (fun part => !PyText.contains candidate part) = true)
    "host must be a hostname or IP literal, not a URL or pattern"
  match Platform.ipAddress candidate with
  | some address => return Platform.compressed address
  | none => canonicalName candidate

end Hosts

/-- An argv prefix or exact argv rule. -/
structure CommandRule where
  argv : List String
  exact : Bool
deriving DecidableEq

namespace CommandRule

def postInit (rule : CommandRule) : Checked CommandRule := do
  check (rule.argv ≠ [] ∧ rule.argv.all clean = true)
    "command rule argv must contain non-empty strings without NUL bytes"
  return rule

def «matches» (rule : CommandRule) (argv : List String) : Bool :=
  if rule.exact then argv = rule.argv
  else rule.argv.length ≤ argv.length && argv.take rule.argv.length = rule.argv

end CommandRule

/-- `PurePath(path).parts` of an absolute path. -/
def parts (path : String) : List String := (PyText.split '/' path).filter (· ≠ "")

/-- A root with point-in-time symlink-aware containment checks. -/
structure PathRule where
  root : String
  allowRoot : Bool
deriving DecidableEq

namespace PathRule

variable [Platform]

def postInit (rule : PathRule) : Checked PathRule := do
  check (hasNul rule.root = false) "path rule root cannot contain NUL bytes"
  return { rule with root := Platform.resolve rule.root }

def «matches» (rule : PathRule) (path : String) : Bool :=
  if hasNul path then false
  else
    let resolved := Platform.resolve path
    if resolved = rule.root then rule.allowRoot else (parts rule.root).isPrefixOf (parts resolved)

end PathRule

/-- An exact host, `*.domain` suffix, or IP CIDR rule. -/
structure NetworkRule where
  host : String
  ports : List Int
deriving DecidableEq

def portOk (port : Int) : Bool := 1 ≤ port && port ≤ 65535

/-- `host.startswith("*.")` -/
def isPattern (host : String) : Bool := PyText.startsWith host "*."

/-- `host[2:]` -/
def afterStar (host : String) : String := String.ofList (host.toList.drop 2)

namespace NetworkRule

variable [Platform]

@[irreducible] def canonicalRuleHost (given : String) : Checked String := do
  nonempty given "host rule"
  let raw := rstripDots given
  if isPattern raw then
    let suffix ← canonicalHost (afterStar raw)
    return "*." ++ suffix
  else
    match Platform.ipNetwork raw with
    | none => canonicalHost raw
    | some network => return Platform.withPrefixlen network

def postInit (rule : NetworkRule) : Checked NetworkRule := do
  check (rule.ports.all portOk = true) "network rule ports must be integers from 1 to 65535"
  let host ← canonicalRuleHost rule.host
  return { rule with host }

/-- The part of `matches` about the host. -/
def hostMatches (rule : NetworkRule) (host : String) : Bool :=
  match canonicalHost host with
  | .error _ => false
  | .ok candidate =>
    if isPattern rule.host then
      let suffix := afterStar rule.host
      ("." ++ suffix).toList.isSuffixOf candidate.toList && candidate ≠ suffix
    else
      match Platform.ipNetwork rule.host with
      | none => candidate = rule.host
      | some network =>
        match Platform.ipAddress candidate with
        | none => false
        | some address => Platform.isIn address network

/-- `self.ports and port not in self.ports` -/
def portRefused (rule : NetworkRule) (port : Option Int) : Bool :=
  rule.ports ≠ [] && !(port.any rule.ports.contains)

def «matches» (rule : NetworkRule) (host : String) (port : Option Int) : Bool :=
  if rule.portRefused port then false else rule.hostMatches host

end NetworkRule

/-! The amounts a constructor accepts. -/

/-- `math.isfinite(x)`, which raises for an integer that no float can hold. -/
def isfinite : Num → Bool
  | .int n => n.natAbs < 2 ^ 1024 - 2 ^ 970
  | .float d => d.coef.natAbs ≤ (2 ^ 1024 - 2 ^ 971) * 10 ^ d.scale
  | _ => false

/-- A finite non-negative number. -/
def amountOk (amount : Num) : Bool := isfinite amount && (Num.int 0).le amount

mutual
/-- `_freeze_json`: the count of items after this one. -/
def freezeJson (depth count : Nat) (value : Json) : Checked Nat := do
  check (depth ≤ 16) "context exceeds the maximum nesting depth"
  check (count + 1 ≤ 4096) "context exceeds the maximum item count"
  match value with
  | .null | .bool _ => return count + 1
  | .num (.int n) => do
    check (n.natAbs < 2 ^ 4096) "context integer is too large"
    return count + 1
  | .num n => do
    check (isfinite n = true) "context numbers must be finite"
    return count + 1
  | .str text => do
    check (text.length ≤ 65536) "context string is too large"
    return count + 1
  | .obj fields => freezeFields (depth + 1) (count + 1) fields
  | .arr items => freezeItems (depth + 1) (count + 1) items
def freezeItems (depth count : Nat) : List Json → Checked Nat
  | [] => .ok count
  | value :: items => do freezeItems depth (← freezeJson depth count value) items
def freezeFields (depth count : Nat) : List (String × Json) → Checked Nat
  | [] => .ok count
  | (_, value) :: fields => do freezeFields depth (← freezeJson depth count value) fields
end

/-- `sorted(present_fields - allowed_fields)` -/
def irrelevant (allowed : List String) (present : List (String × Bool)) : List String :=
  ((present.filter (fun f => f.2 && !allowed.contains f.1)).map Prod.fst).insertionSort (· ≤ ·)

/-- A normalized declaration of an intended action. -/
structure Action where
  actionType : ActionType
  operation : String
  resource : String
  argv : List String
  path : Option String
  host : Option String
  port : Option Int
  amount : Option Num
  verifier : Bool
  context : List (String × Json)

namespace Action

def allowedFields : ActionType → List String
  | .tool => ["resource"]
  | .filesystem => ["path"]
  | .command => ["argv"]
  | .network => ["host", "port"]
  | .secret => ["resource"]
  | .budget => ["resource", "amount"]
  | .deployment => ["resource"]

def presentFields (a : Action) : List (String × Bool) :=
  [("resource", a.resource ≠ ""), ("argv", a.argv ≠ []), ("path", a.path.isSome), ("host", a.host.isSome),
    ("port", a.port.isSome), ("amount", a.amount.isSome)]

def needsResource (actionType : ActionType) : Bool :=
  [ActionType.tool, .secret, .budget, .deployment].contains actionType

variable [Platform]

def postInit (a : Action) : Checked Action := do
  nonempty a.operation "operation"
  check (hasNul a.resource = false) "resource cannot contain NUL bytes"
  check (needsResource a.actionType = true → a.resource ≠ "") (a.actionType.value ++ " actions require a resource")
  check (a.argv.all clean = true) "argv must contain non-empty strings without NUL bytes"
  check (a.actionType = .command → a.argv ≠ []) "command actions require a non-empty argv"
  check (a.path.all clean = true) "path must be non-empty and cannot contain NUL bytes"
  check (a.actionType = .filesystem → a.path.isSome = true) "filesystem actions require a non-empty path"
  let host ← a.host.mapM canonicalHost
  check (a.actionType = .network → host.isSome = true) "network actions require a host"
  check (a.port.all portOk = true) "port must be an integer from 1 to 65535"
  check (a.amount.all amountOk = true) "amount must be a finite non-negative number"
  let unexpected := irrelevant (allowedFields a.actionType) a.presentFields
  check (unexpected = []) (a.actionType.value ++ " action has irrelevant fields: " ++ ", ".intercalate unexpected)
  let _ ← freezeJson 0 0 (.obj a.context)
  return { a with host }

end Action

/-- A least-privilege scope carried by policy rules or signed tokens. -/
structure Capability [Platform] where
  actionType : ActionType
  operations : List String
  resources : List String
  commandRules : List (Made CommandRule.postInit)
  pathRules : List (Made PathRule.postInit)
  networkRules : List (Made NetworkRule.postInit)
  maxAmount : Option Num
  verifier : Bool

namespace Capability

variable [Platform]

def allowedFields : ActionType → List String
  | .tool => ["resources"]
  | .filesystem => ["path_rules"]
  | .command => ["command_rules"]
  | .network => ["network_rules"]
  | .secret => ["resources"]
  | .budget => ["resources", "max_amount"]
  | .deployment => ["resources"]

def requiredField : ActionType → String
  | .tool => "resources"
  | .filesystem => "path_rules"
  | .command => "command_rules"
  | .network => "network_rules"
  | .secret => "resources"
  | .budget => "resources"
  | .deployment => "resources"

def presentFields (c : Capability) : List (String × Bool) :=
  [("resources", c.resources ≠ []), ("command_rules", c.commandRules ≠ []), ("path_rules", c.pathRules ≠ []),
    ("network_rules", c.networkRules ≠ []), ("max_amount", c.maxAmount.isSome)]

def postInit (c : Capability) : Checked Capability := do
  check (c.operations ≠ [] ∧ c.operations.all clean = true) "capability operations must be non-empty strings"
  check (c.resources.all clean = true) "capability resources must be non-empty strings"
  check (c.maxAmount.all amountOk = true) "max_amount must be a finite non-negative number"
  let unexpected := irrelevant (allowedFields c.actionType) c.presentFields
  check (unexpected = [])
    (c.actionType.value ++ " capability has irrelevant fields: " ++ ", ".intercalate unexpected)
  check ((requiredField c.actionType, true) ∈ c.presentFields)
    (c.actionType.value ++ " capability requires " ++ requiredField c.actionType)
  return c

/-- `_resource_matches` -/
def resourceMatches (c : Capability) (resource : String) : Bool :=
  c.resources.contains "*" || c.resources.contains resource

/-- The operation is one of the capability's. -/
def operationMatches (c : Capability) (operation : String) : Bool :=
  c.operations.contains "*" || c.operations.contains operation

/-- The part of `matches` that depends on the type of the action. -/
def scopeMatches (c : Capability) (action : Action) : Bool :=
  match c.actionType with
  | .command => c.commandRules.any (fun rule => rule.value.matches action.argv)
  | .filesystem => action.path.any (fun path => c.pathRules.any (fun rule => rule.value.matches path))
  | .network => action.host.any (fun host => c.networkRules.any (fun rule => rule.value.matches host action.port))
  | .budget =>
    if !c.resourceMatches action.resource then false
    else c.maxAmount.all (fun largest => action.amount.any (fun amount => amount.le largest))
  | _ => c.resourceMatches action.resource

def «matches» (c : Capability) (action : Action) (matchVerifier : Bool) : Bool :=
  if action.actionType ≠ c.actionType then false
  else if matchVerifier && action.verifier ≠ c.verifier then false
  else if !c.operationMatches action.operation then false
  else c.scopeMatches action

end Capability

structure PolicyRule [Platform] where
  ruleId : String
  effect : DecisionEffect
  capability : Made Capability.postInit

def PolicyRule.postInit [Platform] (rule : PolicyRule) : Checked PolicyRule := do
  nonempty rule.ruleId "rule_id"
  return rule

/-- An immutable deny-by-default rule set. -/
structure Policy [Platform] where
  rules : List (Made PolicyRule.postInit)
  unique : (rules.map fun rule => rule.value.ruleId).Nodup

structure Decision where
  effect : DecisionEffect
  reasonCode : String
  matchedRuleIds : List String
  matchedTokenIds : List String
  resolvedPath : Option String
deriving DecidableEq

namespace Decision

def allowed (d : Decision) : Bool := d.effect = .allow

def denied (d : Decision) : Bool := d.effect = .deny

def approvalRequired (d : Decision) : Bool := d.effect = .requireApproval

end Decision

end Onmc.ToolBroker

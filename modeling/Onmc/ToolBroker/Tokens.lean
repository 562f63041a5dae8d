import Onmc.Base64
import Onmc.Calendar
import Onmc.Hmac
import Onmc.ToolBroker.Models

/-! HMAC-authenticated, scoped, expiring capability tokens. -/
namespace Onmc.ToolBroker

open Onmc.Runtime (Checked check)

def maxTokenLength : Nat := 65536

def signatureLength : Nat := 43

/-- `text.encode("ascii")` -/
def encodeAscii (text : List Char) : Option (List UInt8) :=
  if text.all (fun c => c.toNat < 128) then some (text.map fun c => UInt8.ofNat c.toNat) else none

/-- The text of the bytes that `json.loads` is given, when they are ASCII. -/
def decodeAscii (bytes : List UInt8) : Option String :=
  if bytes.all (fun b => b.toNat < 128) then some (String.ofList (bytes.map fun b => Char.ofNat b.toNat)) else none

/-- `canonical_json_bytes` -/
def canonicalJsonBytes (data : Json) : List UInt8 := data.dumpsAscii.toList.map fun c => UInt8.ofNat c.toNat

/-- `_decode` -/
def decode (data : List Char) : Option (List UInt8) :=
  if data = [] ∨ !data.all Base64.alphabet.contains then none
  else (Base64.decode data).filter (fun decoded => Base64.encode decoded = data)

/-- `value.isoformat()` of a time in UTC. -/
def isoformat (t : DateTime) : String := String.ofList (t.isoformat.dropLast ++ "+00:00".toList)

/-- `datetime.fromisoformat(text)`, of the texts that `isoformat` writes. -/
def fromisoformat (text : String) : Option DateTime :=
  if "+00:00".toList.isSuffixOf text.toList then
    DateTime.fromisoformat (text.toList.take (text.toList.length - 6) ++ ['Z'])
  else none

/-- `issued_at + ttl`, with the `timedelta` in microseconds. -/
def addTtl (t : DateTime) (ttl : Int) : Checked DateTime :=
  if h : 0 ≤ t.micros + ttl ∧ t.micros + ttl < 315537897600000000 then .ok ⟨(t.micros + ttl).toNat, by omega⟩
  else .error "date value out of range"

/-- `sorted(...)` of a set of strings. -/
def sortedSet (items : List String) : List String := items.eraseDups.insertionSort (· ≤ ·)

/-- `sorted(...)` of a set of ports. -/
def sortedPorts (ports : List Int) : List Int := ports.eraseDups.insertionSort (· ≤ ·)

def Json.ints (items : List Int) : Json := .arr (items.map fun n => .num (.int n))

section Payloads

variable [Platform]

def commandPayload (rule : CommandRule) : Json :=
  .obj [("argv", Onmc.Runtime.Json.strs rule.argv), ("exact", .bool rule.exact)]

def pathPayload (rule : PathRule) : Json :=
  .obj [("root", .str rule.root), ("allow_root", .bool rule.allowRoot)]

def networkPayload (rule : NetworkRule) : Json :=
  .obj [("host", .str rule.host), ("ports", Json.ints (sortedPorts rule.ports))]

/-- `_capability_payload` -/
def capabilityPayload (c : Capability) : Json :=
  .obj [("action_type", .str c.actionType.value), ("operations", Onmc.Runtime.Json.strs (sortedSet c.operations)),
    ("resources", Onmc.Runtime.Json.strs (sortedSet c.resources)),
    ("command_rules", .arr (c.commandRules.map fun rule => commandPayload rule.value)),
    ("path_rules", .arr (c.pathRules.map fun rule => pathPayload rule.value)),
    ("network_rules", .arr (c.networkRules.map fun rule => networkPayload rule.value)),
    ("max_amount", .ofOption .num c.maxAmount), ("verifier", .bool c.verifier)]

/-! Reading. A payload that Python would coerce from another type is refused. -/

def invalid {α : Type} : Checked α := .error "invalid capability"

def readString : Json → Checked String
  | .str text => .ok text
  | _ => invalid

def readInt : Json → Checked Int
  | .num (.int n) => .ok n
  | _ => invalid

/-- `bool(value)` -/
def truthy : Json → Bool
  | .null => false
  | .bool b => b
  | .num n => !n.eq (.int 0)
  | .str text => text ≠ ""
  | .arr items => !items.isEmpty
  | .obj fields => !fields.isEmpty

/-- `data[key]` -/
def item (data : Json) (key : String) : Checked Json :=
  match data.get? key with
  | some value => .ok value
  | none => invalid

/-- `data.get(key, [])`, as an iterable. -/
def itemsOf (data : Json) (key : String) : Checked (List Json) :=
  match data.get? key with
  | none => .ok []
  | some (.arr items) => .ok items
  | some _ => invalid

def isObject : Json → Bool
  | .obj _ => true
  | _ => false

def ActionType.ofValue (text : String) : Checked ActionType :=
  match [ActionType.tool, .filesystem, .command, .network, .secret, .budget, .deployment].find?
      (fun t => t.value = text) with
  | some actionType => .ok actionType
  | none => .error (text ++ " is not a valid ActionType")

def commandOf (data : Json) : Checked (Made CommandRule.postInit) := do
  let argv ← item data "argv"
  let exact ← item data "exact"
  let argv ← match argv with
    | .arr items => items.mapM readString
    | _ => invalid
  build CommandRule.postInit ⟨argv, truthy exact⟩

def pathOf (data : Json) : Checked (Made PathRule.postInit) := do
  let root ← item data "root"
  let allowRoot ← item data "allow_root"
  let root ← readString root
  build PathRule.postInit ⟨root, truthy allowRoot⟩

def networkOf (data : Json) : Checked (Made NetworkRule.postInit) := do
  let host ← item data "host"
  let host ← readString host
  let ports ← itemsOf data "ports"
  let ports ← ports.mapM readInt
  build NetworkRule.postInit ⟨host, ports⟩

/-- `float(data["max_amount"]) if data.get("max_amount") is not None else None` -/
def maxAmountOf (data : Json) : Checked (Option Num) :=
  match data.get? "max_amount" with
  | none | some .null => .ok none
  | some (.num n) => .ok (some n.toFloat)
  | some _ => invalid

/-- `_capability_from_payload` -/
def capabilityFromPayload (data : Json) : Checked (Made Capability.postInit) := do
  if !isObject data then invalid
  else do
    let actionType ← item data "action_type"
    let actionType ← readString actionType
    let actionType ← ActionType.ofValue actionType
    let operations ← itemsOf data "operations"
    let operations ← operations.mapM readString
    let resources ← itemsOf data "resources"
    let resources ← resources.mapM readString
    let commandRules ← itemsOf data "command_rules"
    let commandRules ← (commandRules.filter isObject).mapM commandOf
    let pathRules ← itemsOf data "path_rules"
    let pathRules ← (pathRules.filter isObject).mapM pathOf
    let networkRules ← itemsOf data "network_rules"
    let networkRules ← (networkRules.filter isObject).mapM networkOf
    let maxAmount ← maxAmountOf data
    let verifier := truthy ((data.get? "verifier").getD (.bool false))
    build Capability.postInit
      { actionType, operations, resources, commandRules, pathRules, networkRules, maxAmount, verifier }

end Payloads

structure CapabilityToken [Platform] where
  tokenId : String
  subject : String
  capabilities : List (Made Capability.postInit)
  issuedAt : DateTime
  expiresAt : DateTime

/-- Mint and verify opaque-looking signed capability tokens. -/
structure TokenAuthority where
  signingKey : List UInt8
  long : 32 ≤ signingKey.length

namespace TokenAuthority

/-- The signature over the encoded part of a token. -/
def sign (authority : TokenAuthority) (encoded : List UInt8) : List Char :=
  Base64.encode (Sha256.hmac authority.signingKey encoded)

variable [Platform]

def tokenPayload (tokenId subject : String) (issuedAt expiresAt : DateTime)
    (scopes : List (Made Capability.postInit)) : Json :=
  .obj [("version", .num (.int 1)), ("token_id", .str tokenId), ("subject", .str subject),
    ("issued_at", .str (isoformat issuedAt)), ("expires_at", .str (isoformat expiresAt)),
    ("capabilities", .arr (scopes.map fun scope => capabilityPayload scope.value))]

/-- `issue`, at the time `issuedAt` and with the random `tokenId`. -/
def issue (authority : TokenAuthority) (tokenId : String) (issuedAt : DateTime) (subject : String)
    (scopes : List (Made Capability.postInit)) (ttl : Int) : Checked String := do
  check (clean subject = true) "token subject must be non-empty"
  let expiresAt ← addTtl issuedAt ttl
  check (scopes ≠ []) "a capability token must carry at least one scope"
  let encoded := Base64.encode (canonicalJsonBytes (tokenPayload tokenId subject issuedAt expiresAt scopes))
  check (encoded.length + 1 + signatureLength ≤ maxTokenLength) "capability token exceeds the maximum encoded size"
  return String.ofList (encoded ++ '.' :: authority.sign (encoded.map fun c => UInt8.ofNat c.toNat))

/-- `payload.get("version") != 1` -/
def versionOk (payload : Json) : Bool :=
  match payload.get? "version" with
  | some (.num n) => n.eq (.int 1)
  | some (.bool b) => b
  | _ => false

/-- The checks of `verify` on the payload of an authentic token. -/
def readPayload (payload : Json) (subject : Option String) (now : DateTime) : Option CapabilityToken := do
  if !isObject payload || !versionOk payload then none
  else do
    let tokenSubject ← (readString (← payload.get? "subject")).toOption
    if subject.any (· ≠ tokenSubject) then none
    else do
      let issuedAt ← fromisoformat (← (readString (← payload.get? "issued_at")).toOption)
      let expiresAt ← fromisoformat (← (readString (← payload.get? "expires_at")).toOption)
      if now.micros < issuedAt.micros ∨ expiresAt.micros ≤ now.micros then none
      else do
        let items ← match payload.get? "capabilities" with
          | some (.arr items) => some items
          | _ => none
        let capabilities ← (items.mapM capabilityFromPayload).toOption
        if capabilities = [] then none
        else do
          let tokenId ← (readString (← payload.get? "token_id")).toOption
          return ⟨tokenId, tokenSubject, capabilities, issuedAt, expiresAt⟩

/-- The two parts of a token with exactly one dot. -/
def splitToken (token : List Char) : Option (List Char × List Char) :=
  match token.splitOn '.' with
  | [encoded, signature] => some (encoded, signature)
  | _ => none

/-- The signature is the canonical form of the code over the encoded part. -/
def authentic (authority : TokenAuthority) (encoded signature : List Char) : Bool :=
  match encodeAscii encoded, decode signature with
  | some message, some tag => tag = Sha256.hmac authority.signingKey message
  | _, _ => false

def verify (authority : TokenAuthority) (token : String) (subject : Option String) (now : DateTime) :
    Option CapabilityToken := do
  if maxTokenLength < token.toList.length then none
  else do
    let (encoded, signature) ← splitToken token.toList
    if signature.length ≠ signatureLength then none
    else if !authority.authentic encoded signature then none
    else do
      let payload ← Json.loads (← decodeAscii (← decode encoded))
      readPayload payload subject now

end TokenAuthority

end Onmc.ToolBroker

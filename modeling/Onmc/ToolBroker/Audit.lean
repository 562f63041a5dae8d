import Onmc.DurableRuntime.Store
import Onmc.ToolBroker.Tokens

/-! The audit ledger of the broker: one JSON event a line, each with the hash of the one before. -/
namespace Onmc.ToolBroker

open Onmc.Runtime (Checked check)
open Onmc.DurableRuntime (splitLines)

namespace AuditLog

def genesisHash : String := String.ofList (List.replicate 64 '0')

/-- `value == n`, of a JSON value and an integer. -/
def equalsInt : Option Json → Int → Bool
  | some (.num x), n => x.eq (.int n)
  | some (.bool b), n => n = if b then 1 else 0
  | _, _ => false

/-- `value == text`, of a JSON value and a string. -/
def equalsText : Option Json → String → Bool
  | some (.str s), text => s = text
  | _, _ => false

section Hashed

variable [Sha256]

/-- `_event_hash` -/
def eventHash (event : Json) : String := Sha256.hexdigest event.dumpsAscii

/-- An event before its own hash is added. -/
def eventBody (sequence : Nat) (timestamp : DateTime) (eventType : String) (data : List (String × Json))
    (previousHash : String) : List (String × Json) :=
  [("sequence", .num (.int sequence)), ("timestamp", .str (isoformat timestamp)), ("event_type", .str eventType),
    ("data", .obj data), ("previous_hash", .str previousHash)]

/-- The event as it is written. -/
def sealedEvent (body : List (String × Json)) : Json :=
  .obj (body ++ [("event_hash", .str (eventHash (.obj body)))])

/-- `str(json.loads(line)["event_hash"])`. Only a string is read. -/
def lastHash (line : String) : Checked String :=
  match Json.loads line with
  | none => .error "invalid JSON"
  | some last =>
    match last.get? "event_hash" with
    | some (.str claimed) => .ok claimed
    | _ => .error "event_hash"

/-- The hash that the next event names. -/
def previousHashOf (lines : List String) : Checked String :=
  match lines.getLast? with
  | none => .ok genesisHash
  | some line => lastHash line

/-- `append`, on the text of the ledger: the text after it. A missing file is created. -/
def append (ledger : Option String) (timestamp : DateTime) (eventType : String) (data : List (String × Json)) :
    Checked String := do
  check (clean eventType = true) "audit event type must be non-empty"
  let text := ledger.getD ""
  let lines := splitLines text
  let previousHash ← previousHashOf lines
  let event := sealedEvent (eventBody lines.length timestamp eventType data previousHash)
  return text ++ event.dumpsAscii ++ "\n"

/-- One round of the loop in `verify`: the hash of the event. -/
def verifyLine (sequence : Nat) (previousHash line : String) : Option String :=
  match Json.loads line with
  | some (.obj fields) =>
    let claimedHash := (Json.obj fields).get? "event_hash"
    let event := (Json.obj fields).without "event_hash"
    if !equalsInt (event.get? "sequence") sequence then none
    else if !equalsText (event.get? "previous_hash") previousHash then none
    else if !equalsText claimedHash (eventHash event) then none
    else some (eventHash event)
  | _ => none

/-- The loop in `verify`: the last sequence and the last hash. -/
def verifyLines (sequence : Nat) (finalSequence : Int) (previousHash : String) : List String → Option (Int × String)
  | [] => some (finalSequence, previousHash)
  | line :: lines =>
    match verifyLine sequence previousHash line with
    | none => none
    | some claimedHash => verifyLines (sequence + 1) sequence claimedHash lines

/-- `verify`, of the text of a ledger that is a regular file or missing. -/
def verify (ledger : Option String) (expectedSequence : Option Int) (expectedHead : Option String) : Bool :=
  match ledger with
  | none => false
  | some text =>
    match verifyLines 0 (-1) genesisHash (splitLines text) with
    | none => false
    | some (finalSequence, previousHash) =>
      if expectedSequence.any (finalSequence ≠ ·) then false
      else expectedHead.all (previousHash = ·)

/-- Append events one after the other. -/
def appendAll (ledger : Option String) : List (DateTime × String × List (String × Json)) → Checked (Option String)
  | [] => .ok ledger
  | (timestamp, eventType, data) :: events => do
    let text ← append ledger timestamp eventType data
    appendAll (some text) events

end Hashed

/-- The events of a ledger. -/
def events (text : String) : List (Option Json) :=
  (splitLines text).map fun line => (Json.loads line).map Json.canonical

end AuditLog

end Onmc.ToolBroker

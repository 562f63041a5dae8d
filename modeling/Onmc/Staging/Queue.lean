import Mathlib.Data.List.Sort
import Onmc.DurableRuntime.Store
import Onmc.PyText
import Onmc.Sha1

/-! The two approval queues, memstage and skillguard: a file for each pending proposal, a file for each
decision. A file's JSON text is left out: what is written is what is read back. -/
namespace Onmc.Staging

open Onmc.DurableRuntime (pyRepr)

inductive Folder where
  | pending | audit | elsewhere
  deriving DecidableEq

/-- Where the system ends up, from a folder, with a name that is a path of its own; the files there are
told by their names. -/
class Paths where
  reach : (pending audit elsewhere : List String) → Folder → String → Option (Folder × String)

inductive Decision where
  | approved | rejected
  deriving DecidableEq

structure AuditRecord where
  seq : Nat
  proposalId : String
  decision : Decision
  reason : String
  /-- `memory_id`, or `skill_id` -/
  madeId : String
  deriving DecidableEq

/-- The last dot of a name and what follows it; a dot at either end is none. -/
def suffix (name : List Char) : List Char :=
  let ext := name.reverse.takeWhile (· ≠ '.')
  let stem := (name.reverse.dropWhile (· ≠ '.')).drop 1
  if ext = [] ∨ stem = [] then [] else '.' :: ext.reverse

def isJson (name : String) : Bool := suffix name.toList == ['.', 'j', 's', 'o', 'n']

/-- `f"{n:0{width}d}"` -/
def padded (width n : Nat) : String :=
  String.ofList (List.replicate (width - (Nat.toDigits 10 n).length) '0' ++ Nat.toDigits 10 n)

section

variable {Body : Type}

structure Proposal (Body : Type) where
  id : String
  body : Body
  reason : String
  stagedAt : String
  seq : Nat
  deriving DecidableEq

inductive Stored (Body : Type) where
  | proposal (p : Proposal Body)
  | audit (r : AuditRecord)

/-- `from_dict` of a proposal: a decision has no `id`. -/
def Stored.asProposal : Stored Body → Option (Proposal Body)
  | .proposal p => some p
  | .audit _ => none

/-- `from_dict` of a decision, which tolerates what is missing. -/
def Stored.asAudit : Stored Body → AuditRecord
  | .proposal p => ⟨p.seq, "", .rejected, p.reason, ""⟩
  | .audit r => r

structure Disk (Body : Type) where
  pending : List (String × Stored Body)
  audit : List (String × Stored Body)
  elsewhere : List (String × Stored Body)

namespace Disk

def empty : Disk Body := ⟨[], [], []⟩

def folder (q : Disk Body) : Folder → List (String × Stored Body)
  | .pending => q.pending
  | .audit => q.audit
  | .elsewhere => q.elsewhere

def setFolder (q : Disk Body) (files : List (String × Stored Body)) : Folder → Disk Body
  | .pending => { q with pending := files }
  | .audit => { q with audit := files }
  | .elsewhere => { q with elsewhere := files }

end Disk

/-- What the two queues differ in. -/
structure Flavor (Body : Type) where
  tag : String
  check : Body → Except String Body
  /-- The text whose hash the id carries. -/
  hashed : Body → String
  /-- What is asked of a proposal before it is approved. -/
  approvable : Body → Except String Unit

/-- `_content_hash` -/
def contentHash (f : Flavor Body) (body : Body) : String := PyText.first 16 (Sha1.sha1 (f.hashed body))

/-- `_proposal_id` -/
def proposalId (f : Flavor Body) (body : Body) (seq : Nat) : String :=
  f.tag ++ "-" ++ contentHash f body ++ "-" ++ padded 4 seq

def countJson (files : List (String × Stored Body)) : Nat := (files.filter (fun file => isJson file.1)).length

/-- `_next_seq` -/
def nextSeq (q : Disk Body) : Nat := countJson q.pending

/-- `_next_audit_seq` -/
def nextAuditSeq (q : Disk Body) : Nat := countJson q.audit

variable [Paths]

def locate (q : Disk Body) (folder : Folder) (name : String) : Option (Folder × String) :=
  if '/' ∈ name.toList then
    Paths.reach (Dict.keys q.pending) (Dict.keys q.audit) (Dict.keys q.elsewhere) folder name
  else some (folder, name)

def write (q : Disk Body) (folder : Folder) (name : String) (content : Stored Body) : Except String (Disk Body) :=
  match locate q folder name with
  | some (folder, name) => .ok (q.setFolder (Dict.setItem name content (q.folder folder)) folder)
  | none => .error "No such file or directory"

/-- `_load_proposal`; only a name with a null character raises. -/
def loadProposal (q : Disk Body) (proposalId : String) : Except String (Option (Proposal Body)) :=
  if Char.ofNat 0 ∈ proposalId.toList then .error "embedded null byte"
  else
    match locate q .pending (proposalId ++ ".json") with
    | some (folder, name) => .ok (((q.folder folder).lookup name).bind Stored.asProposal)
    | none => .ok none

/-- `_remove_proposal` -/
def removeProposal (q : Disk Body) (proposalId : String) : Disk Body :=
  match locate q .pending (proposalId ++ ".json") with
  | some (folder, name) => q.setFolder (Dict.pop name (q.folder folder)) folder
  | none => q

def auditName (r : AuditRecord) : String := padded 6 r.seq ++ "-" ++ r.proposalId ++ ".json"

def stage (f : Flavor Body) (q : Disk Body) (body : Body) (reason stagedAt : String) :
    Disk Body × Except String (Proposal Body) :=
  match f.check body with
  | .error e => (q, .error e)
  | .ok body =>
    let seq := nextSeq q
    let p : Proposal Body := ⟨proposalId f body seq, body, PyText.strip reason, stagedAt, seq⟩
    match write q .pending (p.id ++ ".json") (.proposal p) with
    | .ok q' => (q', .ok p)
    | .error e => (q, .error e)

/-- The end of `approve` and of `reject`. -/
def settle (q : Disk Body) (proposalId : String) (decision : Decision) (reason madeId : String) :
    Disk Body × Except String AuditRecord :=
  let q := removeProposal q proposalId
  let record : AuditRecord := ⟨nextAuditSeq q, proposalId, decision, reason, madeId⟩
  match write q .audit (auditName record) (.audit record) with
  | .ok q' => (q', .ok record)
  | .error e => (q, .error e)

def unknownId (proposalId : String) : String := "no pending proposal with id " ++ pyRepr proposalId

/-- `approve`; `serve` is the service's answer, the id of what it made. -/
def approve (f : Flavor Body) (q : Disk Body) (proposalId : String) (serve : Proposal Body → Except String String) :
    Disk Body × Except String AuditRecord :=
  match loadProposal q proposalId with
  | .error e => (q, .error e)
  | .ok none => (q, .error (unknownId proposalId))
  | .ok (some p) =>
    match f.approvable p.body with
    | .error e => (q, .error e)
    | .ok () =>
      match serve p with
      | .error e => (q, .error e)
      | .ok madeId => settle q proposalId .approved "" madeId

def reject (q : Disk Body) (proposalId reason : String) : Disk Body × Except String AuditRecord :=
  match loadProposal q proposalId with
  | .error e => (q, .error e)
  | .ok none => (q, .error (unknownId proposalId))
  | .ok (some _) => settle q proposalId .rejected (PyText.strip reason) ""

/-- `(p.seq, p.id)` is at most that of the other. -/
def keyLe (p p' : Proposal Body) : Prop := p.seq < p'.seq ∨ (p.seq = p'.seq ∧ p.id ≤ p'.id)

instance (p p' : Proposal Body) : Decidable (keyLe p p') := inferInstanceAs (Decidable (_ ∨ _))

/-- The files of a folder that are read, by name. -/
def jsonFiles (files : List (String × Stored Body)) : List (String × Stored Body) :=
  (files.insertionSort (fun a b => a.1 ≤ b.1)).filter (fun file => isJson file.1)

omit [Paths] in
def listPending (q : Disk Body) : List (Proposal Body) :=
  ((jsonFiles q.pending).filterMap (fun file => file.2.asProposal)).insertionSort keyLe

def listAudit (q : Disk Body) : List AuditRecord :=
  ((jsonFiles q.audit).map (fun file => file.2.asAudit)).insertionSort (fun r r' => r.seq ≤ r'.seq)

end

namespace Memstage

structure MemoryBody where
  kind : String
  title : String
  summary : String
  deriving DecidableEq

/-- The values of `MemoryKind`, sorted. -/
def memoryKinds : List String :=
  ["decision", "design_conflict", "doc_fact", "failed_approach", "git_pattern", "gotcha", "hotspot", "invariant",
    "validation_rule"]

def check (b : MemoryBody) : Except String MemoryBody :=
  let b : MemoryBody := ⟨PyText.strip b.kind, PyText.strip b.title, PyText.strip b.summary⟩
  if b.kind = "" then .error "kind must not be empty"
  else if b.title = "" then .error "title must not be empty"
  else if b.summary = "" then .error "summary must not be empty"
  else .ok b

def hashed (b : MemoryBody) : String := b.kind ++ "\x00" ++ b.title ++ "\x00" ++ b.summary

def approvable (b : MemoryBody) : Except String Unit :=
  if b.kind ∈ memoryKinds then .ok ()
  else .error ("unknown memory kind " ++ pyRepr b.kind ++ "; must be one of: " ++ PyText.join ", " memoryKinds)

def flavor : Flavor MemoryBody := ⟨"ms", check, hashed, approvable⟩

end Memstage

namespace Skillguard

structure SkillBody where
  op : String
  name : String
  content : String
  deriving DecidableEq

/-- Unlike a memory's text, a skill's content keeps its blanks. -/
def check (b : SkillBody) : Except String SkillBody :=
  let op := PyText.strip b.op
  let name := PyText.strip b.name
  if op ∉ ["create", "edit", "delete"] then
    .error ("op must be one of ['create', 'delete', 'edit'], got " ++ pyRepr op)
  else if name = "" then .error "name must not be empty"
  else if op ≠ "delete" ∧ PyText.strip b.content = "" then
    .error "content must not be empty for create/edit proposals"
  else .ok ⟨op, name, b.content⟩

def hashed (b : SkillBody) : String := b.op ++ "\x00" ++ b.name ++ "\x00" ++ b.content

def flavor : Flavor SkillBody := ⟨"sg", check, hashed, fun _ => .ok ()⟩

end Skillguard

end Onmc.Staging

import Mathlib.Data.List.Sort
import Mathlib.Order.Defs.LinearOrder
import Onmc.PurePath
import Onmc.PyText

/-! The ledger of file claims. Its file is the list of the claims written there last; a call holds
the lock from its start to its end, so that calls come one after another. -/
namespace Onmc.ClaimLedger

variable {T : Type}

structure Claim (T : Type) where
  owner : String
  path : String
  acquiredAt : T
  expiresAt : T
  deriving DecidableEq

/-- `Path(path).as_posix()` -/
def asPosix (path : String) : String := String.ofList (PurePath.parse path.toList).text

/-- `_normalize_path` -/
def normalizePath (path : String) : Except String String :=
  let normalized := PyText.strip (asPosix path)
  if normalized = "" ∨ normalized = "." then .error "Claim path must not be empty." else .ok normalized

/-- `_normalize_paths` -/
def normalizePaths (paths : List String) : Except String (List String) := do
  let normalized ← paths.mapM normalizePath
  let deduped := PyText.fromKeys normalized
  if deduped = [] then .error "At least one path is required." else .ok deduped

/-- `_sort_claims` -/
def sortClaims (claims : List (Claim T)) : List (Claim T) :=
  claims.insertionSort (fun a b => a.path < b.path ∨ (a.path = b.path ∧ a.owner ≤ b.owner))

/-- `_claim_from_payload` on an entry that was written: only the path can be refused. -/
def claimFromPayload (raw : Claim T) : Option (Claim T) :=
  match normalizePath raw.path with
  | .ok path => some { raw with path }
  | .error _ => none

/-- `_read` -/
def readClaims (file : List (Claim T)) : List (Claim T) := sortClaims (file.filterMap claimFromPayload)

/-- `_write`: the new content of the file. -/
def writeClaims (claims : List (Claim T)) : List (Claim T) := sortClaims claims

structure ClaimResult (T : Type) where
  ok : Bool
  claims : List (Claim T)
  conflicts : List (Claim T)

structure ReleaseResult (T : Type) where
  released : Nat
  claims : List (Claim T)

/-- What a call answers: one of the results, or the message of its `ValueError`. -/
inductive Reply (T : Type) where
  | claims (result : ClaimResult T)
  | released (result : ReleaseResult T)
  | status (claims : List (Claim T))
  | valueError (message : String)

variable [LinearOrder T]

/-- `_active_claims` -/
def activeClaims (file : List (Claim T)) (now : T) : List (Claim T) :=
  (readClaims file).filter (fun claim => now < claim.expiresAt)

def acquire [Add T] (file : List (Claim T)) (now : T) (owner : String) (paths : List String) (ttl : T) :
    List (Claim T) × Reply T :=
  let active := activeClaims file now
  match normalizePaths paths with
  | .error message => (file, .valueError message)
  | .ok wanted =>
    let conflicts := active.filter (fun claim => claim.path ∈ wanted ∧ claim.owner ≠ owner)
    if conflicts ≠ [] then (file, .claims ⟨false, active, conflicts⟩)
    else
      let remaining := active.filter (fun claim => ¬(claim.owner = owner ∧ claim.path ∈ wanted))
      let newClaims := wanted.map (fun path => ⟨owner, path, now, now + ttl⟩)
      let claims := sortClaims (remaining ++ newClaims)
      (writeClaims claims, .claims ⟨true, claims, []⟩)

def release (file : List (Claim T)) (now : T) (owner : String) (path : Option String) :
    List (Claim T) × Reply T :=
  let active := activeClaims file now
  match path.mapM normalizePath with
  | .error message => (file, .valueError message)
  | .ok normalizedPath =>
    let claims := active.filter (fun claim =>
      ¬(claim.owner = owner ∧ (normalizedPath = none ∨ some claim.path = normalizedPath)))
    (writeClaims claims, .released ⟨active.length - claims.length, claims⟩)

def status (file : List (Claim T)) (now : T) : List (Claim T) × Reply T :=
  let claims := activeClaims file now
  (writeClaims claims, .status claims)

def check (file : List (Claim T)) (now : T) (paths : List String) (owner : Option String) :
    List (Claim T) × Reply T :=
  let active := activeClaims file now
  match normalizePaths paths with
  | .error message => (file, .valueError message)
  | .ok wanted =>
    let conflicts := active.filter (fun claim => claim.path ∈ wanted ∧ (owner = none ∨ some claim.owner ≠ owner))
    (file, .claims ⟨conflicts.isEmpty, active, conflicts⟩)

inductive Command (T : Type) where
  | acquire (owner : String) (paths : List String) (ttl : T)
  | release (owner : String) (path : Option String)
  | status
  | check (paths : List String) (owner : Option String)

def perform [Add T] (file : List (Claim T)) (now : T) : Command T → List (Claim T) × Reply T
  | .acquire owner paths ttl => acquire file now owner paths ttl
  | .release owner path => release file now owner path
  | .status => status file now
  | .check paths owner => check file now paths owner

/-- The file after calls at the given times, on a ledger that has none yet. -/
def run [Add T] (calls : List (T × Command T)) : List (Claim T) :=
  calls.foldl (fun file call => (perform file call.1 call.2).1) []

end Onmc.ClaimLedger

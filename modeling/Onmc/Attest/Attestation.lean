import Onmc.Hmac
import Onmc.ToolBroker.Tokens

/-! Portable attestations: a claim distilled from a receipt, signed with a shared secret or only digested. The
document itself says which of the two it is, and a digest is checked without the secret. -/
namespace Onmc.Attest

open Onmc.ToolBroker (truthy canonicalJsonBytes)

/-- `str` of the values that are not plain text, numbers without a fraction, or truth values. -/
class StrOf where
  other : Json → String

section

variable [StrOf]

/-- `str(value)` -/
def str : Json → String
  | .null => "None"
  | .bool true => "True"
  | .bool false => "False"
  | .num (.int n) => toString n
  | .str text => text
  | value => StrOf.other value

/-- `_first_nonempty(receipt.get(key))` -/
def firstNonempty (receipt : List (String × Json)) (key : String) : Option String :=
  match receipt.lookup key with
  | none | some .null => none
  | some value => if str value = "" then none else some (str value)

/-- `_opt_str(receipt.get(key))` -/
def optStr (receipt : List (String × Json)) (key : String) : Json :=
  match receipt.lookup key with
  | none | some .null => .null
  | some value => .str (str value)

/-- `str(data.get(key) or fallback)` -/
def strOr (data : List (String × Json)) (key fallback : String) : String :=
  match data.lookup key with
  | some value => if truthy value then str value else fallback
  | none => fallback

/-- `bool(data.get(key, False))` -/
def flag (data : List (String × Json)) (key : String) : Bool := (data.lookup key).any truthy

def canonicalClaim (receipt : List (String × Json)) : List (String × Json) :=
  let ts := (firstNonempty receipt "ended_at").or (firstNonempty receipt "started_at")
  [("subject", .str ((firstNonempty receipt "agent").getD "onmc")),
    ("goal", .str (strOr receipt "goal" "")),
    ("git_tree_sha", optStr receipt "git_tree_sha"),
    ("diff_sha", optStr receipt "diff_sha"),
    ("receipt_hash", optStr receipt "receipt_hash"),
    ("verified", .bool (flag receipt "verified")),
    ("ts", Json.ofOption .str ts)]

end

/-- `_canonical_json(claim).encode("utf-8")` -/
def payload (claim : List (String × Json)) : List UInt8 := canonicalJsonBytes (.obj claim)

/-- `_resolve_secret`; `env` is the value of `ONMC_ATTEST_SECRET`. -/
def resolveSecret (secret env : Option String) : Option String :=
  (secret.filter (· ≠ "")).or (env.filter (· ≠ ""))

/-- The keyed signature of a claim. -/
def signature (secret : String) (claim : List (String × Json)) : String :=
  Sha256.hexBytes (Sha256.hmac secret.toUTF8.toList (payload claim))

/-- The digest of a claim. -/
def fingerprint (claim : List (String × Json)) : String := Sha256.hexBytes (Sha256.digest (payload claim))

def signClaim (claim : List (String × Json)) (secret env : Option String) : String × Bool :=
  match resolveSecret secret env with
  | some resolved => (signature resolved claim, true)
  | none => (fingerprint claim, false)

structure Attestation where
  subject : String
  claim : List (String × Json)
  alg : String
  signature : String
  signed : Bool

namespace Attestation

def toDict (a : Attestation) : List (String × Json) :=
  [("subject", .str a.subject), ("claim", .obj a.claim), ("alg", .str a.alg), ("signature", .str a.signature),
    ("signed", .bool a.signed)]

def fromDict [StrOf] (data : List (String × Json)) : Attestation :=
  let claim := match data.lookup "claim" with
    | some (.obj fields) => fields
    | _ => []
  let signed := flag data "signed"
  let alg := strOr data "alg" (if signed then "HMAC-SHA256" else "SHA256")
  ⟨strOr data "subject" "onmc", claim, alg, strOr data "signature" "", signed⟩

end Attestation

def buildAttestation [StrOf] (receipt : List (String × Json)) (secret env : Option String) : Attestation :=
  let claim := canonicalClaim receipt
  let (signature, signed) := signClaim claim secret env
  ⟨(firstNonempty receipt "agent").getD "onmc", claim, if signed then "HMAC-SHA256" else "SHA256", signature, signed⟩

/-- `hmac.compare_digest` of texts, which have to be ASCII. -/
def compareDigest (expected given : String) : Except String Bool :=
  if (expected.toList ++ given.toList).all (fun c => c.toNat < 128) then .ok (expected == given)
  else .error "comparing strings with non-ASCII characters is not supported"

def verifyAttestation (a : Attestation) (secret env : Option String) : Except String Bool :=
  if a.signed then
    match resolveSecret secret env with
    | none => .ok false
    | some resolved => compareDigest (signature resolved a.claim) a.signature
  else compareDigest (fingerprint a.claim) a.signature

/-! What a verification establishes. -/

theorem compareDigest_true {expected given : String} (ascii : ∀ c ∈ expected.toList, c.toNat < 128) :
    compareDigest expected given = .ok true ↔ given = expected := by
  unfold compareDigest
  constructor
  · intro accepted
    split at accepted
    · exact (beq_iff_eq.mp (Except.ok.inj accepted)).symm
    · cases accepted
  · rintro rfl
    have plain : (given.toList ++ given.toList).all (fun c => c.toNat < 128) = true := by
      simp only [List.all_append, Bool.and_self, List.all_eq_true, decide_eq_true_eq]
      exact ascii
    rw [if_pos plain, beq_self_eq_true]

theorem signature_ascii (key : String) (claim : List (String × Json)) :
    ∀ c ∈ (signature key claim).toList, c.toNat < 128 := Sha256.hexBytes_ascii _

theorem fingerprint_ascii (claim : List (String × Json)) : ∀ c ∈ (fingerprint claim).toList, c.toNat < 128 :=
  Sha256.hexBytes_ascii _

/-- A signed document is accepted with the keyed signature of its claim, any other with the digest of its claim,
whatever the secret. -/
theorem verify_iff (a : Attestation) (secret env : Option String) :
    verifyAttestation a secret env = .ok true ↔
      if a.signed then ∃ key, resolveSecret secret env = some key ∧ a.signature = signature key a.claim
      else a.signature = fingerprint a.claim := by
  unfold verifyAttestation
  cases a.signed with
  | false =>
    simp only [Bool.false_eq_true, if_false]
    exact compareDigest_true (fingerprint_ascii _)
  | true =>
    simp only [if_true]
    cases resolved : resolveSecret secret env with
    | none => simp
    | some key =>
      simp only [compareDigest_true (signature_ascii _ _), Option.some.injEq, exists_eq_left']

section

variable [StrOf]

theorem build_signed (receipt : List (String × Json)) {secret env : Option String} {key : String}
    (resolved : resolveSecret secret env = some key) :
    buildAttestation receipt secret env = ⟨(firstNonempty receipt "agent").getD "onmc", canonicalClaim receipt,
      "HMAC-SHA256", signature key (canonicalClaim receipt), true⟩ := by
  simp only [buildAttestation, signClaim, resolved, if_true]

theorem build_unsigned (receipt : List (String × Json)) {secret env : Option String}
    (resolved : resolveSecret secret env = none) :
    buildAttestation receipt secret env = ⟨(firstNonempty receipt "agent").getD "onmc", canonicalClaim receipt,
      "SHA256", fingerprint (canonicalClaim receipt), false⟩ := by
  simp only [buildAttestation, signClaim, resolved, Bool.false_eq_true, if_false]

theorem firstNonempty_ne {receipt : List (String × Json)} {key text : String}
    (found : firstNonempty receipt key = some text) : text ≠ "" := by
  unfold firstNonempty at found
  split at found
  · cases found
  · cases found
  · split at found
    · cases found
    · rename_i some
      exact Option.some.inj found ▸ some

/-- A built attestation is read back as it was written. -/
theorem fromDict_toDict (receipt : List (String × Json)) (secret env : Option String) :
    Attestation.fromDict (buildAttestation receipt secret env).toDict = buildAttestation receipt secret env := by
  obtain ⟨a, built⟩ : ∃ a, a = buildAttestation receipt secret env := ⟨_, rfl⟩
  have subject : a.subject ≠ "" := by
    have named : a.subject = (firstNonempty receipt "agent").getD "onmc" := by
      rw [built]
      rfl
    rw [named]
    cases agent : firstNonempty receipt "agent" with
    | none => decide
    | some text => exact firstNonempty_ne agent
  have alg : a.alg ≠ "" := by
    rw [built]
    simp only [buildAttestation]
    split
    · exact (by decide)
    · exact (by decide)
  have text : ∀ {t : String}, t ≠ "" → truthy (.str t) = true := by
    intro t some
    simpa [truthy] using some
  have signature : (if truthy (.str a.signature) then str (.str a.signature) else "") = a.signature := by
    by_cases some : a.signature = ""
    · rw [some]
      rfl
    · rw [if_pos (text some)]
      rfl
  rw [← built]
  simp only [Attestation.fromDict, Attestation.toDict, strOr, flag, List.lookup_cons, beq_self_eq_true,
    String.reduceBEq, Option.any_some, text subject, text alg, if_true, signature]
  rfl

/-- Two claims with the same content, in whatever order it is listed. -/
def SameClaim (claim other : List (String × Json)) : Prop := (Json.obj claim).canonical = (Json.obj other).canonical

/-- Whoever presents a claim with its keyed signature has it from an attestation of one of the receipts. -/
def Unforgeable (secret env : Option String) (presented : List (String × Json) → Prop)
    (receipts : List (List (String × Json))) : Prop :=
  ∀ key, resolveSecret secret env = some key → ∀ data, presented data →
    (Attestation.fromDict data).signature = signature key (Attestation.fromDict data).claim →
      ∃ receipt ∈ receipts,
        Json.dumpsAscii (.obj (Attestation.fromDict data).claim) = Json.dumpsAscii (.obj (canonicalClaim receipt))

end

section

@[reducible] def noOthers : StrOf := ⟨fun _ => ""⟩

attribute [local instance] noOthers

def workReceipt : List (String × Json) :=
  [("agent", .str "worker"), ("goal", .str "fix the webhook"), ("verified", .bool false)]

/-- The claim that the work was verified, which the receipt does not make. -/
def forgedClaim : List (String × Json) := [("verified", .bool true)]

/-- A document without the fields of a signature, over its plain digest. -/
def downgraded : List (String × Json) :=
  [("subject", .str "worker"), ("claim", .obj forgedClaim), ("signature", .str (fingerprint forgedClaim))]

theorem fingerprint_apart : fingerprint forgedClaim ≠ signature "k" forgedClaim := by decide +kernel

end

end Onmc.Attest

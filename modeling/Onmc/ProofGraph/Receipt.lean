import Onmc.ProofGraph.Evaluation
import Onmc.Ranking

/-! The receipt of a proof: its text, how it is read back, and when it does not depend on the order in which the proof
was collected. -/
namespace Onmc.ProofGraph

structure ProofReceipt where
  schemaVersion : String
  graph : Json
  assessment : Json
  results : List Json
  evidence : List Json
  receiptHash : String

namespace ProofReceipt

/-- `_unsigned_payload` -/
def unsigned (r : ProofReceipt) : List (String × Json) :=
  [("schema_version", .str r.schemaVersion), ("graph", r.graph), ("assessment", r.assessment),
    ("results", .arr r.results), ("evidence", .arr r.evidence)]

def toJson (r : ProofReceipt) : String := Json.dumps (.obj (r.unsigned ++ [("receipt_hash", .str r.receiptHash)]))

/-- `==` of receipts: dicts are equal whatever the order of their keys. -/
def Same (r other : ProofReceipt) : Prop :=
  r.schemaVersion = other.schemaVersion ∧ r.graph.canonical = other.graph.canonical ∧
    r.assessment.canonical = other.assessment.canonical ∧
    r.results.map Json.canonical = other.results.map Json.canonical ∧
    r.evidence.map Json.canonical = other.evidence.map Json.canonical ∧ r.receiptHash = other.receiptHash

end ProofReceipt

/-- `set(fields) == set(expected)` -/
def keysAre (expected : List String) (fields : List (String × Json)) : Bool :=
  (Dict.keys fields).all expected.contains && expected.all (Dict.keys fields).contains

def envelopeKeys : List String := ["schema_version", "graph", "assessment", "results", "evidence"]

/-- `_valid_envelope` -/
def validEnvelope (payload : List (String × Json)) : Bool :=
  keysAre envelopeKeys payload &&
    match payload.lookup "schema_version", payload.lookup "graph", payload.lookup "assessment",
      payload.lookup "results", payload.lookup "evidence" with
    | some (.str version), some (.obj _), some (.obj assessment), some (.arr _), some (.arr _) =>
      version = "1" && keysAre ["complete", "false_green", "reasons"] assessment &&
        match assessment.lookup "reasons" with
        | some (.arr _) => true
        | _ => false
    | _, _, _, _, _ => false

theorem keys_canonicalFields (fields : List (String × Json)) (key : String) :
    key ∈ Dict.keys (Json.canonicalFields fields) ↔ key ∈ Dict.keys fields := by
  rw [← Dict.lookup_isSome_iff, ← Dict.lookup_isSome_iff, Json.lookup_canonicalFields, Option.isSome_map]

theorem keysAre_canonicalFields (expected : List String) (fields : List (String × Json)) :
    keysAre expected (Json.canonicalFields fields) = keysAre expected fields := by
  rw [keysAre, keysAre, Bool.eq_iff_iff, Bool.and_eq_true, Bool.and_eq_true]
  simp only [List.all_eq_true, List.contains_iff_mem, keys_canonicalFields]

variable [Sha256]

def digest (value : Json) : String := Sha256.hexdigest (Json.dumps value)

/-- `ProofReceipt.build` -/
def ProofReceipt.build (graph : Graph) (assessment : ProofAssessment) (results : List VerifierResult)
    (evidence : List Evidence) : ProofReceipt :=
  ⟨"1", graphPayload graph, assessmentPayload assessment,
    (sortedOn VerifierResult.verifierId results).map resultPayload,
    (sortedOn Evidence.evidenceId evidence).map evidencePayload, ProofGraph.receiptHash graph assessment results evidence⟩

def verifyReceipt (serialized : String) : Bool :=
  match Json.loads serialized with
  | some (.obj raw) =>
    match raw.lookup "receipt_hash" with
    | some (.str claimed) =>
      let raw := raw.filter (fun field => field.1 ≠ "receipt_hash")
      claimed.length = 64 && validEnvelope raw && digest (.obj raw) = claimed
    | _ => false
  | _ => false

/-- A verified text has all the fields that are read here. -/
def ProofReceipt.fromJson (serialized : String) : Except String ProofReceipt :=
  if verifyReceipt serialized = false then .error "proof receipt integrity check failed"
  else
    let raw := (Json.loads serialized).getD .null
    match raw.get? "schema_version", raw.get? "graph", raw.get? "assessment", raw.get? "results", raw.get? "evidence",
      raw.get? "receipt_hash" with
    | some (.str version), some graph, some assessment, some (.arr results), some (.arr evidence), some (.str hash) =>
      .ok ⟨version, graph, assessment, results, evidence, hash⟩
    | _, _, _, _, _, _ => .error "proof receipt integrity check failed"

/-! Reading back. -/

/-- A receipt with its own hash, in the shape that every receipt has, is read back as it was written. -/
theorem fromJson_toJson {r : ProofReceipt} (envelope : validEnvelope (Json.canonicalFields r.unsigned) = true)
    (own : r.receiptHash = digest (.obj r.unsigned)) (sized : r.receiptHash.length = 64) :
    ∃ read, ProofReceipt.fromJson r.toJson = .ok read ∧ read.Same r := by
  have loaded : Json.loads r.toJson =
      some (.obj (Json.canonicalFields (r.unsigned ++ [("receipt_hash", Json.str r.receiptHash)]))) := by
    rw [ProofReceipt.toJson, Json.loads_dumps, Json.canonical_obj]
  have field (key : String) :
      (Json.canonicalFields (r.unsigned ++ [("receipt_hash", Json.str r.receiptHash)])).lookup key =
        ((r.unsigned ++ [("receipt_hash", Json.str r.receiptHash)]).lookup key).map Json.canonical :=
    Json.lookup_canonicalFields key _
  have rest : (Json.canonicalFields (r.unsigned ++ [("receipt_hash", Json.str r.receiptHash)])).filter
      (fun f => f.1 ≠ "receipt_hash") = Json.canonicalFields r.unsigned := by
    rw [← Json.canonicalFields_filter]
    rfl
  have signed : digest (.obj (Json.canonicalFields r.unsigned)) = r.receiptHash := by
    rw [own, digest, digest, ← Json.canonical_obj, Json.dumps_canonical]
  have hash : (Json.canonicalFields (r.unsigned ++ [("receipt_hash", Json.str r.receiptHash)])).lookup "receipt_hash" =
      some (.str r.receiptHash) := by
    rw [field]
    simp [ProofReceipt.unsigned, List.lookup_cons]
  have verified : verifyReceipt r.toJson = true := by
    simp only [verifyReceipt, loaded, hash, rest, signed, sized, envelope]
    decide
  refine ⟨⟨r.schemaVersion, r.graph.canonical, r.assessment.canonical, r.results.map Json.canonical,
    r.evidence.map Json.canonical, r.receiptHash⟩, ?_, ?_⟩
  · simp only [ProofReceipt.fromJson, verified, loaded, Option.getD_some, Json.get?, field]
    simp [ProofReceipt.unsigned, List.lookup_cons, Json.canonicalItems_eq_map]
  · simp [ProofReceipt.Same, Json.canonical_canonical]

theorem build_unsigned_hash (graph : Graph) (assessment : ProofAssessment) (results : List VerifierResult)
    (evidence : List Evidence) : (ProofReceipt.build graph assessment results evidence).receiptHash =
      digest (.obj (ProofReceipt.build graph assessment results evidence).unsigned) := rfl

theorem build_envelope (graph : Graph) (assessment : ProofAssessment) (results : List VerifierResult)
    (evidence : List Evidence) :
    validEnvelope (Json.canonicalFields (ProofReceipt.build graph assessment results evidence).unsigned) = true := by
  have keys : keysAre envelopeKeys (ProofReceipt.build graph assessment results evidence).unsigned = true := by
    simp [keysAre, envelopeKeys, ProofReceipt.unsigned, Dict.keys]
  have inner : keysAre ["complete", "false_green", "reasons"] [("complete", Json.bool assessment.complete),
      ("false_green", .bool assessment.falseGreen), ("reasons", .arr (assessment.reasons.map .str))] = true := by
    simp [keysAre, Dict.keys]
  simp only [validEnvelope, keysAre_canonicalFields, keys, Json.lookup_canonicalFields, Bool.true_and]
  simp [ProofReceipt.unsigned, ProofReceipt.build, graphPayload, assessmentPayload, List.lookup_cons, keysAre_canonicalFields,
    Json.lookup_canonicalFields, inner, strs]

/-! Order. -/

section

omit [Sha256]

variable {graph : Graph} {results : List VerifierResult} {evidence : List Evidence}

/-- No planned verifier has the id. -/
def unknown (graph : Graph) (verifierId : String) : Bool := graph.verifiers.all (fun node => node.verifierId ≠ verifierId)

theorem unknown_eq (graph : Graph) (verifierId : String) :
    ((byId VerifierNode.verifierId graph.verifiers).lookup verifierId).isNone = unknown graph verifierId := by
  rw [Bool.eq_iff_iff, lookup_byId_isNone]
  simp [unknown]

def resultOrphans (graph : Graph) (results : List VerifierResult) : List String :=
  (results.filter (fun result => unknown graph result.verifierId)).map
    (fun result => "orphan result for unknown verifier " ++ result.verifierId)

def agentReason : String := "agent assertions are not verifier evidence"

/-- The reasons that one piece of evidence gives by itself. -/
def evidenceOrphan (graph : Graph) (item : Evidence) : List String :=
  reasonIf (unknown graph item.verifierId = true) ("orphan evidence " ++ item.evidenceId) ++
    reasonIf (item.source = .agent) agentReason

theorem orphanReasons_eq (graph : Graph) (results : List VerifierResult) (evidence : List Evidence) :
    orphanReasons (byId VerifierNode.verifierId graph.verifiers) results evidence =
      resultOrphans graph results ++ evidence.flatMap (evidenceOrphan graph) := by
  have first : ∀ items : List VerifierResult, items.flatMap (fun result => reasonIf (unknown graph result.verifierId = true)
      ("orphan result for unknown verifier " ++ result.verifierId)) = resultOrphans graph items := by
    intro items
    induction items with
    | nil => rfl
    | cons result items ih =>
      rw [List.flatMap_cons, ih]
      by_cases orphan : unknown graph result.verifierId = true
      · simp [resultOrphans, reasonIf, orphan]
      · simp [resultOrphans, reasonIf, orphan]
  simp only [orphanReasons, unknown_eq]
  rw [first]
  rfl

/-- Evidence that says something by itself. -/
def strange (graph : Graph) (item : Evidence) : Bool := unknown graph item.verifierId || item.source = .agent

/-- Nothing strange was collected that could be put in two orders. -/
structure Orderly (graph : Graph) (results : List VerifierResult) (evidence : List Evidence) : Prop where
  results : (results.filter (fun result => unknown graph result.verifierId)).length ≤ 1
  evidence : (∀ item ∈ evidence, unknown graph item.verifierId = false) ∨ (evidence.filter (strange graph)).length ≤ 1

theorem perm_short {α : Type} {items others : List α} (perm : items.Perm others) (short : items.length ≤ 1) :
    items = others := by
  match items, short with
  | [], _ => exact (List.nil_perm.mp perm).symm
  | [a], _ => exact List.singleton_perm.mp perm

theorem flatMap_strange (graph : Graph) (evidence : List Evidence) :
    evidence.flatMap (evidenceOrphan graph) = (evidence.filter (strange graph)).flatMap (evidenceOrphan graph) := by
  induction evidence with
  | nil => rfl
  | cons item evidence ih =>
    rw [List.flatMap_cons, ih, List.filter_cons]
    split
    · rfl
    · rename_i plain
      simp only [strange, Bool.or_eq_true, decide_eq_true_eq, not_or] at plain
      simp [evidenceOrphan, reasonIf, plain]

/-- Evidence of the plan gives the one reason about agents, however often. -/
theorem flatMap_known (known : ∀ item ∈ evidence, unknown graph item.verifierId = false) :
    ∃ n, evidence.flatMap (evidenceOrphan graph) = List.replicate n agentReason := by
  induction evidence with
  | nil => exact ⟨0, rfl⟩
  | cons item evidence ih =>
    obtain ⟨n, rest⟩ := ih (fun other member => known other (List.mem_cons_of_mem _ member))
    have here := known item List.mem_cons_self
    by_cases agent : item.source = .agent
    · exact ⟨n + 1, by simp [evidenceOrphan, reasonIf, here, agent, rest, List.replicate_succ]⟩
    · exact ⟨n, by simp [evidenceOrphan, reasonIf, here, agent, rest]⟩

theorem orphanReasons_perm {results' : List VerifierResult} {evidence' : List Evidence}
    (orderly : Orderly graph results evidence) (first : results.Perm results') (second : evidence.Perm evidence') :
    orphanReasons (byId VerifierNode.verifierId graph.verifiers) results' evidence' =
      orphanReasons (byId VerifierNode.verifierId graph.verifiers) results evidence := by
  have same : resultOrphans graph results' = resultOrphans graph results := by
    rw [resultOrphans, resultOrphans, perm_short (first.filter _) orderly.results]
  have items : evidence'.flatMap (evidenceOrphan graph) = evidence.flatMap (evidenceOrphan graph) := by
    rcases orderly.evidence with known | short
    · obtain ⟨n, all⟩ := flatMap_known known
      have moved := (second.symm.flatMap_right (evidenceOrphan graph))
      rw [all] at moved ⊢
      exact List.perm_replicate.mp moved
    · rw [flatMap_strange, flatMap_strange graph evidence, perm_short (second.filter _) short]
  rw [orphanReasons_eq, orphanReasons_eq, same, items]

/-- Two entries that a test finds can be moved to the front. -/
theorem pair_front {α : Type} {p : α → Bool} {items : List α} {x : α} (member : x ∈ items) (held : p x = true)
    (two : 1 < (items.filter p).length) : ∃ y rest, p y = true ∧ items.Perm (x :: y :: rest) := by
  obtain ⟨before, after, rfl⟩ := List.append_of_mem member
  have front := @List.perm_middle _ x before after
  have more : (before ++ after).filter p ≠ [] := by
    intro empty
    rw [(front.filter p).length_eq, List.filter_cons_of_pos held, empty] at two
    exact lt_irrefl _ two
  obtain ⟨y, found⟩ := List.exists_mem_of_ne_nil _ more
  obtain ⟨inside, tested⟩ := List.mem_filter.mp found
  obtain ⟨left, right, split⟩ := List.append_of_mem inside
  have second : (before ++ after).Perm (y :: (left ++ right)) := by
    rw [split]
    exact List.perm_middle
  exact ⟨y, left ++ right, tested, front.trans (second.cons x)⟩

/-- What follows a common start begins in the same way, if it is new there. -/
theorem fromKeys_head {before : List String} {a b : String} {left right : List String} (newA : a ∉ before)
    (newB : b ∉ before) (same : PyText.fromKeys (before ++ a :: left) = PyText.fromKeys (before ++ b :: right)) :
    a = b := by
  have keptA : (a :: left).removeAll before = a :: left.removeAll before := by
    simp [List.removeAll, newA]
  have keptB : (b :: right).removeAll before = b :: right.removeAll before := by
    simp [List.removeAll, newB]
  simp only [PyText.fromKeys, List.eraseDups_append, keptA, keptB, List.eraseDups_cons] at same
  exact (List.cons.inj (List.append_cancel_left same)).1

theorem resultOrphans_cons {result : VerifierResult} (odd : unknown graph result.verifierId = true) :
    resultOrphans graph (result :: results) =
      ("orphan result for unknown verifier " ++ result.verifierId) :: resultOrphans graph results := by
  simp [resultOrphans, odd]

theorem evidenceOrphan_strange {item : Evidence} (odd : strange graph item = true) : ∃ reason rest,
    evidenceOrphan graph item = reason :: rest ∧ (reason = "orphan evidence " ++ item.evidenceId ∨ reason = agentReason) := by
  by_cases orphan : unknown graph item.verifierId = true
  · exact ⟨_, _, by simp only [evidenceOrphan, reasonIf, if_pos orphan, List.singleton_append]; rfl, .inl rfl⟩
  · have agent : item.source = .agent := by simpa [strange, orphan] using odd
    exact ⟨agentReason, [], by simp [evidenceOrphan, reasonIf, orphan, agent], .inr rfl⟩

theorem resultOrphans_apart {reason : String} (form : (∃ id, reason = "orphan evidence " ++ id) ∨ reason = agentReason) :
    reason ∉ resultOrphans graph results := by
  intro member
  obtain ⟨result, -, same⟩ := List.mem_map.mp member
  rcases form with ⟨id, rfl⟩ | rfl
  · have letters := congrArg (fun s => s.toList.drop 7) same
    simp only [String.toList_append] at letters
    exact absurd (List.cons.inj letters).1 (by decide)
  · have letters := congrArg String.toList same
    simp only [String.toList_append, agentReason] at letters
    exact absurd (List.cons.inj letters).1 (by decide)

theorem sortedOn_perm {α : Type} {key : α → String} {items others : List α} (once : (items.map key).Nodup)
    (perm : items.Perm others) : sortedOn key others = sortedOn key items :=
  (Ranking.sortBy_unique perm (fun _ first _ second same => List.inj_on_of_nodup_map once first second same)).symm

end

/-! The hash. -/

section

variable {graph : Graph} {results : List VerifierResult} {evidence : List Evidence}

/-- The hash of the receipt of an evaluation, where there is one. -/
def hashOf (graph : Graph) (results : List VerifierResult) (evidence : List Evidence) : Option String :=
  (evaluateProof graph results evidence).toOption.map (fun assessment =>
    (ProofReceipt.build graph assessment results evidence).receiptHash)

/-- What a receipt owes to its proof. A SHA-256 digest is 64 characters long. -/
structure Faithful (graph : Graph) (results : List VerifierResult) (evidence : List Evidence) : Prop where
  orderless : ∀ results' evidence', results.Perm results' → evidence.Perm evidence' →
    hashOf graph results' evidence' = hashOf graph results evidence
  roundTrip : ∀ assessment, (ProofReceipt.build graph assessment results evidence).receiptHash.length = 64 →
    ∃ read, ProofReceipt.fromJson (ProofReceipt.build graph assessment results evidence).toJson = .ok read ∧
      read.Same (ProofReceipt.build graph assessment results evidence)

theorem receiptHash_reasons (injective : Function.Injective Sha256.hexdigest) {assessment assessment' : ProofAssessment}
    {results' : List VerifierResult} {evidence' : List Evidence}
    (same : receiptHash graph assessment results evidence = receiptHash graph assessment' results' evidence') :
    assessment.reasons = assessment'.reasons := by
  have forms := Json.canonical_of_dumps_eq (injective same)
  have inside := congrArg (fun v => Json.get? v "assessment") forms
  simp only [Json.get?_canonical] at inside
  simp only [Json.get?, List.lookup_cons] at inside
  have parts := Option.some.inj inside
  have said := congrArg (fun v => Json.get? v "reasons") parts
  simp only [Json.get?_canonical, assessmentPayload] at said
  have texts : assessment.reasons.map Json.str = assessment'.reasons.map Json.str := by
    simpa [Json.get?, List.lookup_cons, strs, Json.canonicalItems_eq_map, Function.comp_def] using said
  exact List.map_injective_iff.mpr (fun _ _ equal => Json.str.inj equal) texts

/-- The same hash in two orders means the same reasons. -/
theorem reasons_of_orderless (injective : Function.Injective Sha256.hexdigest) (faithful : Faithful graph results evidence)
    (onceR : (results.map VerifierResult.verifierId).Nodup) (onceE : (evidence.map Evidence.evidenceId).Nodup)
    {results' results'' : List VerifierResult} {evidence' evidence'' : List Evidence} (first : results.Perm results')
    (second : results.Perm results'') (third : evidence.Perm evidence') (fourth : evidence.Perm evidence'') :
    PyText.fromKeys (allReasons graph results' evidence') = PyText.fromKeys (allReasons graph results'' evidence'') := by
  have evaluated (r : List VerifierResult) (e : List Evidence) (permR : results.Perm r) (permE : evidence.Perm e) :=
    (@evaluateProof_ok graph r e _).mpr
      ⟨(permR.map _).nodup_iff.mp onceR, (permE.map _).nodup_iff.mp onceE, rfl⟩
  have same := (faithful.orderless _ _ first third).trans (faithful.orderless _ _ second fourth).symm
  rw [hashOf, hashOf, evaluated _ _ first third, evaluated _ _ second fourth] at same
  exact receiptHash_reasons injective (Option.some.inj same)

/-- What is orderly has one hash. -/
theorem hashOf_perm {results' : List VerifierResult} {evidence' : List Evidence} (orderly : Orderly graph results evidence)
    (onceR : (results.map VerifierResult.verifierId).Nodup) (onceE : (evidence.map Evidence.evidenceId).Nodup)
    (first : results.Perm results') (second : evidence.Perm evidence') :
    hashOf graph results' evidence' = hashOf graph results evidence := by
  have here := (@evaluateProof_ok graph results evidence _).mpr ⟨onceR, onceE, rfl⟩
  have there := (@evaluateProof_ok graph results' evidence' _).mpr
    ⟨(first.map _).nodup_iff.mp onceR, (second.map _).nodup_iff.mp onceE, rfl⟩
  have reasons : allReasons graph results' evidence' = allReasons graph results evidence := by
    rw [allReasons_eq, allReasons_eq, orphanReasons_perm orderly first second, plannedReasons_perm onceR onceE first second]
  have complete := @isComplete_perm graph results evidence results' evidence' onceR onceE first second
  simp only [hashOf, here, there, reasons, complete, Except.toOption, Option.map_some, ProofReceipt.build, receiptHash,
    sortedOn_perm onceR first, sortedOn_perm onceE second]

section

variable (injective : Function.Injective Sha256.hexdigest) (faithful : Faithful graph results evidence)
  (onceR : (results.map VerifierResult.verifierId).Nodup) (onceE : (evidence.map Evidence.evidenceId).Nodup)
include injective faithful onceR onceE

/-- Of two results that nobody planned, the first is named first. -/
theorem results_short : (results.filter (fun result => unknown graph result.verifierId)).length ≤ 1 := by
  by_contra many
  rw [not_le] at many
  obtain ⟨x, found⟩ := List.exists_mem_of_length_pos (Nat.lt_of_succ_lt many)
  obtain ⟨member, odd⟩ := List.mem_filter.mp found
  obtain ⟨y, rest, other, front⟩ := pair_front member odd many
  have said := reasons_of_orderless injective faithful onceR onceE front (front.trans (.swap y x rest)) (.refl _) (.refl _)
  simp only [allReasons_eq, orphanReasons_eq, resultOrphans_cons odd, resultOrphans_cons other, List.cons_append] at said
  have named := @fromKeys_head [] _ _ _ _ List.not_mem_nil List.not_mem_nil said
  have once := (front.map VerifierResult.verifierId).nodup_iff.mp onceR
  exact (List.nodup_cons.mp once).1 (List.mem_cons.mpr (.inl ((String.append_right_inj _).mp named)))

theorem evidence_short :
    (∀ item ∈ evidence, unknown graph item.verifierId = false) ∨ (evidence.filter (strange graph)).length ≤ 1 := by
  by_contra loose
  obtain ⟨planned, many⟩ := not_or.mp loose
  simp only [not_forall, Bool.not_eq_false] at planned
  obtain ⟨x, member, orphan⟩ := planned
  have odd : strange graph x = true := by simp [strange, orphan]
  obtain ⟨y, rest, other, front⟩ := pair_front member odd (not_le.mp many)
  have said := reasons_of_orderless injective faithful onceR onceE (.refl _) (.refl _) front (front.trans (.swap y x rest))
  obtain ⟨reason, more, spoken, form⟩ := evidenceOrphan_strange other
  have first : evidenceOrphan graph x = ("orphan evidence " ++ x.evidenceId) ::
      reasonIf (x.source = .agent) agentReason := by
    simp only [evidenceOrphan, reasonIf, if_pos orphan, List.singleton_append]
  simp only [allReasons_eq, orphanReasons_eq, List.flatMap_cons, spoken, first, List.cons_append, List.append_assoc] at said
  have named := fromKeys_head (resultOrphans_apart (.inl ⟨_, rfl⟩))
    (resultOrphans_apart (form.imp_left (fun same => ⟨_, same⟩))) said
  rcases form with same | same
  · have once := (front.map Evidence.evidenceId).nodup_iff.mp onceE
    exact (List.nodup_cons.mp once).1 (List.mem_cons.mpr (.inl ((String.append_right_inj _).mp (named.trans same))))
  · have letters := congrArg String.toList (named.trans same)
    simp only [String.toList_append, agentReason] at letters
    exact absurd (List.cons.inj letters).1 (by decide)

end

/-- A proof has one receipt exactly if ids repeat, so that nothing is evaluated, or it is orderly. -/
theorem receipt_iff (injective : Function.Injective Sha256.hexdigest) (graph : Graph) (results : List VerifierResult)
    (evidence : List Evidence) : Faithful graph results evidence ↔
      ¬ (results.map VerifierResult.verifierId).Nodup ∨ ¬ (evidence.map Evidence.evidenceId).Nodup ∨
        Orderly graph results evidence := by
  constructor
  · intro faithful
    by_cases onceR : (results.map VerifierResult.verifierId).Nodup
    · by_cases onceE : (evidence.map Evidence.evidenceId).Nodup
      · exact .inr (.inr ⟨results_short injective faithful onceR onceE, evidence_short injective faithful onceR onceE⟩)
      · exact .inr (.inl onceE)
    · exact .inl onceR
  · intro held
    refine ⟨fun results' evidence' first second => ?_, fun assessment sized =>
      fromJson_toJson (build_envelope graph assessment results evidence)
        (build_unsigned_hash graph assessment results evidence) sized⟩
    by_cases both : (results.map VerifierResult.verifierId).Nodup ∧ (evidence.map Evidence.evidenceId).Nodup
    · rcases held with twice | twice | orderly
      · exact absurd both.1 twice
      · exact absurd both.2 twice
      · exact hashOf_perm orderly both.1 both.2 first second
    · have silent (r : List VerifierResult) (e : List Evidence) (permR : results.Perm r) (permE : evidence.Perm e) :
          hashOf graph r e = none := by
        cases evaluated : evaluateProof graph r e with
        | error text => simp [hashOf, evaluated, Except.toOption]
        | ok assessment =>
          obtain ⟨onceR, onceE, -⟩ := evaluateProof_ok.mp evaluated
          exact absurd ⟨(permR.map _).nodup_iff.mpr onceR, (permE.map _).nodup_iff.mpr onceE⟩ both
      rw [silent _ _ first second, silent _ _ (.refl _) (.refl _)]

/-- Two results that no plan asked for. -/
def strays : List VerifierResult := [⟨"lint", .passed, []⟩, ⟨"types", .passed, []⟩]

omit [Sha256] in
theorem strays_shuffled :
    (∀ d : Sha256, Function.Injective d.hexdigest → hashOf planless strays [] ≠ hashOf planless strays.reverse []) ∧
      ¬ ∀ [d : Sha256], Function.Injective d.hexdigest → ∀ (graph : Graph) (results : List VerifierResult)
        (evidence : List Evidence), Faithful graph results evidence := by
  have shuffled : ∀ d : Sha256, Function.Injective d.hexdigest →
      hashOf planless strays [] ≠ hashOf planless strays.reverse [] := by
    intro d injective same
    have here : evaluateProof planless strays [] = .ok ⟨false, true, ["orphan result for unknown verifier lint",
        "orphan result for unknown verifier types"]⟩ := by decide
    have there : evaluateProof planless strays.reverse [] = .ok ⟨false, true,
        ["orphan result for unknown verifier types", "orphan result for unknown verifier lint"]⟩ := by decide
    rw [hashOf, hashOf, here, there] at same
    have reasons := receiptHash_reasons injective (Option.some.inj same)
    exact absurd reasons (by decide)
  refine ⟨shuffled, fun always => ?_⟩
  let d : Sha256 := ⟨Sha256.sha256On []⟩
  have injective : Function.Injective d.hexdigest := Sha256.sha256On_injective nofun
  exact shuffled d injective ((always injective planless strays []).orderless _ _ (List.reverse_perm _).symm (.refl _)).symm

/-- The text that the receipt of one such result hashes. -/
def strayText : String :=
  Json.dumps (.obj [("schema_version", .str "1"), ("graph", graphPayload planless),
    ("assessment", assessmentPayload ⟨false, true, ["orphan result for unknown verifier lint"]⟩),
    ("results", .arr [resultPayload ⟨"lint", .passed, []⟩]), ("evidence", .arr [])])

omit [Sha256] in
theorem stray_receipt :
    let _ : Sha256 := ⟨Sha256.sha256On [strayText]⟩
    Faithful planless [⟨"lint", .passed, []⟩] [] := by
  let d : Sha256 := ⟨Sha256.sha256On [strayText]⟩
  have injective : Function.Injective d.hexdigest := by
    apply Sha256.sha256On_injective
    intro t inside u among _
    exact (List.mem_singleton.mp inside).trans (List.mem_singleton.mp among).symm
  exact (receipt_iff injective planless [⟨"lint", .passed, []⟩] []).mpr (.inr (.inr ⟨by decide, .inl nofun⟩))

end

end Onmc.ProofGraph

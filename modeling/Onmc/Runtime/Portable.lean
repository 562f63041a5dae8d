import Onmc.Runtime.RoundTrip

/-! When a run spec comes back from its own JSON text as the same contract with the same digest. -/
namespace Onmc.Runtime

open Onmc.Json (canonicalItems canonicalFields)

/-- `RunSpec.from_dict(json.loads(spec.to_json()))` -/
def RunSpec.reload (spec : RunSpec) : Checked RunSpec := do
  let text ← spec.toJson
  match Json.loads text with
  | some payload => RunSpec.fromDict payload
  | none => .error "invalid JSON"

/-! The same contract: equal field by field as Python compares the fields. -/

def SameNumber (x y : Num) : Prop := x.eq y = true

def SameMetadata (a b : List (String × Json)) : Prop := Json.same (.obj a) (.obj b) = true

structure RetryPolicy.Same (p q : RetryPolicy) : Prop where
  maxAttempts : p.maxAttempts = q.maxAttempts
  backoffSeconds : SameNumber p.backoffSeconds q.backoffSeconds

structure Budget.Same (a b : Budget) : Prop where
  timeoutSeconds : SameNumber a.timeoutSeconds b.timeoutSeconds
  maxCostUsd : Option.Rel SameNumber a.maxCostUsd b.maxCostUsd
  maxTokens : a.maxTokens = b.maxTokens

structure NodeSpec.Same (m n : NodeSpec) : Prop where
  nodeId : m.nodeId = n.nodeId
  kind : m.kind = n.kind
  objective : m.objective = n.objective
  completionCondition : m.completionCondition = n.completionCondition
  dependencies : m.dependencies = n.dependencies
  sideEffecting : m.sideEffecting = n.sideEffecting
  approvalRequired : m.approvalRequired = n.approvalRequired
  idempotencyKey : m.idempotencyKey = n.idempotencyKey
  timeoutSeconds : Option.Rel SameNumber m.timeoutSeconds n.timeoutSeconds
  budget : Option.Rel Budget.Same m.budget n.budget
  retryPolicy : Option.Rel RetryPolicy.Same m.retryPolicy n.retryPolicy
  capabilities : m.capabilities = n.capabilities
  metadata : SameMetadata m.metadata n.metadata

structure RunSpec.Same (spec other : RunSpec) : Prop where
  runId : spec.runId = other.runId
  task : spec.task = other.task
  nodes : List.Forall₂ NodeSpec.Same spec.nodes other.nodes
  evidence : spec.evidence = other.evidence
  metadata : SameMetadata spec.metadata other.metadata
  schema : spec.schema = other.schema

/-- The spec comes back as the same contract, with the same digest. -/
def RunSpec.RoundTrips [Sha256] (spec : RunSpec) : Prop :=
  ∃ back digest, spec.reload = .ok back ∧ spec.Same back ∧
    spec.digest = .ok digest ∧ back.digest = .ok digest

/-! Where that holds: an integer is written as it is in two places, and rounded in two others. -/

def IsFloat (x : Num) : Prop := ∃ d, x = .float d

/-- A number that `float()` does not round. -/
def Exact : Num → Prop
  | .int n => Num.roundInt n = n
  | _ => True

structure NodeSpec.Portable (node : NodeSpec) : Prop where
  timeout : ∀ x, node.timeoutSeconds = some x → IsFloat x
  cost : ∀ b x, node.budget = some b → b.maxCostUsd = some x → IsFloat x
  budgetTimeout : ∀ b, node.budget = some b → Exact b.timeoutSeconds
  backoff : ∀ p, node.retryPolicy = some p → Exact p.backoffSeconds
  metadata : finiteFields node.metadata = true

structure RunSpec.Portable (spec : RunSpec) : Prop where
  metadata : finiteFields spec.metadata = true
  nodes : ∀ node ∈ spec.nodes, node.Portable

/-- The node a reader gets. -/
def NodeSpec.reread (node : NodeSpec) : NodeSpec := node.coerced.sorted

theorem RunSpec.reload_eq {spec : RunSpec} (evidence : ∀ e ∈ spec.evidence, e.postInit = .ok ())
    {dict : Json} (wrote : spec.toDict = .ok dict) :
    ∃ back, spec.reload = .ok back ∧ spec.Becomes back NodeSpec.reread (canonicalFields spec.metadata) := by
  obtain ⟨middle, read, first⟩ := RunSpec.fromDict_toDict evidence wrote
  obtain ⟨back, again, second⟩ := RunSpec.fromDict_canonical read
  refine ⟨back, ?_, ?_⟩
  · simp only [RunSpec.reload, RunSpec.toJson, wrote, Except.ok_bind, pure, Except.pure, Json.loads_dumpsAscii,
      again]
  · constructor
    · rw [second.runId, first.runId]
    · rw [second.task, first.task]
    · rw [second.nodes, first.nodes, List.map_map]
      rfl
    · rw [second.evidence, first.evidence]
    · rw [second.metadata, first.metadata]
    · rw [second.schema, first.schema]

/-! Numbers. -/

theorem isFloat_of_settled {x : Num} (h : Settled x) : IsFloat x := (number_ok (h "")).2

theorem toFloat_of_isFloat {x : Num} (h : IsFloat x) : x.toFloat = x := by
  obtain ⟨d, rfl⟩ := h
  rfl

theorem sameNumber_self {x : Num} (h : IsFloat x) : SameNumber x x := by
  obtain ⟨d, rfl⟩ := h
  exact decide_eq_true rfl

theorem toFloat_int {n : Int} (settled : Settled (Num.int n).toFloat) :
    (Num.int n).toFloat = .float (.ofInt (Num.roundInt n)) := by
  rcases Num.ofDecimal_cases (.ofInt (Num.roundInt n)) with ⟨negative, infinite⟩ | exact
  · obtain ⟨d, float⟩ := isFloat_of_settled settled
    rw [Num.toFloat, infinite] at float
    cases float
  · exact exact

/-- Rounding keeps a number that a constructor accepted exactly when there is nothing to round. -/
theorem sameNumber_toFloat {x : Num} (settled : Settled x.toFloat) : SameNumber x x.toFloat ↔ Exact x := by
  cases x with
  | int n =>
    rw [toFloat_int settled]
    simp [SameNumber, Num.eq, Num.decimal?, Decimal.ofInt, Exact, eq_comm]
  | float d => exact ⟨fun _ => trivial, fun _ => sameNumber_self ⟨d, rfl⟩⟩
  | nan =>
    obtain ⟨d, float⟩ := isFloat_of_settled settled
    cases float
  | infinity negative =>
    obtain ⟨d, float⟩ := isFloat_of_settled settled
    cases float

/-! The numbers of the parts of a constructed node become floats. -/

theorem settled_timeout {node : NodeSpec} (made : node.Constructed) :
    ∀ x, node.timeoutSeconds = some x → Settled x.toFloat := fun x hx =>
  settled_positive (optional_ok (postInit_timeout made.self) x hx)

theorem settled_budget {b : Budget} (made : b.postInit = .ok ()) :
    Settled b.timeoutSeconds.toFloat ∧ ∀ x, b.maxCostUsd = some x → Settled x.toFloat := by
  obtain ⟨_, timeout, rest⟩ := Except.bind_ok.mp made
  obtain ⟨_, cost, _⟩ := Except.bind_ok.mp rest
  exact ⟨settled_positive timeout, fun x hx => settled_nonnegative (optional_ok cost x hx)⟩

theorem settled_backoff {p : RetryPolicy} (made : p.postInit = .ok ()) : Settled p.backoffSeconds.toFloat := by
  obtain ⟨_, _, backoff⟩ := Except.bind_ok.mp made
  exact settled_nonnegative backoff

/-! What a node writes. -/

def Budget.fields (b : Budget) : List (String × Json) :=
  [("max_cost_usd", .ofOption .num b.maxCostUsd), ("max_tokens", .ofOption (fun n => .num (.int n)) b.maxTokens),
    ("timeout_seconds", .num b.timeoutSeconds.toFloat)]

def RetryPolicy.fields (p : RetryPolicy) : List (String × Json) :=
  [("backoff_seconds", .num p.backoffSeconds.toFloat), ("max_attempts", .num (.int p.maxAttempts))]

def NodeSpec.fields (node : NodeSpec) : List (String × Json) :=
  [("budget", .ofOption (fun b => .obj b.fields) node.budget), ("capabilities", node.capabilities.toDict),
    ("completion_condition", .ofOption .str node.completionCondition),
    ("dependencies", Json.strs node.dependencies), ("id", .str node.nodeId),
    ("idempotency_key", .ofOption .str node.idempotencyKey), ("kind", .str node.kind),
    ("metadata", .obj node.metadata), ("objective", .str node.objective),
    ("approval_required", .bool node.approvalRequired),
    ("retry_policy", .ofOption (fun p => .obj p.fields) node.retryPolicy),
    ("side_effecting", .bool node.sideEffecting), ("timeout_seconds", .ofOption .num node.timeoutSeconds)]

theorem Budget.toDict_eq {b : Budget} (made : b.postInit = .ok ()) : b.toDict = .ok (.obj b.fields) := by
  have timeout := (settled_budget made).1 "timeout_seconds"
  rw [number_toFloat] at timeout
  simp only [Budget.toDict, timeout, Except.ok_bind]
  rfl

theorem RetryPolicy.toDict_eq {p : RetryPolicy} (made : p.postInit = .ok ()) :
    p.toDict = .ok (.obj p.fields) := by
  have backoff := settled_backoff made "backoff_seconds"
  rw [number_toFloat] at backoff
  simp only [RetryPolicy.toDict, backoff, Except.ok_bind]
  rfl

theorem mapM_part {write : α → Checked Json} {fields : α → List (String × Json)} {value : Option α}
    (h : ∀ a, value = some a → write a = .ok (.obj (fields a))) :
    value.mapM write = .ok (value.map fun a => .obj (fields a)) := by
  cases value with
  | none => rfl
  | some a =>
    have wrote := h a rfl
    simp only [Option.mapM_some, wrote]
    rfl

theorem ofOption_map {β : Type} (write : β → Json) (value : Option α) (f : α → β) :
    Json.ofOption write (value.map f) = Json.ofOption (fun a => write (f a)) value := by
  cases value with
  | none => rfl
  | some a => rfl

theorem NodeSpec.toDict_eq {node : NodeSpec} (made : node.Constructed)  :
    node.toDict = if finiteFields node.metadata then .ok (.obj node.fields)
      else .error "metadata must be JSON serializable" := by
  have budget := mapM_part fun b hb => Budget.toDict_eq (made.budget b hb)
  have retryPolicy := mapM_part fun p hp => RetryPolicy.toDict_eq (made.retryPolicy p hp)
  simp only [NodeSpec.toDict, budget, retryPolicy, jsonObject, Except.ok_bind]
  split
  · simp only [Except.ok_bind, NodeSpec.fields, ofOption_map, id, pure, Except.pure]
  · rfl

theorem NodeSpec.reread_constructed {node : NodeSpec} (made : node.Constructed) :
    node.reread.Constructed := by
  constructor
  · exact node.coerced_postInit.trans made.self
  · intro b hb
    obtain ⟨c, hc, rfl⟩ := Option.map_eq_some_iff.mp hb
    exact c.coerced_postInit.trans (made.budget c hc)
  · intro p hp
    obtain ⟨q, hq, rfl⟩ := Option.map_eq_some_iff.mp hp
    exact q.coerced_postInit.trans (made.retryPolicy q hq)
  · exact made.capabilities

theorem ofOption_num_inj {a b : Option Num} (h : Json.ofOption .num a = Json.ofOption .num b) : a = b := by
  cases a with
  | none => cases b with
    | none => rfl
    | some y => cases h
  | some x => cases b with
    | none => cases h
    | some y =>
      cases h
      rfl

theorem canonical_ofOption_num (value : Option Num) :
    (Json.ofOption .num value).canonical = Json.ofOption .num value := by
  cases value with
  | none => exact Json.canonical_null
  | some x => exact Json.canonical_num x

theorem map_toFloat_self {value : Option Num} : value.map Num.toFloat = value ↔
    ∀ x, value = some x → x.toFloat = x := by
  cases value with
  | none => simp
  | some x => simp

theorem canonicalFields_idem (fields : List (String × Json)) :
    canonicalFields (canonicalFields fields) = canonicalFields fields := by
  have again := Json.canonical_canonical (.obj fields)
  simpa using again

theorem budget_written {b : Budget} :
    Json.canonical (.obj b.coerced.fields) = Json.canonical (.obj b.fields) ↔
      b.maxCostUsd.map Num.toFloat = b.maxCostUsd := by
  have costField (b : Budget) : Json.get? (.obj b.fields) "max_cost_usd" =
      some (.ofOption .num b.maxCostUsd) := by simp [Json.get?, Budget.fields]
  constructor
  · intro same
    have cost := congrArg (fun j => j.get? "max_cost_usd") same
    simp only [Json.get?_canonical, costField, Option.map_some, Option.some.injEq,
      canonical_ofOption_num] at cost
    exact ofOption_num_inj cost
  · intro cost
    simp only [Budget.fields, Budget.coerced, cost, toFloat_toFloat]

theorem retryPolicy_written (p : RetryPolicy) : p.coerced.fields = p.fields := by
  simp only [RetryPolicy.fields, RetryPolicy.coerced, toFloat_toFloat]

/-- What the reread node writes is what the node wrote exactly when two of its numbers were floats. -/
theorem node_written {node : NodeSpec} :
    Json.canonical (.obj node.reread.fields) = Json.canonical (.obj node.fields) ↔
      node.timeoutSeconds.map Num.toFloat = node.timeoutSeconds ∧
        ∀ b, node.budget = some b → b.maxCostUsd.map Num.toFloat = b.maxCostUsd := by
  have budgetField (n : NodeSpec) : Json.get? (.obj n.fields) "budget" =
      some (.ofOption (fun b => .obj b.fields) n.budget) := by simp [Json.get?, NodeSpec.fields]
  have timeoutField (n : NodeSpec) : Json.get? (.obj n.fields) "timeout_seconds" =
      some (.ofOption .num n.timeoutSeconds) := by simp [Json.get?, NodeSpec.fields, List.lookup_cons]
  constructor
  · intro same
    constructor
    · have timeout := congrArg (fun j => j.get? "timeout_seconds") same
      simp only [Json.get?_canonical, timeoutField, Option.map_some, Option.some.injEq,
        canonical_ofOption_num] at timeout
      exact ofOption_num_inj timeout
    · intro b hb
      have budget := congrArg (fun j => j.get? "budget") same
      have reread : node.reread.budget = some b.coerced := by
        simp [NodeSpec.reread, NodeSpec.sorted, NodeSpec.coerced, hb]
      simp only [Json.get?_canonical, budgetField, Option.map_some, Option.some.injEq, hb, reread] at budget
      exact budget_written.mp budget
  · rintro ⟨timeout, cost⟩
    have budget : (Json.ofOption (fun b => .obj b.fields) node.reread.budget).canonical =
        (Json.ofOption (fun b => .obj b.fields) node.budget).canonical := by
      cases hb : node.budget with
      | none => simp [NodeSpec.reread, NodeSpec.sorted, NodeSpec.coerced, hb]
      | some b =>
        have reread : node.reread.budget = some b.coerced := by
          simp [NodeSpec.reread, NodeSpec.sorted, NodeSpec.coerced, hb]
        rw [reread]
        exact budget_written.mpr (cost b hb)
    have retryPolicy : Json.ofOption (fun p => .obj p.fields) node.reread.retryPolicy =
        Json.ofOption (fun p : RetryPolicy => .obj p.fields) node.retryPolicy := by
      simp only [NodeSpec.reread, NodeSpec.sorted, NodeSpec.coerced, ofOption_map, retryPolicy_written]
    have metadata : Json.canonical (.obj node.reread.metadata) = Json.canonical (.obj node.metadata) := by
      simp only [NodeSpec.reread, NodeSpec.sorted, NodeSpec.coerced, Json.canonical_obj, canonicalFields_idem]
    simp only [NodeSpec.fields, Json.canonical_obj, Json.canonicalFields_cons, budget, retryPolicy] at metadata ⊢
    simp only [metadata]
    simp only [NodeSpec.reread, NodeSpec.sorted, NodeSpec.coerced, timeout]

theorem NodeSpec.portable_iff {node : NodeSpec} (made : node.Constructed) :
    node.Portable ↔ finiteFields node.metadata = true ∧
      Json.canonical (.obj node.reread.fields) = Json.canonical (.obj node.fields) ∧
      (∀ b, node.budget = some b → Exact b.timeoutSeconds) ∧
      (∀ p, node.retryPolicy = some p → Exact p.backoffSeconds) := by
  rw [node_written]
  constructor
  · intro portable
    refine ⟨portable.metadata, ⟨?_, ?_⟩, portable.budgetTimeout, portable.backoff⟩
    · exact map_toFloat_self.mpr fun x hx => toFloat_of_isFloat (portable.timeout x hx)
    · exact fun b hb => map_toFloat_self.mpr fun x hx => toFloat_of_isFloat (portable.cost b x hb hx)
  · rintro ⟨metadata, ⟨timeout, cost⟩, budgetTimeout, backoff⟩
    constructor
    · intro x hx
      have settled := settled_timeout made x hx
      rw [map_toFloat_self.mp timeout x hx] at settled
      exact isFloat_of_settled settled
    · intro b x hb hx
      have settled := (settled_budget (made.budget b hb)).2 x hx
      rw [map_toFloat_self.mp (cost b hb) x hx] at settled
      exact isFloat_of_settled settled
    · exact budgetTimeout
    · exact backoff
    · exact metadata

theorem rel_map_self {r : α → α → Prop} {value : Option α} {f : α → α} :
    Option.Rel r value (value.map f) ↔ ∀ a, value = some a → r a (f a) := by
  cases value with
  | none => simp
  | some a => simp

theorem sameMetadata_sorted (fields : List (String × Json)) : SameMetadata fields (canonicalFields fields) := by
  have same := Json.same_canonical (.obj fields)
  rw [Json.canonical_obj] at same
  unfold SameMetadata Json.same at *
  simp only [decide_eq_true_eq] at same ⊢
  exact same.symm

/-- A reread node is the same contract when nothing had to be rounded. -/
theorem NodeSpec.same_reread {node : NodeSpec} (portable : node.Portable) (made : node.Constructed) :
    node.Same node.reread := by
  constructor
  all_goals try rfl
  · exact rel_map_self.mpr fun x hx =>
      (sameNumber_toFloat (settled_timeout made x hx)).mpr (by
        obtain ⟨d, rfl⟩ := portable.timeout x hx
        trivial)
  · refine rel_map_self.mpr fun b hb => ⟨?_, ?_, rfl⟩
    · exact (sameNumber_toFloat (settled_budget (made.budget b hb)).1).mpr (portable.budgetTimeout b hb)
    · exact rel_map_self.mpr fun x hx =>
        (sameNumber_toFloat ((settled_budget (made.budget b hb)).2 x hx)).mpr (by
          obtain ⟨d, rfl⟩ := portable.cost b x hb hx
          trivial)
  · refine rel_map_self.mpr fun p hp => ⟨rfl, ?_⟩
    exact (sameNumber_toFloat (settled_backoff (made.retryPolicy p hp))).mpr (portable.backoff p hp)
  · exact sameMetadata_sorted node.metadata

theorem NodeSpec.exact_of_same {node : NodeSpec} (same : node.Same node.reread) (made : node.Constructed) :
    (∀ b, node.budget = some b → Exact b.timeoutSeconds) ∧
      (∀ p, node.retryPolicy = some p → Exact p.backoffSeconds) := by
  constructor
  · intro b hb
    have budget := rel_map_self.mp same.budget b hb
    exact (sameNumber_toFloat (settled_budget (made.budget b hb)).1).mp budget.timeoutSeconds
  · intro p hp
    have retryPolicy := rel_map_self.mp same.retryPolicy p hp
    exact (sameNumber_toFloat (settled_backoff (made.retryPolicy p hp))).mp retryPolicy.backoffSeconds

theorem finiteFields_insertField {key : String} {value : Json} {fields : List (String × Json)}
    (first : finite value = true) (rest : finiteFields fields = true) :
    finiteFields (Json.insertField key value fields) = true := by
  induction fields with
  | nil => simp [Json.insertField, finiteFields, first]
  | cons f fields ih =>
    simp only [finiteFields, Bool.and_eq_true] at rest
    simp only [Json.insertField]
    split
    · simp [finiteFields, first, rest]
    · split
      · simp [finiteFields, first, rest]
      · simp [finiteFields, rest, ih rest.2]

mutual
theorem finite_canonical : ∀ value : Json, finite value = true → finite value.canonical = true
  | .null, _ => by simp [finite]
  | .bool b, _ => by simp [finite]
  | .num n, h => by simpa using h
  | .str text, _ => by simp [finite]
  | .arr items, h => by
    simp only [finite, Json.canonical_arr] at h ⊢
    exact finiteItems_canonical items h
  | .obj fields, h => by
    simp only [finite, Json.canonical_obj] at h ⊢
    exact finiteFields_canonical fields h
theorem finiteItems_canonical : ∀ items : List Json,
    finiteItems items = true → finiteItems (canonicalItems items) = true
  | [], h => h
  | value :: items, h => by
    simp only [finiteItems, Bool.and_eq_true] at h
    simp only [canonicalItems, finiteItems, finite_canonical value h.1, finiteItems_canonical items h.2,
      Bool.and_true]
theorem finiteFields_canonical : ∀ fields : List (String × Json),
    finiteFields fields = true → finiteFields (canonicalFields fields) = true
  | [], h => h
  | (key, value) :: fields, h => by
    simp only [finiteFields, Bool.and_eq_true] at h
    rw [Json.canonicalFields_cons]
    exact finiteFields_insertField (finite_canonical value h.1) (finiteFields_canonical fields h.2)
end

theorem mapM_toDict {nodes : List NodeSpec} (made : ∀ node ∈ nodes, node.Constructed) (written : List Json) :
    nodes.mapM NodeSpec.toDict = .ok written ↔
      (∀ node ∈ nodes, finiteFields node.metadata = true) ∧ written = nodes.map fun node => .obj node.fields := by
  induction nodes generalizing written with
  | nil =>
    rw [List.mapM_nil]
    constructor
    · intro h
      cases h
      simp
    · rintro ⟨_, rfl⟩
      rfl
  | cons node nodes ih =>
    have rest := ih fun m hm => made m (List.mem_cons_of_mem _ hm)
    rw [List.mapM_cons, NodeSpec.toDict_eq (made node List.mem_cons_self)]
    constructor
    · intro h
      obtain ⟨first, here, h⟩ := Except.bind_ok.mp h
      obtain ⟨others, later, h⟩ := Except.bind_ok.mp h
      cases h
      obtain ⟨finite, rfl⟩ := (rest others).mp later
      split at here
      · rename_i metadata
        cases here
        refine ⟨?_, rfl⟩
        intro m hm
        rcases List.mem_cons.mp hm with rfl | hm
        · exact metadata
        · exact finite m hm
      · cases here
    · rintro ⟨finite, rfl⟩
      have later := (rest _).mpr ⟨fun m hm => finite m (List.mem_cons_of_mem _ hm), rfl⟩
      rw [if_pos (finite node List.mem_cons_self), later]
      rfl

def RunSpec.fields (spec : RunSpec) : List (String × Json) :=
  [("evidence", .arr (spec.evidence.map EvidenceRef.toDict)), ("metadata", .obj spec.metadata),
    ("nodes", .arr (spec.nodes.map fun node => .obj node.fields)), ("run_id", .str spec.runId),
    ("schema_version", .str spec.schema), ("task", .str spec.task)]

/-- Nothing a spec holds keeps `json.dumps(allow_nan=False)` from writing it. -/
structure RunSpec.Finite (spec : RunSpec) : Prop where
  metadata : finiteFields spec.metadata = true
  nodes : ∀ node ∈ spec.nodes, finiteFields node.metadata = true

theorem RunSpec.toDict_iff (spec : RunSpec) (dict : Json) :
    spec.toDict = .ok dict ↔ spec.Finite ∧ dict = .obj spec.fields := by
  constructor
  · intro h
    obtain ⟨metadata, wroteMetadata, h⟩ := Except.bind_ok.mp h
    obtain ⟨nodes, wroteNodes, h⟩ := Except.bind_ok.mp h
    cases h
    obtain ⟨finite, rfl⟩ := jsonObject_ok wroteMetadata
    obtain ⟨nodesFinite, rfl⟩ := (mapM_toDict spec.constructed nodes).mp wroteNodes
    exact ⟨⟨finite, nodesFinite⟩, rfl⟩
  · rintro ⟨finite, rfl⟩
    have nodes := (mapM_toDict spec.constructed _).mpr ⟨finite.nodes, rfl⟩
    simp only [RunSpec.toDict, jsonObject, if_pos finite.metadata, nodes, Except.ok_bind]
    rfl

theorem RunSpec.digest_iff [Sha256] (spec : RunSpec) (digest : String) :
    spec.digest = .ok digest ↔
      spec.Finite ∧ digest = Sha256.hexdigest (Json.dumpsAscii (.obj spec.fields)) := by
  constructor
  · intro h
    obtain ⟨text, wroteText, h⟩ := Except.bind_ok.mp h
    obtain ⟨dict, wrote, wroteText⟩ := Except.bind_ok.mp wroteText
    cases wroteText
    cases h
    obtain ⟨finite, rfl⟩ := (spec.toDict_iff dict).mp wrote
    exact ⟨finite, rfl⟩
  · rintro ⟨finite, rfl⟩
    have wrote := (spec.toDict_iff _).mpr ⟨finite, rfl⟩
    simp only [RunSpec.digest, RunSpec.toJson, wrote, Except.ok_bind, pure, Except.pure]

theorem RunSpec.Becomes.finite {spec back : RunSpec}
    (becomes : spec.Becomes back NodeSpec.reread (canonicalFields spec.metadata)) (finite : spec.Finite) :
    back.Finite := by
  constructor
  · rw [becomes.metadata]
    exact finiteFields_canonical spec.metadata finite.metadata
  · rw [becomes.nodes]
    intro node member
    obtain ⟨n, hn, rfl⟩ := List.mem_map.mp member
    exact finiteFields_canonical n.metadata (finite.nodes n hn)

/-- The reread spec writes the same value exactly when each of its nodes does. -/
theorem RunSpec.Becomes.written {spec back : RunSpec}
    (becomes : spec.Becomes back NodeSpec.reread (canonicalFields spec.metadata)) :
    Json.canonical (.obj back.fields) = Json.canonical (.obj spec.fields) ↔
      ∀ node ∈ spec.nodes,
        Json.canonical (.obj node.reread.fields) = Json.canonical (.obj node.fields) := by
  have nodesField (spec : RunSpec) : (Json.canonical (.obj spec.fields)).get? "nodes" =
      some (.arr (spec.nodes.map fun node => Json.canonical (.obj node.fields))) := by
    rw [Json.get?_canonical]
    simp [Json.get?, RunSpec.fields, List.lookup_cons, Json.canonicalItems_eq_map]
  constructor
  · intro same node member
    have nodes := congrArg (fun j => j.get? "nodes") same
    simp only [nodesField, becomes.nodes, List.map_map, Option.some.injEq, Json.arr.injEq] at nodes
    exact List.map_inj_left.mp nodes node member
  · intro each
    have nodes : canonicalItems (back.nodes.map fun node => .obj node.fields) =
        canonicalItems (spec.nodes.map fun node => .obj node.fields) := by
      rw [becomes.nodes]
      simp only [Json.canonicalItems_eq_map, List.map_map]
      exact List.map_inj_left.mpr each
    simp only [RunSpec.fields, Json.canonical_obj, Json.canonicalFields_cons, Json.canonical_arr, nodes,
      becomes.runId, becomes.task, becomes.evidence, becomes.metadata, becomes.schema, canonicalFields_idem]

theorem RunSpec.portable_of_roundTrips [Sha256] (injective : Function.Injective Sha256.hexdigest)
    {spec : RunSpec} (evidence : ∀ e ∈ spec.evidence, e.postInit = .ok ()) (trip : spec.RoundTrips) :
    spec.Portable := by
  obtain ⟨back, digest, reloaded, same, digested, again⟩ := trip
  obtain ⟨finite, rfl⟩ := (spec.digest_iff digest).mp digested
  obtain ⟨reread, reloads, becomes⟩ := reload_eq evidence ((spec.toDict_iff _).mpr ⟨finite, rfl⟩)
  cases reloaded.symm.trans reloads
  obtain ⟨_, texts⟩ := (back.digest_iff _).mp again
  have written := becomes.written.mp (Json.canonical_of_dumpsAscii_eq (injective texts.symm))
  have contract := same.nodes
  rw [becomes.nodes, List.forall₂_map_right_iff, List.forall₂_same] at contract
  constructor
  · exact finite.metadata
  · intro node member
    have made := spec.constructed node member
    exact (NodeSpec.portable_iff made).mpr ⟨finite.nodes node member, written node member,
      NodeSpec.exact_of_same (contract node member) made⟩

theorem RunSpec.roundTrips_of_portable [Sha256] {spec : RunSpec}
    (evidence : ∀ e ∈ spec.evidence, e.postInit = .ok ()) (portable : spec.Portable) : spec.RoundTrips := by
  have finite : spec.Finite := ⟨portable.metadata, fun node member => (portable.nodes node member).metadata⟩
  obtain ⟨back, reloads, becomes⟩ := reload_eq evidence ((spec.toDict_iff _).mpr ⟨finite, rfl⟩)
  have written := becomes.written.mpr fun node member =>
    ((NodeSpec.portable_iff (spec.constructed node member)).mp (portable.nodes node member)).2.1
  refine ⟨back, _, reloads, ?_, (spec.digest_iff _).mpr ⟨finite, rfl⟩,
    (back.digest_iff _).mpr ⟨becomes.finite finite, ?_⟩⟩
  · constructor
    · exact becomes.runId.symm
    · exact becomes.task.symm
    · rw [becomes.nodes, List.forall₂_map_right_iff, List.forall₂_same]
      exact fun node member => NodeSpec.same_reread (portable.nodes node member) (spec.constructed node member)
    · exact becomes.evidence.symm
    · rw [becomes.metadata]
      exact sameMetadata_sorted spec.metadata
    · exact becomes.schema.symm
  · rw [Json.dumpsAscii, Json.dumpsAscii, written]

def buildNode (timeout : Num) : NodeSpec where
  nodeId := "build"
  kind := "agent"
  objective := "Build the package."
  completionCondition := none
  dependencies := []
  sideEffecting := false
  approvalRequired := false
  idempotencyKey := none
  timeoutSeconds := some timeout
  budget := none
  retryPolicy := none
  capabilities := ⟨[], [], false, false, []⟩
  metadata := []

theorem buildNode_made {timeout : Num} (positive : positiveNumber timeout "timeout_seconds" = .ok ()) :
    (buildNode timeout).Constructed := by
  constructor
  · simp [NodeSpec.postInit, buildNode, optional, positive]
    decide
  · simp [buildNode]
  · simp [buildNode]
  · rfl

/-- One node with a timeout of two minutes, given as a float or as an integer. -/
def buildSpec (timeout : Num) (positive : positiveNumber timeout "timeout_seconds" = .ok ()) : RunSpec where
  runId := "run"
  task := "Build the package."
  nodes := [buildNode timeout]
  evidence := []
  metadata := []
  schema := schemaVersion
  constructed := by
    intro node member
    rw [List.mem_singleton.mp member]
    exact buildNode_made positive
  wellFormed := by rfl

theorem positive_float : positiveNumber (.float (.ofInt 120)) "timeout_seconds" = .ok () := by rfl

theorem positive_int : positiveNumber (.int 120) "timeout_seconds" = .ok () := by
  have float : (Num.int 120).toFloat = .float (.ofInt 120) := by decide +kernel
  rw [← positiveNumber_toFloat, float, positive_float]

@[reducible] def specDigest (spec : RunSpec) : Sha256 :=
  ⟨Sha256.sha256On [match spec.toJson with | .ok text => text | .error _ => ""]⟩

theorem specDigest_injective (spec : RunSpec) : Function.Injective (specDigest spec).hexdigest := by
  refine Sha256.sha256On_injective ?_
  intro t ht u hu _
  rw [List.mem_singleton.mp ht, List.mem_singleton.mp hu]

end Onmc.Runtime

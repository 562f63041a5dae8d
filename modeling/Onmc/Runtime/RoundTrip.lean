import Onmc.Runtime.Payloads

/-! Runtime graph contracts through their own payloads: what a spec writes out is read again, with
each number a float, and the order of the keys in a payload makes no difference. -/
namespace Onmc.Runtime

open Onmc.Json (canonicalItems canonicalFields)

/-! What was written out is read again, with each number a float. -/

/-- A number that `float()` leaves as it is. -/
def Settled (x : Num) : Prop := ∀ path, number x path = .ok x

theorem toFloat_toFloat (x : Num) : x.toFloat.toFloat = x.toFloat := by
  cases x with
  | int n =>
    rcases Num.ofDecimal_cases (.ofInt (Num.roundInt n)) with ⟨negative, infinite⟩ | exact
    · simp only [Num.toFloat, infinite]
    · simp only [Num.toFloat, exact]
  | _ => rfl

@[simp] theorem number_toFloat (x : Num) (path : String) : number x.toFloat path = number x path := by
  simp only [number, toFloat_toFloat]

theorem number_ok {v x : Num} {path : String} (h : number v path = .ok x) :
    x = v.toFloat ∧ ∃ d, x = .float d := by
  unfold number at h
  split at h
  · rename_i d exact
    cases h
    exact ⟨exact.symm, d, rfl⟩
  · cases h

theorem settled_float (d : Decimal) : Settled (.float d) := fun _ => rfl

theorem number_settled {v x : Num} {path : String} (h : number v path = .ok x) : Settled x := by
  obtain ⟨_, d, rfl⟩ := number_ok h
  exact settled_float d

@[simp] theorem field_self (key : String) (value : Json) (data : List (String × Json)) :
    field ((key, value) :: data) key = value := by
  simp [field]

@[simp] theorem field_other {key other : String} (value : Json) (data : List (String × Json))
    (h : key ≠ other) : field ((other, value) :: data) key = field data key := by
  simp [field, List.lookup_cons, beq_eq_false_iff_ne.mpr h]

@[simp] theorem object_obj (fields : List (String × Json)) (path : String) :
    object (.obj fields) path = .ok fields := rfl

@[simp] theorem array_arr (items : List Json) (path : String) : array (.arr items) path = .ok items := rfl

@[simp] theorem string_str (text path : String) : string (.str text) path = .ok text := rfl

@[simp] theorem bool_bool (b : Bool) (path : String) : bool (.bool b) path = .ok b := rfl

@[simp] theorem integer_int (n : Int) (path : String) : integer (.num (.int n)) path = .ok n := rfl

theorem numberOf_num {x : Num} (settled : Settled x) (path : String) : numberOf (.num x) path = .ok x :=
  settled path

theorem maybe_ofOption {read : Json → String → Checked α} {write : α → Json} {path : String}
    {value : Option α} (h : ∀ a, value = some a → write a ≠ .null ∧ read (write a) path = .ok a) :
    maybe read (.ofOption write value) path = .ok value := by
  cases value with
  | none => rfl
  | some a =>
    obtain ⟨present, back⟩ := h a rfl
    unfold maybe
    split
    · rename_i null
      exact absurd null present
    · rw [Json.ofOption, back]
      rfl

theorem maybe_string (value : Option String) (path : String) :
    maybe string (.ofOption .str value) path = .ok value :=
  maybe_ofOption fun _ _ => ⟨by simp, rfl⟩

theorem stringItems_strs {path : String} {index : Nat} {items : List String}
    (h : nonemptyItems path index items = .ok ()) (path' : String) (index' : Nat) :
    stringItems path' index' (items.map .str) = .ok items := by
  induction items generalizing index index' with
  | nil => rfl
  | cons item items ih =>
    obtain ⟨_, first, rest⟩ := Except.bind_ok.mp h
    have solid : blank item = false := by
      unfold nonempty check at first
      split at first
      · assumption
      · cases first
    simp [stringItems, solid, ih rest (index' + 1), bind, Except.bind, pure, Except.pure]

theorem stringTupleOf_strs {items : List String} {path : String} {allowEmpty : Bool}
    (h : stringTuple items path allowEmpty = .ok ()) (path' : String) :
    stringTupleOf allowEmpty (Json.strs items) path' = .ok items := by
  obtain ⟨_, solid, h⟩ := Except.bind_ok.mp h
  obtain ⟨_, present, unique⟩ := Except.bind_ok.mp h
  have read := stringItems_strs solid path' 0
  unfold check at present unique
  split at present
  · rename_i here
    split at unique
    · rename_i distinct
      simp only [stringTupleOf, Json.strs, read, Except.ok_bind, check, if_pos here, if_pos distinct]
      rfl
    · cases unique
  · cases present

theorem readItems_map {β : Type} (read : Json → Nat → Checked α) (write : β → Json) (value : β → α)
    (items : List β) (h : ∀ b ∈ items, ∀ index, read (write b) index = .ok (value b)) (index : Nat) :
    readItems read index (items.map write) = .ok (items.map value) := by
  induction items generalizing index with
  | nil => rfl
  | cons b items ih =>
    have rest := ih (fun c hc => h c (List.mem_cons_of_mem _ hc)) (index + 1)
    simp only [List.map_cons, readItems, h b List.mem_cons_self index, rest, Except.ok_bind]
    rfl

theorem commandTuples_mem {index : Nat} {commands : List (List String)}
    (h : CapabilitySet.commandTuples index commands = .ok ()) :
    ∀ command ∈ commands, ∃ path, stringTuple command path false = .ok () := by
  induction commands generalizing index with
  | nil => simp
  | cons first rest ih =>
    obtain ⟨_, here, later⟩ := Except.bind_ok.mp h
    intro command member
    rcases List.mem_cons.mp member with rfl | member
    · exact ⟨_, here⟩
    · exact ih later command member

theorem CapabilitySet.fromDict_toDict (c : {c : CapabilitySet // c.postInit = .ok ()}) (path : String) :
    CapabilitySet.fromDict c.1.toDict path = .ok c := by
  obtain ⟨_, tools, h⟩ := Except.bind_ok.mp c.2
  obtain ⟨_, secrets, commands⟩ := Except.bind_ok.mp h
  have commandsBack := readItems_map (fun command index =>
      stringTupleOf false command (itemAt (path ++ ".commands") index)) Json.strs id c.1.commands
    (fun command member index => by
      obtain ⟨_, tuple⟩ := commandTuples_mem commands command member
      exact stringTupleOf_strs tuple _) 0
  rw [List.map_id] at commandsBack
  simp [CapabilitySet.fromDict, CapabilitySet.toDict, exactFields, check, Dict.keys, commandsBack,
    stringTupleOf_strs tools, stringTupleOf_strs secrets, construct_ok c.2]

theorem EvidenceRef.fromDict_toDict {e : EvidenceRef} (h : e.postInit = .ok ()) (path : String) :
    EvidenceRef.fromDict e.toDict path = .ok e := by
  simp [EvidenceRef.fromDict, EvidenceRef.toDict, exactFields, check, Dict.keys, maybe_string, h, pure,
    Except.pure]

/-! Each number written out as a float. -/

def RetryPolicy.coerced (p : RetryPolicy) : RetryPolicy :=
  { p with backoffSeconds := p.backoffSeconds.toFloat }

def Budget.coerced (b : Budget) : Budget :=
  { b with timeoutSeconds := b.timeoutSeconds.toFloat, maxCostUsd := b.maxCostUsd.map Num.toFloat }

def NodeSpec.coerced (node : NodeSpec) : NodeSpec :=
  { node with
    timeoutSeconds := node.timeoutSeconds.map Num.toFloat
    budget := node.budget.map Budget.coerced
    retryPolicy := node.retryPolicy.map RetryPolicy.coerced }

theorem optional_map {β : Type} (test : α → Checked Unit) (f : β → α) (value : Option β) :
    optional test (value.map f) = optional (fun b => test (f b)) value := by
  cases value with
  | none => rfl
  | some b => rfl

@[simp] theorem positiveNumber_toFloat (x : Num) (path : String) :
    positiveNumber x.toFloat path = positiveNumber x path := by
  simp only [positiveNumber, number_toFloat]

@[simp] theorem nonnegativeNumber_toFloat (x : Num) (path : String) :
    nonnegativeNumber x.toFloat path = nonnegativeNumber x path := by
  simp only [nonnegativeNumber, number_toFloat]

theorem RetryPolicy.coerced_postInit (p : RetryPolicy) : p.coerced.postInit = p.postInit := by
  simp only [RetryPolicy.postInit, RetryPolicy.coerced, nonnegativeNumber_toFloat]
  rfl

theorem Budget.coerced_postInit (b : Budget) : b.coerced.postInit = b.postInit := by
  simp only [Budget.postInit, Budget.coerced, optional_map, positiveNumber_toFloat,
    nonnegativeNumber_toFloat]

theorem NodeSpec.coerced_postInit (node : NodeSpec) : node.coerced.postInit = node.postInit := by
  simp only [NodeSpec.postInit, NodeSpec.declares, NodeSpec.coerced, optional_map, positiveNumber_toFloat,
    Option.isNone_map]
  rfl

theorem RetryPolicy.fromDict_toDict {p : RetryPolicy} (made : p.postInit = .ok ()) {written : Json}
    (h : p.toDict = .ok written) (path : String) :
    ∃ q, RetryPolicy.fromDict written path = .ok q ∧ q.1 = p.coerced := by
  obtain ⟨backoff, read, h⟩ := Except.bind_ok.mp h
  cases h
  obtain ⟨rfl, _⟩ := number_ok read
  have back := numberOf_num (number_settled read)
  have again := p.coerced_postInit.trans made
  refine ⟨⟨p.coerced, again⟩, ?_, rfl⟩
  have built := construct_ok again
  simp [RetryPolicy.fromDict, exactFields, check, Dict.keys, back]
  exact built

theorem optional_ok {test : α → Checked Unit} {value : Option α} (h : optional test value = .ok ()) :
    ∀ a, value = some a → test a = .ok () := by
  intro a ha
  subst ha
  exact h

theorem settled_nonnegative {x : Num} {path : String} (h : nonnegativeNumber x path = .ok ()) :
    Settled x.toFloat := by
  obtain ⟨y, read, _⟩ := Except.bind_ok.mp h
  obtain ⟨rfl, _⟩ := number_ok read
  exact number_settled read

theorem settled_positive {x : Num} {path : String} (h : positiveNumber x path = .ok ()) :
    Settled x.toFloat := by
  obtain ⟨y, read, _⟩ := Except.bind_ok.mp h
  obtain ⟨rfl, _⟩ := number_ok read
  exact number_settled read

theorem numberOf_toFloat {x : Num} (settled : Settled x.toFloat) (path : String) :
    numberOf (.num x) path = .ok x.toFloat :=
  (number_toFloat x path).symm.trans (settled path)

/-- An attribute that may be `None` is read back as the reader coerces it. -/
theorem maybe_written {β : Type} {read : Json → String → Checked α} {write : β → Json} {value : Option β}
    {coerce : β → α} {path : String}
    (h : ∀ b, value = some b → write b ≠ .null ∧ read (write b) path = .ok (coerce b)) :
    maybe read (.ofOption write value) path = .ok (value.map coerce) := by
  cases value with
  | none => rfl
  | some b =>
    obtain ⟨present, back⟩ := h b rfl
    unfold maybe
    split
    · rename_i null
      exact absurd null present
    · rw [Json.ofOption, back]
      rfl

theorem maybe_numberOf {value : Option Num} (settled : ∀ x, value = some x → Settled x.toFloat)
    (path : String) : maybe numberOf (.ofOption .num value) path = .ok (value.map Num.toFloat) :=
  maybe_written fun x hx => ⟨by simp, numberOf_toFloat (settled x hx) path⟩

theorem Budget.fromDict_toDict {b : Budget} (made : b.postInit = .ok ()) {written : Json}
    (h : b.toDict = .ok written) (path : String) :
    ∃ q, Budget.fromDict written path = .ok q ∧ q.1 = b.coerced := by
  obtain ⟨timeout, read, h⟩ := Except.bind_ok.mp h
  cases h
  obtain ⟨rfl, _⟩ := number_ok read
  obtain ⟨_, _, rest⟩ := Except.bind_ok.mp made
  obtain ⟨_, cost, _⟩ := Except.bind_ok.mp rest
  have timeoutBack := numberOf_num (number_settled read)
  have costBack := maybe_numberOf (fun x hx => settled_nonnegative (optional_ok cost x hx))
  have tokensBack : maybe integer (.ofOption (fun n => .num (.int n)) b.maxTokens)
      (path ++ ".max_tokens") = .ok b.maxTokens := maybe_ofOption fun _ _ => ⟨by simp, rfl⟩
  have again := b.coerced_postInit.trans made
  refine ⟨⟨b.coerced, again⟩, ?_, rfl⟩
  have built := construct_ok again
  simp [Budget.fromDict, exactFields, check, Dict.keys, timeoutBack, costBack, tokensBack]
  exact built

theorem RetryPolicy.toDict_ne_null {p : RetryPolicy} {j : Json} (h : p.toDict = .ok j) : j ≠ .null := by
  obtain ⟨_, _, h⟩ := Except.bind_ok.mp h
  cases h
  simp

theorem Budget.toDict_ne_null {b : Budget} {j : Json} (h : b.toDict = .ok j) : j ≠ .null := by
  obtain ⟨_, _, h⟩ := Except.bind_ok.mp h
  cases h
  simp

theorem jsonObject_ok {fields : List (String × Json)} {path : String} {j : Json}
    (h : jsonObject fields path = .ok j) : finiteFields fields = true ∧ j = .obj fields := by
  unfold jsonObject at h
  split at h
  · rename_i finite
    exact ⟨finite, (Except.ok.inj h).symm⟩
  · cases h

theorem postInit_dependencies {node : NodeSpec} (h : node.postInit = .ok ()) :
    stringTuple node.dependencies "dependencies" true = .ok () := by
  obtain ⟨_, _, h⟩ := Except.bind_ok.mp h
  obtain ⟨_, _, h⟩ := Except.bind_ok.mp h
  obtain ⟨_, _, h⟩ := Except.bind_ok.mp h
  obtain ⟨_, _, h⟩ := Except.bind_ok.mp h
  obtain ⟨_, dependencies, _⟩ := Except.bind_ok.mp h
  exact dependencies

theorem postInit_timeout {node : NodeSpec} (h : node.postInit = .ok ()) :
    optional (positiveNumber · "timeout_seconds") node.timeoutSeconds = .ok () := by
  obtain ⟨_, _, h⟩ := Except.bind_ok.mp h
  obtain ⟨_, _, h⟩ := Except.bind_ok.mp h
  obtain ⟨_, _, h⟩ := Except.bind_ok.mp h
  obtain ⟨_, _, h⟩ := Except.bind_ok.mp h
  obtain ⟨_, _, h⟩ := Except.bind_ok.mp h
  obtain ⟨_, _, h⟩ := Except.bind_ok.mp h
  obtain ⟨_, _, h⟩ := Except.bind_ok.mp h
  obtain ⟨_, timeout, _⟩ := Except.bind_ok.mp h
  exact timeout

/-- A part of a node that may be `None`, written by its own `to_dict`. -/
theorem maybe_part {P : α → Prop} {read : Json → String → Checked {a : α // P a}}
    {write : α → Checked Json} {coerce : α → α} {value : Option α} {written : Option Json}
    (h : value.mapM write = .ok written) (path : String)
    (back : ∀ a j, value = some a → write a = .ok j → j ≠ .null ∧ ∃ q, read j path = .ok q ∧ q.1 = coerce a) :
    ∃ part, maybe read (.ofOption id written) path = .ok part ∧ part.map Subtype.val = value.map coerce := by
  cases value with
  | none =>
    cases h
    exact ⟨none, rfl, rfl⟩
  | some a =>
    obtain ⟨j, wrote, h⟩ := Except.bind_ok.mp h
    cases h
    obtain ⟨present, q, again, same⟩ := back a j rfl wrote
    refine ⟨some q, ?_, by simp [same]⟩
    unfold maybe
    split
    · rename_i null
      exact absurd null present
    · rw [Json.ofOption, id, again]
      rfl

theorem build_ok {parts : NodeParts} {node : NodeSpec} (same : parts.node = node)
    (passed : node.postInit = .ok ()) : ∃ n, parts.build = .ok n ∧ n.1 = node := by
  subst same
  unfold NodeParts.build NodeSpec.construct
  split
  · exact ⟨_, rfl, rfl⟩
  · rename_i e raised
    cases passed.symm.trans raised

theorem NodeSpec.fromDict_toDict {node : NodeSpec} (made : node.Constructed) {written : Json}
    (h : node.toDict = .ok written) (index : Nat) :
    ∃ n, NodeSpec.fromDict written index = .ok n ∧ n.1 = node.coerced := by
  obtain ⟨budget, wroteBudget, h⟩ := Except.bind_ok.mp h
  obtain ⟨metadata, wroteMetadata, h⟩ := Except.bind_ok.mp h
  obtain ⟨retryPolicy, wroteRetry, h⟩ := Except.bind_ok.mp h
  cases h
  obtain ⟨_, rfl⟩ := jsonObject_ok wroteMetadata
  obtain ⟨budgetPart, budgetBack, budgetSame⟩ := maybe_part wroteBudget (itemAt "nodes" index ++ ".budget")
    fun b j hb wrote => ⟨Budget.toDict_ne_null wrote, Budget.fromDict_toDict (made.budget b hb) wrote _⟩
  obtain ⟨retryPart, retryBack, retrySame⟩ := maybe_part wroteRetry (itemAt "nodes" index ++ ".retry_policy")
    fun p j hp wrote =>
      ⟨RetryPolicy.toDict_ne_null wrote, RetryPolicy.fromDict_toDict (made.retryPolicy p hp) wrote _⟩
  have timeoutBack := maybe_numberOf fun x hx =>
    settled_positive (optional_ok (postInit_timeout made.self) x hx)
  have capabilitiesBack := CapabilitySet.fromDict_toDict ⟨node.capabilities, made.capabilities⟩
  let parts : NodeParts :=
    { node with
      timeoutSeconds := node.timeoutSeconds.map Num.toFloat
      budget := budgetPart
      retryPolicy := retryPart
      capabilities := ⟨node.capabilities, made.capabilities⟩ }
  have same : parts.node = node.coerced := by
    simp only [NodeParts.node, NodeSpec.coerced, parts, budgetSame, retrySame]
  obtain ⟨n, built, value⟩ := build_ok same (node.coerced_postInit.trans made.self)
  refine ⟨n, ?_, value⟩
  rw [← built]
  simp [NodeSpec.fromDict, NodeParts.fromDict, exactFields, nodeFields, check, Dict.keys, maybe_string,
    budgetBack, retryBack, timeoutBack, stringTupleOf_strs (postInit_dependencies made.self),
    capabilitiesBack, pure, Except.pure, parts]

theorem readItems_mapM {nodes : List NodeSpec} (made : ∀ node ∈ nodes, node.Constructed)
    {written : List Json} (wrote : nodes.mapM NodeSpec.toDict = .ok written) (index : Nat) :
    ∃ back, readItems NodeSpec.fromDict index written = .ok back ∧
      back.map Subtype.val = nodes.map NodeSpec.coerced := by
  induction nodes generalizing written index with
  | nil =>
    rw [List.mapM_nil] at wrote
    cases wrote
    exact ⟨[], rfl, rfl⟩
  | cons node nodes ih =>
    rw [List.mapM_cons] at wrote
    obtain ⟨first, here, wrote⟩ := Except.bind_ok.mp wrote
    obtain ⟨rest, later, wrote⟩ := Except.bind_ok.mp wrote
    cases wrote
    obtain ⟨n, back, value⟩ := NodeSpec.fromDict_toDict (made node List.mem_cons_self) here index
    obtain ⟨ns, again, values⟩ := ih (fun m hm => made m (List.mem_cons_of_mem _ hm)) later (index + 1)
    refine ⟨n :: ns, ?_, by simp [value, values]⟩
    simp only [readItems, back, again, Except.ok_bind]
    rfl

/-! The checks of a graph look at ids and dependencies alone. -/

section Graph

variable {change : NodeSpec → NodeSpec} (ids : ∀ node, (change node).nodeId = node.nodeId)
  (dependencies : ∀ node, (change node).dependencies = node.dependencies)

include ids

theorem byId_map (nodes : List NodeSpec) (nodeId : String) :
    byId (nodes.map change) nodeId = (byId nodes nodeId).map change := by
  simp only [byId, List.find?_map, Function.comp_def, ids]

include dependencies

theorem dependentsOf_map (nodes : List NodeSpec) (dependency : String) :
    dependentsOf (nodes.map change) dependency = dependentsOf nodes dependency := by
  simp only [dependentsOf, List.flatMap_map, ids, dependencies]

theorem topologicalFrom_map (nodes : List NodeSpec) (fuel : Nat) (remaining : List (String × Int))
    (ready : List String) :
    topologicalFrom (nodes.map change) fuel remaining ready =
      (topologicalFrom nodes fuel remaining ready).map change := by
  induction fuel generalizing remaining ready with
  | zero => rfl
  | succ fuel ih =>
    cases ready with
    | nil => rfl
    | cons current ready =>
      simp only [topologicalFrom, dependentsOf_map ids dependencies, byId_map ids, ih, List.map_append,
        Option.toList_map]

theorem topological_map (nodes : List NodeSpec) :
    topological (nodes.map change) = (topological nodes).map change := by
  simp only [topological, List.map_map, Function.comp_def, ids, dependencies, List.filter_map,
    List.length_map, topologicalFrom_map ids dependencies]

theorem forM_checkDependencies_map (known : List String) (nodes : List NodeSpec) :
    (nodes.map change).forM (checkDependencies known) = nodes.forM (checkDependencies known) := by
  induction nodes with
  | nil => rfl
  | cons node nodes ih =>
    have first : checkDependencies known (change node) = checkDependencies known node := by
      simp only [checkDependencies, ids, dependencies]
    rw [List.map_cons]
    simp only [List.forM, first]
    exact congrArg (fun rest => bind (checkDependencies known node) fun _ => rest) ih

theorem runPostInit_map (schema runId task : String) (nodes : List NodeSpec) :
    runPostInit schema runId task (nodes.map change) = runPostInit schema runId task nodes := by
  simp only [runPostInit, validateGraph, List.map_map, Function.comp_def, ids,
    forM_checkDependencies_map ids dependencies, topological_map ids dependencies, List.length_map,
    ne_eq, List.map_eq_nil_iff]

end Graph

/-- The other spec is this one with each node changed and its metadata replaced. -/
structure RunSpec.Becomes (spec other : RunSpec) (change : NodeSpec → NodeSpec)
    (metadata : List (String × Json)) : Prop where
  runId : other.runId = spec.runId
  task : other.task = spec.task
  nodes : other.nodes = spec.nodes.map change
  evidence : other.evidence = spec.evidence
  metadata : other.metadata = metadata
  schema : other.schema = spec.schema

theorem RunSpec.construct_becomes (spec : RunSpec) {change : NodeSpec → NodeSpec}
    (ids : ∀ node, (change node).nodeId = node.nodeId)
    (dependencies : ∀ node, (change node).dependencies = node.dependencies)
    {nodes : List {n : NodeSpec // n.Constructed}} (same : nodes.map Subtype.val = spec.nodes.map change)
    (metadata : List (String × Json)) :
    ∃ other, RunSpec.construct spec.runId spec.task nodes spec.evidence metadata spec.schema = .ok other ∧
      spec.Becomes other change metadata := by
  have passed : runPostInit spec.schema spec.runId spec.task (nodes.map Subtype.val) = .ok () := by
    rw [same, runPostInit_map ids dependencies, spec.wellFormed]
  unfold RunSpec.construct
  split
  · exact ⟨_, rfl, rfl, rfl, same, rfl, rfl, rfl⟩
  · rename_i e raised
    cases passed.symm.trans raised

theorem runPostInit_schema {schema runId task : String} {nodes : List NodeSpec}
    (h : runPostInit schema runId task nodes = .ok ()) : schema = schemaVersion := by
  obtain ⟨_, supported, _⟩ := Except.bind_ok.mp h
  unfold check at supported
  split at supported
  · assumption
  · cases supported

/-- What a spec writes out is read as the spec itself with each number a float. -/
theorem RunSpec.fromDict_toDict {spec : RunSpec} (evidence : ∀ e ∈ spec.evidence, e.postInit = .ok ())
    {written : Json} (wrote : spec.toDict = .ok written) :
    ∃ back, RunSpec.fromDict written = .ok back ∧ spec.Becomes back NodeSpec.coerced spec.metadata := by
  obtain ⟨metadataWritten, wroteMetadata, wrote⟩ := Except.bind_ok.mp wrote
  obtain ⟨nodesWritten, wroteNodes, wrote⟩ := Except.bind_ok.mp wrote
  cases wrote
  obtain ⟨_, rfl⟩ := jsonObject_ok wroteMetadata
  obtain ⟨nodes, nodesBack, same⟩ := readItems_mapM spec.constructed wroteNodes 0
  obtain ⟨back, built, becomes⟩ := spec.construct_becomes
    (fun node => (rfl : node.coerced.nodeId = node.nodeId)) (fun _ => rfl) same spec.metadata
  refine ⟨back, ?_, becomes⟩
  have evidenceBack := readItems_map (fun item index =>
      EvidenceRef.fromDict item (itemAt "run spec.evidence" index)) EvidenceRef.toDict id spec.evidence
    (fun e member index => EvidenceRef.fromDict_toDict (evidence e member) _) 0
  rw [List.map_id] at evidenceBack
  have supported : check (spec.schema = schemaVersion) ("unsupported runtime schema: " ++ spec.schema) =
      .ok () := if_pos (runPostInit_schema spec.wellFormed)
  have fields : exactFields [("evidence", .arr (spec.evidence.map EvidenceRef.toDict)),
      ("metadata", .obj spec.metadata), ("nodes", .arr nodesWritten), ("run_id", .str spec.runId),
      ("schema_version", .str spec.schema), ("task", .str spec.task)] runFields "run spec" = .ok () := by
    simp [exactFields, check, Dict.keys, runFields]
  rw [← built]
  simp only [RunSpec.fromDict, object_obj, Except.ok_bind, fields]
  simp [supported, nodesBack, evidenceBack]

/-! The order of the keys in a payload makes no difference. -/

/-- What was read from a value is read from its sorted form. -/
def Stable (read : Json → String → Checked α) : Prop :=
  ∀ value path a, read value path = .ok a → read value.canonical path = .ok a

theorem stable_string : Stable string := by
  intro value path a h
  cases value with
  | str text => exact h
  | _ => cases h

theorem stable_bool : Stable bool := by
  intro value path a h
  cases value with
  | bool b => exact h
  | _ => cases h

theorem stable_integer : Stable integer := by
  intro value path a h
  cases value with
  | num n => exact h
  | _ => cases h

theorem stable_numberOf : Stable numberOf := by
  intro value path a h
  cases value with
  | num n => exact h
  | _ => cases h

theorem stable_maybe {read : Json → String → Checked α} (stable : Stable read) : Stable (maybe read) := by
  intro value path a h
  unfold maybe at h
  split at h
  · exact h
  · rename_i present
    cases reads : read value path with
    | error e =>
      rw [reads] at h
      cases h
    | ok b =>
      rw [reads] at h
      cases h
      unfold maybe
      split
      · rename_i null
        cases value with
        | null => exact absurd rfl present
        | _ => simp at null
      · rw [stable value path b reads]
        rfl

theorem stringItems_canonical (path : String) (index : Nat) (values : List Json) :
    stringItems path index (canonicalItems values) = stringItems path index values := by
  induction values generalizing index with
  | nil => rfl
  | cons value values ih =>
    simp only [canonicalItems, stringItems, ih]
    cases value with
    | _ => simp

theorem stable_stringTupleOf (allowEmpty : Bool) : Stable (stringTupleOf allowEmpty) := by
  intro value path a h
  cases value with
  | arr values =>
    rw [Json.canonical_arr, stringTupleOf, stringItems_canonical]
    exact h
  | _ => cases h

theorem object_canonical {value : Json} {path : String} {data : List (String × Json)}
    (h : object value path = .ok data) : object value.canonical path = .ok (canonicalFields data) := by
  cases value with
  | obj fields =>
    cases h
    rw [Json.canonical_obj, object_obj]
  | _ => cases h

theorem array_canonical {value : Json} {path : String} {items : List Json}
    (h : array value path = .ok items) : array value.canonical path = .ok (canonicalItems items) := by
  cases value with
  | arr values =>
    cases h
    rw [Json.canonical_arr, array_arr]
  | _ => cases h

theorem mem_keys_canonicalFields {key : String} {data : List (String × Json)} :
    key ∈ Dict.keys (canonicalFields data) ↔ key ∈ Dict.keys data := by
  rw [← Dict.lookup_isSome_iff, ← Dict.lookup_isSome_iff, Json.lookup_canonicalFields, Option.isSome_map]

theorem exactFields_canonical {data : List (String × Json)} {fields : List String} {path : String}
    (h : exactFields data fields path = .ok ()) : exactFields (canonicalFields data) fields path = .ok () := by
  have same : ((Dict.keys (canonicalFields data)).all fields.contains &&
        fields.all (Dict.keys (canonicalFields data)).contains) =
      ((Dict.keys data).all fields.contains && fields.all (Dict.keys data).contains) := by
    rw [Bool.eq_iff_iff]
    simp only [Bool.and_eq_true, List.all_eq_true, List.contains_iff_mem, mem_keys_canonicalFields]
  unfold exactFields check at h ⊢
  split at h
  · rename_i exact
    rw [if_pos (same.trans exact)]
  · cases h

@[simp] theorem field_canonical (data : List (String × Json)) (key : String) :
    field (canonicalFields data) key = (field data key).canonical := by
  unfold field
  rw [Json.lookup_canonicalFields]
  cases data.lookup key with
  | none => simp
  | some value => rfl

theorem RetryPolicy.fromDict_stable : Stable RetryPolicy.fromDict := by
  intro value path p h
  obtain ⟨data, isObject, h⟩ := Except.bind_ok.mp h
  obtain ⟨_, exact, h⟩ := Except.bind_ok.mp h
  obtain ⟨attempts, readAttempts, h⟩ := Except.bind_ok.mp h
  obtain ⟨backoff, readBackoff, h⟩ := Except.bind_ok.mp h
  simp only [RetryPolicy.fromDict, object_canonical isObject, exactFields_canonical exact, field_canonical,
    stable_integer _ _ _ readAttempts, stable_numberOf _ _ _ readBackoff, Except.ok_bind]
  exact h

theorem Budget.fromDict_stable : Stable Budget.fromDict := by
  intro value path b h
  obtain ⟨data, isObject, h⟩ := Except.bind_ok.mp h
  obtain ⟨_, exact, h⟩ := Except.bind_ok.mp h
  obtain ⟨timeout, readTimeout, h⟩ := Except.bind_ok.mp h
  obtain ⟨cost, readCost, h⟩ := Except.bind_ok.mp h
  obtain ⟨tokens, readTokens, h⟩ := Except.bind_ok.mp h
  simp only [Budget.fromDict, object_canonical isObject, exactFields_canonical exact, field_canonical,
    stable_numberOf _ _ _ readTimeout, stable_maybe stable_numberOf _ _ _ readCost,
    stable_maybe stable_integer _ _ _ readTokens, Except.ok_bind]
  exact h

theorem EvidenceRef.fromDict_stable : Stable EvidenceRef.fromDict := by
  intro value path e h
  obtain ⟨data, isObject, h⟩ := Except.bind_ok.mp h
  obtain ⟨_, exact, h⟩ := Except.bind_ok.mp h
  obtain ⟨id, readId, h⟩ := Except.bind_ok.mp h
  obtain ⟨kind, readKind, h⟩ := Except.bind_ok.mp h
  obtain ⟨uri, readUri, h⟩ := Except.bind_ok.mp h
  obtain ⟨digest, readDigest, h⟩ := Except.bind_ok.mp h
  simp only [EvidenceRef.fromDict, object_canonical isObject, exactFields_canonical exact, field_canonical,
    stable_string _ _ _ readId, stable_string _ _ _ readKind, stable_string _ _ _ readUri,
    stable_maybe stable_string _ _ _ readDigest, Except.ok_bind]
  exact h

/-- An array whose items are read from their sorted forms, up to what `view` shows of them. -/
theorem readItems_canonical {β : Type} {read : Json → Nat → Checked α} (view : α → β) (change : β → β)
    (stable : ∀ value index a, read value index = .ok a →
      ∃ b, read value.canonical index = .ok b ∧ view b = change (view a))
    {index : Nat} {values : List Json} {items : List α} (h : readItems read index values = .ok items) :
    ∃ others, readItems read index (canonicalItems values) = .ok others ∧
      others.map view = (items.map view).map change := by
  induction values generalizing index items with
  | nil =>
    cases h
    exact ⟨[], rfl, rfl⟩
  | cons value values ih =>
    obtain ⟨first, here, h⟩ := Except.bind_ok.mp h
    obtain ⟨rest, later, h⟩ := Except.bind_ok.mp h
    cases h
    obtain ⟨b, again, same⟩ := stable value index first here
    obtain ⟨others, others_read, rest_same⟩ := ih later
    refine ⟨b :: others, ?_, by simp [same, rest_same]⟩
    simp only [canonicalItems, readItems, again, others_read, Except.ok_bind]
    rfl

theorem readItems_stable {read : Json → Nat → Checked α}
    (stable : ∀ value index a, read value index = .ok a → read value.canonical index = .ok a)
    {index : Nat} {values : List Json} {items : List α} (h : readItems read index values = .ok items) :
    readItems read index (canonicalItems values) = .ok items := by
  obtain ⟨others, again, same⟩ := readItems_canonical id id
    (fun value index a read => ⟨a, stable value index a read, rfl⟩) h
  simp only [List.map_id] at same
  rw [again, same]

theorem CapabilitySet.fromDict_stable : Stable CapabilitySet.fromDict := by
  intro value path c h
  obtain ⟨data, isObject, h⟩ := Except.bind_ok.mp h
  obtain ⟨_, exact, h⟩ := Except.bind_ok.mp h
  obtain ⟨raw, readRaw, h⟩ := Except.bind_ok.mp h
  obtain ⟨tools, readTools, h⟩ := Except.bind_ok.mp h
  obtain ⟨commands, readCommands, h⟩ := Except.bind_ok.mp h
  obtain ⟨write, readWrite, h⟩ := Except.bind_ok.mp h
  obtain ⟨network, readNetwork, h⟩ := Except.bind_ok.mp h
  obtain ⟨secrets, readSecrets, h⟩ := Except.bind_ok.mp h
  have commandsBack := readItems_stable
    (fun value index a read =>
      stable_stringTupleOf false value (itemAt (path ++ ".commands") index) a read) readCommands
  simp only [CapabilitySet.fromDict, object_canonical isObject, exactFields_canonical exact,
    field_canonical, array_canonical readRaw, stable_stringTupleOf true _ _ _ readTools, commandsBack,
    stable_bool _ _ _ readWrite, stable_bool _ _ _ readNetwork,
    stable_stringTupleOf true _ _ _ readSecrets, Except.ok_bind]
  exact h

def NodeSpec.sorted (node : NodeSpec) : NodeSpec := { node with metadata := canonicalFields node.metadata }

theorem NodeParts.fromDict_canonical {value : Json} {index : Nat} {parts : NodeParts}
    (h : NodeParts.fromDict value index = .ok parts) :
    NodeParts.fromDict value.canonical index =
      .ok { parts with metadata := canonicalFields parts.metadata } := by
  obtain ⟨data, isObject, h⟩ := Except.bind_ok.mp h
  obtain ⟨_, exact, h⟩ := Except.bind_ok.mp h
  obtain ⟨_, readId, h⟩ := Except.bind_ok.mp h
  obtain ⟨_, readKind, h⟩ := Except.bind_ok.mp h
  obtain ⟨_, readObjective, h⟩ := Except.bind_ok.mp h
  obtain ⟨_, readCompletion, h⟩ := Except.bind_ok.mp h
  obtain ⟨_, readDependencies, h⟩ := Except.bind_ok.mp h
  obtain ⟨_, readSideEffecting, h⟩ := Except.bind_ok.mp h
  obtain ⟨_, readApproval, h⟩ := Except.bind_ok.mp h
  obtain ⟨_, readKey, h⟩ := Except.bind_ok.mp h
  obtain ⟨_, readTimeout, h⟩ := Except.bind_ok.mp h
  obtain ⟨_, readBudget, h⟩ := Except.bind_ok.mp h
  obtain ⟨_, readRetry, h⟩ := Except.bind_ok.mp h
  obtain ⟨_, readCapabilities, h⟩ := Except.bind_ok.mp h
  obtain ⟨_, readMetadata, h⟩ := Except.bind_ok.mp h
  cases h
  simp only [NodeParts.fromDict, object_canonical isObject, exactFields_canonical exact, field_canonical,
    stable_string _ _ _ readId, stable_string _ _ _ readKind, stable_string _ _ _ readObjective,
    stable_maybe stable_string _ _ _ readCompletion, stable_stringTupleOf true _ _ _ readDependencies,
    stable_bool _ _ _ readSideEffecting, stable_bool _ _ _ readApproval,
    stable_maybe stable_string _ _ _ readKey, stable_maybe stable_numberOf _ _ _ readTimeout,
    stable_maybe Budget.fromDict_stable _ _ _ readBudget,
    stable_maybe RetryPolicy.fromDict_stable _ _ _ readRetry,
    CapabilitySet.fromDict_stable _ _ _ readCapabilities, object_canonical readMetadata, Except.ok_bind]
  rfl

theorem build_val {parts : NodeParts} {n : {n : NodeSpec // n.Constructed}} (h : parts.build = .ok n) :
    n.1 = parts.node := by
  unfold NodeParts.build NodeSpec.construct at h
  split at h
  · cases h
    rfl
  · cases h

theorem NodeSpec.fromDict_canonical (value : Json) (index : Nat) (n : {n : NodeSpec // n.Constructed})
    (h : NodeSpec.fromDict value index = .ok n) :
    ∃ m, NodeSpec.fromDict value.canonical index = .ok m ∧ m.1 = n.1.sorted := by
  obtain ⟨parts, read, built⟩ := Except.bind_ok.mp h
  have same := build_val built
  let others : NodeParts := { parts with metadata := canonicalFields parts.metadata }
  have node : others.node = n.1.sorted := by rw [same]; rfl
  have passed : n.1.sorted.postInit = .ok () := n.2.self
  obtain ⟨m, again, value⟩ := build_ok node passed
  refine ⟨m, ?_, value⟩
  simp only [NodeSpec.fromDict, NodeParts.fromDict_canonical read, Except.ok_bind]
  exact again

theorem RunSpec.construct_fields {runId task schema : String} {nodes : List {n : NodeSpec // n.Constructed}}
    {evidence : List EvidenceRef} {metadata : List (String × Json)} {spec : RunSpec}
    (h : RunSpec.construct runId task nodes evidence metadata schema = .ok spec) :
    spec.runId = runId ∧ spec.task = task ∧ spec.nodes = nodes.map Subtype.val ∧
      spec.evidence = evidence ∧ spec.metadata = metadata ∧ spec.schema = schema := by
  unfold RunSpec.construct at h
  split at h
  · cases h
    exact ⟨rfl, rfl, rfl, rfl, rfl, rfl⟩
  · cases h

/-- A payload with its keys sorted reads as the same spec, the keys of its metadata sorted. -/
theorem RunSpec.fromDict_canonical {value : Json} {spec : RunSpec} (h : RunSpec.fromDict value = .ok spec) :
    ∃ other, RunSpec.fromDict value.canonical = .ok other ∧
      spec.Becomes other NodeSpec.sorted (canonicalFields spec.metadata) := by
  obtain ⟨data, isObject, h⟩ := Except.bind_ok.mp h
  obtain ⟨_, exact, h⟩ := Except.bind_ok.mp h
  obtain ⟨schema, readSchema, h⟩ := Except.bind_ok.mp h
  obtain ⟨_, supported, h⟩ := Except.bind_ok.mp h
  obtain ⟨runId, readRunId, h⟩ := Except.bind_ok.mp h
  obtain ⟨task, readTask, h⟩ := Except.bind_ok.mp h
  obtain ⟨_, readRaw, h⟩ := Except.bind_ok.mp h
  obtain ⟨nodes, readNodes, h⟩ := Except.bind_ok.mp h
  obtain ⟨_, readRawEvidence, h⟩ := Except.bind_ok.mp h
  obtain ⟨evidence, readEvidence, h⟩ := Except.bind_ok.mp h
  obtain ⟨metadata, readMetadata, h⟩ := Except.bind_ok.mp h
  obtain ⟨rfl, rfl, same, rfl, rfl, rfl⟩ := RunSpec.construct_fields h
  obtain ⟨others, nodesBack, changed⟩ := readItems_canonical Subtype.val NodeSpec.sorted
    NodeSpec.fromDict_canonical readNodes
  have evidenceBack := readItems_stable (fun value index a read =>
    EvidenceRef.fromDict_stable value (itemAt "run spec.evidence" index) a read) readEvidence
  obtain ⟨other, built, becomes⟩ := spec.construct_becomes
    (fun node => (rfl : node.sorted.nodeId = node.nodeId)) (fun _ => rfl) (same ▸ changed)
    (canonicalFields spec.metadata)
  refine ⟨other, ?_, becomes⟩
  simp only [RunSpec.fromDict, object_canonical isObject, exactFields_canonical exact, field_canonical,
    stable_string _ _ _ readSchema, supported, stable_string _ _ _ readRunId, stable_string _ _ _ readTask,
    array_canonical readRaw, nodesBack, array_canonical readRawEvidence, evidenceBack,
    object_canonical readMetadata, Except.ok_bind]
  exact built

end Onmc.Runtime

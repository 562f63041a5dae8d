import Onmc.Staging.Names

/-! What a run of an approval queue keeps, as long as no id is used twice and nothing is staged before
what is already pending. -/
namespace Onmc.Staging

variable {Body : Type}

inductive Op (Body : Type) where
  | stage (body : Body) (reason stagedAt : String)
  | approve (proposalId : String) (serve : Proposal Body → Except String String)
  | reject (proposalId reason : String)
  | list

/-- The disk, and what the calls have answered so far: the proposals staged, the decisions taken. -/
structure History (Body : Type) where
  disk : Disk Body
  staged : List (Proposal Body)
  decided : List AuditRecord

namespace History

def start : History Body := ⟨.empty, [], []⟩

def recordStage (h : History Body) : Disk Body × Except String (Proposal Body) → History Body
  | (q, .ok p) => { h with disk := q, staged := h.staged ++ [p] }
  | (q, .error _) => { h with disk := q }

def recordDecision (h : History Body) : Disk Body × Except String AuditRecord → History Body
  | (q, .ok r) => { h with disk := q, decided := h.decided ++ [r] }
  | (q, .error _) => { h with disk := q }

def decidedIds (h : History Body) : List String := h.decided.map AuditRecord.proposalId

/-- The proposals that no decision has named, in the order in which they were staged. -/
def outstanding (h : History Body) : List (Proposal Body) := h.staged.filter (fun p => p.id ∉ h.decidedIds)

end History

/-- Nothing is lost: what is listed as pending is what was staged and not decided, in staging order; ids
are distinct; a decision is about a staged proposal and is the only one; the audit counts up. -/
structure Lossless (h : History Body) : Prop where
  pending : listPending h.disk = h.outstanding
  distinct : (h.staged.map Proposal.id).Nodup
  once : h.decidedIds.Nodup
  known : ∀ id ∈ h.decidedIds, id ∈ h.staged.map Proposal.id
  audited : listAudit h.disk = h.decided
  increasing : (h.decided.map AuditRecord.seq).Pairwise (· < ·)

variable [Paths]

def step (f : Flavor Body) (h : History Body) : Op Body → History Body
  | .stage body reason stagedAt => h.recordStage (stage f h.disk body reason stagedAt)
  | .approve proposalId serve => h.recordDecision (approve f h.disk proposalId serve)
  | .reject proposalId reason => h.recordDecision (reject h.disk proposalId reason)
  | .list => h

/-- What has to hold before a call. A proposal is staged when no other of the same hash was staged at the
same count of pending ones, and after every pending one in the order of the listing. An id with a slash
names no file of a proposal. -/
def Fresh (f : Flavor Body) (h : History Body) : Op Body → Prop
  | .stage body _ _ => ∀ checked, f.check body = .ok checked →
    (∀ p ∈ h.staged, contentHash f p.body = contentHash f checked → p.seq ≠ nextSeq h.disk) ∧
    ∀ p ∈ listPending h.disk, p.seq < nextSeq h.disk ∨
      (p.seq = nextSeq h.disk ∧ p.id ≤ proposalId f checked (nextSeq h.disk))
  | .approve proposalId _ | .reject proposalId _ =>
    '/' ∈ proposalId.toList → ∀ p, loadProposal h.disk proposalId ≠ .ok (some p)
  | .list => True

instance (f : Flavor Body) (h : History Body) : ∀ op, Decidable (Fresh f h op)
  | .stage body _ _ =>
    match checks : f.check body with
    | .error _ => isTrue (fun checked same => by rw [checks] at same; cases same)
    | .ok checked => decidable_of_iff
        ((∀ p ∈ h.staged, contentHash f p.body = contentHash f checked → p.seq ≠ nextSeq h.disk) ∧
          ∀ p ∈ listPending h.disk, p.seq < nextSeq h.disk ∨
            (p.seq = nextSeq h.disk ∧ p.id ≤ proposalId f checked (nextSeq h.disk)))
        ⟨fun holds other same => by rw [checks] at same; obtain rfl := Except.ok.inj same; exact holds,
          fun holds => holds checked checks⟩
  | .approve proposalId _ | .reject proposalId _ =>
    match loads : loadProposal h.disk proposalId with
    | .ok (some p) => decidable_of_iff ('/' ∉ proposalId.toList)
        ⟨fun plain slash => absurd slash plain, fun holds slash => holds slash p loads⟩
    | .ok none => isTrue (fun _ p same => by rw [loads] at same; cases same)
    | .error _ => isTrue (fun _ p same => by rw [loads] at same; cases same)
  | .list => isTrue trivial

def runOps (f : Flavor Body) (h : History Body) (ops : List (Op Body)) : History Body := ops.foldl (step f) h

def FreshRun (f : Flavor Body) : History Body → List (Op Body) → Prop
  | _, [] => True
  | h, op :: rest => Fresh f h op ∧ FreshRun f (step f h op) rest

instance decidableFreshRun (f : Flavor Body) :
    ∀ (h : History Body) (ops : List (Op Body)), Decidable (FreshRun f h ops)
  | _, [] => isTrue trivial
  | h, op :: rest =>
    have := decidableFreshRun f (step f h op) rest
    inferInstanceAs (Decidable (_ ∧ _))

/-! The invariant. -/

def pendingFile (p : Proposal Body) : String × Stored Body := (p.id ++ ".json", .proposal p)

def auditFile (r : AuditRecord) : String × Stored Body := (auditName r, .audit r)

structure Inv (f : Flavor Body) (h : History Body) : Prop where
  files : h.disk.pending = h.outstanding.map pendingFile
  audits : h.disk.audit = h.decided.map auditFile
  counted : h.decided.map AuditRecord.seq = List.range h.decided.length
  derived : ∀ p ∈ h.staged, p.id = proposalId f p.body p.seq
  distinct : (h.staged.map Proposal.id).Nodup
  once : h.decidedIds.Nodup
  known : ∀ id ∈ h.decidedIds, id ∈ h.staged.map Proposal.id
  ordered : h.outstanding.Pairwise keyLe

section Lists

omit [Paths]

variable {f : Flavor Body} {h : History Body}

theorem pendingFile_json (derived : ∀ p ∈ h.staged, p.id = proposalId f p.body p.seq) {p : Proposal Body}
    (member : p ∈ h.outstanding) : isJson (pendingFile p).1 = true := by
  have made := derived p (List.mem_filter.mp member).1
  rw [pendingFile, isJson_append, made]
  exact proposalId_ne_empty p.body p.seq

theorem auditFile_json (r : AuditRecord) : isJson (auditFile r : String × Stored Body).1 = true := by
  rw [auditFile, auditName, isJson_append]
  intro empty
  have chars := congrArg String.toList empty
  simp at chars

theorem countJson_map {α : Type} {file : α → String × Stored Body} {items : List α}
    (json : ∀ a ∈ items, isJson (file a).1 = true) : countJson (items.map file) = items.length := by
  have all : (items.map file).filter (fun entry => isJson entry.1) = items.map file := by
    apply List.filter_eq_self.mpr
    intro entry member
    obtain ⟨a, ha, rfl⟩ := List.mem_map.mp member
    exact json a ha
  rw [countJson, all, List.length_map]

theorem jsonFiles_perm {α : Type} {file : α → String × Stored Body} {items : List α}
    (json : ∀ a ∈ items, isJson (file a).1 = true) : (jsonFiles (items.map file)).Perm (items.map file) := by
  have sorted := List.perm_insertionSort (fun a b : String × Stored Body => a.1 ≤ b.1) (items.map file)
  have all : ((items.map file).insertionSort (fun a b => a.1 ≤ b.1)).filter (fun entry => isJson entry.1) =
      (items.map file).insertionSort (fun a b => a.1 ≤ b.1) := by
    apply List.filter_eq_self.mpr
    intro entry member
    obtain ⟨a, ha, rfl⟩ := List.mem_map.mp (sorted.mem_iff.mp member)
    exact json a ha
  rw [jsonFiles, all]
  exact sorted

instance : Std.Total (keyLe : Proposal Body → Proposal Body → Prop) := by
  constructor
  intro p p'
  rcases Nat.lt_trichotomy p.seq p'.seq with less | same | more
  · exact .inl (.inl less)
  · rcases String.le_total p.id p'.id with le | ge
    · exact .inl (.inr ⟨same, le⟩)
    · exact .inr (.inr ⟨same.symm, ge⟩)
  · exact .inr (.inl more)

instance : IsTrans (Proposal Body) keyLe := by
  constructor
  rintro p p' p'' (less | ⟨same, le⟩) (less' | ⟨same', le'⟩)
  · exact .inl (less.trans less')
  · exact .inl (same' ▸ less)
  · exact .inl (same ▸ less')
  · exact .inr ⟨same.trans same', String.le_trans le le'⟩

theorem keyLe_antisymm {p p' : Proposal Body} (le : keyLe p p') (ge : keyLe p' p) : p.id = p'.id := by
  rcases le with less | ⟨same, le⟩ <;> rcases ge with less' | ⟨same', ge⟩
  · omega
  · omega
  · omega
  · exact String.le_antisymm le ge

theorem Inv.eq_of_id (inv : Inv f h) {p p' : Proposal Body} (member : p ∈ h.staged) (member' : p' ∈ h.staged)
    (same : p.id = p'.id) : p = p' :=
  List.inj_on_of_nodup_map inv.distinct member member' same

theorem Inv.listPending (inv : Inv f h) : listPending h.disk = h.outstanding := by
  have loaded : (h.outstanding.map pendingFile).filterMap (fun file => file.2.asProposal) = h.outstanding := by
    simp [List.filterMap_map, Function.comp_def, pendingFile, Stored.asProposal]
  have read := (jsonFiles_perm (fun p member => pendingFile_json inv.derived member)).filterMap
    (fun file : String × Stored Body => file.2.asProposal)
  rw [loaded] at read
  rw [Staging.listPending, inv.files]
  have sorted := List.perm_insertionSort keyLe ((jsonFiles (h.outstanding.map pendingFile)).filterMap
    (fun file => file.2.asProposal))
  apply List.Perm.eq_of_pairwise _ (List.pairwise_insertionSort _ _) inv.ordered (sorted.trans read)
  intro p p' listed member le ge
  have opened := (sorted.trans read).mem_iff.mp listed
  exact inv.eq_of_id (List.mem_of_mem_filter opened) (List.mem_of_mem_filter member) (keyLe_antisymm le ge)

theorem Inv.increasing (inv : Inv f h) : (h.decided.map AuditRecord.seq).Pairwise (· < ·) := by
  rw [inv.counted]
  exact List.pairwise_lt_range

theorem Inv.listAudit (inv : Inv f h) : listAudit h.disk = h.decided := by
  have loaded : (h.decided.map auditFile).map (fun file : String × Stored Body => file.2.asAudit) = h.decided := by
    simp [Function.comp_def, auditFile, Stored.asAudit]
  have read := (jsonFiles_perm (fun r (_ : r ∈ h.decided) => @auditFile_json Body r)).map
    (fun file : String × Stored Body => file.2.asAudit)
  rw [loaded] at read
  rw [Staging.listAudit, inv.audits]
  have sorted := List.perm_insertionSort (fun r r' : AuditRecord => r.seq ≤ r'.seq)
    ((jsonFiles (h.decided.map auditFile)).map (fun file : String × Stored Body => file.2.asAudit))
  have total : Std.Total (fun r r' : AuditRecord => r.seq ≤ r'.seq) := ⟨fun r r' => Nat.le_total r.seq r'.seq⟩
  have trans : IsTrans AuditRecord (fun r r' => r.seq ≤ r'.seq) := ⟨fun r r' r'' => Nat.le_trans⟩
  have ascending : h.decided.Pairwise (fun r r' => r.seq ≤ r'.seq) :=
    (List.pairwise_map.mp inv.increasing).imp Nat.le_of_lt
  apply List.Perm.eq_of_pairwise _ (List.pairwise_insertionSort _ _) ascending (sorted.trans read)
  intro r r' listed member le ge
  have nodup : (h.decided.map AuditRecord.seq).Nodup := inv.increasing.imp Nat.ne_of_lt
  exact List.inj_on_of_nodup_map nodup ((sorted.trans read).mem_iff.mp listed) member (Nat.le_antisymm le ge)

theorem Inv.lossless (inv : Inv f h) : Lossless h :=
  ⟨inv.listPending, inv.distinct, inv.once, inv.known, inv.listAudit, inv.increasing⟩

theorem start_inv : Inv f History.start := by
  constructor <;> simp [History.start, History.outstanding, History.decidedIds, Disk.empty]

theorem Inv.nextSeq (inv : Inv f h) : nextSeq h.disk = h.outstanding.length := by
  rw [Staging.nextSeq, inv.files]
  exact countJson_map (fun p member => pendingFile_json inv.derived member)

theorem Inv.nextAuditSeq (inv : Inv f h) : nextAuditSeq h.disk = h.decided.length := by
  rw [Staging.nextAuditSeq, inv.audits]
  exact countJson_map (fun r _ => auditFile_json r)

end Lists

/-! One call. -/

variable {f : Flavor Body} {h : History Body}

theorem locate_plain {q : Disk Body} {folder : Folder} {name : String} (plain : '/' ∉ name.toList) :
    locate q folder name = some (folder, name) := if_neg plain

omit [Paths] in
theorem json_plain {id : String} (plain : '/' ∉ id.toList) : '/' ∉ (id ++ ".json").toList := by
  simpa using plain

/-- The proposal that `stage` makes. -/
def proposed (f : Flavor Body) (q : Disk Body) (checked : Body) (reason stagedAt : String) : Proposal Body :=
  ⟨proposalId f checked (nextSeq q), checked, PyText.strip reason, stagedAt, nextSeq q⟩

theorem stage_ok {q : Disk Body} {body checked : Body} {reason stagedAt : String} (tag : '/' ∉ f.tag.toList)
    (checks : f.check body = .ok checked) :
    let p := proposed f q checked reason stagedAt
    stage f q body reason stagedAt =
      ({ q with pending := Dict.setItem (p.id ++ ".json") (.proposal p) q.pending }, .ok p) := by
  have plain := json_plain (proposalId_plain tag checked (nextSeq q))
  simp only [stage, checks, write, locate_plain plain, proposed]
  rfl

omit [Paths] in
theorem Inv.add (inv : Inv f h) {p : Proposal Body} (made : p.id = proposalId f p.body p.seq)
    (new : ∀ p' ∈ h.staged, p'.id ≠ p.id) (last : ∀ p' ∈ h.outstanding, keyLe p' p) :
    Inv f ⟨{ h.disk with pending := Dict.setItem (p.id ++ ".json") (.proposal p) h.disk.pending },
      h.staged ++ [p], h.decided⟩ := by
  have undecided : p.id ∉ h.decidedIds := by
    intro decided
    obtain ⟨p', member, same⟩ := List.mem_map.mp (inv.known _ decided)
    exact new p' member same
  have opened : History.outstanding ⟨{ h.disk with pending := Dict.setItem (p.id ++ ".json") (.proposal p) h.disk.pending },
      h.staged ++ [p], h.decided⟩ = h.outstanding ++ [p] := by
    have same : [p].filter (fun p => p.id ∉ h.decidedIds) = [p] := by simp [undecided]
    simp only [History.outstanding, List.filter_append]
    exact congrArg _ same
  have free : p.id ++ ".json" ∉ Dict.keys h.disk.pending := by
    rw [inv.files]
    intro taken
    simp only [Dict.keys, List.map_map, List.mem_map, Function.comp_apply, pendingFile] at taken
    obtain ⟨p', member, same⟩ := taken
    exact new p' (List.mem_of_mem_filter member) (by simpa using same)
  constructor
  case files =>
    rw [opened, List.map_append, ← inv.files]
    simpa [Dict.setItem, pendingFile] using Dict.setItem_append (Stored.proposal p) free []
  case audits => exact inv.audits
  case counted => exact inv.counted
  case derived =>
    intro p' member
    rcases List.mem_append.mp member with old | only
    · exact inv.derived p' old
    · rw [List.mem_singleton.mp only]
      exact made
  case distinct =>
    simp only [List.map_append, List.map_cons, List.map_nil]
    apply List.nodup_append.mpr
    refine ⟨inv.distinct, List.nodup_singleton _, ?_⟩
    intro id old id' only same
    obtain ⟨p', member, rfl⟩ := List.mem_map.mp old
    exact new p' member (same.trans (List.mem_singleton.mp only))
  case once => exact inv.once
  case known =>
    intro id decided
    rw [List.map_append]
    exact List.mem_append_left _ (inv.known id decided)
  case ordered =>
    rw [opened, List.pairwise_append]
    refine ⟨inv.ordered, List.pairwise_singleton _ _, ?_⟩
    intro p' member p'' only
    rw [List.mem_singleton.mp only]
    exact last p' member

/-- A call that stages a proposal keeps the invariant. -/
theorem Inv.stage (inv : Inv f h) (tag : '/' ∉ f.tag.toList) {body : Body} {reason stagedAt : String}
    (fresh : Fresh f h (.stage body reason stagedAt)) : Inv f (step f h (.stage body reason stagedAt)) := by
  rw [step]
  cases checks : f.check body with
  | error e =>
    simp only [Staging.stage, checks]
    exact inv
  | ok checked =>
    obtain ⟨unused, last⟩ := fresh checked checks
    rw [stage_ok tag checks]
    apply inv.add rfl
    · intro p member same
      rw [inv.derived p member] at same
      obtain ⟨hash, seq⟩ := proposalId_inj same
      exact unused p member hash seq
    · rw [inv.listPending] at last
      exact last

/-- What `settle` makes of a disk when the id names a pending file. -/
theorem settle_ok {q : Disk Body} {id reason madeId : String} {decision : Decision} (plain : '/' ∉ id.toList) :
    let record : AuditRecord := ⟨nextAuditSeq q, id, decision, reason, madeId⟩
    settle q id decision reason madeId =
      (⟨Dict.pop (id ++ ".json") q.pending, Dict.setItem (auditName record) (.audit record) q.audit, q.elsewhere⟩,
        .ok record) := by
  have removed : removeProposal q id = { q with pending := Dict.pop (id ++ ".json") q.pending } := by
    rw [removeProposal, locate_plain (json_plain plain)]
    rfl
  have named : ∀ seq, '/' ∉ (auditName ⟨seq, id, decision, reason, madeId⟩).toList := by
    intro seq slash
    simp only [auditName, String.toList_append, List.mem_append] at slash
    rcases slash with ((digit | dash) | id) | json
    · exact absurd (padded_digits digit) (by decide)
    · exact absurd dash (by decide)
    · exact plain id
    · exact absurd json (by decide)
  simp only [settle, removed, write, locate_plain (named _)]
  rfl

omit [Paths] in
theorem Inv.decide (inv : Inv f h) {r : AuditRecord} (counts : r.seq = Staging.nextAuditSeq h.disk)
    (pending : r.proposalId ∈ h.outstanding.map Proposal.id) :
    Inv f ⟨⟨Dict.pop (r.proposalId ++ ".json") h.disk.pending,
      Dict.setItem (auditName r) (.audit r) h.disk.audit, h.disk.elsewhere⟩, h.staged, h.decided ++ [r]⟩ := by
  rw [inv.nextAuditSeq] at counts
  obtain ⟨p, member, same⟩ := List.mem_map.mp pending
  obtain ⟨staged, undecided⟩ := List.mem_filter.mp member
  have undecided : p.id ∉ h.decidedIds := by simpa using undecided
  have opened : History.outstanding ⟨⟨Dict.pop (r.proposalId ++ ".json") h.disk.pending,
      Dict.setItem (auditName r) (.audit r) h.disk.audit, h.disk.elsewhere⟩, h.staged, h.decided ++ [r]⟩ =
      h.outstanding.filter (fun p => p.id ≠ r.proposalId) := by
    rw [History.outstanding, History.outstanding, List.filter_filter]
    apply List.filter_congr
    intro p' _
    simp [History.decidedIds, Bool.and_comm]
  have free : auditName r ∉ Dict.keys h.disk.audit := by
    rw [inv.audits]
    intro taken
    simp only [Dict.keys, List.map_map, List.mem_map, Function.comp_apply, auditFile] at taken
    obtain ⟨r', old, name⟩ := taken
    have small : r'.seq ∈ List.range h.decided.length := inv.counted ▸ List.mem_map_of_mem old
    rw [auditName_inj name, counts, List.mem_range] at small
    exact absurd small (Nat.lt_irrefl _)
  constructor
  case files =>
    have kept : Dict.pop (r.proposalId ++ ".json") (h.outstanding.map pendingFile) =
        (h.outstanding.filter (fun p => p.id ≠ r.proposalId)).map pendingFile := by
      simp [Dict.pop, List.filter_map, Function.comp_def, pendingFile]
    rw [opened, ← kept, ← inv.files]
  case audits =>
    rw [List.map_append, ← inv.audits]
    simpa [Dict.setItem, auditFile] using Dict.setItem_append (Stored.audit r) free []
  case counted =>
    rw [List.map_append, inv.counted, List.length_append, List.length_singleton, List.range_succ]
    simp [counts]
  case derived => exact inv.derived
  case distinct => exact inv.distinct
  case once =>
    simp only [History.decidedIds, List.map_append, List.map_cons, List.map_nil]
    apply List.nodup_append.mpr
    refine ⟨inv.once, List.nodup_singleton _, ?_⟩
    intro id old id' only equal
    rw [List.mem_singleton.mp only, ← same] at equal
    exact undecided (equal ▸ old)
  case known =>
    intro id decided
    simp only [History.decidedIds, List.map_append, List.mem_append] at decided
    rcases decided with old | only
    · exact inv.known id old
    · rw [List.mem_singleton.mp only, ← same]
      exact List.mem_map_of_mem staged
  case ordered =>
    rw [opened]
    exact inv.ordered.filter _

/-- An id that loads a proposal is that of a pending one. -/
theorem Inv.loads (inv : Inv f h) {id : String} {p : Proposal Body}
    (plain : '/' ∈ id.toList → ∀ p, loadProposal h.disk id ≠ .ok (some p))
    (loads : loadProposal h.disk id = .ok (some p)) : '/' ∉ id.toList ∧ id ∈ h.outstanding.map Proposal.id := by
  have slashless : '/' ∉ id.toList := fun slash => plain slash p loads
  refine ⟨slashless, ?_⟩
  unfold loadProposal at loads
  split at loads
  · cases loads
  · rw [locate_plain (json_plain slashless)] at loads
    cases found : h.disk.pending.lookup (id ++ ".json") with
    | none => simp [Disk.folder, found] at loads
    | some stored =>
      have member := Dict.mem_of_lookup found
      rw [inv.files] at member
      obtain ⟨p', opened, entry⟩ := List.mem_map.mp member
      have same : p'.id = id := by simpa [pendingFile] using congrArg Prod.fst entry
      exact same ▸ List.mem_map_of_mem opened

theorem Inv.settle (inv : Inv f h) {id reason madeId : String} {decision : Decision} (plain : '/' ∉ id.toList)
    (pending : id ∈ h.outstanding.map Proposal.id) :
    Inv f (h.recordDecision (settle h.disk id decision reason madeId)) := by
  rw [settle_ok plain]
  exact inv.decide (r := ⟨Staging.nextAuditSeq h.disk, id, decision, reason, madeId⟩) rfl pending

theorem Inv.step (inv : Inv f h) (tag : '/' ∉ f.tag.toList) {op : Op Body} (fresh : Fresh f h op) :
    Inv f (step f h op) := by
  cases op with
  | stage body reason stagedAt => exact inv.stage tag fresh
  | list => exact inv
  | approve id serve =>
    rw [Staging.step, Staging.approve]
    split
    · exact inv
    · exact inv
    · rename_i p loads
      split
      · exact inv
      · split
        · exact inv
        · obtain ⟨plain, pending⟩ := inv.loads fresh loads
          exact inv.settle plain pending
  | reject id reason =>
    rw [Staging.step, Staging.reject]
    split
    · exact inv
    · exact inv
    · rename_i p loads
      obtain ⟨plain, pending⟩ := inv.loads fresh loads
      exact inv.settle plain pending

theorem Inv.run (tag : '/' ∉ f.tag.toList) (ops : List (Op Body)) : ∀ {h : History Body},
    Inv f h → FreshRun f h ops → Inv f (runOps f h ops) := by
  induction ops with
  | nil => exact fun inv _ => inv
  | cons op ops ih => exact fun inv fresh => ih (inv.step tag fresh.1) fresh.2

theorem queues_lossless :
    (∀ ops, FreshRun Memstage.flavor .start ops → Lossless (runOps Memstage.flavor .start ops)) ∧
    (∀ ops, FreshRun Skillguard.flavor .start ops → Lossless (runOps Skillguard.flavor .start ops)) := by
  refine ⟨fun ops fresh => ?_, fun ops fresh => ?_⟩
  · exact (Inv.run (by decide) ops start_inv fresh).lossless
  · exact (Inv.run (by decide) ops start_inv fresh).lossless

end Onmc.Staging

namespace Onmc.Staging

/-- No name is a path. -/
@[reducible] def plainNames : Paths := ⟨fun _ _ _ _ _ => none⟩

attribute [local instance] plainNames

def noted (title : String) : Memstage.MemoryBody := ⟨"decision", title, "as agreed"⟩

def drafted (name : String) : Skillguard.SkillBody := ⟨"create", name, "steps"⟩

/-- Two are staged, one of them is rejected, and then another is staged. -/
def twoAndOne {Body : Type} (f : Flavor Body) (first second rejected third : Body) (seq : Nat) : List (Op Body) :=
  [.stage first "" "", .stage second "" "", .reject (proposalId f rejected seq) "", .stage third "" ""]

theorem queues_lossless_last_rejected :
    Lossless (runOps Memstage.flavor .start
      (twoAndOne Memstage.flavor (noted "a") (noted "b") (noted "b") (noted "c") 1)) ∧
    Lossless (runOps Skillguard.flavor .start
      (twoAndOne Skillguard.flavor (drafted "a") (drafted "b") (drafted "b") (drafted "c") 1)) :=
  ⟨queues_lossless.1 _ (by decide +kernel), queues_lossless.2 _ (by decide +kernel)⟩

/-- With the first one rejected, the second one staged again takes its file. -/
theorem staged_over_pending :
    ¬ Lossless (runOps Memstage.flavor .start
      (twoAndOne Memstage.flavor (noted "a") (noted "b") (noted "a") (noted "b") 0)) ∧
    ¬ Lossless (runOps Skillguard.flavor .start
      (twoAndOne Skillguard.flavor (drafted "a") (drafted "b") (drafted "a") (drafted "b") 0)) := by
  constructor
  · intro lossless
    exact absurd lossless.distinct (by decide +kernel)
  · intro lossless
    exact absurd lossless.distinct (by decide +kernel)

end Onmc.Staging

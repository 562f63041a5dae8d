import Onmc.PyText
import Onmc.Storage.Fields

/-! The records the service keeps: memories, tasks, attempts, memory artifacts and skills, and the JSON
that a backup holds of them. -/
namespace Onmc.Storage

/-! Enumerations. -/

inductive MemoryKind where
  | docFact | decision | invariant | hotspot | gitPattern | validationRule | failedApproach
  | designConflict | gotcha
  deriving DecidableEq

instance : StrEnum MemoryKind where
  members := [.docFact, .decision, .invariant, .hotspot, .gitPattern, .validationRule, .failedApproach,
    .designConflict, .gotcha]
  value
    | .docFact => "doc_fact"
    | .decision => "decision"
    | .invariant => "invariant"
    | .hotspot => "hotspot"
    | .gitPattern => "git_pattern"
    | .validationRule => "validation_rule"
    | .failedApproach => "failed_approach"
    | .designConflict => "design_conflict"
    | .gotcha => "gotcha"
  known a := by cases a <;> decide

inductive SourceType where
  | git | doc | code | manual | manualSeed | llmExtracted | transcript | githubPr | session
  deriving DecidableEq

instance : StrEnum SourceType where
  members := [.git, .doc, .code, .manual, .manualSeed, .llmExtracted, .transcript, .githubPr, .session]
  value
    | .git => "git"
    | .doc => "doc"
    | .code => "code"
    | .manual => "manual"
    | .manualSeed => "manual_seed"
    | .llmExtracted => "llm_extracted"
    | .transcript => "transcript"
    | .githubPr => "github_pr"
    | .session => "session"
  known a := by cases a <;> decide

inductive PromotionState where
  | injectable | quarantined
  deriving DecidableEq

instance : StrEnum PromotionState where
  members := [.injectable, .quarantined]
  value
    | .injectable => "injectable"
    | .quarantined => "quarantined"
  known a := by cases a <;> decide

inductive StalenessLabel where
  | fresh | stale | orphaned | unanchored
  deriving DecidableEq

instance : StrEnum StalenessLabel where
  members := [.fresh, .stale, .orphaned, .unanchored]
  value
    | .fresh => "fresh"
    | .stale => "stale"
    | .orphaned => "orphaned"
    | .unanchored => "unanchored"
  known a := by cases a <;> decide

inductive TaskStatus where
  | «open» | active | blocked | solved | abandoned
  deriving DecidableEq

instance : StrEnum TaskStatus where
  members := [.open, .active, .blocked, .solved, .abandoned]
  value
    | .open => "open"
    | .active => "active"
    | .blocked => "blocked"
    | .solved => "solved"
    | .abandoned => "abandoned"
  known a := by cases a <;> decide

inductive AttemptKind where
  | fixAttempt | investigation | testStrategy | refactorAttempt | other
  deriving DecidableEq

instance : StrEnum AttemptKind where
  members := [.fixAttempt, .investigation, .testStrategy, .refactorAttempt, .other]
  value
    | .fixAttempt => "fix_attempt"
    | .investigation => "investigation"
    | .testStrategy => "test_strategy"
    | .refactorAttempt => "refactor_attempt"
    | .other => "other"
  known a := by cases a <;> decide

inductive AttemptStatus where
  | proposed | tried | rejected | succeeded | inPart
  deriving DecidableEq

instance : StrEnum AttemptStatus where
  members := [.proposed, .tried, .rejected, .succeeded, .inPart]
  value
    | .proposed => "proposed"
    | .tried => "tried"
    | .rejected => "rejected"
    | .succeeded => "succeeded"
    | .inPart => "partial"
  known a := by cases a <;> decide

inductive MemoryArtifactType where
  | fix | didNotWork | designConflict | gotcha | invariant | validation
  deriving DecidableEq

instance : StrEnum MemoryArtifactType where
  members := [.fix, .didNotWork, .designConflict, .gotcha, .invariant, .validation]
  value
    | .fix => "fix"
    | .didNotWork => "did_not_work"
    | .designConflict => "design_conflict"
    | .gotcha => "gotcha"
    | .invariant => "invariant"
    | .validation => "validation"
  known a := by cases a <;> decide

/-! The quarantine marker in `source_ref`. -/

def unpromotedSourcePrefix : List Char := "unpromoted:".toList

def hasUnpromotedPrefix (sourceRef : String) : Bool := unpromotedSourcePrefix.isPrefixOf sourceRef.toList

/-- `while cleaned.startswith(…): cleaned = cleaned[len(…):]`; the length bounds the rounds. -/
def dropMarkers : Nat → List Char → List Char
  | 0, cs => cs
  | n + 1, cs => if unpromotedSourcePrefix.isPrefixOf cs then dropMarkers n (cs.drop unpromotedSourcePrefix.length)
                 else cs

/-- `text.strip() or "unknown"` -/
def orUnknown (cs : List Char) : String :=
  match PyText.stripChars cs with
  | [] => "unknown"
  | cs => String.ofList cs

def stripUnpromotedPrefix (sourceRef : String) : String :=
  orUnknown (dropMarkers sourceRef.toList.length sourceRef.toList)

def addUnpromotedPrefix (sourceRef : String) : String :=
  let cleaned := orUnknown sourceRef.toList
  if hasUnpromotedPrefix cleaned then cleaned else String.ofList (unpromotedSourcePrefix ++ cleaned.toList)

/-! Records. -/

structure MemoryEntry where
  id : String
  kind : MemoryKind
  title : String
  summary : String
  details : String
  sourceType : SourceType
  sourceRef : String
  tags : List String
  confidence : Confidence
  feedbackScore : Decimal
  createdAt : DateTime
  updatedAt : DateTime
  staleness : Option StalenessLabel
  lastVerifiedAt : Option DateTime
  promotionState : PromotionState
deriving DecidableEq

/-- `_sync_quarantine_marker`: what validation makes of an entry. -/
def MemoryEntry.validated (m : MemoryEntry) : MemoryEntry :=
  if hasUnpromotedPrefix m.sourceRef then { m with promotionState := .quarantined }
  else if m.promotionState = .quarantined then { m with sourceRef := addUnpromotedPrefix m.sourceRef }
  else m

structure TaskRecord where
  taskId : String
  title : String
  description : String
  status : TaskStatus
  createdAt : DateTime
  startedAt : Option DateTime
  endedAt : Option DateTime
  repoRoot : String
  branch : String
  labels : List String
  finalSummary : Option String
  finalOutcome : Option String
  confidence : Option Confidence
deriving DecidableEq

structure AttemptRecord where
  attemptId : String
  taskId : String
  summary : String
  kind : AttemptKind
  status : AttemptStatus
  reasoningSummary : Option String
  evidenceFor : Option String
  evidenceAgainst : Option String
  filesTouched : List String
  createdAt : DateTime
  closedAt : Option DateTime
deriving DecidableEq

structure MemoryArtifactRecord where
  memoryId : String
  taskId : String
  type : MemoryArtifactType
  title : String
  summary : String
  whyItMatters : String
  applyWhen : Option String
  avoidWhen : Option String
  evidence : String
  relatedFiles : List String
  relatedModules : List String
  confidence : Confidence
  createdAt : DateTime
deriving DecidableEq

structure Skill where
  id : String
  name : String
  body : String
  trigger : String
  tags : List String
  files : List String
  sourceMemoryIds : List String
  useCount : Int
  successCount : Int
  confidence : Confidence
  autoInject : Bool
  createdAt : DateTime
  updatedAt : DateTime
  lastUsedAt : Option DateTime
deriving DecidableEq

/-! `model_dump(mode="json")` and `model_validate`. -/

section

variable [Coercions]

def MemoryEntry.dump (m : MemoryEntry) : Json := .obj [
  ("id", ofText m.id), ("kind", ofMember m.kind), ("title", ofText m.title), ("summary", ofText m.summary),
  ("details", ofText m.details), ("source_type", ofMember m.sourceType), ("source_ref", ofText m.sourceRef),
  ("tags", ofTexts m.tags), ("confidence", ofUnit m.confidence), ("feedback_score", ofFloat m.feedbackScore),
  ("created_at", ofInstant m.createdAt), ("updated_at", ofInstant m.updatedAt),
  ("staleness", .ofOption ofMember m.staleness), ("last_verified_at", .ofOption ofInstant m.lastVerifiedAt),
  ("promotion_state", ofMember m.promotionState)]

def MemoryEntry.load (v : Json) : Option MemoryEntry := do
  let id ← required text "id" v
  let kind ← required (member MemoryKind) "kind" v
  let title ← required text "title" v
  let summary ← required text "summary" v
  let details ← required text "details" v
  let sourceType ← required (member SourceType) "source_type" v
  let sourceRef ← required text "source_ref" v
  let tags ← withDefault texts [] "tags" v
  let confidence ← required unit "confidence" v
  let feedbackScore ← withDefault float (.ofInt 0) "feedback_score" v
  let createdAt ← required instant "created_at" v
  let updatedAt ← required instant "updated_at" v
  let staleness ← orNone (member StalenessLabel) "staleness" v
  let lastVerifiedAt ← orNone instant "last_verified_at" v
  let promotionState ← withDefault (member PromotionState) .injectable "promotion_state" v
  let entry : MemoryEntry := ⟨id, kind, title, summary, details, sourceType, sourceRef, tags, confidence,
    feedbackScore, createdAt, updatedAt, staleness, lastVerifiedAt, promotionState⟩
  return entry.validated

def TaskRecord.dump (t : TaskRecord) : Json := .obj [
  ("task_id", ofText t.taskId), ("title", ofText t.title), ("description", ofText t.description),
  ("status", ofMember t.status), ("created_at", ofInstant t.createdAt),
  ("started_at", .ofOption ofInstant t.startedAt), ("ended_at", .ofOption ofInstant t.endedAt),
  ("repo_root", ofText t.repoRoot), ("branch", ofText t.branch), ("labels", ofTexts t.labels),
  ("final_summary", .ofOption ofText t.finalSummary), ("final_outcome", .ofOption ofText t.finalOutcome),
  ("confidence", .ofOption ofUnit t.confidence)]

def TaskRecord.load (v : Json) : Option TaskRecord := do
  let taskId ← required text "task_id" v
  let title ← required text "title" v
  let description ← required text "description" v
  let status ← required (member TaskStatus) "status" v
  let createdAt ← required instant "created_at" v
  let startedAt ← orNone instant "started_at" v
  let endedAt ← orNone instant "ended_at" v
  let repoRoot ← required text "repo_root" v
  let branch ← required text "branch" v
  let labels ← withDefault texts [] "labels" v
  let finalSummary ← orNone text "final_summary" v
  let finalOutcome ← orNone text "final_outcome" v
  let confidence ← orNone unit "confidence" v
  return ⟨taskId, title, description, status, createdAt, startedAt, endedAt, repoRoot, branch, labels,
    finalSummary, finalOutcome, confidence⟩

def AttemptRecord.dump (a : AttemptRecord) : Json := .obj [
  ("attempt_id", ofText a.attemptId), ("task_id", ofText a.taskId), ("summary", ofText a.summary),
  ("kind", ofMember a.kind), ("status", ofMember a.status),
  ("reasoning_summary", .ofOption ofText a.reasoningSummary), ("evidence_for", .ofOption ofText a.evidenceFor),
  ("evidence_against", .ofOption ofText a.evidenceAgainst), ("files_touched", ofTexts a.filesTouched),
  ("created_at", ofInstant a.createdAt), ("closed_at", .ofOption ofInstant a.closedAt)]

def AttemptRecord.load (v : Json) : Option AttemptRecord := do
  let attemptId ← required text "attempt_id" v
  let taskId ← required text "task_id" v
  let summary ← required text "summary" v
  let kind ← required (member AttemptKind) "kind" v
  let status ← required (member AttemptStatus) "status" v
  let reasoningSummary ← orNone text "reasoning_summary" v
  let evidenceFor ← orNone text "evidence_for" v
  let evidenceAgainst ← orNone text "evidence_against" v
  let filesTouched ← withDefault texts [] "files_touched" v
  let createdAt ← required instant "created_at" v
  let closedAt ← orNone instant "closed_at" v
  return ⟨attemptId, taskId, summary, kind, status, reasoningSummary, evidenceFor, evidenceAgainst,
    filesTouched, createdAt, closedAt⟩

def MemoryArtifactRecord.dump (a : MemoryArtifactRecord) : Json := .obj [
  ("memory_id", ofText a.memoryId), ("task_id", ofText a.taskId), ("type", ofMember a.type),
  ("title", ofText a.title), ("summary", ofText a.summary), ("why_it_matters", ofText a.whyItMatters),
  ("apply_when", .ofOption ofText a.applyWhen), ("avoid_when", .ofOption ofText a.avoidWhen),
  ("evidence", ofText a.evidence), ("related_files", ofTexts a.relatedFiles),
  ("related_modules", ofTexts a.relatedModules), ("confidence", ofUnit a.confidence),
  ("created_at", ofInstant a.createdAt)]

def MemoryArtifactRecord.load (v : Json) : Option MemoryArtifactRecord := do
  let memoryId ← required text "memory_id" v
  let taskId ← required text "task_id" v
  let type ← required (member MemoryArtifactType) "type" v
  let title ← required text "title" v
  let summary ← required text "summary" v
  let whyItMatters ← required text "why_it_matters" v
  let applyWhen ← orNone text "apply_when" v
  let avoidWhen ← orNone text "avoid_when" v
  let evidence ← required text "evidence" v
  let relatedFiles ← withDefault texts [] "related_files" v
  let relatedModules ← withDefault texts [] "related_modules" v
  let confidence ← required unit "confidence" v
  let createdAt ← required instant "created_at" v
  return ⟨memoryId, taskId, type, title, summary, whyItMatters, applyWhen, avoidWhen, evidence,
    relatedFiles, relatedModules, confidence, createdAt⟩

def Skill.dump (s : Skill) : Json := .obj [
  ("id", ofText s.id), ("name", ofText s.name), ("body", ofText s.body), ("trigger", ofText s.trigger),
  ("tags", ofTexts s.tags), ("files", ofTexts s.files), ("source_memory_ids", ofTexts s.sourceMemoryIds),
  ("use_count", ofWhole s.useCount), ("success_count", ofWhole s.successCount),
  ("confidence", ofUnit s.confidence), ("auto_inject", ofFlag s.autoInject),
  ("created_at", ofInstant s.createdAt), ("updated_at", ofInstant s.updatedAt),
  ("last_used_at", .ofOption ofInstant s.lastUsedAt)]

/-- The default confidence of a skill. -/
def half : Confidence := ⟨⟨5, 1, .inr (by decide)⟩, by decide⟩

def Skill.load (v : Json) : Option Skill := do
  let id ← required text "id" v
  let name ← required text "name" v
  let body ← required text "body" v
  let trigger ← required text "trigger" v
  let tags ← withDefault texts [] "tags" v
  let files ← withDefault texts [] "files" v
  let sourceMemoryIds ← withDefault texts [] "source_memory_ids" v
  let useCount ← withDefault whole 0 "use_count" v
  let successCount ← withDefault whole 0 "success_count" v
  let confidence ← withDefault unit half "confidence" v
  let autoInject ← withDefault flag true "auto_inject" v
  let createdAt ← required instant "created_at" v
  let updatedAt ← required instant "updated_at" v
  let lastUsedAt ← orNone instant "last_used_at" v
  return ⟨id, name, body, trigger, tags, files, sourceMemoryIds, useCount, successCount, confidence,
    autoInject, createdAt, updatedAt, lastUsedAt⟩

/-! What was dumped is loaded again. -/


/-! What was dumped is loaded again. -/

theorem MemoryEntry.load_dump (m : MemoryEntry) : load m.dump.canonical = some m.validated := by
  simp only [load, orNone, required_canonical, withDefault_canonical]
  simp [dump, Json.get?, List.lookup_cons]

theorem TaskRecord.load_dump (t : TaskRecord) : load t.dump.canonical = some t := by
  simp only [load, orNone, required_canonical, withDefault_canonical]
  simp [dump, Json.get?, List.lookup_cons]

theorem AttemptRecord.load_dump (a : AttemptRecord) : load a.dump.canonical = some a := by
  simp only [load, orNone, required_canonical, withDefault_canonical]
  simp [dump, Json.get?, List.lookup_cons]

theorem MemoryArtifactRecord.load_dump (a : MemoryArtifactRecord) : load a.dump.canonical = some a := by
  simp only [load, orNone, required_canonical, withDefault_canonical]
  simp [dump, Json.get?, List.lookup_cons]

theorem Skill.load_dump (s : Skill) : load s.dump.canonical = some s := by
  simp only [load, orNone, required_canonical, withDefault_canonical]
  simp [dump, Json.get?, List.lookup_cons]

end

/-! The quarantine marker and the promotion state of a validated entry agree. -/

/-- The `source_ref` of an entry that is written and read again. -/
def MemoryEntry.settledRef (m : MemoryEntry) : String :=
  if m.promotionState = .quarantined then addUnpromotedPrefix (stripUnpromotedPrefix m.sourceRef) else m.sourceRef

theorem orUnknown_orUnknown (cs : List Char) : orUnknown (orUnknown cs).toList = orUnknown cs := by
  unfold orUnknown
  cases hs : PyText.stripChars cs with
  | nil => decide
  | cons c rest =>
    have again : PyText.stripChars (c :: rest) = c :: rest := by
      simpa only [hs] using PyText.stripChars_stripChars cs
    simp [again]

theorem hasUnpromotedPrefix_add (sourceRef : String) : hasUnpromotedPrefix (addUnpromotedPrefix sourceRef) = true := by
  unfold addUnpromotedPrefix
  dsimp only
  split
  · assumption
  · simp only [hasUnpromotedPrefix, String.toList_ofList, List.isPrefixOf_iff_prefix]
    exact List.prefix_append _ _

/-- A text that was stripped and still begins with the marker is its own marked form. -/
theorem add_strip_marked {sourceRef : String} (h : hasUnpromotedPrefix (stripUnpromotedPrefix sourceRef) = true) :
    addUnpromotedPrefix (stripUnpromotedPrefix sourceRef) = stripUnpromotedPrefix sourceRef := by
  unfold addUnpromotedPrefix
  have same : orUnknown (stripUnpromotedPrefix sourceRef).toList = stripUnpromotedPrefix sourceRef :=
    orUnknown_orUnknown _
  simp only [same, h, if_true]

theorem MemoryEntry.validated_marked {m : MemoryEntry} (marked : hasUnpromotedPrefix m.sourceRef = true) :
    m.validated = { m with promotionState := .quarantined } := if_pos marked

theorem MemoryEntry.validated_quarantined {m : MemoryEntry} (unmarked : ¬ hasUnpromotedPrefix m.sourceRef = true)
    (quarantined : m.promotionState = .quarantined) :
    m.validated = { m with sourceRef := addUnpromotedPrefix m.sourceRef } := by
  rw [validated, if_neg unmarked, if_pos quarantined]

theorem MemoryEntry.validated_injectable {m : MemoryEntry} (unmarked : ¬ hasUnpromotedPrefix m.sourceRef = true)
    (injectable : m.promotionState ≠ .quarantined) : m.validated = m := by
  rw [validated, if_neg unmarked, if_neg injectable]

theorem MemoryEntry.validated_id (m : MemoryEntry) : m.validated.id = m.id := by
  unfold validated
  split
  · rfl
  · split <;> rfl

theorem MemoryEntry.marked_iff (m : MemoryEntry) :
    hasUnpromotedPrefix m.validated.sourceRef = true ↔ m.validated.promotionState = .quarantined := by
  by_cases marked : hasUnpromotedPrefix m.sourceRef = true
  · simp [validated_marked marked, marked]
  · by_cases quarantined : m.promotionState = .quarantined
    · simp [validated_quarantined marked quarantined, hasUnpromotedPrefix_add, quarantined]
    · simp [validated_injectable marked quarantined, marked, quarantined]

/-- An entry in which the two agree is left as it is. -/
theorem MemoryEntry.validated_agreeing {m : MemoryEntry}
    (agree : hasUnpromotedPrefix m.sourceRef = true ↔ m.promotionState = .quarantined) : m.validated = m := by
  by_cases marked : hasUnpromotedPrefix m.sourceRef = true
  · simp only [validated_marked marked, ← agree.mp marked]
  · exact validated_injectable marked fun quarantined => marked (agree.mpr quarantined)

theorem MemoryEntry.validated_validated (m : MemoryEntry) : m.validated.validated = m.validated :=
  validated_agreeing m.marked_iff

end Onmc.Storage

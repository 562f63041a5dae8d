import Onmc.Storage.Records
import Onmc.Table

/-! The rows of the tables, column by column, and how a row is written from a record and read back as
one. Instants are stored to the second; lists as JSON text. -/
namespace Onmc.Storage

/-- `value.replace(microsecond=0)` -/
def wholeSecond (t : DateTime) : DateTime := ⟨t.micros / 1000000 * 1000000, by have := t.inRange; omega⟩

theorem wholeSecond_wholeSecond (t : DateTime) : wholeSecond (wholeSecond t) = wholeSecond t := by
  simp only [wholeSecond, DateTime.mk.injEq]
  omega

def isoformatUtc (t : DateTime) : String := (wholeSecond t).iso

@[simp] theorem isoformatUtc_wholeSecond (t : DateTime) : isoformatUtc (wholeSecond t) = isoformatUtc t := by
  simp only [isoformatUtc, wholeSecond_wholeSecond]

@[simp] theorem isoformatUtc_comp : isoformatUtc ∘ wholeSecond = isoformatUtc :=
  funext isoformatUtc_wholeSecond

/-- `parse_datetime`: nothing inside when there is no text, nothing at all when the text is no instant. -/
def parseDatetime : Option String → Option (Option DateTime)
  | none => some none
  | some text => if text = "" then some none else (DateTime.ofIso text).map some

/-- A timestamp that a row may not lack. -/
def parseStamp (text : String) : Option DateTime := (parseDatetime (some text)).bind id

@[simp] theorem parseDatetime_isoformatUtc (t : DateTime) :
    parseDatetime (some (isoformatUtc t)) = some (some (wholeSecond t)) := by
  simp [parseDatetime, isoformatUtc, DateTime.iso_ne_empty]

@[simp] theorem parseDatetime_map (t : Option DateTime) :
    parseDatetime (t.map isoformatUtc) = some (t.map wholeSecond) := by
  cases t with
  | none => rfl
  | some t => exact parseDatetime_isoformatUtc t

@[simp] theorem parseStamp_isoformatUtc (t : DateTime) : parseStamp (isoformatUtc t) = some (wholeSecond t) := by
  simp [parseStamp]

/-- `json.dumps(items)` -/
def dumpTexts (items : List String) : String := Json.dumpsAscii (ofTexts items)

/-- `json.loads(column)`, as a `list[str]`. -/
def loadTexts (column : String) : Option (List String) := (Json.loads column).bind texts

@[simp] theorem loadTexts_dumpTexts (items : List String) : loadTexts (dumpTexts items) = some items := by
  simp [loadTexts, dumpTexts, Json.loads_dumpsAscii]

/-! Memories. -/

structure MemoryRow where
  id : String
  kind : String
  title : String
  summary : String
  details : String
  sourceType : String
  sourceRef : String
  tagsJson : String
  confidence : Decimal
  feedbackScore : Decimal
  createdAt : String
  updatedAt : String
  staleness : Option String
  lastVerifiedAt : Option String
  promotionState : String
deriving DecidableEq

/-- The two columns that a `source_ref` is split into. -/
def provenanceOf (sourceRef : String) : String × PromotionState :=
  if hasUnpromotedPrefix sourceRef then (stripUnpromotedPrefix sourceRef, .quarantined)
  else (sourceRef, .injectable)

/-- `_memory_provenance_values` -/
def memoryProvenanceValues (entry : MemoryEntry) : String × PromotionState := provenanceOf entry.sourceRef

/-- `INSERT INTO memories`: neither `staleness` nor `last_verified_at` is among the columns. -/
def memoryRow (entry : MemoryEntry) : MemoryRow where
  id := entry.id
  kind := StrEnum.value entry.kind
  title := entry.title
  summary := entry.summary
  details := entry.details
  sourceType := StrEnum.value entry.sourceType
  sourceRef := (memoryProvenanceValues entry).1
  tagsJson := dumpTexts entry.tags
  confidence := entry.confidence.value
  feedbackScore := entry.feedbackScore
  createdAt := isoformatUtc entry.createdAt
  updatedAt := isoformatUtc entry.updatedAt
  staleness := none
  lastVerifiedAt := none
  promotionState := StrEnum.value (memoryProvenanceValues entry).2

/-- `ON CONFLICT(id) DO UPDATE SET …` -/
def conflictSet (entry : MemoryEntry) : Table.Setter MemoryRow.id where
  set old := { memoryRow entry with
    id := old.id, createdAt := old.createdAt, staleness := old.staleness, lastVerifiedAt := old.lastVerifiedAt }
  keeps _ := rfl

/-- `UPDATE memories SET …` -/
def memorySet (memory : MemoryEntry) : Table.Setter MemoryRow.id where
  set old := { memoryRow memory with
    id := old.id, staleness := old.staleness, lastVerifiedAt := old.lastVerifiedAt }
  keeps _ := rfl

def rowToMemory (row : MemoryRow) : Option MemoryEntry := do
  let createdAt ← parseStamp row.createdAt
  let updatedAt ← parseStamp row.updatedAt
  let kind ← StrEnum.parse MemoryKind row.kind
  let sourceType ← StrEnum.parse SourceType row.sourceType
  let tags ← loadTexts row.tagsJson
  let confidence ← Confidence.of? row.confidence
  let lastVerifiedAt ← parseDatetime row.lastVerifiedAt
  let entry : MemoryEntry := {
    id := row.id, kind, title := row.title, summary := row.summary, details := row.details, sourceType,
    sourceRef := row.sourceRef, tags, confidence, feedbackScore := row.feedbackScore, createdAt, updatedAt,
    staleness := row.staleness.bind (StrEnum.parse StalenessLabel), lastVerifiedAt,
    promotionState := if row.promotionState = StrEnum.value PromotionState.quarantined then .quarantined
      else .injectable }
  return entry.validated

/-- The entry that is read after `entry` was written: its instants to the second, its `source_ref` and state
settled by the marker. -/
def MemoryEntry.stored (entry : MemoryEntry) : MemoryEntry :=
  { entry with
    createdAt := wholeSecond entry.createdAt
    updatedAt := wholeSecond entry.updatedAt
    sourceRef := if hasUnpromotedPrefix entry.sourceRef then
        addUnpromotedPrefix (stripUnpromotedPrefix entry.sourceRef) else entry.sourceRef
    lastVerifiedAt := entry.lastVerifiedAt.map wholeSecond
    promotionState := (memoryProvenanceValues entry).2 }

/-- A row with the columns that the statements for `entry` write and the two that they do not. -/
def fullRow (entry : MemoryEntry) : MemoryRow :=
  { memoryRow entry with
    staleness := entry.staleness.map StrEnum.value
    lastVerifiedAt := entry.lastVerifiedAt.map isoformatUtc }

theorem rowToMemory_fullRow (entry : MemoryEntry) : rowToMemory (fullRow entry) = some entry.stored := by
  have label : (entry.staleness.map StrEnum.value).bind (StrEnum.parse StalenessLabel) = entry.staleness := by
    cases entry.staleness with
    | none => rfl
    | some l => exact StrEnum.parse_value l
  simp only [rowToMemory, fullRow, memoryRow, parseStamp_isoformatUtc, StrEnum.parse_value,
    loadTexts_dumpTexts, Confidence.of?_value, parseDatetime_map, label, Option.bind_eq_bind, Option.bind_some,
    Option.pure_def, Option.some.injEq]
  by_cases marked : hasUnpromotedPrefix entry.sourceRef = true
  · simp only [memoryProvenanceValues, provenanceOf, MemoryEntry.stored, marked, if_true]
    by_cases again : hasUnpromotedPrefix (stripUnpromotedPrefix entry.sourceRef) = true
    · simp only [add_strip_marked again]
      exact MemoryEntry.validated_marked again
    · exact MemoryEntry.validated_quarantined again rfl
  · have state : ¬ StrEnum.value PromotionState.injectable = StrEnum.value PromotionState.quarantined := by decide
    simp only [memoryProvenanceValues, provenanceOf, MemoryEntry.stored, if_neg marked, if_neg state]
    exact MemoryEntry.validated_injectable marked nofun

/-- Storing what was read changes nothing but a `source_ref` with spare markers or blanks. -/
theorem MemoryEntry.stored_stored (entry : MemoryEntry) :
    entry.stored.stored = { entry.stored with
      sourceRef := if hasUnpromotedPrefix entry.sourceRef then
          addUnpromotedPrefix (stripUnpromotedPrefix entry.stored.sourceRef) else entry.sourceRef } := by
  have instants : (entry.lastVerifiedAt.map wholeSecond).map wholeSecond = entry.lastVerifiedAt.map wholeSecond := by
    cases entry.lastVerifiedAt with
    | none => rfl
    | some t => simp [wholeSecond_wholeSecond]
  by_cases marked : hasUnpromotedPrefix entry.sourceRef = true
  · simp only [stored, memoryProvenanceValues, provenanceOf, marked, if_true, wholeSecond_wholeSecond, instants,
      hasUnpromotedPrefix_add]
  · simp only [stored, memoryProvenanceValues, provenanceOf, if_neg marked, wholeSecond_wholeSecond, instants]

/-! Tasks. -/

structure TaskRow where
  taskId : String
  title : String
  description : String
  status : String
  createdAt : String
  startedAt : Option String
  endedAt : Option String
  repoRoot : String
  branch : String
  labelsJson : String
  finalSummary : Option String
  finalOutcome : Option String
  confidence : Option Decimal
deriving DecidableEq

/-- `_task_values` -/
def taskRow (task : TaskRecord) : TaskRow where
  taskId := task.taskId
  title := task.title
  description := task.description
  status := StrEnum.value task.status
  createdAt := isoformatUtc task.createdAt
  startedAt := task.startedAt.map isoformatUtc
  endedAt := task.endedAt.map isoformatUtc
  repoRoot := task.repoRoot
  branch := task.branch
  labelsJson := dumpTexts task.labels
  finalSummary := task.finalSummary
  finalOutcome := task.finalOutcome
  confidence := task.confidence.map Confidence.value

/-- `UPDATE tasks SET …` -/
def taskSet (task : TaskRecord) : Table.Setter TaskRow.taskId where
  set old := { taskRow task with taskId := old.taskId }
  keeps _ := rfl

/-- A column that may hold no confidence. -/
def unitColumn : Option Decimal → Option (Option Confidence)
  | none => some none
  | some d => (Confidence.of? d).map some

@[simp] theorem unitColumn_map (c : Option Confidence) : unitColumn (c.map Confidence.value) = some c := by
  cases c with
  | none => rfl
  | some c => simp [unitColumn]

def rowToTask (row : TaskRow) : Option TaskRecord := do
  let createdAt ← parseStamp row.createdAt
  let status ← StrEnum.parse TaskStatus row.status
  let startedAt ← parseDatetime row.startedAt
  let endedAt ← parseDatetime row.endedAt
  let labels ← loadTexts row.labelsJson
  let confidence ← unitColumn row.confidence
  return {
    taskId := row.taskId, title := row.title, description := row.description, status, createdAt, startedAt,
    endedAt, repoRoot := row.repoRoot, branch := row.branch, labels, finalSummary := row.finalSummary,
    finalOutcome := row.finalOutcome, confidence }

def TaskRecord.stored (task : TaskRecord) : TaskRecord :=
  { task with
    createdAt := wholeSecond task.createdAt
    startedAt := task.startedAt.map wholeSecond
    endedAt := task.endedAt.map wholeSecond }

theorem rowToTask_taskRow (task : TaskRecord) : rowToTask (taskRow task) = some task.stored := by
  simp [rowToTask, taskRow, TaskRecord.stored]

theorem taskRow_stored (task : TaskRecord) : taskRow task.stored = taskRow task := by
  simp [taskRow, TaskRecord.stored]

/-! Attempts. -/

structure AttemptRow where
  attemptId : String
  taskId : String
  summary : String
  kind : String
  status : String
  reasoningSummary : Option String
  evidenceFor : Option String
  evidenceAgainst : Option String
  filesTouchedJson : String
  createdAt : String
  closedAt : Option String
deriving DecidableEq

/-- `_attempt_values` -/
def attemptRow (attempt : AttemptRecord) : AttemptRow where
  attemptId := attempt.attemptId
  taskId := attempt.taskId
  summary := attempt.summary
  kind := StrEnum.value attempt.kind
  status := StrEnum.value attempt.status
  reasoningSummary := attempt.reasoningSummary
  evidenceFor := attempt.evidenceFor
  evidenceAgainst := attempt.evidenceAgainst
  filesTouchedJson := dumpTexts attempt.filesTouched
  createdAt := isoformatUtc attempt.createdAt
  closedAt := attempt.closedAt.map isoformatUtc

/-- `UPDATE attempts SET …` -/
def attemptSet (attempt : AttemptRecord) : Table.Setter AttemptRow.attemptId where
  set old := { attemptRow attempt with attemptId := old.attemptId }
  keeps _ := rfl

def rowToAttempt (row : AttemptRow) : Option AttemptRecord := do
  let createdAt ← parseStamp row.createdAt
  let kind ← StrEnum.parse AttemptKind row.kind
  let status ← StrEnum.parse AttemptStatus row.status
  let filesTouched ← loadTexts row.filesTouchedJson
  let closedAt ← parseDatetime row.closedAt
  return {
    attemptId := row.attemptId, taskId := row.taskId, summary := row.summary, kind, status,
    reasoningSummary := row.reasoningSummary, evidenceFor := row.evidenceFor,
    evidenceAgainst := row.evidenceAgainst, filesTouched, createdAt, closedAt }

def AttemptRecord.stored (attempt : AttemptRecord) : AttemptRecord :=
  { attempt with
    createdAt := wholeSecond attempt.createdAt
    closedAt := attempt.closedAt.map wholeSecond }

theorem rowToAttempt_attemptRow (attempt : AttemptRecord) :
    rowToAttempt (attemptRow attempt) = some attempt.stored := by
  simp [rowToAttempt, attemptRow, AttemptRecord.stored]

theorem attemptRow_stored (attempt : AttemptRecord) : attemptRow attempt.stored = attemptRow attempt := by
  simp [attemptRow, AttemptRecord.stored]

/-! Memory artifacts. -/

structure MemoryArtifactRow where
  memoryId : String
  taskId : String
  type : String
  title : String
  summary : String
  whyItMatters : String
  applyWhen : Option String
  avoidWhen : Option String
  evidence : String
  relatedFilesJson : String
  relatedModulesJson : String
  confidence : Decimal
  createdAt : String
deriving DecidableEq

/-- `_memory_artifact_values` -/
def memoryArtifactRow (artifact : MemoryArtifactRecord) : MemoryArtifactRow where
  memoryId := artifact.memoryId
  taskId := artifact.taskId
  type := StrEnum.value artifact.type
  title := artifact.title
  summary := artifact.summary
  whyItMatters := artifact.whyItMatters
  applyWhen := artifact.applyWhen
  avoidWhen := artifact.avoidWhen
  evidence := artifact.evidence
  relatedFilesJson := dumpTexts artifact.relatedFiles
  relatedModulesJson := dumpTexts artifact.relatedModules
  confidence := artifact.confidence.value
  createdAt := isoformatUtc artifact.createdAt

/-- `UPDATE memory_artifacts SET …` -/
def memoryArtifactSet (artifact : MemoryArtifactRecord) : Table.Setter MemoryArtifactRow.memoryId where
  set old := { memoryArtifactRow artifact with memoryId := old.memoryId }
  keeps _ := rfl

def rowToMemoryArtifact (row : MemoryArtifactRow) : Option MemoryArtifactRecord := do
  let createdAt ← parseStamp row.createdAt
  let type ← StrEnum.parse MemoryArtifactType row.type
  let relatedFiles ← loadTexts row.relatedFilesJson
  let relatedModules ← loadTexts row.relatedModulesJson
  let confidence ← Confidence.of? row.confidence
  return {
    memoryId := row.memoryId, taskId := row.taskId, type, title := row.title, summary := row.summary,
    whyItMatters := row.whyItMatters, applyWhen := row.applyWhen, avoidWhen := row.avoidWhen,
    evidence := row.evidence, relatedFiles, relatedModules, confidence, createdAt }

def MemoryArtifactRecord.stored (artifact : MemoryArtifactRecord) : MemoryArtifactRecord :=
  { artifact with createdAt := wholeSecond artifact.createdAt }

theorem rowToMemoryArtifact_memoryArtifactRow (artifact : MemoryArtifactRecord) :
    rowToMemoryArtifact (memoryArtifactRow artifact) = some artifact.stored := by
  simp [rowToMemoryArtifact, memoryArtifactRow, MemoryArtifactRecord.stored]

theorem memoryArtifactRow_stored (artifact : MemoryArtifactRecord) :
    memoryArtifactRow artifact.stored = memoryArtifactRow artifact := by
  simp [memoryArtifactRow, MemoryArtifactRecord.stored]

/-! Skills. -/

structure SkillRow where
  id : String
  name : String
  body : String
  trigger : String
  tagsJson : String
  filesJson : String
  sourceMemoryIdsJson : String
  useCount : Int
  successCount : Int
  confidence : Decimal
  autoInject : Int
  createdAt : String
  updatedAt : String
  lastUsedAt : Option String
deriving DecidableEq

/-- `_skill_values` -/
def skillRow (skill : Skill) : SkillRow where
  id := skill.id
  name := skill.name
  body := skill.body
  trigger := skill.trigger
  tagsJson := dumpTexts skill.tags
  filesJson := dumpTexts skill.files
  sourceMemoryIdsJson := dumpTexts skill.sourceMemoryIds
  useCount := skill.useCount
  successCount := skill.successCount
  confidence := skill.confidence.value
  autoInject := skill.autoInject.toInt
  createdAt := isoformatUtc skill.createdAt
  updatedAt := isoformatUtc skill.updatedAt
  lastUsedAt := skill.lastUsedAt.map isoformatUtc

/-- `UPDATE skills SET …` -/
def skillSet (skill : Skill) : Table.Setter SkillRow.id where
  set old := { skillRow skill with id := old.id }
  keeps _ := rfl

def rowToSkill (row : SkillRow) : Option Skill := do
  let createdAt ← parseStamp row.createdAt
  let updatedAt ← parseStamp row.updatedAt
  let lastUsedAt ← parseDatetime row.lastUsedAt
  let tags ← loadTexts row.tagsJson
  let files ← loadTexts row.filesJson
  let sourceMemoryIds ← loadTexts row.sourceMemoryIdsJson
  let confidence ← Confidence.of? row.confidence
  return {
    id := row.id, name := row.name, body := row.body, trigger := row.trigger, tags, files, sourceMemoryIds,
    useCount := row.useCount, successCount := row.successCount, confidence, autoInject := row.autoInject != 0,
    createdAt, updatedAt, lastUsedAt }

def Skill.stored (skill : Skill) : Skill :=
  { skill with
    createdAt := wholeSecond skill.createdAt
    updatedAt := wholeSecond skill.updatedAt
    lastUsedAt := skill.lastUsedAt.map wholeSecond }

theorem rowToSkill_skillRow (skill : Skill) : rowToSkill (skillRow skill) = some skill.stored := by
  have flag : (skill.autoInject.toInt != 0) = skill.autoInject := by
    cases skill.autoInject <;> rfl
  simp [rowToSkill, skillRow, Skill.stored, flag]

theorem skillRow_stored (skill : Skill) : skillRow skill.stored = skillRow skill := by
  simp [skillRow, Skill.stored]

end Onmc.Storage

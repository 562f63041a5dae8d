import Mathlib.Data.List.Induction
import Onmc.Separated
import Onmc.Storage.Sqlite

/-! Memories added by hand. A memory is filed under an id made from its kind, title, summary and source, and
an entry under an id that is taken replaces the one there. -/
namespace Onmc.Service

open Onmc.Storage

/-- The hash of a text that an id carries. -/
class Digest where
  digest : String → String

/-- `"||".join(parts)` -/
def joinParts (parts : List String) : String := "||".intercalate parts

theorem joinParts_toList (kind title summary ref : String) : (joinParts [kind, title, summary, ref]).toList =
    kind.toList ++ '|' :: '|' :: (title.toList ++ '|' :: '|' :: (summary.toList ++ '|' :: '|' :: ref.toList)) := by
  have bars : "||".toList = ['|', '|'] := rfl
  have joined : joinParts [kind, title, summary, ref] =
    kind ++ "||" ++ title ++ "||" ++ summary ++ "||" ++ ref := rfl
  simp [joined, String.toList_append, bars]

theorem value_plain (kind : MemoryKind) : '|' ∉ (StrEnum.value kind).toList := by
  cases kind <;> decide

theorem value_inj {kind kind' : MemoryKind} (h : StrEnum.value kind = StrEnum.value kind') : kind = kind' := by
  have parsed := congrArg (StrEnum.parse MemoryKind) h
  simpa using parsed

/-- Without a bar in the texts the joined text determines them. -/
theorem joinParts_plain {kind kind' : MemoryKind} {title summary ref title' summary' ref' : String}
    (plain : '|' ∉ title.toList ∧ '|' ∉ summary.toList) (plain' : '|' ∉ title'.toList ∧ '|' ∉ summary'.toList)
    (same : joinParts [StrEnum.value kind, title, summary, ref] =
      joinParts [StrEnum.value kind', title', summary', ref']) :
    kind = kind' ∧ title = title' ∧ summary = summary' ∧ ref = ref' := by
  have texts := congrArg String.toList same
  simp only [joinParts_toList] at texts
  obtain ⟨kinds, texts⟩ := Separated.first_determined (value_plain kind) (value_plain kind') texts
  obtain ⟨titles, texts⟩ := Separated.first_determined plain.1 plain'.1 (List.cons.inj texts).2
  obtain ⟨summaries, texts⟩ := Separated.first_determined plain.2 plain'.2 (List.cons.inj texts).2
  exact ⟨value_inj (String.ext kinds), String.ext titles, String.ext summaries,
    String.ext (List.cons.inj texts).2⟩

section

variable [Digest]

def stableId (parts : List String) (tag : String) : String := tag ++ "-" ++ Digest.digest (joinParts parts)

structure AddArgs where
  kind : MemoryKind
  title : String
  summary : String
  taskId : Option String
  sourceType : SourceType
  confidence : Confidence
  sourceRef : Option String

namespace AddArgs

/-- `task_id`, when it is not empty. -/
def task (args : AddArgs) : Option String := args.taskId.filter (· ≠ "")

def resolvedSourceRef (args : AddArgs) : String :=
  match args.sourceRef.filter (· ≠ ""), args.task with
  | some ref, _ => ref
  | none, some taskId => "task:" ++ taskId
  | none, none => "manual:api"

/-- The parts that the id is made from. -/
def parts (args : AddArgs) : List String :=
  [StrEnum.value args.kind, args.title, args.summary, args.resolvedSourceRef]

def id (args : AddArgs) : String := stableId args.parts "manual"

def entry (args : AddArgs) (now : DateTime) : MemoryEntry :=
  MemoryEntry.validated {
    id := args.id
    kind := args.kind
    title := args.title
    summary := args.summary
    details := args.summary
    sourceType := args.sourceType
    sourceRef := args.resolvedSourceRef
    tags := (StrEnum.value args.kind :: args.task.toList).eraseDups
    confidence := args.confidence
    feedbackScore := .ofInt 0
    createdAt := now
    updatedAt := now
    staleness := none
    lastVerifiedAt := none
    promotionState := .injectable }

end AddArgs

def addManualMemory (s : Store) (args : AddArgs) (now : DateTime) : Store := s.upsertMemory (args.entry now)

/-- Two rows of one memory: the same kind, title, summary and source. -/
structure SameMemory (row row' : MemoryRow) : Prop where
  kind : row.kind = row'.kind
  title : row.title = row'.title
  summary : row.summary = row'.summary
  sourceRef : row.sourceRef = row'.sourceRef
  promotionState : row.promotionState = row'.promotionState

/-- Every memory of the store is there after the call, with the same kind, title, summary and source. -/
def AddsOnly (s : Store) (args : AddArgs) (now : DateTime) : Prop :=
  ∀ id row, s.memories.find id = some row →
    ∃ row', (addManualMemory s args now).memories.find id = some row' ∧ SameMemory row row'

/-- The row is what a call with these arguments writes. -/
structure Describes (args : AddArgs) (row : MemoryRow) : Prop where
  kind : row.kind = StrEnum.value args.kind
  title : row.title = args.title
  summary : row.summary = args.summary
  sourceRef : row.sourceRef = (provenanceOf args.resolvedSourceRef).1
  promotionState : row.promotionState = StrEnum.value (provenanceOf args.resolvedSourceRef).2

/-- The row is filed under the id of its own fields: it was added by hand and not edited since. -/
def Filed (row : MemoryRow) : Prop := ∃ args : AddArgs, Describes args row ∧ row.id = args.id

/-! The id. -/

theorem stableId_eq_iff (injective : Function.Injective Digest.digest) (parts parts' : List String) (tag : String) :
    stableId parts tag = stableId parts' tag ↔ joinParts parts = joinParts parts' := by
  constructor
  · intro same
    have texts := congrArg String.toList same
    simp only [stableId, String.toList_append, List.append_cancel_left_eq] at texts
    exact injective (String.ext texts)
  · intro same
    simp only [stableId, same]

/-! The write. -/

/-- Validation changes the promotion state at most. -/
theorem entry_fields (args : AddArgs) (now : DateTime) :
    (args.entry now).id = args.id ∧ (args.entry now).kind = args.kind ∧ (args.entry now).title = args.title ∧
      (args.entry now).summary = args.summary ∧ (args.entry now).sourceRef = args.resolvedSourceRef := by
  unfold AddArgs.entry MemoryEntry.validated
  split
  · exact ⟨rfl, rfl, rfl, rfl, rfl⟩
  · rw [if_neg nofun]
    exact ⟨rfl, rfl, rfl, rfl, rfl⟩

theorem describes_written (args : AddArgs) (now : DateTime) : Describes args (memoryRow (args.entry now)) := by
  obtain ⟨_, kind, title, summary, sourceRef⟩ := entry_fields args now
  constructor
  · simp only [memoryRow, kind]
  · exact title
  · exact summary
  · simp only [memoryRow, memoryProvenanceValues, sourceRef]
  · simp only [memoryRow, memoryProvenanceValues, sourceRef]

theorem find_added (s : Store) (args : AddArgs) (now : DateTime) (id : String) :
    (addManualMemory s args now).memories.find id =
      if id = args.id then
        some ((s.memories.find id).elim (memoryRow (args.entry now)) (conflictSet (args.entry now)).set)
      else s.memories.find id := by
  have same : (memoryRow (args.entry now)).id = args.id := (entry_fields args now).1
  simp only [addManualMemory, Store.upsertMemory, Table.find_upsert, same]

theorem describes_conflict (args : AddArgs) (now : DateTime) (row : MemoryRow) :
    Describes args ((conflictSet (args.entry now)).set row) := by
  obtain ⟨kind, title, summary, sourceRef, promotionState⟩ := describes_written args now
  exact ⟨kind, title, summary, sourceRef, promotionState⟩

omit [Digest] in
/-- Two calls that describe one row and have one joined text are about the same fields. -/
theorem describes_same {args args' : AddArgs} {row : MemoryRow} (here : Describes args row)
    (there : Describes args' row) (same : joinParts args'.parts = joinParts args.parts) : args'.parts = args.parts := by
  have kinds := there.kind.symm.trans here.kind
  have titles := there.title.symm.trans here.title
  have summaries := there.summary.symm.trans here.summary
  have texts := congrArg String.toList same
  simp only [AddArgs.parts, joinParts_toList, kinds, titles, summaries, List.append_cancel_left_eq,
    List.cons.injEq, true_and] at texts
  simp only [AddArgs.parts, kinds, titles, summaries, String.ext texts]

omit [Digest] in
theorem describes_of_parts {args args' : AddArgs} {row : MemoryRow} (there : Describes args' row)
    (same : args'.parts = args.parts) : Describes args row := by
  simp only [AddArgs.parts, List.cons.injEq, and_true] at same
  obtain ⟨kinds, titles, summaries, refs⟩ := same
  constructor
  · exact there.kind.trans kinds
  · exact there.title.trans titles
  · exact there.summary.trans summaries
  · rw [← refs]
    exact there.sourceRef
  · rw [← refs]
    exact there.promotionState

theorem addsOnly_iff_describes (s : Store) (args : AddArgs) (now : DateTime) :
    AddsOnly s args now ↔ ∀ row, s.memories.find args.id = some row → Describes args row := by
  constructor
  · intro kept row found
    obtain ⟨row', found', same⟩ := kept args.id row found
    simp only [find_added, if_true, found, Option.elim_some, Option.some.injEq] at found'
    subst found'
    obtain ⟨kind, title, summary, sourceRef, promotionState⟩ := describes_conflict args now row
    exact ⟨same.kind.trans kind, same.title.trans title, same.summary.trans summary,
      same.sourceRef.trans sourceRef, same.promotionState.trans promotionState⟩
  · intro described id row found
    simp only [find_added]
    by_cases here : id = args.id
    · subst here
      have old := described row found
      have new := describes_conflict args now row
      refine ⟨(conflictSet (args.entry now)).set row, by simp only [if_true, found, Option.elim_some], ?_⟩
      exact ⟨old.kind.trans new.kind.symm, old.title.trans new.title.symm, old.summary.trans new.summary.symm,
        old.sourceRef.trans new.sourceRef.symm, old.promotionState.trans new.promotionState.symm⟩
    · exact ⟨row, by simp only [if_neg here, found], rfl, rfl, rfl, rfl, rfl⟩

/-! Calls without a bar in their title and summary. -/

def Plain (args : AddArgs) : Prop := '|' ∉ args.title.toList ∧ '|' ∉ args.summary.toList

def addAll (calls : List (AddArgs × DateTime)) : Store :=
  calls.foldl (fun s call => addManualMemory s call.1 call.2) .empty

theorem find_addAll {calls : List (AddArgs × DateTime)} {id : String} {row : MemoryRow}
    (found : (addAll calls).memories.find id = some row) : ∃ call ∈ calls, call.1.id = id ∧ Describes call.1 row := by
  induction calls using List.reverseRecOn generalizing row with
  | nil => simp [addAll, Store.empty] at found
  | append_singleton calls call ih =>
    simp only [addAll, List.foldl_append, List.foldl_cons, List.foldl_nil, find_added] at found ih
    split at found
    · rename_i same
      refine ⟨call, by simp, same.symm, ?_⟩
      cases Option.some.inj found
      cases List.foldl (fun s call => addManualMemory s call.1 call.2) .empty calls |>.memories.find id with
      | none => exact describes_written call.1 call.2
      | some old => exact describes_conflict call.1 call.2 old
    · obtain ⟨earlier, among, facts⟩ := ih found
      exact ⟨earlier, List.mem_append_left _ among, facts⟩

theorem addAll_plain (injective : Function.Injective Digest.digest) {calls : List (AddArgs × DateTime)}
    (plain : ∀ call ∈ calls, Plain call.1) {args : AddArgs} (here : Plain args) (now : DateTime) :
    AddsOnly (addAll calls) args now := by
  rw [addsOnly_iff_describes]
  intro row found
  obtain ⟨call, among, ids, described⟩ := find_addAll found
  obtain ⟨kinds, titles, summaries, refs⟩ :=
    joinParts_plain (plain call among) here ((stableId_eq_iff injective _ _ _).mp ids)
  apply describes_of_parts described
  simp only [AddArgs.parts, kinds, titles, summaries, refs]

/-- A call adds only, exactly when the row under its id is still filed under the id of its own fields and
no other fields have the joined text of the call. Two lists of parts have one id exactly when their joined
texts are the same. -/
theorem addManualMemory_keeps_iff (injective : Function.Injective Digest.digest) :
    (∀ (s : Store) (args : AddArgs) (now : DateTime), AddsOnly s args now ↔
      ∀ row, s.memories.find args.id = some row → Filed row ∧
        ∀ args' : AddArgs, Describes args' row → joinParts args'.parts = joinParts args.parts →
          args'.parts = args.parts) ∧
      ∀ parts parts' tag, stableId parts tag = stableId parts' tag ↔ joinParts parts = joinParts parts' := by
  refine ⟨?_, stableId_eq_iff injective⟩
  intro s args now
  rw [addsOnly_iff_describes]
  constructor
  · intro described row found
    have here := described row found
    exact ⟨⟨args, here, Table.key_of_find found⟩, fun args' there => describes_same here there⟩
  · intro settled row found
    obtain ⟨⟨args', there, filed⟩, only⟩ := settled row found
    have ids : args'.id = args.id := filed.symm.trans (Table.key_of_find found)
    have texts := (stableId_eq_iff injective _ _ _).mp ids
    exact describes_of_parts there (only args' there texts)

end

/-- The text is its own hash. -/
@[reducible] def plainDigest : Digest := ⟨fun text => text⟩

section

attribute [local instance] plainDigest

def note (title summary : String) : AddArgs := ⟨.decision, title, summary, none, .manual, half, none⟩

theorem addManualMemory_keeps_other :
    AddsOnly (addManualMemory .empty (note "port" "8080") ⟨0, by decide⟩) (note "host" "local") ⟨0, by decide⟩ := by
  apply ((addManualMemory_keeps_iff fun _ _ same => same).1 _ _ _).mpr
  intro row found
  have other : ¬ (note "host" "local").id = (note "port" "8080").id := by decide
  simp [find_added, other, Store.empty] at found

/-- A bar in a title moves the border between two fields. -/
theorem bars_overwrite : ¬ ∀ [d : Digest], Function.Injective d.digest →
    ∀ (s : Store) (args : AddArgs) (now : DateTime), AddsOnly s args now := by
  intro always
  have kept := @always plainDigest (fun _ _ same => same)
    (addManualMemory .empty (note "a||b" "c") ⟨0, by decide⟩) (note "a" "b||c") ⟨0, by decide⟩
  have ids : (note "a" "b||c").id = (note "a||b" "c").id := by decide
  have found := find_added .empty (note "a||b" "c") ⟨0, by decide⟩ (note "a" "b||c").id
  simp only [ids, if_true] at found
  have titles := ((addsOnly_iff_describes _ _ _).mp kept _ (ids ▸ found)).title
  have written := (describes_written (note "a||b" "c") ⟨0, by decide⟩).title
  simp only [Store.empty, Table.find_empty, Option.elim_none, written] at titles
  exact absurd titles (by decide)

end
end Onmc.Service

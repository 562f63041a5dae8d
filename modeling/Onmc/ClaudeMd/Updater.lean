import Onmc.Dict
import Onmc.Json
import Onmc.VisibleLines

/-! The repository's CLAUDE.md and the update that regenerates its stale sections. -/
namespace Onmc.ClaudeMd

open PyText Lines

def sectionOrder : List String :=
  ["Project overview", "Critical invariants", "Architecture decisions", "Hotspot areas", "Known bad approaches",
    "Validation", "Current active tasks"]

def marker : String := "<!-- user-written -->"

structure Section where
  heading : String
  userWritten : Bool
  body : String
  deriving DecidableEq

/-- The loop of the parser; the sections that are complete are kept in the order of the file. -/
structure Scan where
  complete : List Section
  current : Option String
  currentUserWritten : Bool
  buffer : List String
  pendingUserWritten : Bool

namespace Scan

def start : Scan := ⟨[], none, false, [], false⟩

def closed (s : Scan) : List Section :=
  match s.current with
  | none => s.complete
  | some heading => s.complete ++ [⟨heading, s.currentUserWritten, strip (join "\n" s.buffer)⟩]

def line (s : Scan) (line : String) : Scan :=
  if strip line = marker then { s with pendingUserWritten := true }
  else if startsWith line "## " then
    ⟨s.closed, some (strip (String.ofList (line.toList.drop 3))), s.pendingUserWritten, [], false⟩
  else
    match s.current with
    | none => s
    | some _ => { s with buffer := s.buffer ++ [line] }

end Scan

def sections (markdown : String) : List Section := ((splitlines markdown).foldl Scan.line Scan.start).closed

/-- A later section takes the place of an earlier one with its heading. -/
def parseExistingSections (markdown : String) : List (String × Bool × String) :=
  (sections markdown).foldl (fun sections s => Dict.setItem s.heading (s.userWritten, s.body) sections) []

def joinSections (sections : List (String × String)) : String :=
  let lines := sectionOrder.flatMap (fun heading =>
    let content := strip ((sections.lookup heading).getD "")
    if content = "" then [] else ["## " ++ heading, content, ""])
  strip (join "\n" (["# CLAUDE.md", ""] ++ lines)) ++ "\n"

/-- CLAUDE.md, and the section hashes of the metadata beside it when they are an object. -/
structure Repo where
  claudeMd : Option String
  sectionHashes : Option (List (String × Json))

/-- What a run generates: the sections, and the digest of the stored records. -/
structure Generation where
  sections : List (String × String)
  digest : String

/-- `section_hashes.get(heading) != next_hashes.get(heading)`, where every heading has the one digest -/
def hashDiffers (digest : String) : Option Json → Bool
  | some (.str hash) => hash ≠ digest
  | _ => true

def staleSections (existing : List (String × Bool × String)) (hashes : Option (List (String × Json)))
    (run : Generation) : List String :=
  sectionOrder.filter (fun heading =>
    match hashes with
    | none => true
    | some hashes =>
      hashDiffers run.digest (hashes.lookup heading) ||
        ((existing.lookup heading).isNone && strip ((run.sections.lookup heading).getD "") ≠ ""))

def mergeSection (existing : List (String × Bool × String)) (stale : List String) (fresh : List (String × String))
    (heading : String) : String :=
  let (userWritten, content) := (existing.lookup heading).getD (false, "")
  if userWritten && content ≠ "" then content
  else if heading ∈ stale ∨ content = "" then (fresh.lookup heading).getD ""
  else content

def updateClaudeMd (repo : Repo) (run : Generation) (write : Bool) : (String × List String) × Repo :=
  let existing := parseExistingSections (repo.claudeMd.getD "")
  let stale := staleSections existing repo.sectionHashes run
  let markdown := joinSections (sectionOrder.map (fun heading => (heading, mergeSection existing stale run.sections heading)))
  let repo := if write then
      ⟨some markdown, some (sectionOrder.map (fun heading => (heading, Json.str run.digest)))⟩
    else repo
  ((markdown, stale), repo)

/-- The repository after a number of updates. -/
def updates (repo : Repo) (runs : List Generation) : Repo :=
  runs.foldl (fun repo run => (updateClaudeMd repo run true).2) repo

/-! What an update owes the user. -/

/-- The lines before the first heading, markers apart. -/
def preamble (markdown : String) : List String :=
  (((splitlines markdown).takeWhile (fun line => !startsWith line "## ")).map strip).filter
    (fun line => line ≠ "" && line ≠ marker)

/-- The user's text of one file is in another. -/
structure Preserved (file after : String) : Prop where
  marked : ∀ s ∈ sections file, s.userWritten → s ∈ sections after
  foreign : ∀ s ∈ sections file, s.heading ∉ sectionOrder → s ∈ sections after
  preamble : ∀ line ∈ preamble file, line ∈ visible after

/-- However often the file is updated, and whatever is generated, its user's text stays. -/
def Preserves (file : String) : Prop :=
  ∀ hashes runs, Preserved file ((updates ⟨some file, hashes⟩ runs).claudeMd.getD "")

/-- Nothing in the file is the user's. -/
structure Generated (file : String) : Prop where
  unmarked : ∀ s ∈ sections file, ¬ s.userWritten
  known : ∀ s ∈ sections file, s.heading ∈ sectionOrder
  title : ∀ line ∈ preamble file, line = "# CLAUDE.md"

/-- What is generated holds no marker. -/
def Generation.Plain (run : Generation) : Prop := ∀ section' ∈ run.sections, marker ∉ visible section'.2

/-- No update writes a marker. -/
def Unmarks (file : String) : Prop :=
  ∀ hashes runs, runs ≠ [] → (∀ run ∈ runs, run.Plain) →
    ∀ s ∈ sections ((updates ⟨some file, hashes⟩ runs).claudeMd.getD ""), ¬ s.userWritten

namespace Scan

/-- No section so far is marked, and none is about to be. -/
structure Plain (s : Scan) : Prop where
  complete : ∀ done ∈ s.complete, ¬ done.userWritten
  current : ¬ s.currentUserWritten
  pending : ¬ s.pendingUserWritten

theorem Plain.closed {s : Scan} (plain : s.Plain) : ∀ done ∈ s.closed, ¬ done.userWritten := by
  intro done member
  simp only [Scan.closed] at member
  split at member
  · exact plain.complete done member
  · rcases List.mem_append.mp member with before | last
    · exact plain.complete done before
    · rw [List.mem_singleton.mp last]
      exact plain.current

theorem Plain.line {s : Scan} (plain : s.Plain) {line : String} (other : strip line ≠ marker) :
    (s.line line).Plain := by
  simp only [Scan.line, if_neg other]
  split
  · exact ⟨plain.closed, plain.pending, by simp⟩
  · split
    · exact plain
    · exact ⟨plain.complete, plain.current, plain.pending⟩

/-- No body so far holds a marker. -/
structure Bare (s : Scan) : Prop where
  complete : ∀ done ∈ s.complete, marker ∉ visible done.body
  buffer : ∀ line ∈ s.buffer, marker ∉ visible line

theorem Bare.closed {s : Scan} (bare : s.Bare) : ∀ done ∈ s.closed, marker ∉ visible done.body := by
  intro done member
  simp only [Scan.closed] at member
  split at member
  · exact bare.complete done member
  · rcases List.mem_append.mp member with before | last
    · exact bare.complete done before
    · rw [List.mem_singleton.mp last, visible_strip, visible_join]
      intro held
      obtain ⟨line, buffered, inside⟩ := List.mem_flatMap.mp held
      exact bare.buffer line buffered inside

/-- A marker line is not put into a buffer. -/
theorem Bare.line {s : Scan} (bare : s.Bare) {line : String} (single : Unbroken line) : (s.line line).Bare := by
  simp only [Scan.line]
  split
  · exact ⟨bare.complete, bare.buffer⟩
  · rename_i other
    split
    · exact ⟨bare.closed, nofun⟩
    · split
      · exact bare
      · refine ⟨bare.complete, ?_⟩
        intro held member
        rcases List.mem_append.mp member with before | last
        · exact bare.buffer held before
        · rw [List.mem_singleton.mp last, visible_unbroken single]
          intro marked
          exact other (List.mem_singleton.mp (List.mem_filter.mp marked).1).symm

end Scan

theorem sections_unmarked {markdown : String} (bare : marker ∉ visible markdown) :
    ∀ s ∈ sections markdown, ¬ s.userWritten := by
  have lines : ∀ line ∈ splitlines markdown, strip line ≠ marker := by
    intro line member same
    have shown : marker ∈ visible markdown :=
      List.mem_filter.mpr ⟨same ▸ List.mem_map_of_mem member, by decide⟩
    exact bare shown
  have run : ∀ lines : List String, (∀ line ∈ lines, strip line ≠ marker) → ∀ s : Scan, s.Plain →
      (lines.foldl Scan.line s).Plain := by
    intro lines other
    induction lines with
    | nil => exact fun s plain => plain
    | cons line lines ih =>
      intro s plain
      exact ih (fun l member => other l (List.mem_cons_of_mem _ member)) _ (plain.line (other line List.mem_cons_self))
  exact (run _ lines Scan.start ⟨nofun, by simp [Scan.start], by simp [Scan.start]⟩).closed

theorem sections_bare (markdown : String) : ∀ s ∈ sections markdown, marker ∉ visible s.body := by
  have run : ∀ lines : List String, (∀ line ∈ lines, Unbroken line) → ∀ s : Scan, s.Bare →
      (lines.foldl Scan.line s).Bare := by
    intro lines single
    induction lines with
    | nil => exact fun s bare => bare
    | cons line lines ih =>
      intro s bare
      exact ih (fun l member => single l (List.mem_cons_of_mem _ member)) _ (bare.line (single line List.mem_cons_self))
  exact (run _ (fun _ => splitlines_unbroken) Scan.start ⟨nofun, nofun⟩).closed

/-- What the parser keeps under a heading is one of the file's sections. -/
theorem mem_of_parsed {markdown heading content : String} {userWritten : Bool}
    (found : (parseExistingSections markdown).lookup heading = some (userWritten, content)) :
    ⟨heading, userWritten, content⟩ ∈ sections markdown := by
  have run : ∀ (given : List Section) (kept : List (String × Bool × String)),
      (given.foldl (fun kept s => Dict.setItem s.heading (s.userWritten, s.body) kept) kept).lookup heading =
        some (userWritten, content) →
      (⟨heading, userWritten, content⟩ : Section) ∈ given ∨ kept.lookup heading = some (userWritten, content) := by
    intro given
    induction given with
    | nil => exact fun kept found => .inr found
    | cons s given ih =>
      intro kept found
      rcases ih _ found with later | first
      · exact .inl (List.mem_cons_of_mem _ later)
      · rw [Dict.lookup_setItem] at first
        split at first
        · rename_i same
          cases Option.some.inj first
          exact .inl (same ▸ List.mem_cons_self)
        · exact .inr first
  rcases run _ _ found with member | empty
  · exact member
  · cases empty

theorem visible_joinSections (given : List (String × String)) :
    visible (joinSections given) = "# CLAUDE.md" :: sectionOrder.flatMap (fun heading =>
      let content := (given.lookup heading).getD ""
      if strip content = "" then [] else visible ("## " ++ heading) ++ visible content) := by
  have start : visible "# CLAUDE.md" = ["# CLAUDE.md"] := by decide
  have blank : visible "" = [] := by decide
  simp only [joinSections, visible_end, visible_strip, visible_join, List.flatMap_append, List.flatMap_cons,
    List.flatMap_nil, start, blank, List.append_nil, List.singleton_append, List.flatMap_assoc]
  apply congrArg
  apply List.flatMap_congr
  intro heading _
  split
  · rfl
  · simp only [List.flatMap_cons, List.flatMap_nil, visible_strip, blank, List.append_nil]

/-- Sections without a marker are written without one. -/
theorem joinSections_bare {given : List (String × String)}
    (bare : ∀ heading content, given.lookup heading = some content → marker ∉ visible content) :
    marker ∉ visible (joinSections given) := by
  have titles : ∀ heading ∈ sectionOrder, marker ∉ visible ("## " ++ heading) := by decide
  rw [visible_joinSections]
  intro held
  rcases List.mem_cons.mp held with title | body
  · exact absurd title (by decide)
  · obtain ⟨heading, known, inside⟩ := List.mem_flatMap.mp body
    simp only at inside
    split at inside
    · cases inside
    · rcases List.mem_append.mp inside with head | content
      · exact titles heading known head
      · cases found : given.lookup heading with
        | none =>
          rw [found] at content
          exact absurd content (by decide)
        | some text =>
          rw [found] at content
          exact bare heading text found content

theorem mergeSection_bare {markdown : String} {fresh : List (String × String)}
    (plain : ∀ section' ∈ fresh, marker ∉ visible section'.2) (stale : List String) (heading : String) :
    marker ∉ visible (mergeSection (parseExistingSections markdown) stale fresh heading) := by
  have generated : marker ∉ visible ((fresh.lookup heading).getD "") := by
    cases found : fresh.lookup heading with
    | none => decide
    | some content => exact plain _ (Dict.mem_of_lookup found)
  simp only [mergeSection]
  cases found : (parseExistingSections markdown).lookup heading with
  | none => simpa using generated
  | some kept =>
    obtain ⟨userWritten, content⟩ := kept
    have old : marker ∉ visible content := sections_bare markdown _ (mem_of_parsed found)
    simp only [Option.getD_some]
    split
    · exact old
    · split
      · exact generated
      · exact old

theorem lookup_sectionOrder (f : String → α) {heading : String} {value : α}
    (found : (sectionOrder.map (fun heading => (heading, f heading))).lookup heading = some value) :
    heading ∈ sectionOrder ∧ value = f heading := by
  obtain ⟨h, known, same⟩ := List.mem_map.mp (Dict.mem_of_lookup found)
  cases same
  exact ⟨known, rfl⟩

/-- Whatever was marked, the markdown of an update holds no marker. -/
theorem updateClaudeMd_bare (repo : Repo) {run : Generation} (plain : run.Plain) (write : Bool) :
    marker ∉ visible (updateClaudeMd repo run write).1.1 := by
  apply joinSections_bare
  intro heading content found
  obtain ⟨-, rfl⟩ := lookup_sectionOrder _ found
  exact mergeSection_bare plain _ heading

theorem updates_concat (repo : Repo) (runs : List Generation) (run : Generation) :
    (updates repo (runs ++ [run])).claudeMd = some (updateClaudeMd (updates repo runs) run true).1.1 := by
  rw [updates, List.foldl_append]
  rfl

theorem unmarks (file : String) : Unmarks file := by
  intro hashes runs some plain
  rcases List.eq_nil_or_concat runs with rfl | ⟨before, run, rfl⟩
  · exact absurd rfl some
  · rw [List.concat_eq_append] at plain ⊢
    rw [updates_concat, Option.getD_some]
    exact sections_unmarked (updateClaudeMd_bare _ (plain run (List.mem_append_right _ List.mem_cons_self)) true)

/-- The title is written by every update. -/
theorem title_visible (repo : Repo) (run : Generation) (write : Bool) :
    "# CLAUDE.md" ∈ visible (updateClaudeMd repo run write).1.1 := by
  simp only [updateClaudeMd, visible_joinSections]
  exact List.mem_cons_self

theorem preamble_visible (file : String) : ∀ line ∈ preamble file, line ∈ visible file := by
  intro line member
  obtain ⟨stripped, named⟩ := List.mem_filter.mp member
  obtain ⟨text, before, rfl⟩ := List.mem_map.mp stripped
  simp only [Bool.and_eq_true, decide_eq_true_eq] at named
  exact List.mem_filter.mpr ⟨List.mem_map_of_mem ((List.takeWhile_prefix _).subset before), by simpa using named.1⟩

/-- A run with an empty storage. -/
def nothing : Generation := ⟨[], ""⟩

/-- Without metadata every section is stale, and an unmarked file is emptied. -/
theorem emptied {file : String} (unmarked : ∀ s ∈ sections file, ¬ s.userWritten) :
    (updates ⟨some file, none⟩ [nothing]).claudeMd = some "# CLAUDE.md\n" := by
  have merged : ∀ heading ∈ sectionOrder, mergeSection (parseExistingSections file) sectionOrder [] heading = "" := by
    intro heading known
    simp only [mergeSection, List.lookup_nil, Option.getD_none]
    cases found : (parseExistingSections file).lookup heading with
    | none => simp
    | some kept =>
      obtain ⟨userWritten, content⟩ := kept
      have plain : userWritten = false := by simpa using unmarked _ (mem_of_parsed found)
      simp [plain, known]
  have all : staleSections (parseExistingSections file) none nothing = sectionOrder := by
    simp [staleSections]
  have given : sectionOrder.map (fun heading =>
      (heading, mergeSection (parseExistingSections file) sectionOrder [] heading)) =
      sectionOrder.map (fun heading => (heading, "")) := by
    apply List.map_congr_left
    intro heading known
    rw [merged heading known]
  have written : joinSections (sectionOrder.map (fun heading => (heading, ""))) = "# CLAUDE.md\n" := by decide
  have fresh : nothing.sections = [] := rfl
  simp only [updates, List.foldl_cons, List.foldl_nil, updateClaudeMd, Option.getD_some, all, fresh, given, written,
    if_true]

/-- A file keeps its user's text exactly when there is none to keep, and no update keeps a marker. -/
theorem update_iff (file : String) : (Preserves file ↔ Generated file) ∧ Unmarks file := by
  refine ⟨⟨?_, ?_⟩, unmarks file⟩
  · intro preserves
    have once := preserves none [nothing]
    have unmarked : ∀ s ∈ sections file, ¬ s.userWritten := by
      intro s member marked
      exact unmarks file none [nothing] nofun (by simp [Generation.Plain, nothing]) s (once.marked s member marked) marked
    rw [emptied unmarked, Option.getD_some] at once
    have none : sections "# CLAUDE.md\n" = [] := by decide
    have one : visible "# CLAUDE.md\n" = ["# CLAUDE.md"] := by decide
    refine ⟨unmarked, ?_, ?_⟩
    · intro s member
      by_contra unknown
      have kept := once.foreign s member unknown
      rw [none] at kept
      cases kept
    · intro line member
      have kept := once.preamble line member
      rw [one] at kept
      exact List.mem_singleton.mp kept
  · intro generated hashes runs
    refine ⟨?_, ?_, ?_⟩
    · exact fun s member marked => absurd marked (generated.unmarked s member)
    · exact fun s member unknown => absurd (generated.known s member) unknown
    · intro line member
      rcases List.eq_nil_or_concat runs with rfl | ⟨before, run, rfl⟩
      · exact preamble_visible file line member
      · rw [List.concat_eq_append, updates_concat, Option.getD_some, generated.title line member]
        exact title_visible _ run true

def decisions : String := "# CLAUDE.md\n\n<!-- user-written -->\n## Architecture decisions\nMine.\n"

def regenerated : Generation := ⟨[("Architecture decisions", "- Theirs")], "cafef00d"⟩

/-- The first update drops the marker of the section that it keeps, and the next one the section. -/
theorem decisions_lost :
    (updates ⟨some decisions, none⟩ [regenerated]).claudeMd =
      some "# CLAUDE.md\n\n## Architecture decisions\nMine.\n" ∧
    (updates ⟨some decisions, none⟩ [regenerated, ⟨regenerated.sections, "deadbeef"⟩]).claudeMd =
      some "# CLAUDE.md\n\n## Architecture decisions\n- Theirs\n" ∧
    ¬ Preserves decisions := by
  refine ⟨by decide, by decide, ?_⟩
  intro preserves
  have once := preserves none [regenerated]
  have kept := once.marked ⟨"Architecture decisions", true, "Mine."⟩ (by decide) rfl
  revert kept
  decide

end Onmc.ClaudeMd

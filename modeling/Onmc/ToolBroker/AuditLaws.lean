import Onmc.DurableRuntime.Lines
import Onmc.HashChain
import Onmc.JsonPrefix
import Onmc.ToolBroker.Audit
import Onmc.ToolBroker.TokenLaws

/-! Appending to a ledger and verifying it. The hashes chain the events, and an event is a line of its
own where the text before it ends a line. -/
namespace Onmc.ToolBroker.AuditLog

open Onmc.Runtime (Checked check check_ok)
open Onmc.DurableRuntime (splitLines splitLinesFrom EndsLine)
open Onmc.Json (insertField Increasing canonicalFields)

/-! A dict is its other items and the one that was popped. -/

theorem insertField_filter {key : String} {v : Json} {fields : List (String × Json)} (sorted : Increasing fields)
    (found : fields.lookup key = some v) : insertField key v (fields.filter (·.1 ≠ key)) = fields := by
  induction fields with
  | nil => cases found
  | cons field fields ih =>
    obtain ⟨name, w⟩ := field
    obtain ⟨later, sorted⟩ := List.pairwise_cons.mp sorted
    rw [List.lookup_cons] at found
    by_cases here : key = name
    · subst here
      simp only [beq_self_eq_true, Option.some.injEq] at found
      subst found
      have kept : fields.filter (·.1 ≠ key) = fields := by
        rw [List.filter_eq_self]
        intro f hf
        simpa using ne_of_gt (later f hf)
      rw [List.filter_cons_of_neg (by simp), kept, Json.insertField_below later]
    · rw [beq_eq_false_iff_ne.mpr here] at found
      have above : name < key := by
        obtain ⟨before, after, split, _⟩ := List.lookup_eq_some_iff.mp found
        exact later (key, v) (by simp [split])
      rw [List.filter_cons_of_pos (by simpa using Ne.symm here), insertField, if_neg (lt_asymm above), if_neg here,
        ih sorted found]

theorem canonical_determined {raw other : Json} {key : String} {v : Json} (found : raw.get? key = some v)
    (found' : other.get? key = some v) (rest : (raw.without key).canonical = (other.without key).canonical) :
    raw.canonical = other.canonical := by
  have whole (json : Json) (found : json.get? key = some v) : ∃ fields, json = .obj fields ∧
      json.canonical = .obj (insertField key v.canonical ((canonicalFields fields).filter (·.1 ≠ key))) := by
    cases json with
    | obj fields =>
      have lookup : (canonicalFields fields).lookup key = some v.canonical := by
        rw [Json.lookup_canonicalFields, show fields.lookup key = some v from found]
        rfl
      refine ⟨fields, rfl, ?_⟩
      rw [insertField_filter (Json.increasing_canonicalFields fields) lookup, Json.canonical_obj]
    | _ => cases found
  obtain ⟨fields, rfl, first⟩ := whole raw found
  obtain ⟨others, rfl, second⟩ := whole other found'
  rw [Json.canonical_without, Json.canonical_without, Json.canonical_obj, Json.canonical_obj] at rest
  rw [first, second, Json.obj.inj rest]

section Hashed

variable [Sha256]

theorem eventHash_canonical (event : Json) : eventHash event.canonical = eventHash event := by
  rw [eventHash, eventHash, Json.dumpsAscii, Json.dumpsAscii, Json.canonical_canonical]

/-! What `verify` accepts. -/

omit [Sha256] in
theorem equalsText_iff {value : Option Json} {text : String} : equalsText value text = true ↔ value = some (.str text) := by
  unfold equalsText
  split
  · simp
  · rename_i other
    constructor
    · intro h
      cases h
    · rintro rfl
      exact absurd rfl (other text)

/-- An accepted line: an event with its place, the hash before it and its own hash. -/
structure Entry (sequence : Nat) (previousHash line hash : String) (event : Json) : Prop where
  read : Json.loads line = some event
  sequence : equalsInt ((event.without "event_hash").get? "sequence") sequence = true
  previous : (event.without "event_hash").get? "previous_hash" = some (.str previousHash)
  claimed : event.get? "event_hash" = some (.str hash)
  hashed : hash = eventHash (event.without "event_hash")

theorem verifyLine_iff {sequence : Nat} {previousHash line hash : String} :
    verifyLine sequence previousHash line = some hash ↔ ∃ event, Entry sequence previousHash line hash event := by
  constructor
  · intro h
    unfold verifyLine at h
    split at h
    · rename_i fields read
      dsimp only at h
      split_ifs at h with place previous claimed
      cases h
      simp only [Bool.not_eq_true', Bool.not_eq_false] at place previous claimed
      exact ⟨_, read, place, equalsText_iff.mp previous, equalsText_iff.mp claimed, rfl⟩
    · cases h
  · rintro ⟨event, entry⟩
    cases event with
    | obj fields =>
      have previous := equalsText_iff.mpr entry.previous
      have claimed := equalsText_iff.mpr (entry.hashed ▸ entry.claimed)
      simp [verifyLine, entry.read, entry.sequence, previous, claimed, entry.hashed]
    | _ => cases entry.claimed

theorem verifyLines_cons {sequence : Nat} {finalSequence : Int} {previousHash line : String} {lines : List String}
    {result : Int × String} :
    verifyLines sequence finalSequence previousHash (line :: lines) = some result ↔
      ∃ hash, verifyLine sequence previousHash line = some hash ∧
        verifyLines (sequence + 1) sequence hash lines = some result := by
  rw [verifyLines]
  split
  · rename_i refused
    simp [refused]
  · rename_i hash accepted
    simp [accepted]

/-- The last sequence that `verify` finds is the place of the last line. -/
theorem verifyLines_place {sequence : Nat} {finalSequence : Int} {previousHash : String} {lines : List String}
    {last : Int} {head : String} (start : finalSequence = sequence - 1)
    (h : verifyLines sequence finalSequence previousHash lines = some (last, head)) :
    last = sequence + lines.length - 1 := by
  induction lines generalizing sequence finalSequence previousHash with
  | nil =>
    cases h
    simpa using start
  | cons line lines ih =>
    obtain ⟨hash, _, h⟩ := verifyLines_cons.mp h
    rw [ih (by omega) h, List.length_cons]
    omega

theorem verifyLines_concat {sequence : Nat} {finalSequence : Int} {previousHash line head hash : String}
    {lines : List String} {last : Int} (h : verifyLines sequence finalSequence previousHash lines = some (last, head))
    (accepted : verifyLine (sequence + lines.length) head line = some hash) :
    verifyLines sequence finalSequence previousHash (lines ++ [line]) = some (((sequence + lines.length : Nat) : Int), hash) := by
  induction lines generalizing sequence finalSequence previousHash with
  | nil =>
    cases h
    exact verifyLines_cons.mpr ⟨hash, accepted, rfl⟩
  | cons line' lines ih =>
    obtain ⟨first, here, h⟩ := verifyLines_cons.mp h
    have place : sequence + (line' :: lines).length = sequence + 1 + lines.length := by
      rw [List.length_cons]
      omega
    rw [place] at accepted ⊢
    exact verifyLines_cons.mpr ⟨first, here, ih h accepted⟩

theorem verifyLines_last {sequence : Nat} {finalSequence : Int} {previousHash line : String} {before : List String}
    {result : Int × String}
    (h : verifyLines sequence finalSequence previousHash (before ++ [line]) = some result) :
    ∃ place previous hash, verifyLine place previous line = some hash := by
  induction before generalizing sequence finalSequence previousHash with
  | nil =>
    obtain ⟨hash, accepted, _⟩ := verifyLines_cons.mp h
    exact ⟨_, _, hash, accepted⟩
  | cons first before ih =>
    obtain ⟨_, _, h⟩ := verifyLines_cons.mp h
    exact ih h

/-- The hash that a ledger ends with is the one that the next event names. -/
theorem lastHash_head {sequence : Nat} {finalSequence : Int} {previousHash head : String} {lines : List String}
    {last : Int} (h : verifyLines sequence finalSequence previousHash lines = some (last, head)) :
    (lines = [] ∧ head = previousHash) ∨ ∃ line, lines.getLast? = some line ∧ lastHash line = .ok head := by
  induction lines generalizing sequence finalSequence previousHash with
  | nil =>
    cases h
    exact .inl ⟨rfl, rfl⟩
  | cons line lines ih =>
    obtain ⟨hash, accepted, h⟩ := verifyLines_cons.mp h
    right
    rcases ih h with ⟨rfl, rfl⟩ | ⟨found, last, named⟩
    · obtain ⟨event, entry⟩ := verifyLine_iff.mp accepted
      exact ⟨line, rfl, by simp only [lastHash, entry.read, entry.claimed]⟩
    · refine ⟨found, ?_, named⟩
      cases lines with
      | nil => cases last
      | cons next lines => rw [List.getLast?_cons_cons, last]

/-! An event as it is written. -/

theorem sealedEvent_entry (sequence : Nat) (timestamp : DateTime) (eventType : String) (data : List (String × Json))
    (previousHash : String) :
    let body := eventBody sequence timestamp eventType data previousHash
    Entry sequence previousHash (sealedEvent body).dumpsAscii (eventHash (.obj body)) (sealedEvent body).canonical := by
  intro body
  have popped : (sealedEvent body).canonical.without "event_hash" = (Json.obj body).canonical := by
    rw [← Json.canonical_without]
    apply congrArg
    simp [sealedEvent, Json.without, body, eventBody]
  constructor
  · exact Json.loads_dumpsAscii _
  · rw [popped, Json.get?_canonical]
    simp [body, eventBody, Json.get?, equalsInt, Num.eq, Num.decimal?]
  · rw [popped, Json.get?_canonical]
    simp [body, eventBody, Json.get?, List.lookup_cons]
  · rw [Json.get?_canonical]
    simp [body, eventBody, sealedEvent, Json.get?, List.lookup_cons]
  · rw [popped, eventHash_canonical]

/-- An accepted ledger, with the last hash. -/
def Accepted (text head : String) : Prop :=
  ∃ last, verifyLines 0 (-1) genesisHash (splitLines text) = some (last, head)

theorem verify_accepted {text : String} : verify (some text) none none = true ↔ ∃ head, Accepted text head := by
  simp only [verify, Accepted]
  split
  · rename_i refused
    simp [refused]
  · rename_i last head accepted
    simp only [accepted, Option.any_none, Bool.false_eq_true, if_false, Option.all_none, true_iff]
    exact ⟨head, last, rfl⟩

/-- The line that is appended to an accepted ledger. -/
def nextLine (text head : String) (timestamp : DateTime) (eventType : String) (data : List (String × Json)) : String :=
  (sealedEvent (eventBody (splitLines text).length timestamp eventType data head)).dumpsAscii

theorem append_accepted {text head : String} (accepted : Accepted text head) (timestamp : DateTime)
    (eventType : String) (data : List (String × Json)) :
    append (some text) timestamp eventType data = (do
      check (clean eventType = true) "audit event type must be non-empty"
      return text ++ nextLine text head timestamp eventType data ++ "\n") := by
  obtain ⟨last, accepted⟩ := accepted
  have named : previousHashOf (splitLines text) = .ok head := by
    unfold previousHashOf
    rcases lastHash_head accepted with ⟨empty, rfl⟩ | ⟨line, found, named⟩
    · rw [empty]
      rfl
    · rw [found]
      exact named
  simp only [append, Option.getD_some, named, Except.ok_bind]
  rfl

omit [Sha256] in
theorem splitLines_append {text : String} (v : Json) (ends : text = "" ∨ EndsLine text) :
    splitLines (text ++ v.dumpsAscii ++ "\n") = splitLines text ++ [v.dumpsAscii] := by
  have next : (v.dumpsAscii.toList ++ ['\n']).head? ≠ some '\n' := by
    obtain ⟨c, cs, written⟩ := List.exists_cons_of_ne_nil (Json.dumpsAscii_ne_nil v)
    have single := Json.dumpsAscii_oneLine v c (written ▸ List.mem_cons_self)
    simpa [written] using single.1
  have alone : (text.toList = [] ∧ ([] : List Char) = []) ∨ EndsLine text := by
    rcases ends with rfl | ends
    · exact .inl ⟨rfl, rfl⟩
    · exact .inr ends
  have parts := DurableRuntime.splitLinesFrom_ends [] alone next
  have line := DurableRuntime.splitLinesFrom_line (Json.dumpsAscii_oneLine v) [] []
  simp only [List.nil_append, splitLinesFrom, List.isEmpty_nil, if_true, String.ofList_toList] at line
  simp only [splitLines, String.toList_append, List.append_assoc]
  rw [show "\n".toList = ['\n'] from rfl, parts, line]

/-- On a line of its own the next event is accepted. -/
theorem Accepted.append {text head : String} (accepted : Accepted text head) (ends : text = "" ∨ EndsLine text)
    (timestamp : DateTime) (eventType : String) (data : List (String × Json)) :
    ∃ hash, Accepted (text ++ nextLine text head timestamp eventType data ++ "\n") hash := by
  obtain ⟨last, accepted⟩ := accepted
  have line := verifyLine_iff.mpr ⟨_, sealedEvent_entry (splitLines text).length timestamp eventType data head⟩
  rw [← Nat.zero_add (splitLines text).length] at line
  have whole := verifyLines_concat accepted line
  rw [nextLine]
  rw [Nat.zero_add, ← splitLines_append _ ends] at whole
  exact ⟨_, _, whole⟩

omit [Sha256] in
theorem events_append {text : String} (v : Json) (ends : text = "" ∨ EndsLine text) :
    events (text ++ v.dumpsAscii ++ "\n") = events text ++ [some v.canonical] := by
  simp [events, splitLines_append v ends, Json.loads_dumpsAscii, Json.canonical_canonical]

/-- Without a line break before it the next event lands on the last line, and the ledger is refused. -/
theorem torn_refused {text head : String} (accepted : Accepted text head) (torn : ¬ (text = "" ∨ EndsLine text))
    (timestamp : DateTime) (eventType : String) (data : List (String × Json)) :
    verify (some (text ++ nextLine text head timestamp eventType data ++ "\n")) none none = false := by
  obtain ⟨some_text, torn⟩ := not_or.mp torn
  obtain ⟨last, accepted⟩ := accepted
  rw [nextLine]
  generalize hv : sealedEvent (eventBody (splitLines text).length timestamp eventType data head) = v
  obtain ⟨c, cs, written, solid, _⟩ := Json.dumpsAscii_opens v
  obtain ⟨before, line, split, longer⟩ := DurableRuntime.splitLinesFrom_open [] (Json.dumpsAscii_oneLine v)
    (.inr (DurableRuntime.open_of_torn some_text torn))
  have lines : splitLines text = before ++ [String.ofList line] := split
  have lines' : splitLines (text ++ v.dumpsAscii ++ "\n") = before ++ [String.ofList (line ++ v.dumpsAscii.toList)] := by
    simp only [splitLines, String.toList_append, List.append_assoc]
    exact longer
  rw [lines] at accepted
  obtain ⟨_, _, _, accepted⟩ := verifyLines_last accepted
  obtain ⟨event, entry⟩ := verifyLine_iff.mp accepted
  have delimited : Json.Delimited event := by
    cases event with
    | num n => cases entry.claimed
    | _ => trivial
  have unread : Json.loads (String.ofList line ++ v.dumpsAscii) = none :=
    Json.loads_followed entry.read delimited written solid
  by_contra verifies
  obtain ⟨hash, last', verified⟩ := verify_accepted.mp (Bool.eq_true_of_not_eq_false verifies)
  rw [lines'] at verified
  obtain ⟨_, _, _, verified⟩ := verifyLines_last verified
  obtain ⟨_, entry'⟩ := verifyLine_iff.mp verified
  have read := entry'.read
  rw [String.ofList_append, String.ofList_toList, unread] at read
  cases read

/-! The chain. -/

/-- What of an event its hash is taken of, with the event. -/
def Sealed (body : Json) (event : Option Json) : Prop :=
  ∃ raw : Json, event = some raw.canonical ∧ (raw.without "event_hash").canonical = body ∧
    raw.get? "event_hash" = some (.str (eventHash body))

theorem Sealed.determined {body : Json} {event other : Option Json} (h : Sealed body event) (h' : Sealed body other) :
    event = other := by
  obtain ⟨raw, rfl, same, claimed⟩ := h
  obtain ⟨raw', rfl, same', claimed'⟩ := h'
  exact congrArg some (canonical_determined claimed claimed' (same.trans same'.symm))

def placeOf (body : Json) : Nat :=
  match body.get? "sequence" with
  | some (.num n) => ((n.decimal?).map fun d => d.coef.toNat).getD 0
  | some (.bool b) => if b then 1 else 0
  | _ => 0

def previousOf (body : Json) : String :=
  match body.get? "previous_hash" with
  | some (.str text) => text
  | _ => ""

omit [Sha256] in
theorem placeOf_equalsInt {body : Json} {n : Nat} (h : equalsInt (body.get? "sequence") n = true) :
    placeOf body.canonical = n := by
  unfold placeOf
  rw [Json.get?_canonical]
  cases hv : body.get? "sequence" with
  | none => simp [hv, equalsInt] at h
  | some v =>
    rw [hv] at h
    cases v with
    | num x =>
      have value : x.decimal? = some (.ofInt n) := by
        cases x with
        | int k => simpa [equalsInt, Num.eq, Num.decimal?] using h
        | float d => simpa [equalsInt, Num.eq, Num.decimal?] using h
        | nan => simp [equalsInt, Num.eq, Num.decimal?] at h
        | infinity negative => simp [equalsInt, Num.eq, Num.decimal?] at h
      simp [Json.canonical, value, Decimal.ofInt]
    | bool b =>
      simp only [equalsInt, decide_eq_true_eq] at h
      cases b with
      | true => exact (Int.ofNat_inj.mp h).symm
      | false => exact (Int.ofNat_inj.mp h).symm
    | _ => simp [equalsInt] at h

theorem Entry.linked {sequence : Nat} {previousHash line hash : String} {event : Json}
    (entry : Entry sequence previousHash line hash event) :
    ∃ body, Sealed body ((Json.loads line).map Json.canonical) ∧ body.canonical = body ∧ placeOf body = sequence ∧
      previousOf body = previousHash ∧ eventHash body = hash := by
  refine ⟨(event.without "event_hash").canonical, ⟨event, by rw [entry.read]; rfl, rfl, ?_⟩,
    Json.canonical_canonical _, placeOf_equalsInt entry.sequence, ?_, ?_⟩
  · rw [eventHash_canonical, ← entry.hashed]
    exact entry.claimed
  · unfold previousOf
    rw [Json.get?_canonical, entry.previous]
    rfl
  · rw [eventHash_canonical, ← entry.hashed]

/-- An accepted ledger is a hash chain of the bodies of its events. -/
theorem verifyLines_linked {sequence : Nat} {finalSequence : Int} {previousHash head : String} {lines : List String}
    {last : Int} (h : verifyLines sequence finalSequence previousHash lines = some (last, head)) :
    ∃ bodies, List.Forall₂ Sealed bodies (lines.map fun line => (Json.loads line).map Json.canonical) ∧
      (∀ body ∈ bodies, body.canonical = body) ∧
        HashChain.Linked eventHash placeOf previousOf sequence previousHash bodies ∧
          HashChain.lastDigest eventHash previousHash bodies = head := by
  induction lines generalizing sequence finalSequence previousHash with
  | nil =>
    cases h
    exact ⟨[], .nil, by simp, trivial, rfl⟩
  | cons line lines ih =>
    obtain ⟨hash, accepted, h⟩ := verifyLines_cons.mp h
    obtain ⟨event, entry⟩ := verifyLine_iff.mp accepted
    obtain ⟨body, sealing, sorted, place, previous, rfl⟩ := entry.linked
    obtain ⟨bodies, sealed, all, linked, digest⟩ := ih h
    refine ⟨body :: bodies, .cons sealing sealed, ?_, ⟨place, previous, linked⟩, ?_⟩
    · intro b member
      rcases List.mem_cons.mp member with rfl | member
      · exact sorted
      · exact all b member
    · rw [HashChain.lastDigest_cons, digest]

theorem sealed_determined {bodies : List Json} {events others : List (Option Json)}
    (h : List.Forall₂ Sealed bodies events) (h' : List.Forall₂ Sealed bodies others) : events = others := by
  induction h generalizing others with
  | nil =>
    cases h'
    rfl
  | cons first _ ih =>
    obtain _ | ⟨first', rest'⟩ := h'
    rw [first.determined first', ih rest']

theorem verify_checked {text : String} {sequence : Int} {head : String}
    (h : verify (some text) (some sequence) (some head) = true) :
    verifyLines 0 (-1) genesisHash (splitLines text) = some (sequence, head) := by
  simp only [verify] at h
  split at h
  · cases h
  · rename_i last found accepted
    split at h
    · cases h
    · rename_i same
      simp only [Option.any_some, decide_not, Bool.not_eq_true', Bool.not_eq_false, decide_eq_true_eq] at same
      simp only [Option.all_some, decide_eq_true_eq] at h
      rw [accepted, same, h]

/-- The last sequence and the last hash determine the events. -/
theorem events_determined (apart : Function.Injective Sha256.hexdigest) {text text' : String} {sequence : Int}
    {head : String} (h : verify (some text) (some sequence) (some head) = true)
    (h' : verify (some text') (some sequence) (some head) = true) : events text = events text' := by
  have accepted := verify_checked h
  have accepted' := verify_checked h'
  have place := verifyLines_place (by omega) accepted
  have place' := verifyLines_place (by omega) accepted'
  obtain ⟨bodies, sealed, sorted, linked, digest⟩ := verifyLines_linked accepted
  obtain ⟨bodies', sealed', sorted', linked', digest'⟩ := verifyLines_linked accepted'
  have length : bodies.length = (splitLines text).length := by simpa using sealed.length_eq
  have length' : bodies'.length = (splitLines text').length := by simpa using sealed'.length_eq
  have equal : bodies.length = bodies'.length := by omega
  have same : bodies = bodies' := by
    by_cases empty : bodies = []
    · rw [empty] at equal ⊢
      exact (List.length_eq_zero_iff.mp equal.symm).symm
    · have some' : bodies' ≠ [] := by
        rintro rfl
        exact empty (List.length_eq_zero_iff.mp equal)
      refine HashChain.determined ?_ linked linked' empty some' ?_
      · intro b hb c hc hashed
        have text := Json.canonical_of_dumpsAscii_eq (apart hashed)
        rwa [sorted b hb, sorted' c hc] at text
      · rw [HashChain.getLast?_digest empty genesisHash, HashChain.getLast?_digest some' genesisHash, digest, digest']
  subst same
  exact sealed_determined sealed sealed'

/-! The laws of a ledger. -/

structure Laws (text : String) : Prop where
  /-- Whatever is appended to a new ledger, the ledger verifies. -/
  appended : ∀ decisions text', appendAll none decisions = .ok (some text') →
    verify (some text') none none = true ∧ (events text').length = decisions.length
  /-- Ledgers that verify against one sequence and one head contain the same events. -/
  determined : Function.Injective Sha256.hexdigest → ∀ sequence head text text',
    verify (some text) (some sequence) (some head) = true → verify (some text') (some sequence) (some head) = true →
      events text = events text'
  /-- The ledger takes one more event. -/
  extends' : verify (some text) none none = true → ∀ timestamp eventType data text',
    append (some text) timestamp eventType data = .ok text' →
      verify (some text') none none = true ∧ ∃ event, events text' = events text ++ [event]

omit [Sha256] in
theorem endsLine_break (text : String) : EndsLine (text ++ "\n") := by
  left
  rw [String.toList_append]
  exact List.getLast?_concat

/-- What `append` leaves of an accepted ledger that ends its last line. -/
theorem append_extends {text text' : String} (accepted : verify (some text) none none = true)
    (ends : text = "" ∨ EndsLine text) {timestamp : DateTime} {eventType : String} {data : List (String × Json)}
    (h : append (some text) timestamp eventType data = .ok text') :
    verify (some text') none none = true ∧ EndsLine text' ∧ ∃ event, events text' = events text ++ [event] := by
  obtain ⟨head, accepted⟩ := verify_accepted.mp accepted
  rw [append_accepted accepted] at h
  obtain ⟨_, _, h⟩ := Except.bind_ok.mp h
  cases h
  exact ⟨verify_accepted.mpr (accepted.append ends timestamp eventType data), endsLine_break _, _,
    events_append _ ends⟩

theorem appendAll_verifies {text : String} {decisions : List (DateTime × String × List (String × Json))}
    (accepted : verify (some text) none none = true) (ends : text = "" ∨ EndsLine text) {text' : String}
    (h : appendAll (some text) decisions = .ok (some text')) :
    verify (some text') none none = true ∧ (events text').length = (events text).length + decisions.length := by
  induction decisions generalizing text with
  | nil =>
    cases h
    exact ⟨accepted, rfl⟩
  | cons decision decisions ih =>
    obtain ⟨timestamp, eventType, data⟩ := decision
    obtain ⟨next, appended, h⟩ := Except.bind_ok.mp h
    obtain ⟨verifies, ends, event, more⟩ := append_extends accepted ends appended
    obtain ⟨verifies, length⟩ := ih verifies (.inr ends) h
    refine ⟨verifies, ?_⟩
    rw [length, more, List.length_append, List.length_cons, List.length_cons, List.length_nil]
    omega

theorem empty_verifies : verify (some "") none none = true := rfl

theorem appended_verifies {decisions : List (DateTime × String × List (String × Json))} {text : String}
    (h : appendAll none decisions = .ok (some text)) :
    verify (some text) none none = true ∧ (events text).length = decisions.length := by
  cases decisions with
  | nil => cases h
  | cons decision decisions =>
    have founded : appendAll (some "") (decision :: decisions) = .ok (some text) := h
    have run := appendAll_verifies empty_verifies (.inl rfl) founded
    simpa [events, splitLines, splitLinesFrom] using run

theorem torn_append {text : String} (accepted : verify (some text) none none = true)
    (torn : ¬ (text = "" ∨ EndsLine text)) :
    ∃ text', append (some text) ⟨0, by decide⟩ "policy_decision" [] = .ok text' ∧
      verify (some text') none none = false := by
  obtain ⟨head, verified⟩ := verify_accepted.mp accepted
  refine ⟨_, ?_, torn_refused verified torn ⟨0, by decide⟩ "policy_decision" []⟩
  rw [append_accepted verified, check_ok.mpr (by decide +kernel), Except.ok_bind]
  rfl

/-- The laws hold of a ledger exactly when it is not accepted, is empty or ends its last line. -/
theorem ledger_laws_iff (text : String) :
    Laws text ↔ (verify (some text) none none = true → text = "" ∨ EndsLine text) := by
  constructor
  · intro laws accepted
    by_contra torn
    obtain ⟨text', written, refused⟩ := torn_append accepted torn
    have verifies := (laws.extends' accepted _ _ _ _ written).1
    rw [refused] at verifies
    cases verifies
  · intro ends
    refine ⟨fun _ _ => appended_verifies, fun apart _ _ _ _ => events_determined apart, ?_⟩
    intro accepted timestamp eventType data text' written
    obtain ⟨verifies, _, more⟩ := append_extends accepted (ends accepted) written
    exact ⟨verifies, more⟩

/-- The ledger with one event, without the line break after it. -/
def firstLine (timestamp : DateTime) : String :=
  (sealedEvent (eventBody 0 timestamp "policy_decision" [] genesisHash)).dumpsAscii

theorem firstLine_accepted (timestamp : DateTime) : verify (some (firstLine timestamp)) none none = true := by
  rw [verify_accepted]
  have lines : splitLines (firstLine timestamp) = [firstLine timestamp] := by
    rw [firstLine, splitLines,
      DurableRuntime.splitLinesFrom_single (Json.dumpsAscii_oneLine _) [] (Json.dumpsAscii_ne_nil _)]
    rw [List.nil_append, String.ofList_toList]
  have line := verifyLine_iff.mpr ⟨_, sealedEvent_entry 0 timestamp "policy_decision" [] genesisHash⟩
  have verified (start : Int) : ∃ result, verifyLines 0 start genesisHash [firstLine timestamp] = some result :=
    ⟨_, verifyLines_cons.mpr ⟨_, line, rfl⟩⟩
  obtain ⟨⟨last, head⟩, verified⟩ := verified (-1)
  exact ⟨head, last, lines ▸ verified⟩

theorem firstLine_torn (timestamp : DateTime) : ¬ (firstLine timestamp = "" ∨ EndsLine (firstLine timestamp)) := by
  rintro (empty | ends | ends)
  · exact Json.dumpsAscii_ne_nil _ (by rw [← firstLine, empty]; rfl)
  · exact (Json.dumpsAscii_oneLine _ _ (List.mem_of_getLast? ends)).1 rfl
  · exact (Json.dumpsAscii_oneLine _ _ (List.mem_of_getLast? ends)).2 rfl

end Hashed

/-- An accepted ledger without its last line break is refused after one more event. -/
theorem lost_break_refused :
    let _ := Sha256.standard
    let ledger := firstLine ⟨0, by decide⟩
    verify (some ledger) none none = true ∧
      (∃ text, append (some ledger) ⟨0, by decide⟩ "policy_decision" [] = .ok text ∧
        verify (some text) none none = false) ∧ ¬ Laws ledger := by
  intro _ ledger
  have accepted : verify (some ledger) none none = true := firstLine_accepted _
  obtain ⟨text, written, refused⟩ := torn_append accepted (firstLine_torn _)
  refine ⟨accepted, ⟨text, written, refused⟩, ?_⟩
  intro laws
  have verifies := (laws.extends' accepted _ _ _ _ written).1
  rw [refused] at verifies
  cases verifies

end Onmc.ToolBroker.AuditLog

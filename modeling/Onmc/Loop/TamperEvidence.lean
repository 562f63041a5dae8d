import Onmc.HashChain
import Onmc.HexDigest
import Onmc.JsonText
import Onmc.Loop.Receipt

/-! What the hash chain of a run receipt tells apart, over any digest that is written in hexadecimal. -/
namespace Onmc.Loop

open Onmc.Sha256 (sha256 Hex hexDigits)

def fileText (contract : IterationContract) : String :=
  PyText.join "," (contract.filesTouched.insertionSort (· ≤ ·))

def tokenText : Option Int → String
  | some n => toString n
  | none => "none"

section

variable (digest : String → String)

def signature (contract : IterationContract) : String :=
  PyText.first 16 (digest (fileText contract ++ "||" ++ PyText.first 200 contract.verifyOutput))

/-- What a link holds of its iteration. -/
structure Held where
  signature : String
  passed : Bool
  files : String
  tokens : Option Int

def held (contract : IterationContract) : Held :=
  ⟨signature digest contract, contract.verifyPassed, fileText contract, contract.tokens⟩

def link (previous : String) (h : Held) : String :=
  digest (PyText.join "|" [previous, h.signature, strBool h.passed, h.files, tokenText h.tokens])

/-- `_build_hash_chain(result)[1]` over a digest -/
def chainHash (contracts : List IterationContract) : String :=
  let last := (contracts.map (held digest)).foldl (link digest) ""
  if last = "" then digest "empty" else last

end

theorem iterationHashes_cons (previous : String) (contract : IterationContract) (rest : List IterationContract) :
    iterationHashes previous (contract :: rest) =
      iterationHash previous contract :: iterationHashes (iterationHash previous contract) rest := rfl

theorem iterationHashes_last (previous : String) (contracts : List IterationContract) :
    (iterationHashes previous contracts).getLast?.getD previous =
      (contracts.map (held sha256)).foldl (link sha256) previous := by
  induction contracts generalizing previous with
  | nil => rfl
  | cons contract rest ih =>
    rw [iterationHashes_cons, List.getLast?_cons, Option.getD_some, ih, List.map_cons, List.foldl_cons]
    rfl

/-- A chain that has begun ends in the digest of a text with bars. -/
theorem foldl_link {digest : String → String} {links : List Held} (begun : links ≠ []) :
    ∃ text : String, '|' ∈ text.toList ∧ links.foldl (link digest) "" = digest text := by
  cases links using List.reverseRecOn with
  | nil => exact absurd rfl begun
  | append_singleton links h =>
    rw [List.foldl_append, List.foldl_cons, List.foldl_nil]
    refine ⟨_, ?_, rfl⟩
    have bar : "|".toList = ['|'] := rfl
    simp [PyText.join, bar]

theorem foldl_filled {digest : String → String} (hex : ∀ text, Hex (digest text)) {links : List Held} (begun : links ≠ []) :
    links.foldl (link digest) "" ≠ "" := by
  obtain ⟨text, -, last⟩ := @foldl_link digest links begun
  rw [last]
  exact fun empty => (hex text).1 (congrArg String.toList empty)

theorem chainHash_begun {digest : String → String} (hex : ∀ text, Hex (digest text)) {contracts : List IterationContract}
    (begun : contracts ≠ []) : chainHash digest contracts = (contracts.map (held digest)).foldl (link digest) "" :=
  if_neg (foldl_filled hex (fun none => begun (List.map_eq_nil_iff.mp none)))

/-- The receipt's hash is the chain over SHA-256. -/
theorem buildHashChain_eq (result : LoopResult) : (buildHashChain result).2 = chainHash sha256 result.iterations := by
  have hash : (buildHashChain result).2 = (iterationHashes "" result.iterations).getLast?.getD (sha256 "empty") := rfl
  rw [hash]
  cases result.iterations with
  | nil =>
    simp only [chainHash, iterationHashes, List.getLast?_nil, Option.getD_none, List.map_nil, List.foldl_nil, if_true]
  | cons contract rest =>
    have last := iterationHashes_last "" (contract :: rest)
    rw [iterationHashes_cons, List.getLast?_cons, Option.getD_some] at last ⊢
    rw [last, chainHash_begun Sha256.sha256_hex (List.cons_ne_nil contract rest)]

/-! What a link tells apart. -/

theorem toList_toString (n : Int) : (toString n).toList = Json.renderNum (.int n) := by
  rw [Int.toString_eq_repr, Int.repr_eq_if, Json.renderNum, Json.signOf]
  by_cases negative : n < 0
  · have magnitude : (-n).toNat = n.natAbs := by omega
    rw [if_neg (by omega), if_pos negative, String.toList_append, magnitude, Nat.toList_repr]
    rfl
  · have magnitude : n.toNat = n.natAbs := by omega
    rw [if_pos (by omega), if_neg negative, magnitude, Nat.toList_repr]
    rfl

theorem renderNum_int_chars (n : Int) : ∀ c ∈ Json.renderNum (.int n), c = '-' ∨ c.isDigit = true := by
  intro c member
  rw [Json.renderNum, Json.signOf] at member
  rcases List.mem_append.mp member with sign | digit
  · split at sign
    · exact .inl (List.mem_singleton.mp sign)
    · cases sign
  · exact .inr (Json.toDigits_isDigit _ c digit)

theorem tokenText_plain (tokens : Option Int) : '|' ∉ (tokenText tokens).toList := by
  cases tokens with
  | none => decide
  | some n =>
    intro member
    rw [tokenText, toList_toString] at member
    rcases renderNum_int_chars n '|' member with bar | bar
    · exact absurd bar (by decide)
    · exact absurd bar (by decide)

theorem tokenText_injective : Function.Injective tokenText := by
  have named (n : Int) : tokenText (some n) ≠ tokenText none := by
    intro same
    have first : 'n' ∈ (tokenText (some n)).toList := same ▸ by decide
    rw [tokenText, toList_toString] at first
    rcases renderNum_int_chars n 'n' first with letter | letter
    · exact absurd letter (by decide)
    · exact absurd letter (by decide)
  intro tokens tokens' same
  cases tokens with
  | none =>
    cases tokens' with
    | none => rfl
    | some n => exact absurd same.symm (named n)
  | some n =>
    cases tokens' with
    | none => exact absurd same (named n)
    | some m =>
      have texts : Json.renderNum (.int n) = Json.renderNum (.int m) := by
        rw [← toList_toString, ← toList_toString]
        exact congrArg String.toList same
      have read := @Json.parseNum_renderNum (.int n) [] nofun
      rw [texts, @Json.parseNum_renderNum (.int m) [] nofun] at read
      simpa using read.symm

theorem strBool_plain (b : Bool) : '|' ∉ (strBool b).toList := by cases b <;> decide

theorem strBool_injective : Function.Injective strBool := by
  intro b c same
  cases b <;> cases c
  · rfl
  · exact absurd same (by decide)
  · exact absurd same (by decide)
  · rfl

section

variable {digest : String → String} (hex : ∀ text, Hex (digest text)) (injective : Function.Injective digest)
include hex

theorem signature_plain (contract : IterationContract) : '|' ∉ (signature digest contract).toList := by
  rw [signature, PyText.first, String.toList_ofList]
  exact fun member => (hex _).mem_ne (by decide) (List.mem_of_mem_take member)

include injective

/-- The fields before the files hold no bar, nor does the one after them. -/
theorem link_apart {previous previous' : String} {contract contract' : IterationContract}
    (before : '|' ∉ previous.toList) (before' : '|' ∉ previous'.toList)
    (same : link digest previous (held digest contract) = link digest previous' (held digest contract')) :
    previous = previous' ∧ held digest contract = held digest contract' := by
  have bar : "|".toList = ['|'] := rfl
  have texts := congrArg String.toList (injective same)
  simp only [PyText.join, String.toList_intercalate, held, List.map_cons, List.map_nil, bar, List.intercalate_cons_cons,
    List.intercalate_singleton, List.append_assoc, List.singleton_append] at texts
  obtain ⟨links, rest⟩ := Separated.first_determined before before' texts
  obtain ⟨signatures, rest⟩ := Separated.first_determined (signature_plain hex contract) (signature_plain hex contract') rest
  obtain ⟨verdicts, rest⟩ := Separated.first_determined (strBool_plain _) (strBool_plain _) rest
  obtain ⟨files, tokens⟩ := Separated.last_determined (tokenText_plain _) (tokenText_plain _) rest
  refine ⟨String.toList_inj.mp links, ?_⟩
  simp only [held, Held.mk.injEq]
  exact ⟨String.toList_inj.mp signatures, strBool_injective (String.toList_inj.mp verdicts), String.toList_inj.mp files,
    tokenText_injective (String.toList_inj.mp tokens)⟩

theorem chain_begun {contracts : List IterationContract} (begun : contracts ≠ []) :
    chainHash digest [] ≠ chainHash digest contracts := by
  intro same
  rw [chainHash_begun hex begun] at same
  obtain ⟨text, bar, last⟩ := @foldl_link digest _ (fun none => begun (List.map_eq_nil_iff.mp none))
  have texts : "empty" = text := injective (same.trans last)
  exact absurd bar (texts ▸ by decide)

/-- The hash of a run determines what the links hold of it. -/
theorem chain_determined {contracts others : List IterationContract}
    (same : chainHash digest contracts = chainHash digest others) :
    contracts.map (held digest) = others.map (held digest) := by
  by_cases begun : contracts = []
  · by_cases begun' : others = []
    · rw [begun, begun']
    · rw [begun] at same
      exact absurd same (chain_begun hex injective begun')
  · by_cases begun' : others = []
    · rw [begun'] at same
      exact absurd same.symm (chain_begun hex injective begun)
    · rw [chainHash_begun hex begun, chainHash_begun hex begun', List.foldl_map, List.foldl_map] at same
      have plain (text : String) : '|' ∉ (digest text).toList := (hex text).mem_ne (by decide)
      have begins : '|' ∉ "".toList := by decide
      refine @HashChain.foldl_determined _ _ _ _ _ (fun l : String => '|' ∉ l.toList) (held digest) begins
        (fun _ _ _ => plain _) ?_ ?_ _ _ same
      · exact fun _ _ _ empty => (hex _).1 (congrArg String.toList empty)
      · exact fun _ _ _ _ before before' equal => link_apart hex injective before before' equal

end

/-! Which runs are told apart. -/

/-- The data of an iteration that a receipt is evidence of. -/
structure Data where
  filesTouched : List String
  verifyPassed : Bool
  verifyOutput : String
  tokens : Option Int
deriving DecidableEq

def data (contract : IterationContract) : Data :=
  ⟨contract.filesTouched, contract.verifyPassed, contract.verifyOutput, contract.tokens⟩

/-- Runs with other data have another hash. -/
def Evident (digest : String → String) (run other : LoopResult) : Prop :=
  run.iterations.map data ≠ other.iterations.map data →
    chainHash digest run.iterations ≠ chainHash digest other.iterations

/-- Iterations whose file names are the same once sorted and joined, and whose outputs are the same in the first 200
characters or have digests that begin with the same 16 digits. -/
structure Alike (digest : String → String) (contract other : IterationContract) : Prop where
  passed : contract.verifyPassed = other.verifyPassed
  tokens : contract.tokens = other.tokens
  files : fileText contract = fileText other
  output : PyText.first 200 contract.verifyOutput = PyText.first 200 other.verifyOutput ∨
    signature digest contract = signature digest other

theorem alike_iff (digest : String → String) (contract other : IterationContract) :
    Alike digest contract other ↔ held digest contract = held digest other := by
  constructor
  · intro alike
    have signatures : signature digest contract = signature digest other := by
      rcases alike.output with same | same
      · rw [signature, signature, alike.files, same]
      · exact same
    rw [held, held, signatures, alike.passed, alike.files, alike.tokens]
  · intro same
    simp only [held, Held.mk.injEq] at same
    obtain ⟨signatures, passed, files, tokens⟩ := same
    exact ⟨passed, tokens, files, .inr signatures⟩

theorem map_held_iff (digest : String → String) (contracts others : List IterationContract) :
    contracts.map (held digest) = others.map (held digest) ↔ List.Forall₂ (Alike digest) contracts others := by
  have same : Alike digest = fun contract other => held digest contract = held digest other := by
    funext contract other
    exact propext (alike_iff digest contract other)
  rw [← List.forall₂_eq_eq_eq, List.forall₂_map_left_iff, List.forall₂_map_right_iff, same]

/-- A hash tells two runs with other data apart unless their iterations are alike, one by one. -/
theorem evident_iff {digest : String → String} (hex : ∀ text, Hex (digest text)) (injective : Function.Injective digest)
    (run other : LoopResult) : Evident digest run other ↔
      (run.iterations.map data = other.iterations.map data ∨
        ¬ List.Forall₂ (Alike digest) run.iterations other.iterations) := by
  rw [← map_held_iff]
  constructor
  · intro evident
    by_cases same : run.iterations.map data = other.iterations.map data
    · exact .inl same
    · refine .inr (fun alike => evident same ?_)
      rw [chainHash, chainHash, alike]
  · rintro (same | apart) differ hashes
    · exact differ same
    · exact apart (chain_determined hex injective hashes)

/-! Runs that are told apart by everything they hold. -/

/-- File names in order, without commas, and an output that is kept whole. -/
structure Plain (contract : IterationContract) : Prop where
  sorted : contract.filesTouched.Pairwise (· ≤ ·)
  names : ∀ name ∈ contract.filesTouched, name.toList ≠ [] ∧ ',' ∉ name.toList
  short : contract.verifyOutput.toList.length ≤ 200

theorem joined_determined {names others : List (List Char)} (plain : ∀ name ∈ names, name ≠ [] ∧ ',' ∉ name)
    (plain' : ∀ name ∈ others, name ≠ [] ∧ ',' ∉ name) (same : [','].intercalate names = [','].intercalate others) :
    names = others := by
  have filled (name : List Char) (rest : List (List Char)) (some : name ≠ []) :
      [','].intercalate (name :: rest) ≠ [','].intercalate [] := by
    cases rest with
    | nil => simpa using some
    | cons next rest => simp [List.intercalate_cons_cons]
  cases names with
  | nil =>
    cases others with
    | nil => rfl
    | cons other others => exact absurd same.symm (filled other others (plain' other List.mem_cons_self).1)
  | cons name names =>
    cases others with
    | nil => exact absurd same (filled name names (plain name List.mem_cons_self).1)
    | cons other others =>
      have pieces := congrArg (List.splitOn ',') same
      rwa [List.splitOn_intercalate ',' (fun n member => (plain n member).2) (List.cons_ne_nil _ _),
        List.splitOn_intercalate ',' (fun n member => (plain' n member).2) (List.cons_ne_nil _ _)] at pieces

theorem Plain.files_determined {contract other : IterationContract} (plain : Plain contract) (plain' : Plain other)
    (same : fileText contract = fileText other) : contract.filesTouched = other.filesTouched := by
  have texts := congrArg String.toList same
  have comma : ",".toList = [','] := rfl
  simp only [fileText, PyText.join, String.toList_intercalate, comma, plain.sorted.insertionSort_eq,
    plain'.sorted.insertionSort_eq] at texts
  have names := joined_determined (List.forall_mem_map.mpr plain.names) (List.forall_mem_map.mpr plain'.names) texts
  exact List.map_injective_iff.mpr (fun _ _ equal => String.toList_inj.mp equal) names

theorem Plain.output_determined {contract other : IterationContract} (plain : Plain contract) (plain' : Plain other)
    (same : PyText.first 200 contract.verifyOutput = PyText.first 200 other.verifyOutput) :
    contract.verifyOutput = other.verifyOutput := by
  have heads := String.ofList_inj.mp same
  rw [List.take_of_length_le plain.short, List.take_of_length_le plain'.short] at heads
  exact String.toList_inj.mp heads

/-- No two outputs of the runs have digests that begin alike, unless they begin alike themselves. -/
def Apart (digest : String → String) (contracts others : List IterationContract) : Prop :=
  ∀ contract ∈ contracts, ∀ other ∈ others, signature digest contract = signature digest other →
    PyText.first 200 contract.verifyOutput = PyText.first 200 other.verifyOutput

theorem data_determined {digest : String → String} {contracts others : List IterationContract}
    (plain : ∀ contract ∈ contracts, Plain contract) (plain' : ∀ contract ∈ others, Plain contract)
    (apart : Apart digest contracts others) (alike : List.Forall₂ (Alike digest) contracts others) :
    contracts.map data = others.map data := by
  induction alike with
  | nil => rfl
  | @cons contract other contracts others here _ ih =>
    have first := plain contract List.mem_cons_self
    have second := plain' other List.mem_cons_self
    have outputs : contract.verifyOutput = other.verifyOutput := by
      apply first.output_determined second
      rcases here.output with same | same
      · exact same
      · exact apart contract List.mem_cons_self other List.mem_cons_self same
    have rest := ih (fun c member => plain c (List.mem_cons_of_mem _ member))
      (fun c member => plain' c (List.mem_cons_of_mem _ member))
      (fun c member c' member' => apart c (List.mem_cons_of_mem _ member) c' (List.mem_cons_of_mem _ member'))
    rw [List.map_cons, List.map_cons, rest, data, data, first.files_determined second here.files, here.passed, outputs,
      here.tokens]

/-- Plain runs have other hashes if their data differ, short of a collision of the short digests. -/
theorem plain_evident {digest : String → String} (hex : ∀ text, Hex (digest text)) (injective : Function.Injective digest)
    {run other : LoopResult} (plain : ∀ contract ∈ run.iterations, Plain contract)
    (plain' : ∀ contract ∈ other.iterations, Plain contract) (apart : Apart digest run.iterations other.iterations) :
    Evident digest run other :=
  fun differ hashes => differ (data_determined plain plain' apart
    ((map_held_iff digest _ _).mp (chain_determined hex injective hashes)))

/-- One iteration that touched the given files. -/
def touched (files : List String) : LoopResult :=
  ⟨[⟨1, "", "", files, true, "1 passed", .win, some 5⟩], true, "converged", 5, none⟩

theorem commas_alike : (buildHashChain (touched ["a.py,b.py"])).2 = (buildHashChain (touched ["a.py", "b.py"])).2 ∧
    ¬ Evident sha256 (touched ["a.py,b.py"]) (touched ["a.py", "b.py"]) := by
  have hashes : chainHash sha256 (touched ["a.py,b.py"]).iterations =
      chainHash sha256 (touched ["a.py", "b.py"]).iterations := by
    have alike : List.Forall₂ (Alike sha256) (touched ["a.py,b.py"]).iterations (touched ["a.py", "b.py"]).iterations :=
      .cons ⟨rfl, rfl, by decide, .inl rfl⟩ .nil
    rw [chainHash, chainHash, (map_held_iff _ _ _).mpr alike]
  refine ⟨?_, fun evident => evident (by decide) hashes⟩
  rw [buildHashChain_eq, buildHashChain_eq, hashes]

/-- The texts that are hashed for no iteration and for one. -/
def touchedTexts : List String := ["empty", "a.py||1 passed", "|f9f24dc23c5174eb|True|a.py|5"]

theorem touched_evident : Evident (Sha256.hexOn touchedTexts) ⟨[], false, "max-iterations", 0, none⟩ (touched ["a.py"]) := by
  have apart : ∀ t ∈ touchedTexts, ∀ u ∈ touchedTexts, sha256 t = sha256 u → t = u := by decide +kernel
  apply (evident_iff (Sha256.hexOn_hex touchedTexts) (Sha256.hexOn_injective apart) _ _).mpr
  exact .inr nofun

end Onmc.Loop

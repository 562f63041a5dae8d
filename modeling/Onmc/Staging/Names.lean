import Onmc.Staging.Queue

/-! The names that the queues make: what can be read back from them. -/
namespace Onmc.Staging

theorem isJson_append (name : String) : isJson (name ++ ".json") = true ↔ name ≠ "" := by
  have ends : (name ++ ".json").toList.reverse = ['n', 'o', 's', 'j', '.'] ++ name.toList.reverse := by
    simp
  have empty : name.toList = [] ↔ name = "" := String.toList_eq_nil_iff
  simp only [isJson, suffix, ends]
  by_cases h : name = ""
  · simp [h]
  · simp [h]

theorem padded_digits {width n : Nat} {c : Char} (h : c ∈ (padded width n).toList) : c.isDigit = true := by
  simp only [padded, String.toList_ofList, List.mem_append, List.mem_replicate] at h
  rcases h with ⟨-, rfl⟩ | digit
  · rfl
  · exact Nat.isDigit_of_mem_toDigits (by decide) (by decide) digit

theorem padded_inj {width m n : Nat} (h : (padded width m).toList = (padded width n).toList) : m = n := by
  have value : ∀ n, Nat.ofDigitChars 10 (padded width n).toList 0 = n := by
    intro n
    simp only [padded, String.toList_ofList, Nat.ofDigitChars_append, Nat.ofDigitChars_replicate_zero, Nat.mul_zero,
      Nat.ofDigitChars_ten_toDigits]
  rw [← value m, h, value n]

/-- A number is read back from before the first character that is no digit. -/
theorem padded_append_inj {width m n : Nat} {rest rest' : List Char} {c : Char} (other : c.isDigit = false)
    (h : (padded width m).toList ++ c :: rest = (padded width n).toList ++ c :: rest') : m = n := by
  have read : ∀ n rest, ((padded width n).toList ++ c :: rest).takeWhile Char.isDigit = (padded width n).toList := by
    intro n rest
    rw [List.takeWhile_append_of_pos (fun d digit => padded_digits digit)]
    simp [other]
  refine @padded_inj width m n ?_
  rw [← read m rest, h, read n rest']

theorem auditName_inj {r r' : AuditRecord} (h : auditName r = auditName r') : r.seq = r'.seq := by
  have chars := congrArg String.toList h
  simp only [auditName, String.toList_append, List.append_assoc] at chars
  exact padded_append_inj (c := '-') rfl chars

variable {Body : Type} {f : Flavor Body}

theorem contentHash_length (body : Body) : (contentHash f body).toList.length = 16 := by
  simp [contentHash, PyText.first, Sha1.sha1, Sha1.length_digestOf]

theorem proposalId_toList (body : Body) (seq : Nat) : (proposalId f body seq).toList =
    f.tag.toList ++ ('-' :: ((contentHash f body).toList ++ ('-' :: (padded 4 seq).toList))) := by
  simp [proposalId]

theorem proposalId_inj {body body' : Body} {seq seq' : Nat} (h : proposalId f body seq = proposalId f body' seq') :
    contentHash f body = contentHash f body' ∧ seq = seq' := by
  have chars := congrArg String.toList h
  rw [proposalId_toList, proposalId_toList] at chars
  have tail := List.tail_eq_of_cons_eq (List.append_cancel_left chars)
  obtain ⟨hash, number⟩ := List.append_inj tail (by simp only [contentHash_length])
  exact ⟨String.toList_inj.mp hash, padded_inj (List.tail_eq_of_cons_eq number)⟩

theorem proposalId_ne_empty (body : Body) (seq : Nat) : proposalId f body seq ≠ "" := by
  intro empty
  have chars := proposalId_toList (f := f) body seq
  simp [empty] at chars

theorem hexChar_plain : ∀ n < 16, Sha256.hexChar n ≠ '/' := by decide

/-- An id has no slash, unless its tag has. -/
theorem proposalId_plain (plain : '/' ∉ f.tag.toList) (body : Body) (seq : Nat) :
    '/' ∉ (proposalId f body seq).toList := by
  rw [proposalId_toList]
  intro slash
  simp only [List.mem_append, List.mem_cons] at slash
  rcases slash with tag | dash | hash | dash | digit
  · exact plain tag
  · exact absurd dash (by decide)
  · simp only [contentHash, PyText.first, Sha1.sha1, String.toList_ofList] at hash
    obtain ⟨n, small, char⟩ := Sha1.mem_digestOf (List.mem_of_mem_take hash)
    exact hexChar_plain n small char.symm
  · exact absurd dash (by decide)
  · exact absurd (padded_digits digit) (by decide)

end Onmc.Staging

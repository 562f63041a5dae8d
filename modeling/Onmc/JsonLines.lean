import Onmc.JsonDict
import Onmc.JsonText
import Onmc.Lines

/-! Records in a text, one a line, as JSON. -/
namespace Onmc

namespace Json

/-- No control character. -/
def Shown (cs : List Char) : Prop := ∀ c ∈ cs, 32 ≤ c.toNat

theorem shown_append {as bs : List Char} (ha : Shown as) (hb : Shown bs) : Shown (as ++ bs) := by
  intro c hc
  rcases List.mem_append.mp hc with hc | hc
  · exact ha c hc
  · exact hb c hc

theorem shown_cons {c : Char} {cs : List Char} (hc : 32 ≤ c.toNat) (hs : Shown cs) : Shown (c :: cs) := by
  intro d hd
  rcases List.mem_cons.mp hd with rfl | hd
  · exact hc
  · exact hs d hd

theorem shown_of_all {cs : List Char} (all : cs.all (fun c => 32 ≤ c.toNat) = true) : Shown cs := by
  intro c hc
  simpa using List.all_eq_true.mp all c hc

theorem shown_digits {cs : List Char} (h : ∀ c ∈ cs, c.isDigit = true) : Shown cs := by
  intro c hc
  have digit := h c hc
  simp only [Char.isDigit, Bool.and_eq_true, decide_eq_true_eq] at digit
  have low : (48 : Nat) ≤ c.toNat := digit.1
  omega

theorem hexDigit_shown : ∀ n, n < 16 → 32 ≤ (hexDigit n).toNat := by decide

theorem escapeChar_shown (c : Char) : Shown (escapeChar c) := by
  unfold escapeChar
  split
  · exact shown_of_all (by decide)
  split
  · exact shown_of_all (by decide)
  split
  · exact shown_of_all (by decide)
  split
  · exact shown_of_all (by decide)
  split
  · exact shown_of_all (by decide)
  split
  · exact shown_of_all (by decide)
  split
  · exact shown_of_all (by decide)
  split
  · have high := hexDigit_shown (c.toNat / 16) (by omega)
    have low := hexDigit_shown (c.toNat % 16) (by omega)
    intro d hd
    simp only [List.mem_cons, List.not_mem_nil, or_false] at hd
    rcases hd with rfl | rfl | rfl | rfl | rfl | rfl
    · decide
    · decide
    · decide
    · decide
    · exact high
    · exact low
  · rename_i wide
    intro d hd
    rw [List.mem_singleton.mp hd]
    omega

theorem renderString_shown (s : String) : Shown (renderString s) := by
  refine shown_cons (by decide) (shown_append ?_ (shown_of_all (by decide)))
  intro c hc
  obtain ⟨d, _, hd⟩ := List.mem_flatMap.mp hc
  exact escapeChar_shown d c hd

theorem renderNum_shown (n : Num) : Shown (renderNum n) := by
  have sign : ∀ z : Int, Shown (signOf z) := by
    intro z
    unfold signOf
    split
    · exact shown_of_all (by decide)
    · exact shown_of_all (by decide)
  cases n with
  | int n => exact shown_append (sign n) (shown_digits (toDigits_isDigit _))
  | float d =>
    refine shown_append (sign _) (shown_append (shown_digits (toDigits_isDigit _)) (shown_cons (by decide) ?_))
    split
    · exact shown_of_all (by decide)
    · exact shown_digits (padded_isDigit _ _)
  | nan => exact shown_of_all (by decide)
  | infinity negative => cases negative <;> exact shown_of_all (by decide)

mutual
theorem render_shown : ∀ v : Json, Shown (render v)
  | .null => shown_of_all (by decide)
  | .bool true => shown_of_all (by decide)
  | .bool false => shown_of_all (by decide)
  | .num n => by simpa only [render] using renderNum_shown n
  | .str s => by simpa only [render] using renderString_shown s
  | .arr [] => shown_of_all (by decide)
  | .arr (v :: vs) => by
    rw [render]
    exact shown_cons (by decide) (shown_append (render_shown v) (renderItems_shown vs))
  | .obj [] => shown_of_all (by decide)
  | .obj ((k, v) :: fs) => by
    rw [render]
    exact shown_cons (by decide) (shown_append (renderString_shown k)
      (shown_cons (by decide) (shown_append (render_shown v) (renderFields_shown fs))))
theorem renderItems_shown : ∀ vs : List Json, Shown (renderItems vs)
  | [] => shown_of_all (by decide)
  | v :: vs => by
    rw [renderItems]
    exact shown_cons (by decide) (shown_append (render_shown v) (renderItems_shown vs))
theorem renderFields_shown : ∀ fs : List (String × Json), Shown (renderFields fs)
  | [] => shown_of_all (by decide)
  | (k, v) :: fs => by
    rw [renderFields]
    exact shown_cons (by decide) (shown_append (renderString_shown k)
      (shown_cons (by decide) (shown_append (render_shown v) (renderFields_shown fs))))
end

theorem hexOf_shown {n : Nat} (h : n < 0x10000) : Shown (hexOf n) := by
  intro d hd
  simp only [hexOf, List.mem_cons, List.not_mem_nil, or_false] at hd
  rcases hd with rfl | rfl | rfl | rfl
  all_goals exact hexDigit_shown _ (by omega)

theorem asciiChar_shown {c : Char} (hc : 32 ≤ c.toNat) : Shown (asciiChar c) := by
  have scalar : c.toNat < 0xD800 ∨ (0xDFFF < c.toNat ∧ c.toNat < 0x110000) := c.valid
  have escape {cs : List Char} (digits : Shown cs) : Shown ('\\' :: 'u' :: cs) :=
    shown_cons (by decide) (shown_cons (by decide) digits)
  unfold asciiChar
  split
  · exact shown_cons hc (shown_of_all rfl)
  split
  · exact escape (hexOf_shown (by omega))
  · exact escape (shown_append (hexOf_shown (by omega)) (escape (hexOf_shown (by omega))))

theorem dumpsAscii_shown (v : Json) : Shown (dumpsAscii v).toList := by
  simp only [dumpsAscii, String.toList_ofList]
  intro d hd
  obtain ⟨c, hc, hd⟩ := List.mem_flatMap.mp hd
  exact asciiChar_shown (render_shown v.canonical c hc) d hd

/-- The text of a dict stands between braces. -/
theorem dumpsAscii_braces (d : JsonDict) :
    ∃ cs, (dumpsAscii (JsonValue.dict d).json).toList = '{' :: (cs ++ ['}']) := by
  have closing : ∀ fields : List (String × Json), ∃ cs, (renderFields fields) = cs ++ ['}'] := by
    intro fields
    induction fields with
    | nil => exact ⟨[], rfl⟩
    | cons field fields ih =>
      obtain ⟨cs, tail⟩ := ih
      refine ⟨',' :: (renderString field.1 ++ ':' :: (render field.2 ++ cs)), ?_⟩
      simp [renderFields, tail]
  have written : ∃ cs, render (JsonValue.dict d).json = '{' :: (cs ++ ['}']) := by
    cases fields : d.items with
    | nil => exact ⟨[], by simp [JsonValue.dict, fields, render]⟩
    | cons field rest =>
      obtain ⟨cs, tail⟩ := closing (rest.map (fun item => (item.1, item.2.json)))
      refine ⟨renderString field.1 ++ ':' :: (render field.2.json ++ cs), ?_⟩
      simp [JsonValue.dict, fields, render, tail]
  obtain ⟨cs, whole⟩ := written
  refine ⟨cs.flatMap asciiChar, ?_⟩
  rw [dumpsAscii, String.toList_ofList, (JsonValue.dict d).canonical, whole]
  have first : asciiChar '{' = ['{'] := by decide
  have last : asciiChar '}' = ['}'] := by decide
  simp [List.flatMap_cons, List.flatMap_append, first, last]

end Json

namespace JsonLines

/-- A record, and the end of its line. -/
def line (d : JsonDict) : String := Json.dumpsAscii (JsonValue.dict d).json ++ "\n"

/-- `json.loads` of a line. -/
def read (text : String) : Option JsonValue := (Json.loads text).map JsonValue.load

theorem read_dumps (v : JsonValue) : read (Json.dumpsAscii v.json) = some v := by
  rw [read, Json.loads_dumpsAscii, v.canonical]
  obtain ⟨json, canonical⟩ := v
  simp [JsonValue.load, canonical]

theorem strip_dumps (d : JsonDict) :
    PyText.strip (Json.dumpsAscii (JsonValue.dict d).json) = Json.dumpsAscii (JsonValue.dict d).json := by
  obtain ⟨cs, text⟩ := Json.dumpsAscii_braces d
  have brace : PyText.isSpace '{' = false ∧ PyText.isSpace '}' = false := by decide
  have kept : PyText.stripChars ('{' :: (cs ++ ['}'])) = '{' :: (cs ++ ['}']) := by
    simp [PyText.stripChars, brace]
  rw [PyText.strip, text, kept, ← text, String.ofList_toList]

/-- The text of a file that the records have been written to, one after the other. -/
def write (records : List JsonDict) : String := String.ofList (records.flatMap (fun d => (line d).toList))

theorem write_append (records : List JsonDict) (d : JsonDict) : write (records ++ [d]) = write records ++ line d := by
  apply String.toList_injective
  simp [write]

theorem splitlines_write (records : List JsonDict) :
    Lines.splitlines (write records) = records.map (fun d => Json.dumpsAscii (JsonValue.dict d).json) := by
  have text : records.flatMap (fun d => (line d).toList) =
      (records.map (fun d => Json.dumpsAscii (JsonValue.dict d).json)).flatMap (fun line => line.toList ++ ['\n']) := by
    rw [List.flatMap_map]
    simp [line]
  rw [write, text]
  apply Lines.splitlines_feeds
  intro written member
  obtain ⟨d, -, rfl⟩ := List.mem_map.mp member
  intro c inside
  have low := Json.dumpsAscii_shown _ c inside
  have high := Json.dumpsAscii_ascii _ c inside
  simp only [Lines.isBreak, List.contains_eq_mem, List.mem_cons, List.not_mem_nil, or_false, decide_eq_false_iff_not]
  omega

end JsonLines

end Onmc

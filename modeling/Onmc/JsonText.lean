import Onmc.Json

/-! The text form: what `json.dumps(value, sort_keys=True, separators=(",", ":"),
ensure_ascii=False)` writes and what `json.loads` reads back, with Python's `NaN` and
`Infinity`. A lone surrogate escape is refused. Floats are written positionally. -/
namespace Onmc.Json

/-! Writing. -/

def hexDigit (n : Nat) : Char := if n < 10 then Char.ofNat (48 + n) else Char.ofNat (87 + n)

def escapeChar (c : Char) : List Char :=
  if c = '"' then ['\\', '"']
  else if c = '\\' then ['\\', '\\']
  else if c = '\n' then ['\\', 'n']
  else if c = '\r' then ['\\', 'r']
  else if c = '\t' then ['\\', 't']
  else if c.toNat = 8 then ['\\', 'b']
  else if c.toNat = 12 then ['\\', 'f']
  else if c.toNat < 32 then ['\\', 'u', '0', '0', hexDigit (c.toNat / 16), hexDigit (c.toNat % 16)]
  else [c]

def renderString (s : String) : List Char := '"' :: (s.toList.flatMap escapeChar ++ ['"'])

def signOf (n : Int) : List Char := if n < 0 then ['-'] else []

/-- Exactly `width` digits when `n` fits in them. -/
def padded (width n : Nat) : List Char :=
  List.replicate (width - (Nat.toDigits 10 n).length) '0' ++ Nat.toDigits 10 n

def renderNum : Num → List Char
  | .int n => signOf n ++ Nat.toDigits 10 n.natAbs
  | .float d =>
    let whole := d.coef.natAbs / 10 ^ d.scale
    let part := d.coef.natAbs % 10 ^ d.scale
    signOf d.coef ++ (Nat.toDigits 10 whole ++
      '.' :: (if d.scale = 0 then ['0'] else padded d.scale part))
  | .nan => ['N', 'a', 'N']
  | .infinity negative =>
    (if negative then ['-'] else []) ++ ['I', 'n', 'f', 'i', 'n', 'i', 't', 'y']

mutual
def render : Json → List Char
  | .null => ['n', 'u', 'l', 'l']
  | .bool true => ['t', 'r', 'u', 'e']
  | .bool false => ['f', 'a', 'l', 's', 'e']
  | .num n => renderNum n
  | .str s => renderString s
  | .arr [] => ['[', ']']
  | .arr (v :: vs) => '[' :: (render v ++ renderItems vs)
  | .obj [] => ['{', '}']
  | .obj ((k, v) :: fs) => '{' :: (renderString k ++ ':' :: (render v ++ renderFields fs))
def renderItems : List Json → List Char
  | [] => [']']
  | v :: vs => ',' :: (render v ++ renderItems vs)
def renderFields : List (String × Json) → List Char
  | [] => ['}']
  | (k, v) :: fs => ',' :: (renderString k ++ ':' :: (render v ++ renderFields fs))
end

def dumps (v : Json) : String := String.ofList (render v.canonical)

mutual
/-- No `nan` and no infinity anywhere: with `allow_nan=False` nothing else is written. -/
def finite : Json → Bool
  | .num n => n.decimal?.isSome
  | .arr items => finiteItems items
  | .obj fields => finiteFields fields
  | .null | .bool _ | .str _ => true
def finiteItems : List Json → Bool
  | [] => true
  | v :: vs => finite v && finiteItems vs
def finiteFields : List (String × Json) → Bool
  | [] => true
  | (_, v) :: fs => finite v && finiteFields fs
end

/-- Four hexadecimal digits. -/
def hexOf (n : Nat) : List Char :=
  [hexDigit (n / 4096), hexDigit (n / 256 % 16), hexDigit (n / 16 % 16), hexDigit (n % 16)]

/-- What `ensure_ascii=True` writes for a character, beyond ASCII as a surrogate pair. -/
def asciiChar (c : Char) : List Char :=
  if c.toNat < 127 then [c]
  else if c.toNat < 0x10000 then '\\' :: 'u' :: hexOf c.toNat
  else '\\' :: 'u' :: (hexOf (0xD800 + (c.toNat - 0x10000) / 0x400) ++
    '\\' :: 'u' :: hexOf (0xDC00 + (c.toNat - 0x10000) % 0x400))

/-- `json.dumps(value, sort_keys=True, separators=(",", ":"))` -/
def dumpsAscii (v : Json) : String := String.ofList ((render v.canonical).flatMap asciiChar)

/-! Reading. -/

def isBlank (c : Char) : Bool := c == ' ' || c == '\t' || c == '\n' || c == '\r'

def skipBlank (cs : List Char) : List Char := cs.dropWhile isBlank

def hexValue (c : Char) : Option Nat :=
  if '0' ≤ c ∧ c ≤ '9' then some (c.toNat - 48)
  else if 'a' ≤ c ∧ c ≤ 'f' then some (c.toNat - 87)
  else if 'A' ≤ c ∧ c ≤ 'F' then some (c.toNat - 55)
  else none

def hex4 (a b c d : Char) : Option Nat := do
  let a ← hexValue a
  let b ← hexValue b
  let c ← hexValue c
  let d ← hexValue d
  return a * 4096 + b * 256 + c * 16 + d

def unescape (c : Char) : Option Char :=
  if c = '"' ∨ c = '\\' ∨ c = '/' then some c
  else if c = 'n' then some '\n'
  else if c = 'r' then some '\r'
  else if c = 't' then some '\t'
  else if c = 'b' then some (Char.ofNat 8)
  else if c = 'f' then some (Char.ofNat 12)
  else none

def consChar (c : Char) (p : List Char × List Char) : List Char × List Char := (c :: p.1, p.2)

/-- The rest of a string literal after its opening quote. A high surrogate escape must be
followed by the low one it pairs with. -/
def parseChars : List Char → Option (List Char × List Char)
  | [] => none
  | c :: cs =>
    if c = '"' then some ([], cs)
    else if c = '\\' then
      match cs with
      | 'u' :: x :: y :: z :: w :: rest =>
        match hex4 x y z w with
        | none => none
        | some n =>
          if 0xD800 ≤ n ∧ n < 0xDC00 then
            match rest with
            | '\\' :: 'u' :: x :: y :: z :: w :: rest =>
              match hex4 x y z w with
              | none => none
              | some m =>
                if 0xDC00 ≤ m ∧ m < 0xE000 then
                  (parseChars rest).map
                    (consChar (Char.ofNat (0x10000 + (n - 0xD800) * 0x400 + (m - 0xDC00))))
                else none
            | _ => none
          else if 0xDC00 ≤ n ∧ n < 0xE000 then none
          else (parseChars rest).map (consChar (Char.ofNat n))
      | e :: rest =>
        match unescape e with
        | none => none
        | some e => (parseChars rest).map (consChar e)
      | [] => none
    else if c.toNat < 32 then none
    else (parseChars cs).map (consChar c)

def digitsOf (cs : List Char) : List Char × List Char :=
  (cs.takeWhile Char.isDigit, cs.dropWhile Char.isDigit)

/-- The optional exponent of a float whose digits are already read. -/
def parseExponent (coef : Int) (scale : Nat) : List Char → Option (Num × List Char)
  | c :: cs =>
    if c = 'e' ∨ c = 'E' then
      let (negative, cs) : Bool × List Char := match cs with
        | '-' :: cs => (true, cs)
        | '+' :: cs => (false, cs)
        | cs => (false, cs)
      match digitsOf cs with
      | ([], _) => none
      | (ds, rest) =>
        let e := Nat.ofDigitChars 10 ds 0
        some (.float (if negative then .normalize coef (scale + e)
                      else .normalize (coef * 10 ^ e) scale), rest)
    else some (.float (.normalize coef scale), c :: cs)
  | [] => some (.float (.normalize coef scale), [])

def parseUnsigned (sign : Int) (cs : List Char) : Option (Num × List Char) :=
  match digitsOf cs with
  | ([], _) => none
  | (ds, rest) =>
    if ds.head? = some '0' ∧ 1 < ds.length then none
    else match rest with
      | '.' :: more =>
        match digitsOf more with
        | ([], _) => none
        | (fs, rest) => parseExponent (sign * Nat.ofDigitChars 10 (ds ++ fs) 0) fs.length rest
      | c :: more =>
        if c = 'e' ∨ c = 'E' then parseExponent (sign * Nat.ofDigitChars 10 ds 0) 0 (c :: more)
        else some (.int (sign * Nat.ofDigitChars 10 ds 0), c :: more)
      | [] => some (.int (sign * Nat.ofDigitChars 10 ds 0), [])

def parseNum : List Char → Option (Num × List Char)
  | 'N' :: 'a' :: 'N' :: rest => some (.nan, rest)
  | 'I' :: 'n' :: 'f' :: 'i' :: 'n' :: 'i' :: 't' :: 'y' :: rest => some (.infinity false, rest)
  | '-' :: 'I' :: 'n' :: 'f' :: 'i' :: 'n' :: 'i' :: 't' :: 'y' :: rest =>
    some (.infinity true, rest)
  | '-' :: cs => parseUnsigned (-1) cs
  | cs => parseUnsigned 1 cs

/-- A dict built from its items: a repeated key keeps the last value. -/
def dictOf (members : List (String × Json)) : Json :=
  .obj (members.foldl (fun fs f => insertField f.1 f.2 fs) [])

mutual
def parseValue : Nat → List Char → Option (Json × List Char)
  | 0, _ => none
  | n + 1, cs =>
    match skipBlank cs with
    | '"' :: cs => (parseChars cs).map (fun p => (.str (String.ofList p.1), p.2))
    | '[' :: cs =>
      match skipBlank cs with
      | ']' :: rest => some (.arr [], rest)
      | cs => (parseItems n cs).map (fun p => (.arr p.1, p.2))
    | '{' :: cs =>
      match skipBlank cs with
      | '}' :: rest => some (.obj [], rest)
      | cs => (parseFields n cs).map (fun p => (dictOf p.1, p.2))
    | 'n' :: 'u' :: 'l' :: 'l' :: rest => some (.null, rest)
    | 't' :: 'r' :: 'u' :: 'e' :: rest => some (.bool true, rest)
    | 'f' :: 'a' :: 'l' :: 's' :: 'e' :: rest => some (.bool false, rest)
    | cs => (parseNum cs).map (fun p => (.num p.1, p.2))
def parseItems : Nat → List Char → Option (List Json × List Char)
  | 0, _ => none
  | n + 1, cs =>
    match parseValue n cs with
    | none => none
    | some (v, rest) =>
      match skipBlank rest with
      | ']' :: rest => some ([v], rest)
      | ',' :: rest => (parseItems n rest).map (fun p => (v :: p.1, p.2))
      | _ => none
def parseFields : Nat → List Char → Option (List (String × Json) × List Char)
  | 0, _ => none
  | n + 1, cs =>
    match skipBlank cs with
    | '"' :: cs =>
      match parseChars cs with
      | none => none
      | some (k, rest) =>
        match skipBlank rest with
        | ':' :: rest =>
          match parseValue n rest with
          | none => none
          | some (v, rest) =>
            match skipBlank rest with
            | '}' :: rest => some ([(String.ofList k, v)], rest)
            | ',' :: rest => (parseFields n rest).map (fun p => ((String.ofList k, v) :: p.1, p.2))
            | _ => none
        | _ => none
    | _ => none
end

def loads (text : String) : Option Json :=
  match parseValue (text.toList.length + 1) text.toList with
  | none => none
  | some (v, rest) => if (skipBlank rest).isEmpty then some v else none

/-- `v == w` -/
def same (v w : Json) : Bool := dumps v.numeric = dumps w.numeric

/-! Strings. -/

theorem hexDigit_value : ∀ n, n < 16 → hexValue (hexDigit n) = some n := by decide

/-- Each written character reads back as itself. -/
theorem parseChars_escapeChar (c : Char) (rest : List Char) :
    parseChars (escapeChar c ++ rest) = (parseChars rest).map (consChar c) := by
  unfold escapeChar
  split
  · subst c; simp [parseChars, unescape]
  split
  · subst c; simp [parseChars, unescape]
  split
  · subst c; simp [parseChars, unescape]
  split
  · subst c; simp [parseChars, unescape]
  split
  · subst c; simp [parseChars, unescape]
  split
  · rename_i h
    have hc : c = Char.ofNat 8 := by rw [← h, Char.ofNat_toNat]
    subst hc; simp [parseChars, unescape]
  split
  · rename_i h
    have hc : c = Char.ofNat 12 := by rw [← h, Char.ofNat_toNat]
    subst hc; simp [parseChars, unescape]
  split
  · rename_i h
    have high := hexDigit_value (c.toNat / 16) (by omega)
    have low := hexDigit_value (c.toNat % 16) (by omega)
    have zero : hexValue '0' = some 0 := by decide
    have code : hex4 '0' '0' (hexDigit (c.toNat / 16)) (hexDigit (c.toNat % 16)) = some c.toNat := by
      simp only [hex4, zero, high, low, Option.bind_eq_bind, Option.bind_some, Option.pure_def,
        Option.some.injEq]
      omega
    have plain : ¬ (0xD800 ≤ c.toNat ∧ c.toNat < 0xDC00) := by omega
    have plain' : ¬ (0xDC00 ≤ c.toNat ∧ c.toNat < 0xE000) := by omega
    simp only [List.cons_append, List.nil_append, parseChars, code, if_neg plain, if_neg plain',
      Char.ofNat_toNat]
    simp
  · rename_i hq hb _ _ _ _ _ h
    rw [List.singleton_append, parseChars.eq_def]
    simp only [if_neg hq, if_neg hb, if_neg h]

/-! Numbers. -/

/-- What may follow a number: nothing that would extend it. -/
def EndsNumber (rest : List Char) : Prop :=
  ∀ c ∈ rest.head?, c.isDigit = false ∧ c ≠ '.' ∧ c ≠ 'e' ∧ c ≠ 'E'

theorem digitsOf_append {ds rest : List Char} (hd : ∀ c ∈ ds, c.isDigit = true)
    (hr : ∀ c ∈ rest.head?, c.isDigit = false) : digitsOf (ds ++ rest) = (ds, rest) := by
  unfold digitsOf
  rw [List.takeWhile_append_of_pos hd, List.dropWhile_append_of_pos hd]
  cases rest with
  | nil => simp
  | cons c rest =>
    have h := hr c rfl
    simp [h]

theorem toDigits_isDigit (n : Nat) : ∀ c ∈ Nat.toDigits 10 n, c.isDigit = true :=
  fun _ h => Nat.isDigit_of_mem_toDigits (by decide) (by decide) h

theorem toDigits_head (n : Nat) (h : 1 < (Nat.toDigits 10 n).length) :
    (Nat.toDigits 10 n).head? ≠ some '0' := by
  induction n using Nat.strongRecOn with
  | ind n ih =>
    by_cases small : n < 10
    · rw [Nat.toDigits_of_lt_base small] at h
      simp at h
    · rw [Nat.toDigits_of_base_le (by decide) (by omega)]
      by_cases next : n / 10 < 10
      · rw [Nat.toDigits_of_lt_base next]
        have digits : ∀ m, m < 10 → 0 < m → Nat.digitChar m ≠ '0' := by decide
        simpa using digits (n / 10) next (by omega)
      · have tall : 1 < (Nat.toDigits 10 (n / 10)).length := by
          rw [Nat.toDigits_of_base_le (by decide) (by omega)]
          have := @Nat.length_toDigits_pos 10 (n / 10 / 10)
          simp only [List.length_append, List.length_singleton]
          omega
        have hne := ih (n / 10) (by omega) tall
        have := @Nat.toDigits_ne_nil (n / 10) 10
        rwa [List.head?_append_of_ne_nil _ this]

theorem padded_isDigit (w n : Nat) : ∀ c ∈ padded w n, c.isDigit = true := by
  intro c hc
  rcases List.mem_append.mp hc with hc | hc
  · rw [List.eq_of_mem_replicate hc]; decide
  · exact toDigits_isDigit n c hc

theorem padded_length {w n : Nat} (hw : 0 < w) (h : n < 10 ^ w) : (padded w n).length = w := by
  have := (Nat.length_toDigits_le_iff (b := 10) (by decide) hw).mpr h
  simp only [padded, List.length_append, List.length_replicate]
  omega

theorem ofDigitChars_padded (w n : Nat) : Nat.ofDigitChars 10 (padded w n) 0 = n := by
  simp only [padded, Nat.ofDigitChars_append, Nat.ofDigitChars_replicate_zero, Nat.mul_zero,
    Nat.ofDigitChars_ten_toDigits]

theorem parseExponent_ends {rest : List Char} (h : EndsNumber rest) (c : Int) (k : Nat) :
    parseExponent c k rest = some (.float (.normalize c k), rest) := by
  cases rest with
  | nil => rfl
  | cons x rest =>
    have hx := h x rfl
    have plain : ¬ (x = 'e' ∨ x = 'E') := by
      rintro (he | he)
      · exact hx.2.2.1 he
      · exact hx.2.2.2 he
    simp only [parseExponent, if_neg plain]

theorem parseUnsigned_int (sign : Int) (n : Nat) {rest : List Char} (h : EndsNumber rest) :
    parseUnsigned sign (Nat.toDigits 10 n ++ rest) = some (.int (sign * n), rest) := by
  have span := digitsOf_append (toDigits_isDigit n) (fun c hc => (h c hc).1)
  have lead : ¬ ((Nat.toDigits 10 n).head? = some '0' ∧ 1 < (Nat.toDigits 10 n).length) :=
    fun hh => toDigits_head n hh.2 hh.1
  unfold parseUnsigned
  rw [span]
  split
  · rename_i he
    exact absurd (congrArg Prod.fst he) Nat.toDigits_ne_nil
  · rename_i he
    cases he
    rw [if_neg lead, Nat.ofDigitChars_ten_toDigits]
    cases rest with
    | nil => rfl
    | cons x rest =>
      have hx := h x rfl
      have plain : ¬ (x = 'e' ∨ x = 'E') := by
        rintro (he | he)
        · exact hx.2.2.1 he
        · exact hx.2.2.2 he
      split
      · rename_i heq
        exact absurd (List.cons.inj heq).1 hx.2.1
      · rename_i heq
        cases heq
        rw [if_neg plain]
      · contradiction

theorem parseUnsigned_float (sign : Int) (n : Nat) {fs rest : List Char}
    (hf : ∀ c ∈ fs, c.isDigit = true) (ne : fs ≠ []) (h : EndsNumber rest) :
    parseUnsigned sign (Nat.toDigits 10 n ++ '.' :: (fs ++ rest)) =
      some (.float (.normalize (sign * Nat.ofDigitChars 10 fs n) fs.length), rest) := by
  have span : digitsOf (Nat.toDigits 10 n ++ '.' :: (fs ++ rest)) =
      (Nat.toDigits 10 n, '.' :: (fs ++ rest)) :=
    digitsOf_append (toDigits_isDigit n) (by simp)
  have lead : ¬ ((Nat.toDigits 10 n).head? = some '0' ∧ 1 < (Nat.toDigits 10 n).length) :=
    fun hh => toDigits_head n hh.2 hh.1
  have part := digitsOf_append hf (fun c hc => (h c hc).1)
  unfold parseUnsigned
  rw [span]
  split
  · rename_i he
    exact absurd (congrArg Prod.fst he) Nat.toDigits_ne_nil
  · rename_i he
    cases he
    rw [if_neg lead]
    simp only [part, Nat.ofDigitChars_append, Nat.ofDigitChars_ten_toDigits]
    exact parseExponent_ends h _ _

theorem parseNum_signed (n : Int) {c : Char} (cs : List Char) (hd : c.isDigit = true) :
    parseNum (signOf n ++ c :: cs) = parseUnsigned (if n < 0 then -1 else 1) (c :: cs) := by
  have hm : c ≠ '-' ∧ c ≠ 'N' ∧ c ≠ 'I' := by
    refine ⟨?_, ?_, ?_⟩
    all_goals
      rintro rfl
      revert hd
      decide
  unfold signOf
  split
  · simp only [List.cons_append, List.nil_append]
    unfold parseNum
    split
    all_goals simp_all
  · simp only [List.nil_append]
    unfold parseNum
    split
    all_goals simp_all

theorem toDigits_append_head (n : Nat) (cs : List Char) :
    ∃ c rest, Nat.toDigits 10 n ++ cs = c :: rest ∧ c.isDigit = true := by
  cases hd : Nat.toDigits 10 n with
  | nil => exact absurd hd Nat.toDigits_ne_nil
  | cons x xs => exact ⟨x, xs ++ cs, rfl, toDigits_isDigit n x (hd ▸ List.mem_cons_self)⟩

theorem sign_mul_natAbs (n : Int) : (if n < 0 then -1 else 1) * (n.natAbs : Int) = n := by
  split <;> omega

theorem parseNum_renderNum (n : Num) {rest : List Char} (h : EndsNumber rest) :
    parseNum (renderNum n ++ rest) = some (n, rest) := by
  cases n with
  | int n =>
    simp only [renderNum, List.append_assoc]
    obtain ⟨c, cs, hc, hd⟩ := toDigits_append_head n.natAbs rest
    rw [hc, parseNum_signed n cs hd, ← hc, parseUnsigned_int _ _ h, sign_mul_natAbs]
  | float d =>
    simp only [renderNum, List.append_assoc, List.cons_append]
    obtain ⟨c, cs, hc, hd⟩ := toDigits_append_head (d.coef.natAbs / 10 ^ d.scale)
      ('.' :: ((if d.scale = 0 then ['0'] else padded d.scale (d.coef.natAbs % 10 ^ d.scale)) ++ rest))
    rw [hc, parseNum_signed d.coef cs hd, ← hc]
    by_cases hk : d.scale = 0
    · rw [if_pos hk, parseUnsigned_float _ _ (by simp) (by simp) h]
      have whole : d.coef.natAbs / 10 ^ d.scale = d.coef.natAbs := by simp [hk]
      have digits : Nat.ofDigitChars 10 ['0'] d.coef.natAbs = d.coef.natAbs * 10 := by
        simp [Nat.ofDigitChars, Nat.mul_comm]
      have signed : (if d.coef < 0 then -1 else 1) * ((d.coef.natAbs * 10 : Nat) : Int) =
          d.coef * 10 := by
        rw [Int.natCast_mul, ← Int.mul_assoc, sign_mul_natAbs]
        rfl
      rw [whole, digits, signed]
      have back : Decimal.normalize (d.coef * 10) 1 = d := by
        rw [Decimal.normalize_zero_digit, ← hk, Decimal.normalize_self]
      simp [back]
    · rw [if_neg hk]
      have pos : 0 < 10 ^ d.scale := Nat.pow_pos (by decide)
      have small : d.coef.natAbs % 10 ^ d.scale < 10 ^ d.scale := Nat.mod_lt _ pos
      have len := padded_length (Nat.pos_of_ne_zero hk) small
      have ne : padded d.scale (d.coef.natAbs % 10 ^ d.scale) ≠ [] := by
        intro e
        rw [e] at len
        exact hk len.symm
      rw [parseUnsigned_float _ _ (padded_isDigit _ _) ne h, len]
      have digits : Nat.ofDigitChars 10 (padded d.scale (d.coef.natAbs % 10 ^ d.scale))
          (d.coef.natAbs / 10 ^ d.scale) = d.coef.natAbs := by
        rw [Nat.ofDigitChars_eq_ofDigitChars_zero, len, ofDigitChars_padded]
        exact Nat.div_add_mod _ _
      rw [digits, sign_mul_natAbs, Decimal.normalize_self]
  | nan => simp [renderNum, parseNum]
  | infinity negative => cases negative <;> simp [renderNum, parseNum]

/-! Values. The induction is on the value; the fuel only has to cover the text written. -/

theorem dict_increasing (fs : List (String × Json)) (acc : List (String × Json))
    (h : Increasing (acc ++ fs)) :
    fs.foldl (fun fs f => insertField f.1 f.2 fs) acc = acc ++ fs := by
  induction fs generalizing acc with
  | nil => simp
  | cons f fs ih =>
    have last : insertField f.1 f.2 acc = acc ++ [f] := by
      have below : ∀ g ∈ acc, g.1 < f.1 := by
        intro g hg
        exact (List.pairwise_append.mp h).2.2 g hg f List.mem_cons_self
      clear ih h
      induction acc with
      | nil => rfl
      | cons g acc ih =>
        have hg := below g List.mem_cons_self
        have tail := ih (fun x hx => below x (List.mem_cons_of_mem _ hx))
        simp only [insertField, if_neg (lt_asymm hg), if_neg (ne_of_gt hg), tail, List.cons_append]
    have shape : acc ++ f :: fs = (acc ++ [f]) ++ fs := by simp
    rw [List.foldl_cons, last, ih _ (shape ▸ h), shape]

theorem dictOf_increasing {fs : List (String × Json)} (h : Increasing fs) : dictOf fs = .obj fs := by
  have := dict_increasing fs [] h
  simp only [dictOf, this, List.nil_append]

/-- The first character of a written value starts neither blank space nor a closing bracket. -/
def Opens (cs : List Char) : Prop :=
  ∃ c rest, cs = c :: rest ∧ isBlank c = false ∧ c ≠ ']' ∧ c ≠ '}'

theorem digit_facts {c : Char} (h : c.isDigit = true) :
    isBlank c = false ∧ c ≠ ']' ∧ c ≠ '}' ∧ c ≠ '"' ∧ c ≠ '[' ∧ c ≠ '{' ∧ c ≠ 'n' ∧ c ≠ 't' ∧ c ≠ 'f' := by
  refine ⟨?_, ?_, ?_, ?_, ?_, ?_, ?_, ?_, ?_⟩
  · cases hb : isBlank c with
    | false => rfl
    | true =>
      simp only [isBlank, Bool.or_eq_true, beq_iff_eq] at hb
      rcases hb with ((rfl | rfl) | rfl) | rfl <;> revert h <;> decide
  all_goals
    rintro rfl
    revert h
    decide

theorem renderNum_head (n : Num) (rest : List Char) :
    ∃ c cs, renderNum n ++ rest = c :: cs ∧ (c = '-' ∨ c = 'N' ∨ c = 'I' ∨ c.isDigit = true) := by
  have digits : ∀ (z : Int) (k : Nat) (tail : List Char),
      ∃ c cs, signOf z ++ (Nat.toDigits 10 k ++ tail) = c :: cs ∧
        (c = '-' ∨ c = 'N' ∨ c = 'I' ∨ c.isDigit = true) := by
    intro z k tail
    unfold signOf
    split
    · exact ⟨'-', _, rfl, .inl rfl⟩
    · cases hd : Nat.toDigits 10 k with
      | nil => exact absurd hd Nat.toDigits_ne_nil
      | cons x xs =>
        exact ⟨x, xs ++ tail, rfl, .inr (.inr (.inr (toDigits_isDigit k x (hd ▸ List.mem_cons_self))))⟩
  cases n with
  | int n => simpa only [renderNum, List.append_assoc] using digits n n.natAbs rest
  | float d =>
    simpa only [renderNum, List.append_assoc, List.cons_append] using digits d.coef _ _
  | nan => exact ⟨'N', _, rfl, .inr (.inl rfl)⟩
  | infinity negative => cases negative <;> exact ⟨_, _, rfl, by decide⟩

/-! Writing with any way to write a character inside a string. -/

def quoted (q : Char → List Char) (s : String) : List Char := '"' :: (s.toList.flatMap q ++ ['"'])

mutual
def renderWith (q : Char → List Char) : Json → List Char
  | .null => ['n', 'u', 'l', 'l']
  | .bool true => ['t', 'r', 'u', 'e']
  | .bool false => ['f', 'a', 'l', 's', 'e']
  | .num n => renderNum n
  | .str s => quoted q s
  | .arr [] => ['[', ']']
  | .arr (v :: vs) => '[' :: (renderWith q v ++ renderItemsWith q vs)
  | .obj [] => ['{', '}']
  | .obj ((k, v) :: fs) => '{' :: (quoted q k ++ ':' :: (renderWith q v ++ renderFieldsWith q fs))
def renderItemsWith (q : Char → List Char) : List Json → List Char
  | [] => [']']
  | v :: vs => ',' :: (renderWith q v ++ renderItemsWith q vs)
def renderFieldsWith (q : Char → List Char) : List (String × Json) → List Char
  | [] => ['}']
  | (k, v) :: fs => ',' :: (quoted q k ++ ':' :: (renderWith q v ++ renderFieldsWith q fs))
end

mutual
theorem renderWith_escapeChar : ∀ v : Json, renderWith escapeChar v = render v
  | .null => by simp only [renderWith, render]
  | .bool b => by cases b <;> simp only [renderWith, render]
  | .num n => by simp only [renderWith, render]
  | .str s => by simp only [renderWith, render, quoted, renderString]
  | .arr [] => by simp only [renderWith, render]
  | .arr (v :: vs) => by
    simp only [renderWith, render, renderWith_escapeChar v, renderItemsWith_escapeChar vs]
  | .obj [] => by simp only [renderWith, render]
  | .obj ((k, v) :: fs) => by
    simp only [renderWith, render, quoted, renderString, renderWith_escapeChar v,
      renderFieldsWith_escapeChar fs]
theorem renderItemsWith_escapeChar : ∀ vs : List Json, renderItemsWith escapeChar vs = renderItems vs
  | [] => by simp only [renderItemsWith, renderItems]
  | v :: vs => by
    simp only [renderItemsWith, renderItems, renderWith_escapeChar v, renderItemsWith_escapeChar vs]
theorem renderFieldsWith_escapeChar : ∀ fs : List (String × Json),
    renderFieldsWith escapeChar fs = renderFields fs
  | [] => by simp only [renderFieldsWith, renderFields]
  | (k, v) :: fs => by
    simp only [renderFieldsWith, renderFields, quoted, renderString, renderWith_escapeChar v,
      renderFieldsWith_escapeChar fs]
end

section Written

variable {q : Char → List Char}

theorem render_opens (v : Json) (rest : List Char) : Opens (renderWith q v ++ rest) := by
  cases v with
  | null => exact ⟨'n', _, rfl, by decide⟩
  | bool b => cases b <;> exact ⟨_, _, rfl, by decide⟩
  | num n =>
    obtain ⟨c, cs, hc, hs⟩ := renderNum_head n rest
    refine ⟨c, cs, by simpa only [renderWith] using hc, ?_⟩
    rcases hs with rfl | rfl | rfl | hd
    · decide
    · decide
    · decide
    · have f := digit_facts hd
      exact ⟨f.1, f.2.1, f.2.2.1⟩
  | str s => exact ⟨'"', _, rfl, by decide⟩
  | arr vs => cases vs <;> exact ⟨'[', _, rfl, by decide⟩
  | obj fs =>
    cases fs with
    | nil => exact ⟨'{', _, rfl, by decide⟩
    | cons f fs => exact ⟨'{', _, rfl, by decide⟩

theorem skipBlank_cons {c : Char} (h : isBlank c = false) (cs : List Char) :
    skipBlank (c :: cs) = c :: cs := by
  simp [skipBlank, h]

theorem skipBlank_opens {cs : List Char} (h : Opens cs) : skipBlank cs = cs := by
  obtain ⟨c, rest, rfl, hb, _⟩ := h
  exact skipBlank_cons hb rest

theorem endsNumber_cons {c : Char} (h : c.isDigit = false ∧ c ≠ '.' ∧ c ≠ 'e' ∧ c ≠ 'E')
    (cs : List Char) : EndsNumber (c :: cs) := by
  intro d hd
  have : c = d := by simpa using hd
  exact this ▸ h

theorem renderItems_ends (vs : List Json) (rest : List Char) : EndsNumber (renderItemsWith q vs ++ rest) := by
  cases vs <;> exact endsNumber_cons (by decide) _

theorem renderFields_ends (fs : List (String × Json)) (rest : List Char) :
    EndsNumber (renderFieldsWith q fs ++ rest) := by
  cases fs with
  | nil => exact endsNumber_cons (by decide) _
  | cons f fs => exact endsNumber_cons (by decide) _

/-- A way to write characters that reads back. -/
def ReadsBack (q : Char → List Char) : Prop :=
  ∀ c rest, parseChars (q c ++ rest) = (parseChars rest).map (consChar c)

theorem parseKey (hq : ReadsBack q) (k : String) (rest : List Char) :
    parseChars (k.toList.flatMap q ++ ('"' :: rest)) = some (k.toList, rest) := by
  induction k.toList with
  | nil =>
    rw [List.flatMap_nil, List.nil_append, parseChars.eq_def]
    simp only [if_pos]
  | cons c s ih =>
    simp only [List.flatMap_cons, List.append_assoc]
    rw [hq, ih]
    rfl

/-- A value that sorting leaves alone, with all its parts. -/
def Sorted (v : Json) : Prop := v.canonical = v

theorem sorted_items {v : Json} {vs : List Json} (h : canonicalItems (v :: vs) = v :: vs) :
    Sorted v ∧ canonicalItems vs = vs := by
  simp only [canonicalItems, List.cons.injEq] at h
  exact h

theorem sorted_fields {fs : List (String × Json)} (h : canonicalFields fs = fs) :
    Increasing fs ∧ ∀ f ∈ fs, Sorted f.2 :=
  ⟨h ▸ increasing_canonicalFields fs, fun f hf => values_canonical fs f (h.symm ▸ hf)⟩

mutual
theorem parseValue_render (hq : ReadsBack q) : ∀ (v : Json) (n : Nat) (rest : List Char), Sorted v →
    EndsNumber rest → (renderWith q v).length ≤ n → parseValue n (renderWith q v ++ rest) = some (v, rest)
  | .null, n, rest, _, _, hn => by
    cases n with
    | zero => simp [renderWith] at hn
    | succ n => simp [renderWith, parseValue, skipBlank, isBlank]
  | .bool b, n, rest, _, _, hn => by
    cases n with
    | zero => cases b <;> simp [renderWith] at hn
    | succ n => cases b <;> simp [renderWith, parseValue, skipBlank, isBlank]
  | .num x, n, rest, _, hr, hn => by
    obtain ⟨c, cs, hc, hs⟩ := renderNum_head x rest
    obtain ⟨d, ds, hd, _⟩ := renderNum_head x []
    cases n with
    | zero =>
      simp only [renderWith, Nat.le_zero, List.length_eq_zero_iff] at hn
      simp [hn] at hd
    | succ n =>
      have parsed := parseNum_renderNum x hr
      rw [hc] at parsed
      have blank : skipBlank (renderWith q (.num x) ++ rest) = _ := skipBlank_opens (render_opens _ rest)
      simp only [renderWith, hc] at blank ⊢
      rw [parseValue, blank]
      rcases hs with rfl | rfl | rfl | hdig
      · simp [parsed]
      · simp [parsed]
      · simp [parsed]
      · have f := digit_facts hdig
        split
        all_goals first
          | (rename_i heq; cases heq; simp at f)
          | simp [parsed]
  | .str s, n, rest, _, _, hn => by
    cases n with
    | zero => simp [renderWith, quoted] at hn
    | succ n =>
      have blank : skipBlank (renderWith q (.str s) ++ rest) = _ := skipBlank_opens (render_opens _ rest)
      rw [parseValue, blank]
      simp only [renderWith, quoted, List.cons_append, List.append_assoc, List.nil_append,
        parseKey hq, Option.map_some, String.ofList_toList]
  | .arr [], n, rest, _, _, hn => by
    cases n with
    | zero => simp [renderWith] at hn
    | succ n => simp [renderWith, parseValue, skipBlank, isBlank]
  | .arr (v :: vs), n, rest, hs, _, hn => by
    have hs' : canonicalItems (v :: vs) = v :: vs := by
      have := hs
      rw [Sorted, canonical_arr] at this
      exact Json.arr.inj this
    cases n with
    | zero => simp [renderWith] at hn
    | succ n =>
      have items := parseItems_render hq v vs n rest hs' (by
        simp only [renderWith, List.length_cons, List.length_append] at hn ⊢
        omega)
      have opens : Opens (renderWith q v ++ (renderItemsWith q vs ++ rest)) := render_opens v _
      have blank := skipBlank_opens opens
      obtain ⟨c, cs, hc, _, hcb, _⟩ := opens
      rw [parseValue]
      simp only [renderWith, List.cons_append, List.append_assoc,
        skipBlank_cons (show isBlank '[' = false from by decide), blank]
      simp only [hc] at items ⊢
      split
      · rename_i heq
        exact absurd (List.cons.inj heq).1 hcb
      · rw [items]
        rfl
  | .obj [], n, rest, _, _, hn => by
    cases n with
    | zero => simp [renderWith] at hn
    | succ n => simp [renderWith, parseValue, skipBlank, isBlank]
  | .obj ((k, v) :: fs), n, rest, hs, _, hn => by
    have hs' : canonicalFields ((k, v) :: fs) = (k, v) :: fs := by
      have := hs
      rw [Sorted, canonical_obj] at this
      exact Json.obj.inj this
    obtain ⟨incr, vals⟩ := sorted_fields hs'
    cases n with
    | zero => simp [renderWith] at hn
    | succ n =>
      have fields := parseFields_render hq k v fs n rest (vals _ List.mem_cons_self)
        (fun f hf => vals f (List.mem_cons_of_mem _ hf)) (by
          simp only [renderWith, quoted, List.length_cons, List.length_append] at hn ⊢
          omega)
      rw [parseValue]
      simp only [renderWith, quoted, List.cons_append, List.append_assoc,
        skipBlank_cons (show isBlank '{' = false from by decide),
        skipBlank_cons (show isBlank '"' = false from by decide)] at fields ⊢
      split
      · rename_i heq
        exact absurd (List.cons.inj heq).1 (by decide)
      · rw [fields]
        simp only [Option.map_some, dictOf_increasing incr]
termination_by _ n => n
theorem parseItems_render (hq : ReadsBack q) : ∀ (v : Json) (vs : List Json) (n : Nat) (rest : List Char),
    canonicalItems (v :: vs) = v :: vs → (renderWith q v ++ renderItemsWith q vs).length ≤ n →
    parseItems n (renderWith q v ++ (renderItemsWith q vs ++ rest)) = some (v :: vs, rest)
  | v, vs, n, rest, hs, hn => by
    obtain ⟨hv, hvs⟩ := sorted_items hs
    have size : 0 < (renderItemsWith q vs).length := by
      cases vs <;> simp only [renderItemsWith, List.length_cons] <;> omega
    cases n with
    | zero => simp only [List.length_append] at hn; omega
    | succ n =>
      have value := parseValue_render hq v n (renderItemsWith q vs ++ rest) hv (renderItems_ends vs rest) (by
        simp only [List.length_append] at hn
        omega)
      rw [parseItems, value]
      cases vs with
      | nil => simp [renderItemsWith, skipBlank, isBlank]
      | cons w ws =>
        have tail := parseItems_render hq w ws n rest hvs (by
          simp only [renderItemsWith, List.length_cons, List.length_append] at hn ⊢
          omega)
        simp only [renderItemsWith, List.cons_append, List.append_assoc,
          skipBlank_cons (show isBlank ',' = false from by decide), tail, Option.map_some]
termination_by _ _ n => n
theorem parseFields_render (hq : ReadsBack q) : ∀ (k : String) (v : Json) (fs : List (String × Json)) (n : Nat)
    (rest : List Char), Sorted v → (∀ f ∈ fs, Sorted f.2) →
    (quoted q k ++ ':' :: (renderWith q v ++ renderFieldsWith q fs)).length ≤ n →
    parseFields n (quoted q k ++ ':' :: (renderWith q v ++ (renderFieldsWith q fs ++ rest))) =
      some ((k, v) :: fs, rest)
  | k, v, fs, n, rest, hv, hfs, hn => by
    cases n with
    | zero => simp [quoted] at hn
    | succ n =>
      have value := parseValue_render hq v n (renderFieldsWith q fs ++ rest) hv (renderFields_ends fs rest) (by
        simp only [quoted, List.length_cons, List.length_append] at hn
        omega)
      rw [parseFields]
      simp only [quoted, List.cons_append, List.append_assoc, List.nil_append,
        skipBlank_cons (show isBlank '"' = false from by decide), parseKey hq,
        skipBlank_cons (show isBlank ':' = false from by decide), value, String.ofList_toList]
      cases fs with
      | nil => simp [renderFieldsWith, skipBlank, isBlank]
      | cons f fs =>
        obtain ⟨j, w⟩ := f
        have tail := parseFields_render hq j w fs n rest (hfs _ List.mem_cons_self)
          (fun g hg => hfs g (List.mem_cons_of_mem _ hg)) (by
            simp only [renderFieldsWith, quoted, List.length_cons, List.length_append] at hn ⊢
            omega)
        simp only [quoted, List.cons_append, List.append_assoc, List.nil_append] at tail
        simp only [renderFieldsWith, quoted, List.cons_append, List.append_assoc, List.nil_append,
          skipBlank_cons (show isBlank ',' = false from by decide), tail, Option.map_some]
termination_by _ _ _ n => n
end

end Written

/-- Reading back what was written gives the value with its keys sorted. -/
theorem loads_renderWith {q : Char → List Char} (hq : ReadsBack q) (v : Json) :
    loads (String.ofList (renderWith q v.canonical)) = some v.canonical := by
  have parsed := parseValue_render hq v.canonical ((renderWith q v.canonical).length + 1) []
    (canonical_canonical v) (by simp [EndsNumber]) (by omega)
  simp only [List.append_nil] at parsed
  simp only [loads, String.toList_ofList, parsed]
  rfl

theorem loads_dumps (v : Json) : loads (dumps v) = some v.canonical := by
  have read := loads_renderWith parseChars_escapeChar v
  rwa [renderWith_escapeChar] at read

/-- A closing line break does not matter. -/
theorem loads_dumps_line (v : Json) : loads (dumps v ++ "\n") = some v.canonical := by
  have ends : EndsNumber ['\n'] := by
    rintro c ⟨⟩
    decide
  have parsed := parseValue_render parseChars_escapeChar v.canonical
    ((render v.canonical).length + 2) ['\n'] (canonical_canonical v) ends
    (by rw [renderWith_escapeChar]; omega)
  have text : (dumps v ++ "\n").toList = render v.canonical ++ ['\n'] := by simp [dumps]
  rw [renderWith_escapeChar] at parsed
  simp only [loads, text, List.length_append, List.length_cons, List.length_nil, parsed]
  rfl

/-! The same with `ensure_ascii=True`. -/

def asciiQuoted (c : Char) : List Char := (escapeChar c).flatMap asciiChar

theorem flatMap_asciiChar {cs : List Char} (h : ∀ c ∈ cs, c.toNat < 127) : cs.flatMap asciiChar = cs := by
  induction cs with
  | nil => rfl
  | cons c cs ih =>
    have plain : asciiChar c = [c] := if_pos (h c List.mem_cons_self)
    rw [List.flatMap_cons, plain, ih fun d hd => h d (List.mem_cons_of_mem _ hd)]
    rfl

theorem digits_ascii {cs : List Char} (h : ∀ c ∈ cs, c.isDigit = true) : ∀ c ∈ cs, c.toNat < 127 := by
  intro c hc
  have digit := h c hc
  simp only [Char.isDigit, Bool.and_eq_true, decide_eq_true_eq] at digit
  have upper : c.val.toNat ≤ 57 := digit.2
  exact Nat.lt_of_le_of_lt upper (by decide)

/-- Checked over the list, not over all characters. -/
theorem narrow_of_all {cs : List Char} (narrow : cs.all (fun c => c.toNat < 127) = true) :
    ∀ c ∈ cs, c.toNat < 127 := by
  simpa using narrow

theorem renderNum_ascii (n : Num) : ∀ c ∈ renderNum n, c.toNat < 127 := by
  have sign (z : Int) : ∀ c ∈ signOf z, c.toNat < 127 := by
    unfold signOf
    split
    · simp
    · simp
  cases n with
  | int n =>
    intro c hc
    rcases List.mem_append.mp hc with hc | hc
    · exact sign n c hc
    · exact digits_ascii (toDigits_isDigit _) c hc
  | float d =>
    intro c hc
    rcases List.mem_append.mp hc with hc | hc
    · exact sign d.coef c hc
    rcases List.mem_append.mp hc with hc | hc
    · exact digits_ascii (toDigits_isDigit _) c hc
    rcases List.mem_cons.mp hc with rfl | hc
    · decide
    split at hc
    · cases List.mem_singleton.mp hc
      decide
    · exact digits_ascii (padded_isDigit _ _) c hc
  | nan => exact narrow_of_all rfl
  | infinity negative => cases negative <;> exact narrow_of_all rfl

theorem quoted_ascii (s : String) : (renderString s).flatMap asciiChar = quoted asciiQuoted s := by
  simp only [renderString, quoted, List.flatMap_cons, List.flatMap_append, List.flatMap_assoc]
  rfl

mutual
theorem render_ascii : ∀ v : Json, (render v).flatMap asciiChar = renderWith asciiQuoted v
  | .null => by decide
  | .bool b => by cases b <;> decide
  | .num n => by simp only [render, renderWith, flatMap_asciiChar (renderNum_ascii n)]
  | .str s => by simp only [render, renderWith, quoted_ascii]
  | .arr [] => by decide
  | .arr (v :: vs) => by
    simp only [render, renderWith, List.flatMap_cons, List.flatMap_append, render_ascii v,
      renderItems_ascii vs]
    rfl
  | .obj [] => by decide
  | .obj ((k, v) :: fs) => by
    simp only [render, renderWith, List.flatMap_cons, List.flatMap_append, quoted_ascii, render_ascii v,
      renderFields_ascii fs]
    rfl
theorem renderItems_ascii : ∀ vs : List Json,
    (renderItems vs).flatMap asciiChar = renderItemsWith asciiQuoted vs
  | [] => by decide
  | v :: vs => by
    simp only [renderItems, renderItemsWith, List.flatMap_cons, List.flatMap_append, render_ascii v,
      renderItems_ascii vs]
    rfl
theorem renderFields_ascii : ∀ fs : List (String × Json),
    (renderFields fs).flatMap asciiChar = renderFieldsWith asciiQuoted fs
  | [] => by decide
  | (k, v) :: fs => by
    simp only [renderFields, renderFieldsWith, List.flatMap_cons, List.flatMap_append, quoted_ascii,
      render_ascii v, renderFields_ascii fs]
    rfl
end

theorem hex4_hexOf {n : Nat} (h : n < 0x10000) :
    hex4 (hexDigit (n / 4096)) (hexDigit (n / 256 % 16)) (hexDigit (n / 16 % 16)) (hexDigit (n % 16)) =
      some n := by
  simp only [hex4, hexDigit_value (n / 4096) (by omega), hexDigit_value (n / 256 % 16) (by omega),
    hexDigit_value (n / 16 % 16) (by omega), hexDigit_value (n % 16) (by omega), Option.bind_eq_bind,
    Option.bind_some, Option.pure_def, Option.some.injEq]
  omega

theorem escapeChar_wide {c : Char} (h : 127 ≤ c.toNat) : escapeChar c = [c] := by
  have other {d : Char} (hd : d.toNat < 127) : c ≠ d := by
    rintro rfl
    omega
  unfold escapeChar
  rw [if_neg (other (by decide)), if_neg (other (by decide)), if_neg (other (by decide)),
    if_neg (other (by decide)), if_neg (other (by decide)), if_neg (by omega), if_neg (by omega),
    if_neg (by omega)]

theorem escapeChar_narrow {c : Char} (h : c.toNat < 127) : ∀ d ∈ escapeChar c, d.toNat < 127 := by
  have hex : ∀ n, n < 16 → (hexDigit n).toNat < 127 := by decide
  unfold escapeChar
  split
  · exact narrow_of_all rfl
  split
  · exact narrow_of_all rfl
  split
  · exact narrow_of_all rfl
  split
  · exact narrow_of_all rfl
  split
  · exact narrow_of_all rfl
  split
  · exact narrow_of_all rfl
  split
  · exact narrow_of_all rfl
  split
  · intro d hd
    simp only [List.mem_cons, List.not_mem_nil, or_false] at hd
    rcases hd with rfl | rfl | rfl | rfl | rfl | rfl
    · decide
    · decide
    · decide
    · decide
    · exact hex _ (by omega)
    · exact hex _ (by omega)
  · intro d hd
    cases List.mem_singleton.mp hd
    exact h

theorem asciiQuoted_reads : ReadsBack asciiQuoted := by
  intro c rest
  by_cases narrow : c.toNat < 127
  · rw [asciiQuoted, flatMap_asciiChar (escapeChar_narrow narrow), parseChars_escapeChar]
  · have wide : 127 ≤ c.toNat := Nat.le_of_not_lt narrow
    have scalar : c.toNat < 0xD800 ∨ (0xDFFF < c.toNat ∧ c.toNat < 0x110000) := c.valid
    have one : asciiQuoted c = asciiChar c := by
      rw [asciiQuoted, escapeChar_wide wide, List.flatMap_singleton]
    rw [one, asciiChar, if_neg narrow]
    by_cases basic : c.toNat < 0x10000
    · have high : ¬ (0xD800 ≤ c.toNat ∧ c.toNat < 0xDC00) := by omega
      have low : ¬ (0xDC00 ≤ c.toNat ∧ c.toNat < 0xE000) := by omega
      rw [if_pos basic]
      simp only [hexOf, List.cons_append, List.nil_append, parseChars, hex4_hexOf basic, if_neg high,
        if_neg low, Char.ofNat_toNat]
      simp
    · have hi : 0xD800 + (c.toNat - 0x10000) / 0x400 < 0x10000 := by omega
      have lo : 0xDC00 + (c.toNat - 0x10000) % 0x400 < 0x10000 := by omega
      have high : 0xD800 ≤ 0xD800 + (c.toNat - 0x10000) / 0x400 ∧
          0xD800 + (c.toNat - 0x10000) / 0x400 < 0xDC00 := by omega
      have low : 0xDC00 ≤ 0xDC00 + (c.toNat - 0x10000) % 0x400 ∧
          0xDC00 + (c.toNat - 0x10000) % 0x400 < 0xE000 := by omega
      have whole : 0x10000 + (0xD800 + (c.toNat - 0x10000) / 0x400 - 0xD800) * 0x400 +
          (0xDC00 + (c.toNat - 0x10000) % 0x400 - 0xDC00) = c.toNat := by omega
      rw [if_neg basic]
      simp only [hexOf, List.cons_append, List.nil_append, parseChars, hex4_hexOf hi, if_pos high,
        hex4_hexOf lo, if_pos low, whole, Char.ofNat_toNat]
      simp

theorem loads_dumpsAscii (v : Json) : loads (dumpsAscii v) = some v.canonical := by
  have read := loads_renderWith asciiQuoted_reads v
  rwa [← render_ascii] at read

theorem hexOf_ascii {n : Nat} (h : n < 0x10000) : ∀ c ∈ hexOf n, c.toNat < 127 := by
  have hex : ∀ n, n < 16 → (hexDigit n).toNat < 127 := by decide
  simp only [hexOf, List.forall_mem_cons]
  exact ⟨hex _ (by omega), hex _ (by omega), hex _ (by omega), hex _ (by omega), by simp⟩

theorem asciiChar_ascii (c : Char) : ∀ d ∈ asciiChar c, d.toNat < 127 := by
  have scalar : c.toNat < 0xD800 ∨ (0xDFFF < c.toNat ∧ c.toNat < 0x110000) := c.valid
  unfold asciiChar
  split
  · simpa
  · split
    · simp only [List.forall_mem_cons]
      exact ⟨by decide, by decide, hexOf_ascii (by omega)⟩
    · simp only [List.forall_mem_cons, List.forall_mem_append]
      exact ⟨by decide, by decide, hexOf_ascii (by omega), by decide, by decide, hexOf_ascii (by omega)⟩

theorem dumpsAscii_ascii (v : Json) : ∀ c ∈ (dumpsAscii v).toList, c.toNat < 128 := by
  intro c hc
  rw [dumpsAscii, String.toList_ofList, List.mem_flatMap] at hc
  obtain ⟨d, _, hc⟩ := hc
  exact Nat.lt_succ_of_lt (asciiChar_ascii d c hc)

theorem canonical_of_dumpsAscii_eq {v w : Json} (h : dumpsAscii v = dumpsAscii w) :
    v.canonical = w.canonical := by
  have read := congrArg loads h
  rw [loads_dumpsAscii, loads_dumpsAscii] at read
  exact Option.some.inj read

theorem dumps_canonical (v : Json) : dumps v.canonical = dumps v := by
  simp only [dumps, canonical_canonical]

/-- The text determines the value up to the order of keys. -/
theorem same_canonical (v : Json) : same v.canonical v = true := by
  simp only [same, numeric_canonical, dumps_canonical, decide_true]

theorem canonical_of_dumps_eq {v w : Json} (h : dumps v = dumps w) : v.canonical = w.canonical := by
  have := congrArg loads h
  rw [loads_dumps, loads_dumps] at this
  exact Option.some.inj this

/-! A written value stays on one line: every line break inside a string is escaped. -/

def OneLine (cs : List Char) : Prop := ∀ c ∈ cs, c ≠ '\n' ∧ c ≠ '\r'

theorem oneLine_append {as bs : List Char} (ha : OneLine as) (hb : OneLine bs) : OneLine (as ++ bs) := by
  intro c hc
  rcases List.mem_append.mp hc with hc | hc
  · exact ha c hc
  · exact hb c hc

theorem oneLine_cons {c : Char} {cs : List Char} (hc : c ≠ '\n' ∧ c ≠ '\r') (hs : OneLine cs) :
    OneLine (c :: cs) := by
  intro d hd
  rcases List.mem_cons.mp hd with rfl | hd
  · exact hc
  · exact hs d hd

theorem oneLine_digits {cs : List Char} (h : ∀ c ∈ cs, c.isDigit = true) : OneLine cs := by
  intro c hc
  have hd := h c hc
  constructor <;> rintro rfl <;> revert hd <;> decide

theorem hexDigit_line : ∀ n, n < 16 → hexDigit n ≠ '\n' ∧ hexDigit n ≠ '\r' := by decide

theorem escapeChar_oneLine (c : Char) : OneLine (escapeChar c) := by
  unfold escapeChar
  split
  · simp [OneLine]
  split
  · simp [OneLine]
  split
  · simp [OneLine]
  split
  · simp [OneLine]
  split
  · simp [OneLine]
  split
  · simp [OneLine]
  split
  · simp [OneLine]
  split
  · rename_i h
    have high := hexDigit_line (c.toNat / 16) (by omega)
    have low := hexDigit_line (c.toNat % 16) (by omega)
    simp [OneLine, high, low]
  · rename_i hn hr _ _ _ _
    intro d hd
    have : d = c := by simpa using hd
    exact this ▸ ⟨hn, hr⟩

theorem renderString_oneLine (s : String) : OneLine (renderString s) := by
  refine oneLine_cons (by decide) (oneLine_append ?_ (by simp [OneLine]))
  intro c hc
  obtain ⟨d, _, hd⟩ := List.mem_flatMap.mp hc
  exact escapeChar_oneLine d c hd

theorem renderNum_oneLine (n : Num) : OneLine (renderNum n) := by
  have sign : ∀ z : Int, OneLine (signOf z) := by
    intro z
    unfold signOf
    split <;> simp [OneLine]
  cases n with
  | int n => exact oneLine_append (sign n) (oneLine_digits (toDigits_isDigit _))
  | float d =>
    refine oneLine_append (sign _) (oneLine_append (oneLine_digits (toDigits_isDigit _)) ?_)
    refine oneLine_cons (by decide) ?_
    split
    · simp [OneLine]
    · exact oneLine_digits (padded_isDigit _ _)
  | nan => simp [renderNum, OneLine]
  | infinity negative => cases negative <;> simp [renderNum, OneLine]

mutual
theorem render_oneLine : ∀ v : Json, OneLine (render v)
  | .null => by simp [render, OneLine]
  | .bool true => by simp [render, OneLine]
  | .bool false => by simp [render, OneLine]
  | .num n => by simpa only [render] using renderNum_oneLine n
  | .str s => by simpa only [render] using renderString_oneLine s
  | .arr [] => by simp [render, OneLine]
  | .arr (v :: vs) => by
    rw [render]
    exact oneLine_cons (by decide) (oneLine_append (render_oneLine v) (renderItems_oneLine vs))
  | .obj [] => by simp [render, OneLine]
  | .obj ((k, v) :: fs) => by
    rw [render]
    exact oneLine_cons (by decide) (oneLine_append (renderString_oneLine k)
      (oneLine_cons (by decide) (oneLine_append (render_oneLine v) (renderFields_oneLine fs))))
theorem renderItems_oneLine : ∀ vs : List Json, OneLine (renderItems vs)
  | [] => by simp [renderItems, OneLine]
  | v :: vs => by
    rw [renderItems]
    exact oneLine_cons (by decide) (oneLine_append (render_oneLine v) (renderItems_oneLine vs))
theorem renderFields_oneLine : ∀ fs : List (String × Json), OneLine (renderFields fs)
  | [] => by simp [renderFields, OneLine]
  | (k, v) :: fs => by
    rw [renderFields]
    exact oneLine_cons (by decide) (oneLine_append (renderString_oneLine k)
      (oneLine_cons (by decide) (oneLine_append (render_oneLine v) (renderFields_oneLine fs))))
end

theorem dumps_oneLine (v : Json) : OneLine (dumps v).toList := by
  simpa only [dumps, String.toList_ofList] using render_oneLine v.canonical

theorem hexOf_oneLine {n : Nat} (h : n < 0x10000) : OneLine (hexOf n) := by
  intro d hd
  simp only [hexOf, List.mem_cons, List.not_mem_nil, or_false] at hd
  rcases hd with rfl | rfl | rfl | rfl
  all_goals exact hexDigit_line _ (by omega)

theorem asciiChar_oneLine {c : Char} (hc : c ≠ '\n' ∧ c ≠ '\r') : OneLine (asciiChar c) := by
  have scalar : c.toNat < 0xD800 ∨ (0xDFFF < c.toNat ∧ c.toNat < 0x110000) := c.valid
  have escape {cs : List Char} (digits : OneLine cs) : OneLine ('\\' :: 'u' :: cs) :=
    oneLine_cons (by decide) (oneLine_cons (by decide) digits)
  unfold asciiChar
  split
  · exact oneLine_cons hc (by simp [OneLine])
  split
  · exact escape (hexOf_oneLine (by omega))
  · exact escape (oneLine_append (hexOf_oneLine (by omega)) (escape (hexOf_oneLine (by omega))))

theorem dumpsAscii_oneLine (v : Json) : OneLine (dumpsAscii v).toList := by
  simp only [dumpsAscii, String.toList_ofList]
  intro d hd
  obtain ⟨c, hc, hd⟩ := List.mem_flatMap.mp hd
  exact asciiChar_oneLine (render_oneLine v.canonical c hc) d hd

theorem dumpsAscii_opens (v : Json) : Opens (dumpsAscii v).toList := by
  have opens : Opens (renderWith asciiQuoted v.canonical ++ []) := render_opens v.canonical []
  rw [List.append_nil, ← render_ascii] at opens
  rwa [dumpsAscii, String.toList_ofList]

theorem dumpsAscii_ne_nil (v : Json) : (dumpsAscii v).toList ≠ [] := by
  obtain ⟨c, cs, written, _⟩ := dumpsAscii_opens v
  rw [written]
  exact List.cons_ne_nil c cs

theorem dumps_ne_nil (v : Json) : (dumps v).toList ≠ [] := by
  have opens : Opens (renderWith escapeChar v.canonical ++ []) := render_opens v.canonical []
  obtain ⟨c, rest, h, _⟩ := opens
  rw [renderWith_escapeChar] at h
  simp only [dumps, String.toList_ofList]
  intro e
  simp [e] at h

end Onmc.Json

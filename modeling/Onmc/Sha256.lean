import Mathlib.Data.BitVec

/-! SHA-256 of a text's UTF-8 bytes, as hexadecimal digits. -/
namespace Onmc.Sha256

abbrev Word := BitVec 32

def roundConstants : List Word :=
  [0x428a2f98, 0x71374491, 0xb5c0fbcf, 0xe9b5dba5, 0x3956c25b, 0x59f111f1, 0x923f82a4, 0xab1c5ed5,
   0xd807aa98, 0x12835b01, 0x243185be, 0x550c7dc3, 0x72be5d74, 0x80deb1fe, 0x9bdc06a7, 0xc19bf174,
   0xe49b69c1, 0xefbe4786, 0x0fc19dc6, 0x240ca1cc, 0x2de92c6f, 0x4a7484aa, 0x5cb0a9dc, 0x76f988da,
   0x983e5152, 0xa831c66d, 0xb00327c8, 0xbf597fc7, 0xc6e00bf3, 0xd5a79147, 0x06ca6351, 0x14292967,
   0x27b70a85, 0x2e1b2138, 0x4d2c6dfc, 0x53380d13, 0x650a7354, 0x766a0abb, 0x81c2c92e, 0x92722c85,
   0xa2bfe8a1, 0xa81a664b, 0xc24b8b70, 0xc76c51a3, 0xd192e819, 0xd6990624, 0xf40e3585, 0x106aa070,
   0x19a4c116, 0x1e376c08, 0x2748774c, 0x34b0bcb5, 0x391c0cb3, 0x4ed8aa4a, 0x5b9cca4f, 0x682e6ff3,
   0x748f82ee, 0x78a5636f, 0x84c87814, 0x8cc70208, 0x90befffa, 0xa4506ceb, 0xbef9a3f7, 0xc67178f2]

/-- The eight working variables. -/
structure Chain where
  a : Word
  b : Word
  c : Word
  d : Word
  e : Word
  f : Word
  g : Word
  h : Word

def Chain.initial : Chain :=
  ⟨0x6a09e667, 0xbb67ae85, 0x3c6ef372, 0xa54ff53a, 0x510e527f, 0x9b05688c, 0x1f83d9ab, 0x5be0cd19⟩

def Chain.add (x y : Chain) : Chain :=
  ⟨x.a + y.a, x.b + y.b, x.c + y.c, x.d + y.d, x.e + y.e, x.f + y.f, x.g + y.g, x.h + y.h⟩

def Chain.words (x : Chain) : List Word := [x.a, x.b, x.c, x.d, x.e, x.f, x.g, x.h]

/-- One round, with its constant and its word of the message schedule. -/
def compress (s : Chain) (k w : Word) : Chain :=
  let s1 := s.e.rotateRight 6 ^^^ s.e.rotateRight 11 ^^^ s.e.rotateRight 25
  let choice := (s.e &&& s.f) ^^^ (~~~s.e &&& s.g)
  let t1 := s.h + s1 + choice + k + w
  let s0 := s.a.rotateRight 2 ^^^ s.a.rotateRight 13 ^^^ s.a.rotateRight 22
  let majority := (s.a &&& s.b) ^^^ (s.a &&& s.c) ^^^ (s.b &&& s.c)
  ⟨t1 + (s0 + majority), s.a, s.b, s.c, s.d + t1, s.e, s.f, s.g⟩

/-- `count` more words of the message schedule, the words so far in reverse. -/
def schedule : Nat → List Word → List Word
  | 0, words => words
  | count + 1, words =>
    let w15 := words.getD 14 0
    let w2 := words.getD 1 0
    let s0 := w15.rotateRight 7 ^^^ w15.rotateRight 18 ^^^ (w15 >>> 3)
    let s1 := w2.rotateRight 17 ^^^ w2.rotateRight 19 ^^^ (w2 >>> 10)
    schedule count ((words.getD 15 0 + s0 + words.getD 6 0 + s1) :: words)

def block (chain : Chain) (words : List Word) : Chain :=
  let message := (schedule 48 words.reverse).reverse
  chain.add ((roundConstants.zip message).foldl (fun s kw => compress s kw.1 kw.2) chain)

def wordsOf : List Nat → List Word
  | a :: b :: c :: d :: rest => BitVec.ofNat 32 (a * 16777216 + b * 65536 + c * 256 + d) :: wordsOf rest
  | _ => []

/-- The message, a one bit, zeros up to a whole number of blocks, and the length in bits. -/
def pad (bytes : List Nat) : List Nat :=
  let bits := 8 * bytes.length
  let zeros := (119 - bytes.length % 64) % 64
  bytes ++ 128 :: (List.replicate zeros 0 ++
    ((List.range 8).map (fun i => bits / 256 ^ (7 - i) % 256)))

def blocks : Nat → Chain → List Word → Chain
  | 0, chain, _ => chain
  | count + 1, chain, words => blocks count (block chain (words.take 16)) (words.drop 16)

def hexChar (n : Nat) : Char := if n < 10 then Char.ofNat (48 + n) else Char.ofNat (87 + n)

def hexWord (w : Word) : List Char :=
  (List.range 8).map (fun i => hexChar (w.toNat / 16 ^ (7 - i) % 16))

def sha256 (text : String) : String :=
  let padded := pad (text.toUTF8.toList.map UInt8.toNat)
  let chain := blocks (padded.length / 64) .initial (wordsOf padded)
  String.ofList (chain.words.flatMap hexWord)

example : sha256 "abc" = "ba7816bf8f01cfea414140de5dae2223b00361a396177a9cb410ff61f20015ad" := by
  decide +kernel

theorem toList_loop (bytes : ByteArray) (i : Nat) (read : List UInt8) :
    ByteArray.toList.loop bytes i read = read.reverse ++ bytes.data.toList.drop i := by
  fun_induction ByteArray.toList.loop bytes i read with
  | case1 i read more ih =>
    have inside : i < bytes.data.toList.length := by simpa using more
    rw [ih, List.drop_eq_getElem_cons inside]
    simp [ByteArray.get!, more]
  | case2 i read done =>
    rw [List.drop_of_length_le (by simpa using done), List.append_nil]

/-- The bytes of a text, by its characters: they can be computed without decoding the text. -/
theorem toUTF8_toList (text : String) : text.toUTF8.toList = text.toList.flatMap String.utf8EncodeChar := by
  have encoded : text.toUTF8 = text.toList.utf8Encode := String.utf8Encode_toList.symm
  rw [encoded, List.utf8Encode, ByteArray.toList, toList_loop]
  simp

/-- The characters of a text that is written out, without decoding it. -/
theorem toList_cons {text : String} {texts : List String} {chars rest : List Char} (written : text = String.ofList chars)
    (tail : texts.flatMap String.toList = rest) : (text :: texts).flatMap String.toList = chars ++ rest := by
  rw [List.flatMap_cons, written, String.toList_ofList, tail]

def digestOf (cs : List Char) : List Char :=
  let padded := pad ((cs.flatMap String.utf8EncodeChar).map UInt8.toNat)
  let chain := blocks (padded.length / 64) .initial (wordsOf padded)
  chain.words.flatMap hexWord

/-! The same on natural numbers, with which the kernel computes directly. -/

/-- The eight working variables. -/
structure Numbers where
  a : Nat
  b : Nat
  c : Nat
  d : Nat
  e : Nat
  f : Nat
  g : Nat
  h : Nat

def Chain.numbers (s : Chain) : Numbers :=
  ⟨s.a.toNat, s.b.toNat, s.c.toNat, s.d.toNat, s.e.toNat, s.f.toNat, s.g.toNat, s.h.toNat⟩

def plus (x y : Nat) : Nat := Nat.mod (Nat.add x y) 4294967296

def rotate (n w : Nat) : Nat :=
  Nat.lor (Nat.shiftRight w n) (Nat.mod (Nat.shiftLeft w (Nat.sub 32 n)) 4294967296)

def xor3 (x y z : Nat) : Nat := Nat.xor (Nat.xor x y) z

def compressNumbers (s : Numbers) (k w : Nat) : Numbers :=
  let s1 := xor3 (rotate 6 s.e) (rotate 11 s.e) (rotate 25 s.e)
  let choice := Nat.xor (Nat.land s.e s.f) (Nat.land (Nat.sub 4294967295 s.e) s.g)
  let t1 := plus (plus (plus (plus s.h s1) choice) k) w
  let s0 := xor3 (rotate 2 s.a) (rotate 13 s.a) (rotate 22 s.a)
  let majority := xor3 (Nat.land s.a s.b) (Nat.land s.a s.c) (Nat.land s.b s.c)
  ⟨plus t1 (plus s0 majority), s.a, s.b, s.c, plus s.d t1, s.e, s.f, s.g⟩

def scheduleNumbers : Nat → List Nat → List Nat
  | 0, words => words
  | count + 1, words =>
    let w15 := words.getD 14 0
    let w2 := words.getD 1 0
    let s0 := xor3 (rotate 7 w15) (rotate 18 w15) (Nat.shiftRight w15 3)
    let s1 := xor3 (rotate 17 w2) (rotate 19 w2) (Nat.shiftRight w2 10)
    scheduleNumbers count (plus (plus (plus (words.getD 15 0) s0) (words.getD 6 0)) s1 :: words)

def Numbers.add (x y : Numbers) : Numbers :=
  ⟨plus x.a y.a, plus x.b y.b, plus x.c y.c, plus x.d y.d, plus x.e y.e, plus x.f y.f, plus x.g y.g, plus x.h y.h⟩

def blockNumbers (chain : Numbers) (words : List Nat) : Numbers :=
  let message := (scheduleNumbers 48 words.reverse).reverse
  chain.add (((roundConstants.map BitVec.toNat).zip message).foldl (fun s kw => compressNumbers s kw.1 kw.2) chain)

def blocksNumbers : Nat → Numbers → List Nat → Numbers
  | 0, chain, _ => chain
  | count + 1, chain, words => blocksNumbers count (blockNumbers chain (words.take 16)) (words.drop 16)

theorem compress_numbers (s : Chain) (k w : Word) :
    (compress s k w).numbers = compressNumbers s.numbers k.toNat w.toNat := by
  simp only [compress, Chain.numbers, BitVec.toNat_add, BitVec.toNat_xor, BitVec.toNat_and, BitVec.toNat_not,
    BitVec.toNat_rotateRight]
  rfl

theorem getD_toNat (words : List Word) (i : Nat) : (words.map BitVec.toNat).getD i 0 = (words.getD i 0).toNat := by
  simp only [List.getD_eq_getElem?_getD, List.getElem?_map]
  cases words[i]? with
  | none => rfl
  | some w => rfl

theorem schedule_numbers (count : Nat) (words : List Word) :
    (schedule count words).map BitVec.toNat = scheduleNumbers count (words.map BitVec.toNat) := by
  induction count generalizing words with
  | zero => rfl
  | succ count ih =>
    simp only [schedule, scheduleNumbers, ih, List.map_cons, getD_toNat, BitVec.toNat_add, BitVec.toNat_xor,
      BitVec.toNat_rotateRight, BitVec.toNat_ushiftRight]
    rfl

theorem add_numbers (x y : Chain) : (x.add y).numbers = x.numbers.add y.numbers := by
  simp only [Chain.add, Chain.numbers, BitVec.toNat_add]
  rfl

theorem rounds_numbers (rounds : List (Word × Word)) (chain : Chain) :
    (rounds.foldl (fun s kw => compress s kw.1 kw.2) chain).numbers =
      (rounds.map (fun kw => (kw.1.toNat, kw.2.toNat))).foldl (fun s kw => compressNumbers s kw.1 kw.2)
        chain.numbers := by
  induction rounds generalizing chain with
  | nil => rfl
  | cons round rounds ih => rw [List.foldl_cons, ih, compress_numbers, List.map_cons, List.foldl_cons]

theorem block_numbers (chain : Chain) (words : List Word) :
    (block chain words).numbers = blockNumbers chain.numbers (words.map BitVec.toNat) := by
  have message : (schedule 48 words.reverse).reverse.map BitVec.toNat =
      (scheduleNumbers 48 (words.map BitVec.toNat).reverse).reverse := by
    rw [List.map_reverse, schedule_numbers, List.map_reverse]
  rw [block, blockNumbers, add_numbers, rounds_numbers, ← message, List.zip_map]
  rfl

theorem blocks_numbers (count : Nat) (chain : Chain) (words : List Word) :
    (blocks count chain words).numbers = blocksNumbers count chain.numbers (words.map BitVec.toNat) := by
  induction count generalizing chain words with
  | zero => rfl
  | succ count ih => rw [blocks, blocksNumbers, ih, block_numbers, List.map_take, List.map_drop]

def digestNumbers (cs : List Char) : List Char :=
  let padded := pad ((cs.flatMap String.utf8EncodeChar).map UInt8.toNat)
  let chain := blocksNumbers (padded.length / 64) Chain.initial.numbers ((wordsOf padded).map BitVec.toNat)
  [chain.a, chain.b, chain.c, chain.d, chain.e, chain.f, chain.g, chain.h].flatMap
    (fun n => (List.range 8).map (fun i => hexChar (n / 16 ^ (7 - i) % 16)))

theorem digestOf_numbers (cs : List Char) : digestOf cs = digestNumbers cs := by
  simp only [digestOf, digestNumbers, ← blocks_numbers]
  rfl

theorem sha256_chars (text : String) : sha256 text = String.ofList (digestOf text.toList) := by
  simp only [sha256, toUTF8_toList, digestOf]

/-- SHA-256 on the given texts. Any other text stands for itself, behind a mark that no digest
begins with. -/
def sha256On (texts : List String) (text : String) : String :=
  if text ∈ texts then sha256 text else "text:" ++ text

theorem hexChar_not_mark : ∀ n, n < 16 → hexChar n ≠ 't' := by decide

theorem sha256_head (text : String) : ∃ n rest, n < 16 ∧ (sha256 text).toList = hexChar n :: rest := by
  simp only [sha256, Chain.words, String.toList_ofList]
  exact ⟨_, _, Nat.mod_lt _ (by decide), rfl⟩

theorem sha256_not_marked (text other : String) : sha256 text ≠ "text:" ++ other := by
  intro same
  obtain ⟨n, rest, bound, digits⟩ := sha256_head text
  rw [same, String.toList_append] at digits
  have head : 't' = hexChar n := (List.cons.inj digits).1
  exact hexChar_not_mark n bound head.symm

theorem sha256On_injective {texts : List String}
    (apart : ∀ t ∈ texts, ∀ u ∈ texts, sha256 t = sha256 u → t = u) :
    Function.Injective (sha256On texts) := by
  intro t u same
  unfold sha256On at same
  split at same
  · rename_i ht
    split at same
    · rename_i hu
      exact apart t ht u hu same
    · exact absurd same (sha256_not_marked t u)
  · split at same
    · exact absurd same.symm (sha256_not_marked u t)
    · exact (String.append_right_inj _).mp same

end Onmc.Sha256

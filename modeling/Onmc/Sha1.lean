import Onmc.Sha256

/-! SHA-1 of a text's UTF-8 bytes, as hexadecimal digits. -/
namespace Onmc.Sha1

open Sha256 (Word)

structure Chain where
  a : Word
  b : Word
  c : Word
  d : Word
  e : Word

def Chain.initial : Chain := ⟨0x67452301, 0xefcdab89, 0x98badcfe, 0x10325476, 0xc3d2e1f0⟩

def Chain.add (x y : Chain) : Chain := ⟨x.a + y.a, x.b + y.b, x.c + y.c, x.d + y.d, x.e + y.e⟩

def Chain.words (x : Chain) : List Word := [x.a, x.b, x.c, x.d, x.e]

/-- `count` more words of the message schedule, the words so far in reverse. -/
def schedule : Nat → List Word → List Word
  | 0, words => words
  | count + 1, words =>
    schedule count
      ((words.getD 2 0 ^^^ words.getD 7 0 ^^^ words.getD 13 0 ^^^ words.getD 15 0).rotateLeft 1 :: words)

/-- The function and the constant of a round. -/
def mixing (round : Nat) (b c d : Word) : Word :=
  if round < 20 then ((b &&& c) ^^^ (~~~b &&& d)) + 0x5a827999
  else if round < 40 then (b ^^^ c ^^^ d) + 0x6ed9eba1
  else if round < 60 then ((b &&& c) ^^^ (b &&& d) ^^^ (c &&& d)) + 0x8f1bbcdc
  else (b ^^^ c ^^^ d) + 0xca62c1d6

def compress (s : Chain) (round : Nat) (w : Word) : Chain :=
  ⟨s.a.rotateLeft 5 + mixing round s.b s.c s.d + s.e + w, s.a, s.b.rotateLeft 30, s.c, s.d⟩

def block (chain : Chain) (words : List Word) : Chain :=
  let message := (schedule 64 words.reverse).reverse
  chain.add (((List.range 80).zip message).foldl (fun s rw => compress s rw.1 rw.2) chain)

def blocks : Nat → Chain → List Word → Chain
  | 0, chain, _ => chain
  | count + 1, chain, words => blocks count (block chain (words.take 16)) (words.drop 16)

def digestOf (cs : List Char) : List Char :=
  let padded := Sha256.pad ((cs.flatMap String.utf8EncodeChar).map UInt8.toNat)
  (blocks (padded.length / 64) .initial (Sha256.wordsOf padded)).words.flatMap Sha256.hexWord

def sha1 (text : String) : String := String.ofList (digestOf text.toList)

example : sha1 "abc" = "a9993e364706816aba3e25717850c26c9cd0d89d" := by decide +kernel

theorem length_hexWord (w : Word) : (Sha256.hexWord w).length = 8 := by
  simp [Sha256.hexWord]

theorem length_digestOf (cs : List Char) : (digestOf cs).length = 40 := by
  simp [digestOf, Chain.words, length_hexWord]

/-- A digest is made of hexadecimal digits. -/
theorem mem_digestOf {cs : List Char} {c : Char} (h : c ∈ digestOf cs) : ∃ n < 16, c = Sha256.hexChar n := by
  simp only [digestOf, List.mem_flatMap, Sha256.hexWord, List.mem_map] at h
  obtain ⟨word, -, i, -, rfl⟩ := h
  exact ⟨_, Nat.mod_lt _ (by decide), rfl⟩

end Onmc.Sha1

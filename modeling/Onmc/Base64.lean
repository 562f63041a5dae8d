import Mathlib.Data.List.Basic

/-! Base64 with the URL alphabet and without padding. -/
namespace Onmc.Base64

def alphabet : List Char :=
  ['A', 'B', 'C', 'D', 'E', 'F', 'G', 'H', 'I', 'J', 'K', 'L', 'M', 'N', 'O', 'P',
   'Q', 'R', 'S', 'T', 'U', 'V', 'W', 'X', 'Y', 'Z', 'a', 'b', 'c', 'd', 'e', 'f',
   'g', 'h', 'i', 'j', 'k', 'l', 'm', 'n', 'o', 'p', 'q', 'r', 's', 't', 'u', 'v',
   'w', 'x', 'y', 'z', '0', '1', '2', '3', '4', '5', '6', '7', '8', '9', '-', '_']

/-- The character of a six-bit value. -/
def charOf (n : Nat) : Char := alphabet.getD n 'A'

/-- The six-bit value of a character. -/
def valueOf (c : Char) : Option Nat := alphabet.findIdx? (· = c)

def encode : List UInt8 → List Char
  | [] => []
  | [a] => [charOf (a.toNat / 4), charOf (a.toNat % 4 * 16)]
  | [a, b] => [charOf (a.toNat / 4), charOf (a.toNat % 4 * 16 + b.toNat / 16), charOf (b.toNat % 16 * 4)]
  | a :: b :: c :: rest =>
    charOf (a.toNat / 4) :: charOf (a.toNat % 4 * 16 + b.toNat / 16) ::
      charOf (b.toNat % 16 * 4 + c.toNat / 64) :: charOf (c.toNat % 64) :: encode rest

/-- The bytes of the six-bit values. The bits past the last whole byte are dropped. -/
def bytesOf : List Nat → Option (List UInt8)
  | [] => some []
  | [_] => none
  | [p, q] => some [UInt8.ofNat (p * 4 + q / 16)]
  | [p, q, r] => some [UInt8.ofNat (p * 4 + q / 16), UInt8.ofNat (q % 16 * 16 + r / 4)]
  | p :: q :: r :: s :: rest => (bytesOf rest).map fun bytes =>
    UInt8.ofNat (p * 4 + q / 16) :: UInt8.ofNat (q % 16 * 16 + r / 4) :: UInt8.ofNat (r % 4 * 64 + s) :: bytes

/-- The bytes of a text over the alphabet. -/
def decode (text : List Char) : Option (List UInt8) := (text.mapM valueOf).bind bytesOf

theorem valueOf_charOf {n : Nat} (h : n < 64) : valueOf (charOf n) = some n := by
  have all : ∀ n, n < 64 → valueOf (charOf n) = some n := by decide +kernel
  exact all n h

theorem charOf_mem {n : Nat} (h : n < 64) : charOf n ∈ alphabet := by
  have all : ∀ n, n < 64 → charOf n ∈ alphabet := by decide +kernel
  exact all n h

theorem ofNat_toNat {a : UInt8} {n : Nat} (h : n = a.toNat) : UInt8.ofNat n = a := by
  rw [h, UInt8.ofNat_toNat]

theorem decode_encode (bytes : List UInt8) : decode (encode bytes) = some bytes := by
  induction bytes using encode.induct with
  | case1 => rfl
  | case2 a =>
    have ha : a.toNat < 256 := a.toNat_lt_size
    have p := @valueOf_charOf (a.toNat / 4) (by omega)
    have q := @valueOf_charOf (a.toNat % 4 * 16) (by omega)
    simp only [encode, decode, List.mapM_cons, List.mapM_nil, p, q, Option.bind_eq_bind, Option.bind_some,
      Option.pure_def, bytesOf]
    rw [@ofNat_toNat a _ (by omega)]
  | case3 a b =>
    have ha : a.toNat < 256 := a.toNat_lt_size
    have hb : b.toNat < 256 := b.toNat_lt_size
    have p := @valueOf_charOf (a.toNat / 4) (by omega)
    have q := @valueOf_charOf (a.toNat % 4 * 16 + b.toNat / 16) (by omega)
    have r := @valueOf_charOf (b.toNat % 16 * 4) (by omega)
    simp only [encode, decode, List.mapM_cons, List.mapM_nil, p, q, r, Option.bind_eq_bind, Option.bind_some,
      Option.pure_def, bytesOf]
    rw [@ofNat_toNat a _ (by omega), @ofNat_toNat b _ (by omega)]
  | case4 a b c rest ih =>
    have ha : a.toNat < 256 := a.toNat_lt_size
    have hb : b.toNat < 256 := b.toNat_lt_size
    have hc : c.toNat < 256 := c.toNat_lt_size
    have p := @valueOf_charOf (a.toNat / 4) (by omega)
    have q := @valueOf_charOf (a.toNat % 4 * 16 + b.toNat / 16) (by omega)
    have r := @valueOf_charOf (b.toNat % 16 * 4 + c.toNat / 64) (by omega)
    have s := @valueOf_charOf (c.toNat % 64) (by omega)
    obtain ⟨values, read, back⟩ := Option.bind_eq_some_iff.mp ih
    simp only [encode, decode, List.mapM_cons, p, q, r, s, read, Option.bind_eq_bind, Option.bind_some,
      Option.pure_def, bytesOf, back, Option.map_some]
    rw [@ofNat_toNat a _ (by omega), @ofNat_toNat b _ (by omega), @ofNat_toNat c _ (by omega)]

theorem encode_injective : Function.Injective encode := by
  intro bytes others same
  have read := decode_encode bytes
  rw [same, decode_encode] at read
  exact (Option.some.inj read).symm

theorem encode_mem (bytes : List UInt8) : ∀ c ∈ encode bytes, c ∈ alphabet := by
  induction bytes using encode.induct with
  | case1 => simp [encode]
  | case2 a =>
    have ha : a.toNat < 256 := a.toNat_lt_size
    simp only [encode, List.forall_mem_cons]
    exact ⟨charOf_mem (by omega), charOf_mem (by omega), by simp⟩
  | case3 a b =>
    have ha : a.toNat < 256 := a.toNat_lt_size
    have hb : b.toNat < 256 := b.toNat_lt_size
    simp only [encode, List.forall_mem_cons]
    exact ⟨charOf_mem (by omega), charOf_mem (by omega), charOf_mem (by omega), by simp⟩
  | case4 a b c rest ih =>
    have ha : a.toNat < 256 := a.toNat_lt_size
    have hb : b.toNat < 256 := b.toNat_lt_size
    have hc : c.toNat < 256 := c.toNat_lt_size
    simp only [encode, List.forall_mem_cons]
    exact ⟨charOf_mem (by omega), charOf_mem (by omega), charOf_mem (by omega), charOf_mem (by omega), ih⟩

theorem encode_ne_nil {bytes : List UInt8} (h : bytes ≠ []) : encode bytes ≠ [] := by
  intro empty
  exact h (encode_injective empty)

/-- Thirty-two bytes take forty-three characters. -/
theorem encode_length (bytes : List UInt8) : (encode bytes).length = (8 * bytes.length + 5) / 6 := by
  induction bytes using encode.induct with
  | case1 => rfl
  | case2 a => simp [encode]
  | case3 a b => simp [encode]
  | case4 a b c rest ih =>
    simp only [encode, List.length_cons, ih]
    omega

end Onmc.Base64

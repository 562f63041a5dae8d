import Onmc.Sha256

/-! HMAC with SHA-256, over bytes. -/
namespace Onmc.Sha256

def wordBytes (w : Word) : List UInt8 :=
  [UInt8.ofNat (w.toNat / 2 ^ 24), UInt8.ofNat (w.toNat / 2 ^ 16), UInt8.ofNat (w.toNat / 2 ^ 8),
    UInt8.ofNat w.toNat]

def digest (message : List UInt8) : List UInt8 :=
  let padded := pad (message.map UInt8.toNat)
  (blocks (padded.length / 64) .initial (wordsOf padded)).words.flatMap wordBytes

/-- The key of one block: a longer one is hashed, a shorter one is filled with zeros. -/
def blockKey (key : List UInt8) : List UInt8 :=
  let short := if 64 < key.length then digest key else key
  short ++ List.replicate (64 - short.length) 0

/-- `hmac.digest(key, message, "sha256")` -/
def hmac (key message : List UInt8) : List UInt8 :=
  let inner := digest ((blockKey key).map (· ^^^ 0x36) ++ message)
  digest ((blockKey key).map (· ^^^ 0x5c) ++ inner)

theorem digest_length (message : List UInt8) : (digest message).length = 32 := by
  simp only [digest, Chain.words, List.flatMap_cons, List.flatMap_nil, List.length_append, wordBytes,
    List.length_cons, List.length_nil]

theorem hmac_length (key message : List UInt8) : (hmac key message).length = 32 := digest_length _

/-- `digest.hex()` -/
def hexBytes (bytes : List UInt8) : String :=
  String.ofList (bytes.flatMap (fun b => [hexChar (b.toNat / 16), hexChar (b.toNat % 16)]))

theorem hexChar_ascii : ∀ n, n < 16 → (hexChar n).toNat < 128 := by decide

theorem hexBytes_ascii (bytes : List UInt8) : ∀ c ∈ (hexBytes bytes).toList, c.toNat < 128 := by
  intro c member
  rw [hexBytes, String.toList_ofList, List.mem_flatMap] at member
  obtain ⟨b, -, member⟩ := member
  have byte : b.toNat < 256 := b.toNat_lt
  rcases List.mem_cons.mp member with rfl | member
  · exact hexChar_ascii _ (by omega)
  · rw [List.mem_singleton.mp member]
    exact hexChar_ascii _ (by omega)

example : (hmac ("key".toList.map fun c => UInt8.ofNat c.toNat)
    ("The quick brown fox jumps over the lazy dog".toList.map fun c => UInt8.ofNat c.toNat)).take 4 =
    [0xf7, 0xbc, 0x83, 0xf4] := by decide +kernel

end Onmc.Sha256

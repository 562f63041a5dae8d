import Onmc.Separated
import Onmc.Sha256

/-! Digests written in hexadecimal. -/
namespace Onmc.Sha256

def hexDigits : List Char := (List.range 16).map hexChar

/-- Hexadecimal digits, and at least one of them. -/
def Hex (text : String) : Prop := text.toList ≠ [] ∧ ∀ c ∈ text.toList, c ∈ hexDigits

theorem hexWord_hex (w : Word) : ∀ c ∈ hexWord w, c ∈ hexDigits := by
  intro c member
  obtain ⟨i, -, rfl⟩ := List.mem_map.mp member
  exact List.mem_map_of_mem (List.mem_range.mpr (Nat.mod_lt _ (by decide)))

theorem sha256_hex (text : String) : Hex (sha256 text) := by
  obtain ⟨n, rest, -, written⟩ := sha256_head text
  refine ⟨by rw [written]; exact List.cons_ne_nil _ _, fun c member => ?_⟩
  simp only [sha256, String.toList_ofList, List.mem_flatMap] at member
  obtain ⟨w, -, inside⟩ := member
  exact hexWord_hex w c inside

theorem sha256_length (text : String) : (sha256 text).toList.length = 64 := by
  simp [sha256, Chain.words, hexWord]

theorem Hex.mem_ne {text : String} (hex : Hex text) {c : Char} (other : c ∉ hexDigits) : c ∉ text.toList :=
  fun member => other (hex.2 c member)

/-- Every character as so many zeros and a one. -/
def spread (cs : List Char) : List Char := cs.flatMap (fun c => List.replicate c.toNat '0' ++ ['1'])

theorem spread_cons (c : Char) (cs : List Char) :
    spread (c :: cs) = List.replicate c.toNat '0' ++ '1' :: spread cs := by
  simp [spread]

theorem spread_injective : Function.Injective spread := by
  intro cs
  induction cs with
  | nil =>
    intro ds same
    cases ds with
    | nil => rfl
    | cons d ds => rw [spread_cons] at same; exact absurd same.symm (by simp [spread])
  | cons c cs ih =>
    intro ds same
    cases ds with
    | nil => rw [spread_cons] at same; exact absurd same (by simp [spread])
    | cons d ds =>
      rw [spread_cons, spread_cons] at same
      have plain (n : Nat) : '1' ∉ List.replicate n '0' := fun member => by simpa using List.eq_of_mem_replicate member
      obtain ⟨zeros, rest⟩ := Separated.first_determined (plain _) (plain _) same
      have values : c.toNat = d.toNat := by simpa using congrArg List.length zeros
      rw [Char.toNat_inj.mp values, ih rest]

theorem spread_hex (cs : List Char) : ∀ c ∈ spread cs, c ∈ hexDigits := by
  intro c member
  obtain ⟨d, -, inside⟩ := List.mem_flatMap.mp member
  rcases List.mem_append.mp inside with zero | one
  · exact List.eq_of_mem_replicate zero ▸ by decide
  · exact List.mem_singleton.mp one ▸ by decide

/-- SHA-256 on the given texts. Any other text is spread out behind more zeros than a digest is long. -/
def hexOn (texts : List String) (text : String) : String :=
  if text ∈ texts then sha256 text else String.ofList (List.replicate 65 '0' ++ spread text.toList)

theorem hexOn_hex (texts : List String) (text : String) : Hex (hexOn texts text) := by
  unfold hexOn
  split
  · exact sha256_hex text
  · rw [Hex, String.toList_ofList]
    refine ⟨by simp, fun c member => ?_⟩
    rcases List.mem_append.mp member with zero | coded
    · exact List.eq_of_mem_replicate zero ▸ by decide
    · exact spread_hex _ c coded

theorem sha256_short (text : String) (cs : List Char) : sha256 text ≠ String.ofList (List.replicate 65 '0' ++ cs) := by
  intro same
  have lengths := congrArg (fun s => s.toList.length) same
  simp only [sha256_length, String.toList_ofList, List.length_append, List.length_replicate] at lengths
  omega

theorem hexOn_injective {texts : List String} (apart : ∀ t ∈ texts, ∀ u ∈ texts, sha256 t = sha256 u → t = u) :
    Function.Injective (hexOn texts) := by
  intro t u same
  unfold hexOn at same
  split at same
  · rename_i ht
    split at same
    · rename_i hu
      exact apart t ht u hu same
    · exact absurd same (sha256_short t _)
  · split at same
    · exact absurd same.symm (sha256_short u _)
    · exact String.toList_inj.mp (spread_injective (List.append_cancel_left (String.ofList_inj.mp same)))

end Onmc.Sha256

import Mathlib.Data.List.Induction

/-! Hash chains in general: entries at consecutive places, each naming the digest of the one
before it. The digest of the last entry determines the whole chain. -/
namespace Onmc.HashChain

variable {Body Digest : Type} (digest : Body → Digest) (place : Body → Nat) (previous : Body → Digest)

/-- A chain that begins at `index`, after the digest `before`. -/
def Linked : Nat → Digest → List Body → Prop
  | _, _, [] => True
  | index, before, b :: bs => place b = index ∧ previous b = before ∧ Linked (index + 1) (digest b) bs

/-- The digest a chain ends with. -/
def lastDigest (before : Digest) (bs : List Body) : Digest := (bs.getLast?.map digest).getD before

variable {digest place previous}

theorem lastDigest_cons (before : Digest) (b : Body) (bs : List Body) :
    lastDigest digest before (b :: bs) = lastDigest digest (digest b) bs := by
  cases bs with
  | nil => rfl
  | cons c cs => simp [lastDigest, List.getLast?_cons]

theorem getLast?_digest {bs : List Body} (more : bs ≠ []) (before : Digest) :
    bs.getLast?.map digest = some (lastDigest digest before bs) := by
  rw [lastDigest, List.getLast?_eq_some_getLast more]
  rfl

theorem linked_concat {index : Nat} {before : Digest} {bs : List Body} {b : Body} :
    Linked digest place previous index before (bs ++ [b]) ↔
      Linked digest place previous index before bs ∧ place b = index + bs.length ∧
        previous b = lastDigest digest before bs := by
  induction bs generalizing index before with
  | nil => simp [Linked, lastDigest]
  | cons c cs ih =>
    simp only [List.cons_append, Linked, ih, lastDigest_cons, List.length_cons]
    constructor
    · rintro ⟨hp, hb, tail, hplace, hprev⟩
      exact ⟨⟨hp, hb, tail⟩, by omega, hprev⟩
    · rintro ⟨⟨hp, hb, tail⟩, hplace, hprev⟩
      exact ⟨hp, hb, tail, by omega, hprev⟩

/-- Chains with one beginning and one last digest are the same chain, as far as the digest tells
their entries apart. -/
theorem determined {index : Nat} {before : Digest} {bs cs : List Body}
    (apart : ∀ b ∈ bs, ∀ c ∈ cs, digest b = digest c → b = c)
    (hbs : Linked digest place previous index before bs)
    (hcs : Linked digest place previous index before cs) (started : bs ≠ []) (started' : cs ≠ [])
    (last : bs.getLast?.map digest = cs.getLast?.map digest) : bs = cs := by
  induction bs using List.reverseRecOn generalizing cs with
  | nil => exact absurd rfl started
  | append_singleton bs b ih =>
    cases cs using List.reverseRecOn with
    | nil => exact absurd rfl started'
    | append_singleton cs c =>
      obtain ⟨tail, hplace, hprev⟩ := linked_concat.mp hbs
      obtain ⟨tail', hplace', hprev'⟩ := linked_concat.mp hcs
      simp only [List.getLast?_concat, Option.map_some, Option.some.injEq] at last
      have same : b = c := apart b (by simp) c (by simp) last
      subst same
      have length : bs.length = cs.length := by omega
      by_cases more : bs = []
      · subst more
        have empty : cs = [] := List.length_eq_zero_iff.mp length.symm
        rw [empty]
      · have more' : cs ≠ [] := by
          rintro rfl
          exact more (List.length_eq_zero_iff.mp length)
        have inner : bs.getLast?.map digest = cs.getLast?.map digest := by
          rw [getLast?_digest more before, getLast?_digest more' before, ← hprev, ← hprev']
        rw [ih (fun b hb c hc => apart b (by simp [hb]) c (by simp [hc])) tail tail' more more' inner]

/-! Chains whose links are digests of the link before them and a body. -/

section

variable {Link Key : Type} {step : Link → Body → Link} {start : Link} {Good : Link → Prop} {key : Body → Key}

theorem foldl_good (begins : Good start) (keeps : ∀ l b, Good l → Good (step l b)) (bs : List Body) :
    Good (bs.foldl step start) := by
  induction bs using List.reverseRecOn with
  | nil => exact begins
  | append_singleton bs b ih =>
    rw [List.foldl_append, List.foldl_cons, List.foldl_nil]
    exact keeps _ b ih

/-- The last link determines the bodies, as far as a link determines what it was made from and none is the start. -/
theorem foldl_determined (begins : Good start) (keeps : ∀ l b, Good l → Good (step l b))
    (fresh : ∀ l b, Good l → step l b ≠ start)
    (apart : ∀ l l' b b', Good l → Good l' → step l b = step l' b' → l = l' ∧ key b = key b') {bs cs : List Body}
    (same : bs.foldl step start = cs.foldl step start) : bs.map key = cs.map key := by
  induction bs using List.reverseRecOn generalizing cs with
  | nil =>
    cases cs using List.reverseRecOn with
    | nil => rfl
    | append_singleton cs c =>
      rw [List.foldl_append, List.foldl_cons, List.foldl_nil] at same
      exact absurd same.symm (fresh _ c (foldl_good begins keeps cs))
  | append_singleton bs b ih =>
    cases cs using List.reverseRecOn with
    | nil =>
      rw [List.foldl_append, List.foldl_cons, List.foldl_nil] at same
      exact absurd same (fresh _ b (foldl_good begins keeps bs))
    | append_singleton cs c =>
      rw [List.foldl_append, List.foldl_append, List.foldl_cons, List.foldl_cons, List.foldl_nil, List.foldl_nil] at same
      obtain ⟨links, bodies⟩ := apart _ _ b c (foldl_good begins keeps bs) (foldl_good begins keeps cs) same
      rw [List.map_append, List.map_append, ih links, List.map_singleton, List.map_singleton, bodies]

end

end Onmc.HashChain

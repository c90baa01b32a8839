import Mathlib.Data.Set.Basic
import Mathlib.Tactic.Common
import Mathlib.Tactic.Ring

/-!
# Aligned blocks of addresses

A CIDR network is a block of `2^host` consecutive addresses whose first address is a multiple of
`2^host`. Two such blocks are nested or disjoint (`subset_or_disjoint`), so a block that meets
another without lying inside it covers it. `Block.mem_ofAddr` and `subset_iff_host_le` are the two
facts through which the length of a prefix decides what a network contains.
-/

namespace ControlPlane.Cidr

/-- A block of `2^host` consecutive addresses, aligned to its size. -/
structure Block where
  /-- The first address. -/
  base : ℕ
  /-- The number of host bits. -/
  host : ℕ
  /-- The block is aligned to its size. -/
  aligned : 2^host ∣ base
  deriving DecidableEq

namespace Block

/-- The last address of the block. -/
def last (b : Block) : ℕ := b.base + (2^b.host - 1)

/-- The addresses of the block. -/
def addresses (b : Block) : Set ℕ := {a | b.base ≤ a ∧ a ≤ b.last}

instance : Membership ℕ Block := ⟨fun b a => a ∈ b.addresses⟩

instance (a : ℕ) (b : Block) : Decidable (a ∈ b) :=
  inferInstanceAs (Decidable (b.base ≤ a ∧ a ≤ b.last))

/-- Membership, as the two comparisons with the ends of the block. -/
theorem mem_def {a : ℕ} {b : Block} : a ∈ b ↔ b.base ≤ a ∧ a ≤ b.last := Iff.rfl

/-- The block of `2^host` addresses around `a`. -/
def ofAddr (a host : ℕ) : Block := ⟨a / 2^host * 2^host, host, Dvd.intro_left _ rfl⟩

/-- An address is in a block exactly when it agrees with its first address above the host bits. -/
theorem mem_iff_div_eq {a : ℕ} {b : Block} : a ∈ b ↔ a / 2^b.host = b.base / 2^b.host := by
  obtain ⟨k, hk⟩ := b.aligned
  have hpos := Nat.two_pow_pos b.host
  rw [mem_def, last, hk, Nat.mul_div_cancel_left k hpos, Nat.div_eq_iff hpos]
  constructor
  · rintro ⟨h1, h2⟩
    rw [Nat.mul_comm k]
    omega
  · rintro ⟨h1, h2⟩
    rw [Nat.mul_comm k] at h1 h2
    omega

/-- An address is in the block around it. -/
theorem mem_ofAddr (a host : ℕ) : a ∈ ofAddr a host := by
  rw [mem_iff_div_eq]
  exact (Nat.mul_div_cancel _ (Nat.two_pow_pos host)).symm

/-- A block is the block around each of its addresses. -/
theorem eq_ofAddr {a : ℕ} {b : Block} (h : a ∈ b) : b = ofAddr a b.host := by
  obtain ⟨base, host, aligned⟩ := b
  rw [mem_iff_div_eq] at h
  simp only at h
  simp only [ofAddr, h, Nat.div_mul_cancel aligned]

/-- `b` lies inside `c`. -/
def Subset (b c : Block) : Prop := ∀ a, a ∈ b → a ∈ c

/-- The ends of a block are in it. -/
theorem base_mem (b : Block) : b.base ∈ b := ⟨le_refl _, Nat.le_add_right _ _⟩

/-- The ends of a block are in it. -/
theorem last_mem (b : Block) : b.last ∈ b := ⟨Nat.le_add_right _ _, le_refl _⟩

/-- A block lies inside another exactly when its two ends do. -/
theorem subset_iff {b c : Block} : Subset b c ↔ c.base ≤ b.base ∧ b.last ≤ c.last := by
  constructor
  · intro h
    exact ⟨(h _ b.base_mem).1, (h _ b.last_mem).2⟩
  · rintro ⟨h1, h2⟩ a ⟨ha1, ha2⟩
    exact ⟨h1.trans ha1, ha2.trans h2⟩

instance (b c : Block) : Decidable (Subset b c) := decidable_of_iff _ subset_iff.symm

/-- The block around `a` with fewer host bits lies inside the one with more. -/
theorem ofAddr_subset (a : ℕ) {h k : ℕ} (hk : h ≤ k) : Subset (ofAddr a h) (ofAddr a k) := by
  intro x hx
  rw [mem_iff_div_eq] at hx ⊢
  have e : 2^k = 2^h * 2^(k - h) := by rw [← pow_add, Nat.add_sub_cancel' hk]
  have hh := Nat.mul_div_cancel (a / 2^h) (Nat.two_pow_pos h)
  have hk' := Nat.mul_div_cancel (a / 2^k) (Nat.two_pow_pos k)
  simp only [ofAddr] at hx ⊢
  rw [hh] at hx
  rw [hk', e, ← Nat.div_div_eq_div_mul, ← Nat.div_div_eq_div_mul, hx]

/-- The size of a block lying inside another is at most the other's. -/
theorem host_le_of_subset {b c : Block} (h : Subset b c) : b.host ≤ c.host := by
  obtain ⟨h1, h2⟩ := subset_iff.mp h
  unfold last at h2
  have hb := Nat.two_pow_pos b.host
  have hc := Nat.two_pow_pos c.host
  exact (Nat.pow_le_pow_iff_right (by norm_num : 1 < 2)).mp (by omega : 2^b.host ≤ 2^c.host)

/-- Of two blocks with a common address, one lies inside the other exactly when it is no larger. -/
theorem subset_iff_host_le {a : ℕ} {b c : Block} (hb : a ∈ b) (hc : a ∈ c) :
    Subset b c ↔ b.host ≤ c.host := by
  refine ⟨host_le_of_subset, fun h => ?_⟩
  rw [eq_ofAddr hb, eq_ofAddr hc]
  exact ofAddr_subset a h

/-- Two blocks are nested or disjoint: when an address of `b` is outside `c`, the two have an
address in common exactly when `c` lies inside `b`. -/
theorem exists_mem_iff_subset {a : ℕ} {b c : Block} (hb : a ∈ b) (hc : a ∉ c) :
    (∃ x, x ∈ b ∧ x ∈ c) ↔ Subset c b := by
  constructor
  · rintro ⟨x, hxb, hxc⟩
    rw [subset_iff_host_le hxc hxb]
    by_contra hlt
    have hbc : Subset b c := (subset_iff_host_le hxb hxc).mpr (by omega)
    exact hc (hbc a hb)
  · intro h
    exact ⟨c.base, h _ c.base_mem, c.base_mem⟩

end Block

end ControlPlane.Cidr

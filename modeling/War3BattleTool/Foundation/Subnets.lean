import Mathlib.Algebra.Group.Nat.Defs
import Mathlib.Data.List.Basic
import Mathlib.Data.Nat.Init

set_option autoImplicit false

/-!
# Subnets

A subnet is what the addresses of one width with a common prefix have in common.  Two subnets
are nested or apart, and their prefixes tell which (`meets_iff`).  An address space lies in a
wider one behind a fixed prefix `p`: the address `a` becomes `p ++ a`, and a subnet becomes a
subnet (`contains_behind`).  So a filter for the wider space, a list of subnets, treats the
embedded addresses as the narrow filter does only when it was told to: its subnets that do
not meet the embedded space say nothing about it (`rejects_append_of_apart`).
-/

namespace War3BattleTool.Foundation

/-- The addresses that agree with `base` on their first `len` bits. -/
structure Subnet (w : Nat) where
  base : BitVec w
  len : Nat

namespace Subnet

variable {v w : Nat}

/-- The first `len` bits of an address, as a number. -/
def prefixOf (a : BitVec w) (len : Nat) : Nat := a.toNat / 2 ^ (w - len)

/-- The address lies in the subnet. -/
def contains (n : Subnet w) (a : BitVec w) : Bool := prefixOf a n.len = prefixOf n.base n.len

/-- The subnets agree as far as both prefixes go. -/
def meets (n m : Subnet w) : Bool :=
  prefixOf n.base (min n.len m.len) = prefixOf m.base (min n.len m.len)

/-- The subnet in the wider address space. -/
def behind (p : BitVec v) (n : Subnet w) : Subnet (v + w) := ⟨p ++ n.base, v + n.len⟩

/-- What lies behind a prefix. -/
def whole (p : BitVec v) (w : Nat) : Subnet (v + w) := ⟨p ++ 0#w, v⟩

@[simp] theorem contains_iff {n : Subnet w} {a : BitVec w} :
    n.contains a = true ↔ prefixOf a n.len = prefixOf n.base n.len := by
  simp [contains]

theorem contains_base (n : Subnet w) : n.contains n.base = true := by simp

/-! ## Nested or apart -/

/-- Addresses that agree on a prefix agree on every shorter one. -/
theorem prefixOf_congr {a b : BitVec w} {short long : Nat} (hle : short ≤ long)
    (h : prefixOf a long = prefixOf b long) : prefixOf a short = prefixOf b short := by
  have hshorten : ∀ c : BitVec w,
      prefixOf c short = prefixOf c long / 2 ^ ((w - short) - (w - long)) := by
    intro c
    rw [prefixOf, prefixOf, Nat.div_div_eq_div_mul, ← Nat.pow_add]
    congr 2
    omega
  rw [hshorten a, hshorten b, h]

/-- Two subnets meet in the base of the one with the longer prefix, or nowhere. -/
theorem meets_iff {n m : Subnet w} :
    n.meets m = true ↔ ∃ a, n.contains a = true ∧ m.contains a = true := by
  simp only [meets, decide_eq_true_eq, contains_iff]
  constructor
  · intro h
    rcases Nat.le_total n.len m.len with hle | hle
    · rw [Nat.min_eq_left hle] at h
      exact ⟨m.base, h.symm, rfl⟩
    · rw [Nat.min_eq_right hle] at h
      exact ⟨n.base, rfl, h⟩
  · rintro ⟨a, hn, hm⟩
    rw [← prefixOf_congr (Nat.min_le_left _ _) hn, ← prefixOf_congr (Nat.min_le_right _ _) hm]

/-- Of two subnets that meet, the one with the longer prefix lies in the other. -/
theorem contains_of_meets {n m : Subnet w} (h : n.meets m = true) (hle : n.len ≤ m.len)
    {a : BitVec w} (ha : m.contains a = true) : n.contains a = true := by
  simp only [meets, decide_eq_true_eq, Nat.min_eq_left hle] at h
  rw [contains_iff] at ha ⊢
  exact (prefixOf_congr hle ha).trans h.symm

/-! ## Behind a prefix -/

theorem toNat_append (p : BitVec v) (a : BitVec w) :
    (p ++ a).toNat = p.toNat * 2 ^ w + a.toNat := by
  rw [BitVec.toNat_append, ← Nat.shiftLeft_add_eq_or_of_lt a.isLt, Nat.shiftLeft_eq]

theorem prefixOf_append (p : BitVec v) (a : BitVec w) : prefixOf (p ++ a) v = p.toNat := by
  rw [prefixOf, toNat_append, Nat.add_sub_cancel_left, Nat.mul_comm,
    Nat.mul_add_div (Nat.two_pow_pos w), Nat.div_eq_of_lt a.isLt, Nat.add_zero]

/-- A wide address lies behind `p` just when it is `p ++ a` for some `a`. -/
theorem contains_whole {p : BitVec v} {x : BitVec (v + w)} :
    (whole p w).contains x = true ↔ ∃ a : BitVec w, x = p ++ a := by
  simp only [contains_iff, whole, prefixOf_append]
  constructor
  · intro h
    rw [prefixOf, Nat.add_sub_cancel_left] at h
    refine ⟨BitVec.ofNat w x.toNat, BitVec.eq_of_toNat_eq ?_⟩
    rw [toNat_append, BitVec.toNat_ofNat, ← h, Nat.mul_comm, Nat.div_add_mod]
  · rintro ⟨a, rfl⟩
    exact prefixOf_append p a

/-- The embedded addresses keep their prefixes, behind `p`. -/
theorem contains_behind {p : BitVec v} {n : Subnet w} {a : BitVec w} :
    (n.behind p).contains (p ++ a) = n.contains a := by
  have hprefix : ∀ b : BitVec w,
      prefixOf (p ++ b) (v + n.len) = p.toNat * 2 ^ (w - (w - n.len)) + prefixOf b n.len := by
    intro b
    have hsplit : p.toNat * 2 ^ w = 2 ^ (w - n.len) * (p.toNat * 2 ^ (w - (w - n.len))) := by
      rw [Nat.mul_left_comm, ← Nat.pow_add]
      congr 2
      omega
    rw [prefixOf, toNat_append, Nat.add_sub_add_left, hsplit,
      Nat.mul_add_div (Nat.two_pow_pos _), prefixOf]
  rw [Bool.eq_iff_iff]
  simp only [contains_iff, behind, hprefix, Nat.add_left_cancel_iff]

/-- The subnet behind `p` holds the embedded forms of its addresses, and nothing else. -/
theorem contains_behind_iff {p : BitVec v} {n : Subnet w} {x : BitVec (v + w)} :
    (n.behind p).contains x = true ↔ ∃ a, n.contains a = true ∧ x = p ++ a := by
  constructor
  · intro hx
    have hmeets : (whole p w).meets (n.behind p) = true :=
      meets_iff.mpr ⟨p ++ n.base, contains_whole.mpr ⟨n.base, rfl⟩, contains_base (n.behind p)⟩
    obtain ⟨a, rfl⟩ := contains_whole.mp (contains_of_meets hmeets (Nat.le_add_right v n.len) hx)
    exact ⟨a, contains_behind.symm.trans hx, rfl⟩
  · rintro ⟨a, ha, rfl⟩
    exact contains_behind.trans ha

/-! ## Filters -/

/-- Some subnet of the filter contains the address. -/
def rejects (filter : List (Subnet w)) (a : BitVec w) : Bool := filter.any (·.contains a)

/-- Subnets that do not meet the embedded space reject nothing of it. -/
theorem rejects_append_of_apart {filter : List (Subnet (v + w))} {p : BitVec v}
    (hapart : filter.all (fun n => !n.meets (whole p w)) = true) (a : BitVec w) :
    rejects filter (p ++ a) = false := by
  rw [rejects, List.any_eq_false]
  intro n hn hcontains
  have hmeets : n.meets (whole p w) = true :=
    meets_iff.mpr ⟨p ++ a, hcontains, contains_whole.mpr ⟨a, rfl⟩⟩
  have hnone := List.all_eq_true.mp hapart n hn
  rw [hmeets] at hnone
  cases hnone

/-- The narrow filter behind `p` rejects the embedded forms of what that one rejects. -/
theorem rejects_behind {filter : List (Subnet w)} {p : BitVec v} {x : BitVec (v + w)} :
    rejects (filter.map (·.behind p)) x = true ↔
      ∃ a, rejects filter a = true ∧ x = p ++ a := by
  simp only [rejects, List.any_map, List.any_eq_true, Function.comp_apply, contains_behind_iff]
  constructor
  · rintro ⟨n, hn, a, ha, rfl⟩
    exact ⟨a, ⟨n, hn, ha⟩, rfl⟩
  · rintro ⟨a, ⟨n, hn, ha⟩, rfl⟩
    exact ⟨n, hn, a, ha, rfl⟩

end Subnet

end War3BattleTool.Foundation

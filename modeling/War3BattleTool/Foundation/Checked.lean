import Mathlib.Data.List.Basic

set_option autoImplicit false

/-!
# Operations that are checked

Indexing, slicing and subtraction as a program runs them that checks their bounds: an operation
out of its bounds is a fault, and so is a loop that has not ended when its fuel has.  Each
operation has a lemma that says when it succeeds; `loop_ok` is the rule for loops, with an
invariant and a measure that falls.
-/

namespace War3BattleTool.Foundation

/-- Why a checked computation fails. -/
inductive Fault where
  | index
  | slice
  | underflow
  | unfinished
  deriving DecidableEq

namespace Checked

section Operations

variable {α : Type}

/-- The element at a position. -/
def index (xs : List α) (i : Nat) : Except Fault α :=
  match xs[i]? with
  | some x => .ok x
  | none => .error .index

/-- The elements from a position on. -/
def sliceFrom (xs : List α) (a : Nat) : Except Fault (List α) :=
  if a ≤ xs.length then .ok (xs.drop a) else .error .slice

/-- The elements between two positions. -/
def slice (xs : List α) (a b : Nat) : Except Fault (List α) :=
  if a ≤ b ∧ b ≤ xs.length then .ok ((xs.drop a).take (b - a)) else .error .slice

/-- The difference of two lengths. -/
def sub (a b : Nat) : Except Fault Nat := if b ≤ a then .ok (a - b) else .error .underflow

/-- The difference of two bytes. -/
def subByte (a b : UInt8) : Except Fault UInt8 :=
  if b ≤ a then .ok (a - b) else .error .underflow

theorem ok_bind {β γ : Type} (x : β) (f : β → Except Fault γ) : (Except.ok x >>= f) = f x := rfl

theorem index_eq_ok {xs : List α} {i : Nat} {x : α} : index xs i = .ok x ↔ xs[i]? = some x := by
  unfold index
  split
  · next y hy => rw [hy, Except.ok.injEq, Option.some.injEq]
  · next hnone =>
    rw [hnone]
    constructor
    · intro h
      cases h
    · intro h
      cases h

theorem sliceFrom_ok {xs : List α} {a : Nat} (h : a ≤ xs.length) :
    sliceFrom xs a = .ok (xs.drop a) := if_pos h

theorem slice_ok {xs : List α} {a b : Nat} (hab : a ≤ b) (hb : b ≤ xs.length) :
    slice xs a b = .ok ((xs.drop a).take (b - a)) := if_pos ⟨hab, hb⟩

theorem sub_ok {a b : Nat} (h : b ≤ a) : sub a b = .ok (a - b) := if_pos h

/-- Only zero cannot be lowered by one. -/
theorem subByte_one_ok {b : UInt8} (h : b ≠ 0) : subByte b 1 = .ok (b - 1) := by
  refine if_pos (UInt8.le_iff_toNat_le.mpr (Nat.one_le_iff_ne_zero.mpr fun hzero => h ?_))
  exact UInt8.toNat_inj.mp hzero

end Operations

/-! ## Loops -/

section Loops

variable {σ : Type} {cond : σ → Bool} {body : σ → Except Fault σ}

/-- `while cond s { s = body(s) }`, with fuel for so many rounds. -/
def loop (cond : σ → Bool) (body : σ → Except Fault σ) : Nat → σ → Except Fault σ
  | 0, s => if cond s then .error .unfinished else .ok s
  | fuel + 1, s => if cond s then (body s).bind (loop cond body fuel) else .ok s

/-- A loop whose body succeeds, keeps an invariant and makes a measure fall ends, and ends in the
invariant. -/
theorem loop_ok {I : σ → Prop} {m : σ → Nat}
    (hbody : ∀ s, I s → cond s = true → ∃ s', body s = .ok s' ∧ I s' ∧ m s' < m s)
    {fuel : Nat} {s : σ} (hs : I s) (hfuel : m s ≤ fuel) :
    ∃ s', loop cond body fuel s = .ok s' ∧ I s' ∧ cond s' = false := by
  induction fuel generalizing s with
  | zero =>
      cases hcond : cond s with
      | false => exact ⟨s, by rw [loop, hcond, if_neg Bool.false_ne_true], hs, hcond⟩
      | true =>
          obtain ⟨s', _, _, hless⟩ := hbody s hs hcond
          omega
  | succ fuel ih =>
      cases hcond : cond s with
      | false => exact ⟨s, by rw [loop, hcond, if_neg Bool.false_ne_true], hs, hcond⟩
      | true =>
          obtain ⟨s₁, hstep, hs₁, hless⟩ := hbody s hs hcond
          obtain ⟨s', hrest, hs', hend⟩ := ih hs₁ (by omega)
          exact ⟨s', by rw [loop, hcond, if_pos rfl, hstep, Except.bind, hrest], hs', hend⟩

end Loops

end Checked

end War3BattleTool.Foundation

import Mathlib.Data.List.TakeWhile

set_option autoImplicit false

/-!
# The first and the last part of a split

A list is split at the elements in `p`.  The first part is what precedes the first of them, the
last part what follows the last of them; either is the whole list if there is none.
-/

namespace War3BattleTool.Foundation

variable {α : Type} {p : α → Bool} {xs ys : List α}

/-- What precedes the first element in `p`. -/
def beforeFirst (p : α → Bool) (xs : List α) : List α := xs.takeWhile fun x => !p x

/-- What follows the last element in `p`. -/
def afterLast (p : α → Bool) (xs : List α) : List α := (xs.reverse.takeWhile fun x => !p x).reverse

/-! ## What precedes the first -/

theorem beforeFirst_eq_self (h : ∀ x ∈ xs, p x = false) : beforeFirst p xs = xs := by
  refine List.takeWhile_eq_self_iff.mpr fun x hx => ?_
  rw [h x hx, Bool.not_false]

theorem eq_false_of_mem_beforeFirst : ∀ x ∈ beforeFirst p xs, p x = false := by
  intro x hx
  have hnot := List.mem_takeWhile_imp (p := fun x => !p x) hx
  rwa [Bool.not_eq_true'] at hnot

theorem beforeFirst_append {sep : α} (h : ∀ x ∈ xs, p x = false) (hsep : p sep = true) :
    beforeFirst p (xs ++ sep :: ys) = xs := by
  rw [beforeFirst, List.takeWhile_append_of_pos fun x hx => by rw [h x hx, Bool.not_false],
    List.takeWhile_cons_of_neg (by simp [hsep]), List.append_nil]

/-- Splitting at `p` and then at `q` is splitting at both. -/
theorem beforeFirst_beforeFirst (p q : α → Bool) (xs : List α) :
    beforeFirst q (beforeFirst p xs) = beforeFirst (fun x => p x || q x) xs := by
  rw [beforeFirst, beforeFirst, List.takeWhile_takeWhile]
  congr 1
  funext x
  cases hp : p x <;> cases hq : q x <;> simp [hp, hq]

/-- The first part of a split. -/
theorem head?_splitOnP (p : α → Bool) (xs : List α) :
    (xs.splitOnP p).head? = some (beforeFirst p xs) := by
  induction xs with
  | nil => rfl
  | cons x xs ih =>
      rw [List.splitOnP_cons_eq_if_modifyHead, beforeFirst]
      cases hx : p x with
      | true => rw [if_pos rfl, List.head?_cons, List.takeWhile_cons_of_neg (by simp [hx])]
      | false =>
          rw [if_neg Bool.false_ne_true, List.head?_modifyHead, ih, Option.map_some,
            List.takeWhile_cons_of_pos (by simp [hx])]
          rfl

/-! ## What follows the last -/

theorem afterLast_eq_self (h : ∀ x ∈ xs, p x = false) : afterLast p xs = xs := by
  have hreverse : beforeFirst p xs.reverse = xs.reverse :=
    beforeFirst_eq_self fun x hx => h x (List.mem_reverse.mp hx)
  rw [afterLast, ← beforeFirst, hreverse, List.reverse_reverse]

theorem eq_false_of_mem_afterLast : ∀ x ∈ afterLast p xs, p x = false :=
  fun x hx => eq_false_of_mem_beforeFirst x (List.mem_reverse.mp hx)

theorem mem_of_mem_afterLast {x : α} (hx : x ∈ afterLast p xs) : x ∈ xs :=
  List.mem_reverse.mp ((List.takeWhile_sublist _).mem (List.mem_reverse.mp hx))

theorem afterLast_append {sep : α} (h : ∀ x ∈ ys, p x = false) (hsep : p sep = true) :
    afterLast p (xs ++ sep :: ys) = ys := by
  have hreverse : (xs ++ sep :: ys).reverse = ys.reverse ++ sep :: xs.reverse := by
    rw [List.reverse_append, List.reverse_cons, List.append_assoc, List.singleton_append]
  rw [afterLast, ← beforeFirst, hreverse,
    beforeFirst_append (fun x hx => h x (List.mem_reverse.mp hx)) hsep, List.reverse_reverse]

/-- Either there is nothing to split at, or the last part follows one that is. -/
theorem afterLast_cases (p : α → Bool) (xs : List α) :
    (∀ x ∈ xs, p x = false) ∧ afterLast p xs = xs ∨
      ∃ ys sep, p sep = true ∧ xs = ys ++ sep :: afterLast p xs := by
  have hsplit : (xs.reverse.dropWhile fun x => !p x).reverse ++ afterLast p xs = xs := by
    rw [afterLast, ← List.reverse_append, List.takeWhile_append_dropWhile, List.reverse_reverse]
  cases hdrop : xs.reverse.dropWhile fun x => !p x with
  | nil =>
      rw [hdrop, List.reverse_nil, List.nil_append] at hsplit
      exact .inl ⟨fun x hx => eq_false_of_mem_afterLast x (hsplit.symm ▸ hx), hsplit⟩
  | cons sep ys =>
      have hsep := List.head?_dropWhile_not (fun x => !p x) xs.reverse
      rw [hdrop] at hsplit hsep
      refine .inr ⟨ys.reverse, sep, by simpa using hsep, ?_⟩
      rw [List.reverse_cons, List.append_assoc, List.singleton_append] at hsplit
      exact hsplit.symm

/-- The last part of a split. -/
theorem getLast?_splitOnP (p : α → Bool) (xs : List α) :
    (xs.splitOnP p).getLast? = some (afterLast p xs) := by
  obtain ⟨hnone, hself⟩ | ⟨ys, sep, hsep, hxs⟩ := afterLast_cases p xs
  · rw [List.splitOnP_eq_singleton hnone, hself]
    rfl
  · have hlast : (afterLast p xs).splitOnP p = [afterLast p xs] :=
      List.splitOnP_eq_singleton eq_false_of_mem_afterLast
    have hparts : xs.splitOnP p = ys.splitOnP p ++ [afterLast p xs] :=
      calc xs.splitOnP p = (ys ++ sep :: afterLast p xs).splitOnP p := congrArg _ hxs
        _ = ys.splitOnP p ++ [afterLast p xs] := by rw [List.splitOnP_append_cons _ _ hsep, hlast]
    rw [hparts, List.getLast?_concat]

end War3BattleTool.Foundation

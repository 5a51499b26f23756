import Mathlib.Data.List.DropRight
import Mathlib.Data.List.Induction

set_option autoImplicit false

/-!
# A bounded buffer and the positions of some of its elements

A buffer that drops its oldest elements when it is full holds the most recent ones.  The
positions of the elements in `p` are collected by a loop that counts; while nothing is dropped,
they grow by the position of the element that came last.
-/

namespace War3BattleTool.Foundation

variable {α : Type}

/-- `while xs.len() > n { xs.pop_front() }`, and whether anything was dropped. -/
def evict (n : Nat) : List α → List α × Bool
  | [] => ([], false)
  | x :: xs => if n < (x :: xs).length then ((evict n xs).1, true) else (x :: xs, false)

/-- What is left are the last `n`. -/
theorem evict_fst (n : Nat) (xs : List α) : (evict n xs).1 = xs.rtake n := by
  induction xs with
  | nil => rw [evict, List.rtake_nil]
  | cons x xs ih =>
      rw [evict]
      split
      · next hlong =>
        rw [List.length_cons] at hlong
        have hdrop : (x :: xs).length - n = xs.length - n + 1 := by
          rw [List.length_cons]
          omega
        rw [ih, List.rtake, List.rtake, hdrop, List.drop_succ_cons]
      · next hshort =>
        rw [List.rtake, Nat.sub_eq_zero_of_le (Nat.le_of_not_lt hshort), List.drop_zero]

theorem evict_snd (n : Nat) (xs : List α) : (evict n xs).2 = decide (n < xs.length) := by
  cases xs with
  | nil => rfl
  | cons x xs =>
      rw [evict]
      split
      · next hlong => exact (decide_eq_true hlong).symm
      · next hshort => exact (decide_eq_false hshort).symm

theorem rtake_of_length_le {n : Nat} {xs : List α} (h : xs.length ≤ n) : xs.rtake n = xs := by
  rw [List.rtake, Nat.sub_eq_zero_of_le h, List.drop_zero]

theorem length_rtake (n : Nat) (xs : List α) : (xs.rtake n).length = min xs.length n := by
  rw [List.rtake, List.length_drop]
  omega

theorem rtake_suffix (n : Nat) (xs : List α) : xs.rtake n <:+ xs := List.drop_suffix _ _

/-- What was dropped before would be dropped now. -/
theorem rtake_rtake_append (n : Nat) (xs : List α) (x : α) :
    (xs.rtake n ++ [x]).rtake n = (xs ++ [x]).rtake n := by
  cases n with
  | zero => rw [List.rtake_zero, List.rtake_zero]
  | succ n =>
      rw [List.rtake_concat_succ, List.rtake_concat_succ, List.rtake, List.rtake, List.rtake,
        List.length_drop, List.drop_drop]
      congr 2
      omega

/-- `for (i, x) in xs.iter().enumerate() { if p(x) { found.push(i) } }`. -/
def enumerate (p : α → Bool) (xs : List α) : List Nat :=
  xs.zipIdx.foldl (fun found x => if p x.1 then found ++ [x.2] else found) []

theorem foldl_zipIdx (p : α → Bool) (xs : List α) (start : Nat) (found : List Nat) :
    (xs.zipIdx start).foldl (fun found x => if p x.1 then found ++ [x.2] else found) found =
      found ++ xs.findIdxs p start := by
  induction xs generalizing start found with
  | nil => exact (List.append_nil found).symm
  | cons x xs ih =>
      rw [List.zipIdx_cons, List.foldl_cons, ih, List.findIdxs_cons]
      split
      · rw [List.append_assoc, List.singleton_append]
      · rfl

/-- The loop finds the positions of the elements in `p`. -/
theorem enumerate_eq (p : α → Bool) (xs : List α) : enumerate p xs = xs.findIdxs p :=
  foldl_zipIdx p xs 0 []

theorem enumerate_append (p : α → Bool) (xs : List α) (x : α) :
    enumerate p (xs ++ [x]) = if p x then enumerate p xs ++ [xs.length] else enumerate p xs := by
  rw [enumerate_eq, enumerate_eq, List.findIdxs_append, List.findIdxs_singleton, Nat.zero_add]
  split
  · rfl
  · exact List.append_nil _

theorem mem_enumerate {p : α → Bool} {xs : List α} {i : Nat} :
    i ∈ enumerate p xs ↔ ∃ h : i < xs.length, p xs[i] = true := by
  rw [enumerate_eq]
  exact List.mem_findIdxs_iff_exists_getElem_pos

theorem pairwise_enumerate (p : α → Bool) (xs : List α) : (enumerate p xs).Pairwise (· < ·) := by
  rw [enumerate_eq]
  exact List.pairwise_findIdxs

/-- The elements at these positions are those in `p`. -/
theorem filterMap_enumerate (p : α → Bool) (xs : List α) :
    (enumerate p xs).filterMap (xs[·]?) = xs.filter p := by
  induction xs using List.reverseRecOn with
  | nil => rfl
  | append_singleton xs x ih =>
      have hold : (enumerate p xs).filterMap ((xs ++ [x])[·]?) = xs.filter p := by
        rw [← ih]
        apply List.filterMap_congr
        intro i hi
        exact List.getElem?_append_left (mem_enumerate.mp hi).1
      have hlast : (xs ++ [x])[xs.length]? = some x := List.getElem?_concat_length
      rw [enumerate_append, List.filter_append]
      split
      · next hpx =>
        rw [List.filterMap_append, hold, List.filterMap_cons_some hlast, List.filterMap_nil,
          List.filter_cons_of_pos hpx, List.filter_nil]
      · next hpx => rw [hold, List.filter_cons_of_neg hpx, List.filter_nil, List.append_nil]

end War3BattleTool.Foundation

import Mathlib.Algebra.BigOperators.Group.List.Basic
import Mathlib.Algebra.GroupWithZero.Nat
import Mathlib.Algebra.Order.Group.Nat
import Mathlib.Algebra.Order.Monoid.Defs
import Mathlib.Data.List.Induction

set_option autoImplicit false

/-!
# Fixed-window limiters

A `Limiter` counts the weights of the items that arrive.  The count starts anew with the first
item that arrives a full window or more after the last such item; an item passes if the count,
its own weight included, stays within the limit.  An item that does not pass is counted too.

* `load_passed_le`: of the items that arrive within a span of less than `n` windows, a weight of
  at most `n + 1` times the limit passes.
* `count_after`: the open window has counted what arrived since it began, whether it passed or not.
* `passed_of_conforming`: if the items of no window weigh more than the limit, every item passes.
-/

namespace War3BattleTool.Foundation

/-- What a limiter remembers: the weight counted, and since when. -/
structure FixedWindow (τ : Type) where
  count : Nat
  start : τ
  deriving DecidableEq

/-- The width of a window and the weight it may carry, for items of type `α`. -/
structure Limiter (α τ : Type) where
  width : τ
  limit : Nat
  time : α → τ
  weight : α → Nat

namespace Limiter

variable {α τ : Type} [AddCommMonoid τ] [LinearOrder τ] (L : Limiter α τ)

/-- The window in which an item that arrives at `now` is counted. -/
def renew (w : FixedWindow τ) (now : τ) : FixedWindow τ :=
  if w.start + L.width ≤ now then ⟨0, now⟩ else w

/-- Count an item. -/
def offer (w : FixedWindow τ) (x : α) : FixedWindow τ where
  count := (L.renew w (L.time x)).count + L.weight x
  start := (L.renew w (L.time x)).start

/-- The item passes. -/
def admits (w : FixedWindow τ) (x : α) : Bool := (L.offer w x).count ≤ L.limit

/-- The items, each with whether it passes. -/
def verdicts : FixedWindow τ → List α → List (α × Bool)
  | _, [] => []
  | w, x :: xs => (x, L.admits w x) :: verdicts (L.offer w x) xs

/-- The window after the items. -/
def after (w : FixedWindow τ) (xs : List α) : FixedWindow τ := xs.foldl L.offer w

/-- The items that pass. -/
def passed (w : FixedWindow τ) (xs : List α) : List α :=
  ((L.verdicts w xs).filter (·.2)).map (·.1)

omit [AddCommMonoid τ] [LinearOrder τ] in
/-- The weight of the items that arrive at times in `p`. -/
def load (p : τ → Bool) (xs : List α) : Nat :=
  ((xs.filter fun x => p (L.time x)).map L.weight).sum

/-- The items arrive in order, and not before the window starts. -/
def Ordered (w : FixedWindow τ) (xs : List α) : Prop :=
  (w.start :: xs.map L.time).Pairwise (· ≤ ·)

variable {L} {w : FixedWindow τ} {x : α} {xs : List α} {p : τ → Bool}

/-! ## What passes, item by item -/

theorem passed_cons : L.passed w (x :: xs) =
    if L.admits w x = true then x :: L.passed (L.offer w x) xs else L.passed (L.offer w x) xs := by
  cases hadmits : L.admits w x <;> simp [passed, verdicts, hadmits]

theorem after_append (w : FixedWindow τ) (xs : List α) (x : α) :
    L.after w (xs ++ [x]) = L.offer (L.after w xs) x := by
  rw [after, List.foldl_append]
  rfl

theorem verdicts_append (w : FixedWindow τ) (xs : List α) (x : α) :
    L.verdicts w (xs ++ [x]) = L.verdicts w xs ++ [(x, L.admits (L.after w xs) x)] := by
  induction xs generalizing w with
  | nil => rfl
  | cons y ys ih => simp only [List.cons_append, verdicts, ih, after, List.foldl_cons]

theorem map_verdicts (w : FixedWindow τ) (xs : List α) :
    (L.verdicts w xs).map (·.1) = xs := by
  induction xs generalizing w with
  | nil => rfl
  | cons x xs ih => simp [verdicts, ih]

/-- The weight of what passes, read off the verdicts. -/
theorem load_passed (w : FixedWindow τ) (xs : List α) : L.load p (L.passed w xs) =
    (((L.verdicts w xs).filter fun v => v.2 && p (L.time v.1)).map fun v => L.weight v.1).sum := by
  simp only [load, passed, List.filter_map, List.map_map, List.filter_filter, Function.comp_def,
    Bool.and_comm]

/-- If everything passes, every verdict says so. -/
theorem verdicts_of_passed (h : L.passed w xs = xs) : ∀ v ∈ L.verdicts w xs, v.2 = true := by
  have hlength := congrArg List.length h
  rw [passed, List.length_map, ← congrArg List.length (map_verdicts (L := L) w xs),
    List.length_map, List.length_filter_eq_length_iff] at hlength
  exact hlength

/-- What passes arrived, in the same order. -/
theorem passed_sublist (w : FixedWindow τ) (xs : List α) : (L.passed w xs).Sublist xs := by
  induction xs generalizing w with
  | nil => exact .slnil
  | cons x xs ih =>
      rw [passed_cons]
      split
      · exact (ih _).cons_cons x
      · exact (ih _).cons x

omit [AddCommMonoid τ] [LinearOrder τ] in
theorem load_cons :
    L.load p (x :: xs) = (if p (L.time x) = true then L.weight x else 0) + L.load p xs := by
  unfold load
  split <;> simp_all

omit [AddCommMonoid τ] [LinearOrder τ] in
theorem load_le_load_cons : L.load p xs ≤ L.load p (x :: xs) := by
  rw [load_cons]
  exact Nat.le_add_left _ _

omit [AddCommMonoid τ] [LinearOrder τ] in
theorem load_eq_zero (h : ∀ x ∈ xs, p (L.time x) = false) : L.load p xs = 0 := by
  rw [load, List.filter_eq_nil_iff.mpr (by simpa using h)]
  rfl

/-! ## Arrivals in order -/

omit [AddCommMonoid τ] in
theorem Ordered.start_le (h : L.Ordered w xs) : ∀ x ∈ xs, w.start ≤ L.time x := by
  intro x hx
  exact (List.pairwise_cons.mp h).1 _ (List.mem_map_of_mem hx)

omit [AddCommMonoid τ] in
/-- One more item, after all the others. -/
theorem Ordered.append (h : L.Ordered w xs) (hlast : ∀ t ∈ w.start :: xs.map L.time, t ≤ L.time x) :
    L.Ordered w (xs ++ [x]) := by
  rw [Ordered, List.map_append, ← List.cons_append]
  refine List.pairwise_append.mpr ⟨h, List.pairwise_singleton _ _, fun t ht t' ht' => ?_⟩
  rw [List.mem_singleton.mp ht']
  exact hlast t ht

omit [AddCommMonoid τ] in
/-- A window that begins with the first item. -/
theorem Ordered.fresh (h : L.Ordered w (x :: xs)) : L.Ordered ⟨0, L.time x⟩ (x :: xs) := by
  have hsorted := (List.pairwise_cons.mp h).2
  refine List.pairwise_cons.mpr ⟨fun t ht => ?_, hsorted⟩
  obtain rfl | ht := List.mem_cons.mp ht
  · exact le_rfl
  · exact (List.pairwise_cons.mp hsorted).1 t ht

omit [AddCommMonoid τ] in
theorem Ordered.head_le (h : L.Ordered w (x :: xs)) : ∀ y ∈ x :: xs, L.time x ≤ L.time y :=
  h.fresh.start_le

theorem start_offer : (L.offer w x).start = w.start ∨ (L.offer w x).start = L.time x := by
  unfold offer renew
  split
  · exact .inr rfl
  · exact .inl rfl

/-- The items that are left arrive in order too. -/
theorem Ordered.offer (h : L.Ordered w (x :: xs)) : L.Ordered (L.offer w x) xs := by
  obtain ⟨hstart, hrest⟩ := List.pairwise_cons.mp h
  obtain hsame | hnew := start_offer (L := L) (w := w) (x := x)
  · refine List.pairwise_cons.mpr ⟨fun t ht => ?_, (List.pairwise_cons.mp hrest).2⟩
    rw [hsame]
    exact hstart t (List.mem_cons_of_mem _ ht)
  · unfold Ordered
    rw [hnew]
    exact hrest

/-- An item that arrives a full window after `w` is the first of a new one. -/
theorem renew_of_le {now : τ} (h : w.start + L.width ≤ now) : L.renew w now = ⟨0, now⟩ := if_pos h

theorem renew_of_lt {now : τ} (h : now < w.start + L.width) : L.renew w now = w :=
  if_neg (not_le.mpr h)

theorem renew_self (now : τ) : L.renew ⟨0, now⟩ now = ⟨0, now⟩ := by
  unfold renew
  split <;> rfl

theorem offer_of_le (h : w.start + L.width ≤ L.time x) :
    L.offer w x = L.offer ⟨0, L.time x⟩ x := by
  simp only [Limiter.offer, renew_of_le h, renew_self]

theorem passed_of_le (h : w.start + L.width ≤ L.time x) :
    L.passed w (x :: xs) = L.passed ⟨0, L.time x⟩ (x :: xs) := by
  rw [passed_cons, passed_cons, admits, admits, offer_of_le h]

/-! ## What a window has counted -/

omit [AddCommMonoid τ] in
theorem Ordered.of_append {ys : List α} (h : L.Ordered w (xs ++ ys)) : L.Ordered w xs := by
  rw [Ordered, List.map_append, ← List.cons_append] at h
  exact (List.pairwise_append.mp h).1

/-- What is left arrives in order after the window that is open by then. -/
theorem Ordered.after {ys : List α} (h : L.Ordered w (xs ++ ys)) :
    L.Ordered (L.after w xs) ys := by
  induction xs generalizing w with
  | nil => exact h
  | cons x xs ih => exact ih h.offer

omit [AddCommMonoid τ] [LinearOrder τ] in
theorem load_append (x : α) : L.load p (xs ++ [x]) =
    L.load p xs + if p (L.time x) = true then L.weight x else 0 := by
  rw [load, load, List.filter_append, List.map_append, List.sum_append]
  cases hp : p (L.time x) <;> simp [hp]

variable [IsOrderedCancelAddMonoid τ]

/-- Every item has arrived before the open window ends. -/
theorem lt_end_after (hwidth : 0 < L.width) (hordered : L.Ordered w xs) :
    ∀ x ∈ xs, L.time x < (L.after w xs).start + L.width := by
  induction xs using List.reverseRecOn with
  | nil => exact fun x hx => absurd hx List.not_mem_nil
  | append_singleton xs x ih =>
      intro y hy
      rw [after_append, offer]
      rcases lt_or_ge (L.time x) ((L.after w xs).start + L.width) with hlt | hle
      · rw [renew_of_lt hlt]
        obtain hy | hy := List.mem_append.mp hy
        · exact ih hordered.of_append y hy
        · rwa [List.mem_singleton.mp hy]
      · rw [renew_of_le hle]
        have hlast : L.time y ≤ L.time x := by
          obtain hy | hy := List.mem_append.mp hy
          · exact ((ih hordered.of_append y hy).trans_le hle).le
          · rw [List.mem_singleton.mp hy]
        exact lt_add_of_le_of_pos hlast hwidth

/-- The open window has counted the items that arrived since it began, those that did not pass
included. -/
theorem count_after (hwidth : 0 < L.width) (hordered : L.Ordered w xs) (hcount : w.count = 0) :
    (L.after w xs).count = L.load (fun t => (L.after w xs).start ≤ t) xs := by
  induction xs using List.reverseRecOn with
  | nil => exact hcount
  | append_singleton xs x ih =>
      have hpre := hordered.of_append
      rw [load_append, after_append, offer]
      rcases lt_or_ge (L.time x) ((L.after w xs).start + L.width) with hlt | hle
      · have hstart := hordered.after.start_le x List.mem_cons_self
        rw [renew_of_lt hlt, if_pos (decide_eq_true hstart), ih hpre]
      · have hnone : L.load (fun t => L.time x ≤ t) xs = 0 := by
          refine load_eq_zero fun y hy => decide_eq_false (not_le.mpr ?_)
          exact (lt_end_after hwidth hpre y hy).trans_le hle
        rw [renew_of_le hle, if_pos (decide_eq_true le_rfl), hnone]

/-! ## What passes within a span of time -/

omit [IsOrderedCancelAddMonoid τ] in
/-- The weight of an item that passes is taken from what is left of its window. -/
theorem load_passed_cons_le {n : Nat} (h : L.load p (L.passed (L.offer w x) xs) ≤
      L.limit - (L.offer w x).count + n) :
    L.load p (L.passed w (x :: xs)) ≤ L.limit - (L.renew w (L.time x)).count + n := by
  have hcount : (L.offer w x).count = (L.renew w (L.time x)).count + L.weight x := rfl
  rw [passed_cons]
  split
  · next hadmits =>
    have hle : (L.offer w x).count ≤ L.limit := of_decide_eq_true hadmits
    rw [load_cons]
    split <;> omega
  · omega

/-- If the times in `p` end less than `m + 1` windows after the start of `w`, the window carries
what is left of it, and `m` more follow. -/
theorem load_passed_le_of_start {m : Nat} (hordered : L.Ordered w xs)
    (hp : ∀ x ∈ xs, p (L.time x) = true → L.time x < w.start + (m + 1) • L.width) :
    L.load p (L.passed w xs) ≤ L.limit - w.count + m * L.limit := by
  induction xs generalizing w m with
  | nil => exact Nat.zero_le _
  | cons x xs ih =>
      have hrest := List.forall_mem_of_forall_mem_cons hp
      rcases lt_or_ge (L.time x) (w.start + L.width) with hlt | hle
      · -- The item is counted in the same window.
        have hrenew := renew_of_lt hlt
        have hstart : (L.offer w x).start = w.start := by rw [Limiter.offer, hrenew]
        have hih := ih hordered.offer (m := m) (by rwa [hstart])
        have hload := load_passed_cons_le hih
        rwa [hrenew] at hload
      · cases m with
        | zero =>
            -- The times in `p` are over.
            rw [load_eq_zero]
            · exact Nat.zero_le _
            · intro y hy
              by_contra hpy
              have hmem := (passed_sublist w (x :: xs)).subset hy
              have hlt := hp y hmem (Bool.not_eq_false _ ▸ hpy)
              rw [zero_add, one_nsmul] at hlt
              exact absurd (hle.trans (hordered.head_le y hmem)) (not_le.mpr hlt)
        | succ m =>
            have hrenew := renew_of_le hle
            have hstart : (L.offer w x).start = L.time x := by rw [Limiter.offer, hrenew]
            have hih := ih hordered.offer (m := m) (fun y hy hpy => by
              have hlt := hrest y hy hpy
              rw [succ_nsmul', ← add_assoc] at hlt
              rw [hstart]
              exact hlt.trans_le (add_le_add_left hle _))
            have hload := load_passed_cons_le hih
            rw [hrenew] at hload
            rw [Nat.succ_mul]
            omega

/-- Of the items that arrive within a span of less than `n` windows, a weight of at most `n + 1`
times the limit passes. -/
theorem load_passed_le {n : Nat} (hwidth : 0 ≤ L.width) (hordered : L.Ordered w xs)
    (hp : ∀ t t', p t = true → p t' = true → t' < t + n • L.width) :
    L.load p (L.passed w xs) ≤ L.limit * (n + 1) := by
  induction xs generalizing w with
  | nil => exact Nat.zero_le _
  | cons x xs ih =>
      cases hpx : p (L.time x) with
      | false =>
          have hih := ih hordered.offer
          rw [passed_cons]
          split
          · rwa [load_cons, hpx, if_neg Bool.false_ne_true, zero_add]
          · exact hih
      | true =>
          -- The span begins with this item, in the window that is then open.
          have hload : L.load p (L.passed w (x :: xs)) ≤ L.limit + n * L.limit := by
            rcases lt_or_ge (L.time x) (w.start + L.width) with hlt | hle
            · refine (load_passed_le_of_start hordered (m := n) fun y _ hpy => ?_).trans (by omega)
              have hspan := hp _ _ hpx hpy
              rw [succ_nsmul', ← add_assoc]
              exact hspan.trans_le (add_le_add_left hlt.le _)
            · rw [passed_of_le hle]
              refine (load_passed_le_of_start hordered.fresh (m := n) fun y _ hpy => ?_).trans
                (by simp)
              have hspan := hp _ _ hpx hpy
              rw [succ_nsmul', ← add_assoc]
              exact hspan.trans_le (add_le_add_left (le_add_of_nonneg_right hwidth) _)
          calc L.load p (L.passed w (x :: xs)) ≤ L.limit + n * L.limit := hload
            _ = L.limit * (n + 1) := by rw [Nat.mul_succ, Nat.mul_comm, Nat.add_comm]

/-! ## Conforming arrivals -/

omit [IsOrderedCancelAddMonoid τ] in
/-- The times of the window that begins at `start`. -/
def inWindow (L : Limiter α τ) (start now : τ) : Bool := start ≤ now && now < start + L.width

omit [IsOrderedCancelAddMonoid τ] in
theorem inWindow_eq_true {start now : τ} :
    L.inWindow start now = true ↔ start ≤ now ∧ now < start + L.width := by
  simp [inWindow]

/-- If what was counted and what arrives in the open window stay within the limit, and so do the
items of every other window, every item passes. -/
theorem passed_of_open (hwidth : 0 < L.width) (hordered : L.Ordered w xs)
    (hopen : w.count + L.load (L.inWindow w.start) xs ≤ L.limit)
    (hall : ∀ start, L.load (L.inWindow start) xs ≤ L.limit) : L.passed w xs = xs := by
  induction xs generalizing w with
  | nil => rfl
  | cons x xs ih =>
      -- Whichever window the item is counted in, it carries this item and the later ones.
      obtain ⟨hload, hin⟩ : (L.renew w (L.time x)).count +
          L.load (L.inWindow (L.renew w (L.time x)).start) (x :: xs) ≤ L.limit ∧
            L.inWindow (L.renew w (L.time x)).start (L.time x) = true := by
        rcases lt_or_ge (L.time x) (w.start + L.width) with hlt | hle
        · rw [renew_of_lt hlt]
          have hstart := hordered.start_le x List.mem_cons_self
          exact ⟨hopen, inWindow_eq_true.mpr ⟨hstart, hlt⟩⟩
        · rw [renew_of_le hle, zero_add]
          exact ⟨hall _, inWindow_eq_true.mpr ⟨le_rfl, lt_add_of_pos_right _ hwidth⟩⟩
      rw [load_cons, if_pos hin, ← add_assoc] at hload
      have hadmits : L.admits w x = true := decide_eq_true (Nat.le_of_add_right_le hload)
      have hrest : L.passed (L.offer w x) xs = xs := by
        exact ih hordered.offer hload fun start => load_le_load_cons.trans (hall start)
      rw [passed_cons, if_pos hadmits, hrest]

/-- If the items of no window weigh more than the limit, every item passes. -/
theorem passed_of_conforming (hwidth : 0 < L.width) (hordered : L.Ordered w xs)
    (hcount : w.count = 0) (hall : ∀ start, L.load (L.inWindow start) xs ≤ L.limit) :
    L.passed w xs = xs :=
  passed_of_open hwidth hordered (by simpa [hcount] using hall w.start) hall

end Limiter

end War3BattleTool.Foundation

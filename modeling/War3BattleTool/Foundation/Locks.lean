import Mathlib.Algebra.Order.BigOperators.Group.Finset
import Mathlib.Order.WellFounded
import War3BattleTool.Foundation.Machine

set_option autoImplicit false

/-!
# Read-write locks

Tasks run sections.  In a section a task takes its locks one after the other, works, and gives
all of them back.  A lock serves its requests in the order of arrival, so a reader waits behind a
writer that waits.  When every section takes its locks in a fixed order, somebody can always go
on (`Sound.exists_move`), and no task needs more than a fixed number of steps of its own
(`work_of_move`): the tasks that are in a section all come out of it.
-/

namespace War3BattleTool.Foundation

/-- How a lock is taken. -/
inductive LockMode where
  | read
  | write
  deriving DecidableEq

/-- A lock: who holds it, and who waits for it, in the order of arrival. -/
structure RwLock (τ : Type) where
  holders : List (τ × LockMode)
  queue : List (τ × LockMode)

namespace RwLock

variable {τ : Type}

/-- Nobody holds the lock, and nobody waits. -/
def idle : RwLock τ := ⟨[], []⟩

/-- The holders leave room for another one. -/
def free (r : RwLock τ) : LockMode → Bool
  | .read => r.holders.all (·.2 = .read)
  | .write => r.holders.isEmpty

/-- The task gives the lock back, or waits for it no longer. -/
def drop [DecidableEq τ] (r : RwLock τ) (t : τ) : RwLock τ where
  holders := r.holders.filter (·.1 ≠ t)
  queue := r.queue.filter (·.1 ≠ t)

end RwLock

/-- Where a task stands. -/
inductive Visit (κ : Type) where
  | outside
  /-- it holds some locks, and takes the next one; `asked` if it waits for it -/
  | taking (held : List (κ × LockMode)) (next : κ × LockMode) (rest : List (κ × LockMode))
      (asked : Bool)
  /-- it holds all the locks of its section -/
  | working (held : List (κ × LockMode))

namespace Visit

variable {κ : Type}

/-- The locks that the task holds. -/
def held : Visit κ → List (κ × LockMode)
  | .outside => []
  | .taking held _ _ _ => held
  | .working held => held

/-- The lock that the task waits for. -/
def waitsFor : Visit κ → Option (κ × LockMode)
  | .taking _ next _ true => some next
  | _ => none

/-- The locks that the task has still to take. -/
def todo : Visit κ → List (κ × LockMode)
  | .taking _ next rest _ => next :: rest
  | _ => []

/-- The task goes on with the locks that it holds, and those it has still to take. -/
def go (held : List (κ × LockMode)) : List (κ × LockMode) → Visit κ
  | [] => .working held
  | next :: rest => .taking held next rest false

/-- The steps that the task needs to leave its section. -/
def work : Visit κ → Nat
  | .outside => 0
  | .taking _ _ rest asked => 2 * rest.length + if asked then 2 else 3
  | .working _ => 1

variable {kept : List (κ × LockMode)} {wanted : List (κ × LockMode)}

@[simp] theorem held_go : (go kept wanted).held = kept := by cases wanted <;> rfl

@[simp] theorem waitsFor_go : (go kept wanted).waitsFor = none := by cases wanted <;> rfl

@[simp] theorem todo_go : (go kept wanted).todo = wanted := by cases wanted <;> rfl

theorem go_ne_outside : go kept wanted ≠ .outside := by
  cases wanted <;> rintro ⟨⟩

/-- The task goes on with the same section, and gives no lock back. -/
structure Continues (v v' : Visit κ) : Prop where
  outside : v' = .outside ↔ v = .outside
  mem : ∀ a, a ∈ v'.held ∨ a ∈ v'.todo ↔ a ∈ v.held ∨ a ∈ v.todo
  held : ∀ a ∈ v.held, a ∈ v'.held

theorem Continues.refl (v : Visit κ) : v.Continues v :=
  ⟨Iff.rfl, fun _ => Iff.rfl, fun _ h => h⟩

theorem work_go : (go kept wanted).work = 2 * wanted.length + 1 := by
  cases wanted with
  | nil => rfl
  | cons next rest => simp [go, work, Nat.mul_add]

end Visit

/-- The locks, and where each task stands. -/
structure Locks (κ τ : Type) where
  lock : κ → RwLock τ
  visit : τ → Visit κ

namespace Locks

/-- What happens next. -/
inductive Move (κ τ : Type) where
  /-- a task begins a section with these locks -/
  | enter (t : τ) (wanted : List (κ × LockMode))
  /-- a task asks for the next lock of its section -/
  | ask (t : τ)
  /-- a lock is given to the first task in its queue -/
  | grant (k : κ)
  /-- a task ends its section -/
  | leave (t : τ)
  /-- a task is cancelled in its section -/
  | cancel (t : τ)

/-- The step goes on with a section that has begun. -/
def Move.isOwn {κ τ : Type} : Move κ τ → Bool
  | .ask _ | .grant _ | .leave _ => true
  | .enter _ _ | .cancel _ => false

variable {κ τ : Type}

/-- Nobody is in a section. -/
def start : Locks κ τ where
  lock := fun _ => .idle
  visit := fun _ => .outside

/-! ## What holds of the locks -/

/-- The locks of a section are taken in this order. -/
def Rising {ι : Type} [Preorder ι] (rank : κ → ι) (wanted : List (κ × LockMode)) : Prop :=
  wanted.Pairwise fun a b => rank a.1 < rank b.1

/-- All other tasks are outside. -/
def Within (s : Locks κ τ) (T : Finset τ) : Prop := ∀ t, t ∉ T → s.visit t = .outside

/-- The locks know who holds them and who waits, a writer is alone, and each task takes its
locks in order.  Only finitely many tasks are in a section. -/
structure Sound {ι : Type} [Preorder ι] (rank : κ → ι) (s : Locks κ τ) : Prop where
  held : ∀ k t m, (t, m) ∈ (s.lock k).holders ↔ (k, m) ∈ (s.visit t).held
  queued : ∀ k t m, (t, m) ∈ (s.lock k).queue ↔ (s.visit t).waitsFor = some (k, m)
  nodup : ∀ k, (s.lock k).queue.Nodup
  alone : ∀ k t, (t, .write) ∈ (s.lock k).holders → (s.lock k).holders = [(t, .write)]
  above : ∀ t, ∀ a ∈ (s.visit t).held, ∀ b ∈ (s.visit t).todo, rank a.1 < rank b.1
  rising : ∀ t, Rising rank (s.visit t).todo
  finite : ∃ T : Finset τ, s.Within T

namespace Sound

variable {ι : Type} [Preorder ι] {rank : κ → ι} {s s' : Locks κ τ} {t : τ} {k : κ}

theorem start : Sound rank (start : Locks κ τ) where
  held := by simp [Locks.start, RwLock.idle, Visit.held]
  queued := by simp [Locks.start, RwLock.idle, Visit.waitsFor]
  nodup := fun _ => List.nodup_nil
  alone := by simp [Locks.start, RwLock.idle]
  above := by simp [Locks.start, Visit.held]
  rising := fun _ => List.Pairwise.nil
  finite := ⟨∅, fun _ _ => rfl⟩

/-- The first task in a queue waits for the lock. -/
theorem taking_of_queue {m : LockMode} {queue : List (τ × LockMode)}
    (hqueue : (s.lock k).queue = (t, m) :: queue) (h : Sound rank s) :
    ∃ held rest, s.visit t = .taking held (k, m) rest true := by
  have hwaits : (s.visit t).waitsFor = some (k, m) := by
    rw [← h.queued, hqueue]
    exact List.mem_cons_self ..
  cases hvisit : s.visit t with
  | outside => simp [hvisit, Visit.waitsFor] at hwaits
  | working held => simp [hvisit, Visit.waitsFor] at hwaits
  | taking held next rest asked =>
      cases asked with
      | false => simp [hvisit, Visit.waitsFor] at hwaits
      | true =>
          rw [hvisit] at hwaits
          obtain rfl := Option.some.inj hwaits
          exact ⟨held, rest, rfl⟩

/-- The holders of a lock that a writer gets are none, and those that a reader joins are
readers. -/
theorem alone_of_free {m : LockMode} (hfree : (s.lock k).free m = true) {t' : τ}
    (halone : (t', LockMode.write) ∈ (t, m) :: (s.lock k).holders) :
    (t, m) :: (s.lock k).holders = [(t', .write)] := by
  cases m with
  | read =>
      rw [RwLock.free, List.all_eq_true] at hfree
      rcases List.mem_cons.mp halone with heq | hmem
      · cases heq
      · exact absurd (hfree _ hmem) (by simp)
  | write =>
      rw [RwLock.free, List.isEmpty_iff] at hfree
      rw [hfree] at halone ⊢
      rw [List.mem_singleton.mp halone]

/-- A writer shares its lock with nobody. -/
theorem eq_of_write {t' : τ} {m : LockMode} (hwrite : (k, .write) ∈ (s.visit t).held)
    (hheld : (k, m) ∈ (s.visit t').held) (h : Sound rank s) : t' = t := by
  rw [← h.held] at hwrite hheld
  rw [h.alone k t hwrite, List.mem_singleton, Prod.mk.injEq] at hheld
  exact hheld.1

end Sound

/-! ## Steps -/

/-- A task goes on from `v`. -/
def move [DecidableEq τ] (s : Locks κ τ) (t : τ) (v : Visit κ) : Locks κ τ :=
  { s with visit := Function.update s.visit t v }

/-- A lock changes hands. -/
def setLock [DecidableEq κ] (s : Locks κ τ) (k : κ) (r : RwLock τ) : Locks κ τ :=
  { s with lock := Function.update s.lock k r }

@[simp] theorem visit_setLock [DecidableEq κ] (s : Locks κ τ) (k : κ) (r : RwLock τ) :
    (s.setLock k r).visit = s.visit := rfl

theorem lock_setLock [DecidableEq κ] (s : Locks κ τ) (k : κ) (r : RwLock τ) (k' : κ) :
    (s.setLock k r).lock k' = if k' = k then r else s.lock k' := Function.update_apply ..

@[simp] theorem lock_move [DecidableEq τ] (s : Locks κ τ) (t : τ) (v : Visit κ) :
    (s.move t v).lock = s.lock := rfl

theorem visit_move [DecidableEq τ] (s : Locks κ τ) (t : τ) (v : Visit κ) (t' : τ) :
    (s.move t v).visit t' = if t' = t then v else s.visit t' := Function.update_apply ..

section Steps

variable [DecidableEq κ] [DecidableEq τ]

/-- A task asks for the next lock. -/
def ask (s : Locks κ τ) (t : τ) : Option (Locks κ τ) :=
  match s.visit t with
  | .taking held (k, m) rest false =>
      some ((s.move t (.taking held (k, m) rest true)).setLock k
        ⟨(s.lock k).holders, (s.lock k).queue ++ [(t, m)]⟩)
  | _ => none

/-- The first task in the queue of a lock gets it, if the holders leave room. -/
def grant (s : Locks κ τ) (k : κ) : Option (Locks κ τ) :=
  match (s.lock k).queue with
  | (t, m) :: queue =>
      if (s.lock k).free m then
        match s.visit t with
        | .taking held _ rest _ =>
            some ((s.move t (.go ((k, m) :: held) rest)).setLock k
              ⟨(t, m) :: (s.lock k).holders, queue⟩)
        | _ => none
      else none
  | [] => none

/-- A task is out of its section: it gives its locks back, and waits for none. -/
def out (s : Locks κ τ) (t : τ) : Locks κ τ :=
  { s.move t .outside with lock := fun k => (s.lock k).drop t }

/-- One step. -/
def step (s : Locks κ τ) : Move κ τ → Option (Locks κ τ)
  | .enter t wanted =>
      match s.visit t with
      | .outside => some (s.move t (.go [] wanted))
      | _ => none
  | .ask t => s.ask t
  | .grant k => s.grant k
  | .leave t =>
      match s.visit t with
      | .working _ => some (s.out t)
      | _ => none
  | .cancel t =>
      match s.visit t with
      | .outside => none
      | _ => some (s.out t)

end Steps

/-! ## What steps keep -/

section Keep

variable [DecidableEq τ]

namespace Sound

variable {ι : Type} [Preorder ι] {rank : κ → ι} {s s' : Locks κ τ} {t : τ} {k : κ}

theorem finite_move (h : ∃ T : Finset τ, s.Within T) (t : τ) (v : Visit κ) :
    ∃ T : Finset τ, (s.move t v).Within T := by
  obtain ⟨T, hT⟩ := h
  refine ⟨insert t T, fun t' ht' => ?_⟩
  rw [Finset.mem_insert, not_or] at ht'
  rw [visit_move, if_neg ht'.1]
  exact hT t' ht'.2

/-- A task goes on, and its locks are still in order. -/
theorem above_move (h : Sound rank s) {v : Visit κ}
    (hv : ∀ a ∈ v.held, ∀ b ∈ v.todo, rank a.1 < rank b.1) (t' : τ) :
    ∀ a ∈ ((s.move t v).visit t').held, ∀ b ∈ ((s.move t v).visit t').todo,
      rank a.1 < rank b.1 := by
  rw [visit_move]
  split
  · exact hv
  · exact h.above t'

theorem rising_move (h : Sound rank s) {v : Visit κ} (hv : Rising rank v.todo) (t' : τ) :
    Rising rank ((s.move t v).visit t').todo := by
  rw [visit_move]
  split
  · exact hv
  · exact h.rising t'

theorem enter {wanted : List (κ × LockMode)} (hout : s.visit t = .outside)
    (hwanted : Rising rank wanted) (h : Sound rank s) : Sound rank (s.move t (.go [] wanted)) where
  held := by
    intro k t' m
    rw [lock_move, h.held, visit_move]
    split
    next ht => rw [ht, hout, Visit.held_go, Visit.held]
    next => rfl
  queued := by
    intro k t' m
    rw [lock_move, h.queued, visit_move]
    split
    next ht =>
      rw [ht, hout, Visit.waitsFor_go]
      exact Iff.rfl
    next => rfl
  nodup := h.nodup
  alone := h.alone
  above := h.above_move (by simp)
  rising := h.rising_move (by simpa using hwanted)
  finite := finite_move h.finite t _

/-- A task that is out of its section holds nothing and waits for nothing. -/
theorem out (h : Sound rank s) : Sound rank (s.out t) where
  held := by
    intro k' t' m'
    simp only [Locks.out, RwLock.drop, List.mem_filter, visit_move]
    split
    next ht => simp [ht, Visit.held]
    next ht => simp [ht, h.held]
  queued := by
    intro k' t' m'
    simp only [Locks.out, RwLock.drop, List.mem_filter, visit_move]
    split
    next ht => simp [ht, Visit.waitsFor]
    next ht => simp [ht, h.queued]
  nodup := fun k' => (h.nodup k').filter _
  alone := by
    intro k' t' halone
    simp only [Locks.out, RwLock.drop] at halone ⊢
    obtain ⟨hmem, hkept⟩ := List.mem_filter.mp halone
    rw [h.alone k' t' hmem]
    simpa using hkept
  above := h.above_move (by simp [Visit.held])
  rising := h.rising_move List.Pairwise.nil
  finite := finite_move h.finite t _

variable [DecidableEq κ]

/-- A task that asks for a lock stands last in its queue. -/
theorem ask (hstep : s.ask t = some s') (h : Sound rank s) : Sound rank s' := by
  unfold Locks.ask at hstep
  split at hstep
  next held k m rest hvisit =>
    cases hstep
    have hnot : (t, m) ∉ (s.lock k).queue := by
      rw [h.queued, hvisit]
      rintro ⟨⟩
    exact
      { held := by
          intro k' t' m'
          rw [visit_setLock, visit_move, lock_setLock]
          have hsame : (t', m') ∈ (s.lock k').holders ↔ (k', m') ∈
              (if t' = t then Visit.taking held (k, m) rest true else s.visit t').held := by
            rw [h.held]
            split
            next ht => rw [ht, hvisit]; rfl
            next => rfl
          split
          next hk => simpa [hk] using hsame
          next => exact hsame
        queued := by
          intro k' t' m'
          rw [visit_setLock, visit_move, lock_setLock]
          by_cases ht : t' = t
          · subst ht
            have hnone : (t', m') ∉ (s.lock k').queue := by
              rw [h.queued, hvisit]
              rintro ⟨⟩
            rw [if_pos rfl]
            split
            next hk =>
              subst hk
              simp [hnone, Visit.waitsFor, eq_comm]
            next hk =>
              simp [hnone, Visit.waitsFor, Ne.symm hk]
          · rw [if_neg ht, ← h.queued]
            split
            next hk => simp [hk, ht]
            next => rfl
        nodup := by
          intro k'
          rw [lock_setLock]
          split
          next => simpa using (h.nodup k).concat hnot
          next => exact h.nodup k'
        alone := by
          intro k' t' halone
          rw [lock_setLock] at halone ⊢
          split at halone
          next hk => simpa [hk] using h.alone k t' halone
          next hk => simpa [hk] using h.alone k' t' halone
        above := h.above_move (by simpa [hvisit, Visit.held, Visit.todo] using h.above t)
        rising := h.rising_move (by simpa [hvisit, Visit.todo] using h.rising t)
        finite := finite_move h.finite t _ }
  next => cases hstep

/-- A lock goes to the first task in its queue. -/
theorem grant (hstep : s.grant k = some s') (h : Sound rank s) : Sound rank s' := by
  unfold Locks.grant at hstep
  split at hstep
  next t m queue hqueue =>
    split at hstep
    next hfree =>
      obtain ⟨held, rest, hvisit⟩ := h.taking_of_queue hqueue
      rw [hvisit] at hstep
      cases hstep
      have habove := h.above t
      have hrising := h.rising t
      rw [hvisit] at habove hrising
      obtain ⟨hnext, hrest⟩ := List.pairwise_cons.mp hrising
      have hnodup := h.nodup k
      rw [hqueue] at hnodup
      obtain ⟨hnot, hnodup⟩ := List.nodup_cons.mp hnodup
      exact
        { held := by
            intro k' t' m'
            rw [visit_setLock, visit_move, lock_setLock]
            have hold := h.held k' t' m'
            by_cases ht : t' = t
            · rw [ht, hvisit] at hold
              rw [ht, if_pos rfl, Visit.held_go, List.mem_cons]
              split
              next hk =>
                subst hk
                simp [hold, Visit.held]
              next hk => simp [hold, hk, Visit.held]
            · rw [if_neg ht, ← hold]
              split
              next hk => simp [hk, ht]
              next => rfl
          queued := by
            intro k' t' m'
            rw [visit_setLock, visit_move, lock_setLock]
            have hold := h.queued k' t' m'
            by_cases ht : t' = t
            · rw [ht, hvisit] at hold
              rw [ht, if_pos rfl, Visit.waitsFor_go]
              split
              next hk =>
                subst hk
                rw [hqueue, List.mem_cons] at hold
                refine iff_of_false (fun hmem => ?_) nofun
                obtain rfl : m = m' := by simpa [Visit.waitsFor] using hold.mp (.inr hmem)
                exact hnot hmem
              next hk =>
                rw [lock_move, hold]
                simp [Visit.waitsFor, Ne.symm hk]
            · rw [if_neg ht, ← hold]
              split
              next hk => simp [hk, hqueue, ht]
              next => rfl
          nodup := by
            intro k'
            rw [lock_setLock]
            split
            next => exact hnodup
            next => exact h.nodup k'
          alone := by
            intro k' t' halone
            rw [lock_setLock] at halone ⊢
            split at halone
            next hk => simpa [hk] using alone_of_free hfree halone
            next hk => simpa [hk] using h.alone k' t' halone
          above := h.above_move (by
            rw [Visit.held_go, Visit.todo_go]
            intro a ha b hb
            rcases List.mem_cons.mp ha with rfl | ha
            · exact hnext b hb
            · exact habove a ha b (List.mem_cons_of_mem _ hb))
          rising := h.rising_move (by rwa [Visit.todo_go])
          finite := finite_move h.finite t _ }
    next => cases hstep
  next => cases hstep

/-- Every step keeps the locks in order, if the sections that begin take theirs in order. -/
theorem step {l : Move κ τ} (hstep : s.step l = some s')
    (hwanted : ∀ t wanted, l = .enter t wanted → Rising rank wanted) (h : Sound rank s) :
    Sound rank s' := by
  cases l with
  | enter t wanted =>
      simp only [Locks.step] at hstep
      split at hstep <;> cases hstep
      next hout => exact h.enter hout (hwanted t wanted rfl)
  | ask t => exact h.ask hstep
  | grant k => exact h.grant hstep
  | leave t =>
      simp only [Locks.step] at hstep
      split at hstep <;> cases hstep
      exact h.out
  | cancel t =>
      simp only [Locks.step] at hstep
      split at hstep <;> cases hstep
      exact h.out

/-! ## Somebody can go on -/

/-- The first in a queue can have the lock, or a holder can go on, or a holder waits for a lock
that is higher up. -/
theorem exists_move_of_queue [WellFoundedGT ι] (h : Sound rank s) (k : κ)
    (hqueue : (s.lock k).queue ≠ []) : ∃ l : Move κ τ, l.isOwn = true ∧ (s.step l).isSome := by
  induction hi : rank k using WellFoundedGT.induction generalizing k with
  | ind i ih =>
      obtain ⟨⟨t, m⟩, queue, hcons⟩ := List.exists_cons_of_ne_nil hqueue
      obtain ⟨held, rest, hvisit⟩ := h.taking_of_queue hcons
      by_cases hfree : (s.lock k).free m = true
      · exact ⟨.grant k, rfl, by simp [Locks.step, Locks.grant, hcons, hfree, hvisit]⟩
      · obtain ⟨⟨t', m'⟩, hholder⟩ : ∃ holder, holder ∈ (s.lock k).holders := by
          refine List.exists_mem_of_ne_nil _ fun hnone => hfree ?_
          cases m <;> simp [RwLock.free, hnone]
        have hheld := (h.held k t' m').mp hholder
        cases hvisit' : s.visit t' with
        | outside => simp [hvisit', Visit.held] at hheld
        | working held' => exact ⟨.leave t', rfl, by simp [Locks.step, hvisit']⟩
        | taking held' next rest' asked =>
            cases asked with
            | false => exact ⟨.ask t', rfl, by simp [Locks.step, Locks.ask, hvisit']⟩
            | true =>
                have habove := h.above t' (k, m') hheld next (by simp [hvisit', Visit.todo])
                have hwaits : (t', next.2) ∈ (s.lock next.1).queue := by
                  rw [h.queued, hvisit']
                  rfl
                exact ih (rank next.1) (hi ▸ habove) next.1 (List.ne_nil_of_mem hwaits) rfl

/-- As long as some task is in a section, some task can go on. -/
theorem exists_move [WellFoundedGT ι] (h : Sound rank s) (hin : s.visit t ≠ .outside) :
    ∃ l : Move κ τ, l.isOwn = true ∧ (s.step l).isSome := by
  cases hvisit : s.visit t with
  | outside => exact absurd hvisit hin
  | working held => exact ⟨.leave t, rfl, by simp [Locks.step, hvisit]⟩
  | taking held next rest asked =>
      cases asked with
      | false => exact ⟨.ask t, rfl, by simp [Locks.step, Locks.ask, hvisit]⟩
      | true =>
          have hwaits : (t, next.2) ∈ (s.lock next.1).queue := by
            rw [h.queued, hvisit]
            rfl
          exact h.exists_move_of_queue next.1 (List.ne_nil_of_mem hwaits)

end Sound

section Sections

variable [DecidableEq κ] {ι : Type} [Preorder ι] {rank : κ → ι} {s s' : Locks κ τ} {T : Finset τ}

/-! ## Tasks that go on -/

theorem continues_ask {t t' : τ} (hstep : s.ask t = some s') :
    (s.visit t').Continues (s'.visit t') := by
  unfold ask at hstep
  split at hstep <;> cases hstep
  next held k m rest hvisit =>
    rw [visit_setLock, visit_move]
    split
    next ht =>
      rw [ht, hvisit]
      exact ⟨by simp, fun _ => Iff.rfl, fun _ h => h⟩
    next => exact .refl _

theorem continues_grant {k : κ} {t' : τ} (hs : Sound rank s) (hstep : s.grant k = some s') :
    (s.visit t').Continues (s'.visit t') := by
  unfold grant at hstep
  split at hstep
  next t m queue hqueue =>
    obtain ⟨held, rest, hvisit⟩ := hs.taking_of_queue hqueue
    rw [hvisit] at hstep
    split at hstep <;> cases hstep
    rw [visit_setLock, visit_move]
    split
    next ht =>
      rw [ht, hvisit]
      refine ⟨iff_of_false Visit.go_ne_outside (by rintro ⟨⟩), fun a => ?_, fun a ha => ?_⟩
      · rw [Visit.held_go, Visit.todo_go]
        simp only [Visit.held, Visit.todo, List.mem_cons]
        tauto
      · rw [Visit.held_go]
        exact List.mem_cons_of_mem _ ha
    next => exact .refl _
  next => cases hstep

/-! ## How long it takes -/

/-- The steps that these tasks need to leave their sections. -/
def work (s : Locks κ τ) (T : Finset τ) : Nat := ∑ t ∈ T, (s.visit t).work

/-- A step of a section brings its task one step nearer to the end. -/
theorem visit_of_own {l : Move κ τ} (hs : Sound rank s) (hl : l.isOwn = true)
    (hstep : s.step l = some s') :
    ∃ t v, s'.visit = (s.move t v).visit ∧ v.work + 1 = (s.visit t).work := by
  cases l with
  | enter t wanted => cases hl
  | cancel t => cases hl
  | ask t =>
      simp only [step, ask] at hstep
      split at hstep <;> cases hstep
      next held k m rest hvisit => exact ⟨t, _, rfl, by rw [hvisit]; rfl⟩
  | grant k =>
      simp only [step, grant] at hstep
      split at hstep
      next t m queue hqueue =>
        obtain ⟨held, rest, hvisit⟩ := hs.taking_of_queue hqueue
        rw [hvisit] at hstep
        split at hstep <;> cases hstep
        exact ⟨t, _, rfl, by rw [hvisit, Visit.work_go]; rfl⟩
      next => cases hstep
  | leave t =>
      simp only [step] at hstep
      split at hstep <;> cases hstep
      next held hvisit => exact ⟨t, _, rfl, by rw [hvisit]; rfl⟩

/-- Every step of a section takes one off the work that is left. -/
theorem work_of_move {l : Move κ τ} (hs : Sound rank s) (hT : s.Within T) (hl : l.isOwn = true)
    (hstep : s.step l = some s') : s'.Within T ∧ s'.work T + 1 = s.work T := by
  obtain ⟨t, v, hvisit, hwork⟩ := visit_of_own hs hl hstep
  have ht : t ∈ T := by
    by_contra hnot
    rw [hT t hnot] at hwork
    cases hwork
  constructor
  · intro t' ht'
    have hne : t' ≠ t := by
      rintro rfl
      exact ht' ht
    rw [hvisit, visit_move, if_neg hne]
    exact hT t' ht'
  · have hothers : ∑ t' ∈ T.erase t, (s'.visit t').work = ∑ t' ∈ T.erase t, (s.visit t').work := by
      refine Finset.sum_congr rfl fun t' ht' => ?_
      rw [hvisit, visit_move, if_neg (Finset.ne_of_mem_erase ht')]
    have hself : (s'.visit t).work = v.work := by rw [hvisit, visit_move, if_pos rfl]
    rw [work, work, ← Finset.add_sum_erase T _ ht, ← Finset.add_sum_erase T _ ht, hothers, hself]
    omega

omit [DecidableEq κ] in
/-- A task that leaves adds nothing to the work. -/
theorem work_out (t : τ) (hT : s.Within T) :
    (s.out t).Within T ∧ (s.out t).work T ≤ s.work T := by
  have hvisit : ∀ t', (s.out t).visit t' = if t' = t then .outside else s.visit t' :=
    visit_move s t .outside
  constructor
  · intro t' ht'
    rw [hvisit]
    split
    · rfl
    · exact hT t' ht'
  · refine Finset.sum_le_sum fun t' _ => ?_
    rw [hvisit]
    split
    · exact Nat.zero_le _
    · exact Nat.le_refl _

end Sections

end Keep

end Locks

end War3BattleTool.Foundation

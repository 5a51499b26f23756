import War3BattleTool.Foundation.Machine

set_option autoImplicit false

/-!
# Feeds, and the queues that are read

A view changes now and then, and is published to subscribers whose inboxes may drop what they
have no room for.  `Feed.Step` is the discipline: whoever changes the view owes a publication
until one is made.  Under it every inbox holds what it took of each publication, in order
(`Follows.history`), and the last publication is current whenever nothing is owed
(`Follows.current`).

A reader takes the items of a queue one by one.  Each item may leave it in several states
(`moves`), and asks for something of the state in which it is taken (`meets`).  `Along` says
of a queue that it may be read in any way: every item is met as it asks, and what is left
satisfies `Q`.
-/

namespace War3BattleTool.Foundation

/-- One publication: the view it shows, and what the inbox of every subscriber took of it. -/
structure Issue (ν κ μ : Type) where
  content : ν
  taken : κ → List μ

/-- The view as it is now, whether somebody is bound to publish it, and the inboxes. -/
structure Feed (ν κ μ : Type) where
  view : ν
  owing : Prop
  inbox : κ → List μ

namespace Feed

variable {ν κ μ : Type} {f f' : Feed ν κ μ} {log : List (Issue ν κ μ)}

/-- What a step may do to a feed, and the publication it makes. -/
inductive Step (f f' : Feed ν κ μ) : List (Issue ν κ μ) → Prop
  /-- the view may change; afterwards a publication is owed -/
  | edits (howing : f'.owing) (hinbox : f'.inbox = f.inbox) : Step f f' []
  /-- the view stays, and what was owed is still owed -/
  | rests (hview : f'.view = f.view) (howing : f.owing → f'.owing)
      (hinbox : f'.inbox = f.inbox) : Step f f' []
  /-- the view is published -/
  | issues (e : Issue ν κ μ) (hcontent : e.content = f.view) (hview : f'.view = f.view)
      (hinbox : ∀ c, f'.inbox c = f.inbox c ++ e.taken c) : Step f f' [e]

/-- The inboxes and the view agree with the publications made. -/
structure Follows (f : Feed ν κ μ) (log : List (Issue ν κ μ)) : Prop where
  /-- an inbox holds what it took of each publication, in order -/
  history : ∀ c, f.inbox c = log.flatMap (·.taken c)
  /-- the last publication is current, or another one is owed -/
  current : f.owing ∨ ∀ last ∈ log.getLast?, last.content = f.view

namespace Follows

theorem start (hinbox : ∀ c, f.inbox c = []) : f.Follows [] where
  history := hinbox
  current := .inr (by simp)

theorem step {new : List (Issue ν κ μ)} (h : f.Follows log) (hstep : Step f f' new) :
    f'.Follows (log ++ new) := by
  cases hstep with
  | edits howing hinbox =>
      rw [List.append_nil]
      exact ⟨hinbox ▸ h.history, .inl howing⟩
  | rests hview howing hinbox =>
      rw [List.append_nil]
      exact ⟨hinbox ▸ h.history, h.current.imp howing fun hlast => hview ▸ hlast⟩
  | issues e hcontent hview hinbox =>
      constructor
      · intro c
        rw [hinbox, h.history, List.flatMap_append, List.flatMap_singleton]
      · refine .inr fun last hlast => ?_
        rw [List.getLast?_concat, Option.mem_some_iff] at hlast
        rw [← hlast, hcontent, hview]

/-- The last message of a kind is the one the last publication brought. -/
theorem getLast?_filter {last : Issue ν κ μ} (h : f.Follows log)
    (hlast : last ∈ log.getLast?) {c : κ} {m : μ} {kind : μ → Bool} (hm : m ∈ last.taken c)
    (hkind : kind m = true) (honly : ∀ m' ∈ last.taken c, kind m' = true → m' = m) :
    ((f.inbox c).filter kind).getLast? = some m := by
  obtain ⟨before, rfl⟩ := List.getLast?_eq_some_iff.mp hlast
  have hmem : m ∈ (last.taken c).filter kind := List.mem_filter.mpr ⟨hm, hkind⟩
  have hne : (last.taken c).filter kind ≠ [] := List.ne_nil_of_mem hmem
  rw [h.history, List.flatMap_append, List.flatMap_singleton, List.filter_append,
    List.getLast?_append_of_ne_nil _ hne, List.getLast?_eq_some_getLast hne]
  have hmem' := List.mem_filter.mp (List.getLast_mem hne)
  rw [honly _ hmem'.1 hmem'.2]

end Follows

end Feed

/-! ## Reading a queue -/

/-- What a reader may make of an item, and what the item asks for. -/
structure Reader (σ α : Type) where
  moves : σ → α → σ → Prop
  meets : σ → α → Prop

namespace Reader

variable {σ α : Type} (R : Reader σ α)

/-- The queue is read without a fault, whatever the reader makes of it. -/
def Along (Q : σ → Prop) : List α → σ → Prop
  | [], x => Q x
  | a :: rest, x => R.meets x a ∧ ∀ y, R.moves x a y → Along Q rest y

/-- The item asks for nothing and leaves the reader as it is. -/
structure Quiet (a : α) : Prop where
  meets : ∀ x, R.meets x a
  moves : ∀ x y, R.moves x a y ↔ y = x

variable {R} {Q Q' : σ → Prop} {xs ys : List α} {a : α} {x y : σ}

theorem Along.mono (hQ : ∀ x, Q x → Q' x) (h : R.Along Q xs x) : R.Along Q' xs x := by
  induction xs generalizing x with
  | nil => exact hQ x h
  | cons a rest ih => exact ⟨h.1, fun y hy => ih (h.2 y hy)⟩

theorem along_append : R.Along Q (xs ++ ys) x ↔ R.Along (R.Along Q ys) xs x := by
  induction xs generalizing x with
  | nil => exact Iff.rfl
  | cons a rest ih =>
      rw [List.cons_append, Along, Along]
      simp only [ih]

/-- The queue grows by items that may be read where it ends. -/
theorem Along.append (h : R.Along Q xs x) (hys : ∀ x, Q x → R.Along Q' ys x) :
    R.Along Q' (xs ++ ys) x :=
  along_append.mpr (h.mono hys)

/-- The end of the queue is lost. -/
theorem Along.left (h : R.Along Q (xs ++ ys) x) (hQ : ∀ x, Q' x) : R.Along Q' xs x :=
  (along_append.mp h).mono fun x _ => hQ x

theorem along_cons_of_quiet (ha : R.Quiet a) : R.Along Q (a :: xs) x ↔ R.Along Q xs x := by
  rw [Along]
  constructor
  · intro h
    exact h.2 x ((ha.moves x x).mpr rfl)
  · intro h
    refine ⟨ha.meets x, fun y hy => ?_⟩
    rw [(ha.moves x y).mp hy]
    exact h

/-- A quiet item is dropped from the middle of the queue. -/
theorem Along.drop (ha : R.Quiet a) (h : R.Along Q (xs ++ a :: ys) x) :
    R.Along Q (xs ++ ys) x :=
  along_append.mpr ((along_append.mp h).mono fun _ hrest => (along_cons_of_quiet ha).mp hrest)

end Reader

end War3BattleTool.Foundation

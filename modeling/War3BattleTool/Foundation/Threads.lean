import War3BattleTool.Foundation.Machine

set_option autoImplicit false

/-!
# The steps of one thread

A run interleaves the steps of many threads.  A thread is given by its local state (`view`)
and by the steps it takes itself (`own`); nobody else touches its local state (`Isolates`).
The steps it takes in a run (`strides`) then form a chain: each begins in the local state in
which the one before it ended, whatever the others did in between.
-/

namespace War3BattleTool.Foundation

/-- One step of a run. -/
structure Stride (σ ι : Type) where
  before : σ
  label : ι
  after : σ

namespace Machine

variable {σ ι ν : Type} {M : Machine σ ι} {view : σ → Option ν} {own : σ → ι → Bool}

/-- The step labelled `l`, if it passes the test. -/
def stride (M : Machine σ ι) (own : σ → ι → Bool) (s : σ) (l : ι) : List (Stride σ ι) :=
  if own s l then (M.step s l).toList.map (⟨s, l, ·⟩) else []

/-- The steps of a run that pass the test, in order. -/
def strides (M : Machine σ ι) (own : σ → ι → Bool) (s : σ) (labels : List ι) :
    List (Stride σ ι) :=
  M.report (M.stride own) s labels

/-- The steps take the local state from `v` to `v'`. -/
inductive Chain (M : Machine σ ι) (view : σ → Option ν) (own : σ → ι → Bool) :
    ν → List (Stride σ ι) → ν → Prop
  | nil {v : ν} : Chain M view own v [] v
  | cons {v v' v'' : ν} {t : Stride σ ι} {rest : List (Stride σ ι)} :
      own t.before t.label = true → M.step t.before t.label = some t.after →
      view t.before = some v → view t.after = some v' → Chain M view own v' rest v'' →
      Chain M view own v (t :: rest) v''

/-- The local state survives every step, and only the thread's own steps change it. -/
structure Isolates (M : Machine σ ι) (view : σ → Option ν) (own : σ → ι → Bool) : Prop where
  moved : ∀ {s l s' v}, M.step s l = some s' → view s = some v → own s l = true →
    ∃ v', view s' = some v'
  kept : ∀ {s l s' v}, M.step s l = some s' → view s = some v → own s l = false →
    view s' = some v

theorem strides_cons {s s' : σ} {l : ι} {labels : List ι} (h : M.step s l = some s') :
    M.strides own s (l :: labels) =
      (if own s l then [⟨s, l, s'⟩] else []) ++ M.strides own s' labels := by
  simp only [strides, report, stride, h]
  split <;> rfl

/-- The steps of a thread in a run form a chain. -/
theorem chain_of_exec (hview : Isolates M view own) {s s' : σ} {labels : List ι} {v : ν}
    (hv : view s = some v) (hrun : M.exec s labels = some s') :
    ∃ v', view s' = some v' ∧ Chain M view own v (M.strides own s labels) v' := by
  induction labels generalizing s v with
  | nil =>
      obtain rfl : s = s' := by simpa [exec] using hrun
      exact ⟨v, hv, .nil⟩
  | cons l labels ih =>
      obtain ⟨next, hs, hrest⟩ := Option.bind_eq_some_iff.mp hrun
      rw [strides_cons hs]
      cases hown : own s l with
      | true =>
          obtain ⟨v₁, hv₁⟩ := hview.moved hs hv hown
          obtain ⟨v', hv', hchain⟩ := ih hv₁ hrest
          exact ⟨v', hv', .cons hown hs hv hv₁ hchain⟩
      | false => exact ih (hview.kept hs hv hown) hrest

/-- Every step of a run starts in a state that the run reaches. -/
theorem reachable_of_mem_strides {s s' : σ} {labels : List ι} {t : Stride σ ι}
    (hreach : M.Reachable s) (hrun : M.exec s labels = some s')
    (ht : t ∈ M.strides own s labels) : M.Reachable t.before := by
  induction labels generalizing s with
  | nil => cases ht
  | cons l labels ih =>
      obtain ⟨next, hs, hrest⟩ := Option.bind_eq_some_iff.mp hrun
      rw [strides_cons hs] at ht
      rcases List.mem_append.mp ht with hfirst | hlater
      · split at hfirst
        · rw [List.mem_singleton.mp hfirst]
          exact hreach
        · cases hfirst
      · exact ih (.step hreach hs) hrest hlater

/-- The steps of a thread are its own steps of the run. -/
theorem of_mem_strides {s : σ} {labels : List ι} {t : Stride σ ι}
    (ht : t ∈ M.strides own s labels) :
    own t.before t.label = true ∧ M.step t.before t.label = some t.after ∧ t.label ∈ labels := by
  induction labels generalizing s with
  | nil => cases ht
  | cons l labels ih =>
      simp only [strides, report, List.mem_append] at ht
      rcases ht with hfirst | hlater
      · unfold stride at hfirst
        split at hfirst
        · next hown =>
          obtain ⟨s', hs', rfl⟩ := List.mem_map.mp hfirst
          exact ⟨hown, Option.mem_toList.mp hs', List.mem_cons_self⟩
        · cases hfirst
      · cases hs : M.step s l with
        | none => simp [hs] at hlater
        | some next =>
            rw [hs] at hlater
            obtain ⟨hown, hstep, hmem⟩ := ih hlater
            exact ⟨hown, hstep, List.mem_cons_of_mem _ hmem⟩

/-- What a thread knows about the state stays true when the others take their steps, and its
own steps see to it themselves: it knows it whenever it takes a step. -/
theorem rely (hview : Isolates M view own) (knows : ν → σ → Prop)
    (hkept : ∀ {s l s' v}, M.step s l = some s' → knows v s → knows v s') {s s' : σ}
    {labels : List ι} {v : ν} (hv : view s = some v) (hknows : knows v s)
    (hrun : M.exec s labels = some s')
    (hown : ∀ t ∈ M.strides own s labels, ∀ v v', view t.before = some v →
      view t.after = some v' → knows v t.before → knows v' t.after) :
    ∀ t ∈ M.strides own s labels, ∀ v, view t.before = some v → knows v t.before := by
  induction labels generalizing s v with
  | nil => simp [strides, report]
  | cons l labels ih =>
      obtain ⟨next, hs, hrest⟩ := Option.bind_eq_some_iff.mp hrun
      rw [strides_cons hs] at hown ⊢
      cases ho : own s l with
      | true =>
          obtain ⟨v₁, hv₁⟩ := hview.moved hs hv ho
          simp only [ho, if_true, List.singleton_append, List.forall_mem_cons] at hown ⊢
          refine ⟨fun w hw => ?_, ih hv₁ (hown.1 v v₁ hv hv₁ hknows) hrest hown.2⟩
          rw [hv, Option.some.injEq] at hw
          exact hw ▸ hknows
      | false =>
          simp only [ho, Bool.false_eq_true, if_false, List.nil_append] at hown ⊢
          exact ih (hview.kept hs hv ho) (hkept hs hknows) hrest hown

end Machine

end War3BattleTool.Foundation

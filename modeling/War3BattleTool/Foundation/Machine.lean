import Mathlib.Data.List.Basic

set_option autoImplicit false

/-!
# Executable transition systems and the rules for their runs

A `Machine` is a guarded step function: `step s l` is the state after the step
labelled `l`, or `none` when `l` is not enabled in `s`.  One definition serves
replay (`exec` runs a concrete list of labels, so a scenario is settled by
evaluation) and proof (`Reachable` and `Trace` carry the induction over whole
runs).

* `M.Reachable s`: some run of `M` ends in `s`.
* `M.Trace f events s`: some run ends in `s`, and its steps reported `events`
  through `f`, in order.
* `M.restrict ok`: the machine that takes only the steps allowed by `ok`.  Its
  runs are the runs of `M` all of whose steps meet the discipline `ok`.
* `Simulates M N abs move`: `abs` carries the runs of `M` to runs of `N`, step by step.
* `Implements M N abs f g pick`: the same when a step of `M` is several steps of `N`, or
  none.
* `Hushed hushes wakes loud events`: no loud event comes after one that hushes, unless one
  that wakes comes between the two.  The rule for it is a predicate of states (`Quiets`),
  which an event that hushes makes true, which every step but one that wakes keeps, and
  under which no step is loud.
-/

namespace War3BattleTool.Foundation

/-- An initial state and a guarded, executable step function. -/
structure Machine (σ ι : Type) where
  init : σ
  step : σ → ι → Option σ

namespace Machine

variable {σ ι ε : Type}

/-- The machine whose steps must also meet the discipline `ok`. -/
def restrict (M : Machine σ ι) (ok : σ → ι → Prop) [∀ s l, Decidable (ok s l)] :
    Machine σ ι where
  init := M.init
  step := fun s l => if ok s l then M.step s l else none

/-- Run the labels in order; `none` as soon as one of them is not enabled. -/
def exec (M : Machine σ ι) (s : σ) : List ι → Option σ
  | [] => some s
  | l :: ls => (M.step s l).bind fun next => exec M next ls

/-- What the steps of a run report, in order.  The recursion stops at the first
label that is not enabled. -/
def report (M : Machine σ ι) (f : σ → ι → List ε) (s : σ) : List ι → List ε
  | [] => []
  | l :: ls =>
      f s l ++ match M.step s l with
        | none => []
        | some next => report M f next ls

/-- The states of the runs that start in the initial state. -/
inductive Reachable (M : Machine σ ι) : σ → Prop
  | init : Reachable M M.init
  | step {s s' : σ} {l : ι} :
      Reachable M s → M.step s l = some s' → Reachable M s'

/-- `Trace M f events s`: some run ends in `s`, and its steps reported exactly
`events`. -/
inductive Trace (M : Machine σ ι) (f : σ → ι → List ε) : List ε → σ → Prop
  | init : Trace M f [] M.init
  | step {events : List ε} {s s' : σ} {l : ι} :
      Trace M f events s → M.step s l = some s' →
        Trace M f (events ++ f s l) s'

variable {M : Machine σ ι}

/-! ## Invariant rules -/

/-- What holds initially and is preserved by every step out of a reachable state
holds of every reachable state. -/
theorem Reachable.invariant {I : σ → Prop} (hinit : I M.init)
    (hstep : ∀ s l s', M.Reachable s → I s → M.step s l = some s' → I s')
    {s : σ} (h : M.Reachable s) : I s := by
  induction h with
  | init => exact hinit
  | step hreach hs ih => exact hstep _ _ _ hreach ih hs

/-- Every trace ends in a reachable state. -/
theorem Trace.reachable {f : σ → ι → List ε} {events : List ε} {s : σ}
    (h : M.Trace f events s) : M.Reachable s := by
  induction h with
  | init => exact .init
  | step _ hs ih => exact .step ih hs

/-- Every run is a trace. -/
theorem Reachable.exists_trace (f : σ → ι → List ε) {s : σ} (h : M.Reachable s) :
    ∃ events, M.Trace f events s := by
  induction h with
  | init => exact ⟨[], .init⟩
  | step _ hs ih =>
      obtain ⟨events, htrace⟩ := ih
      exact ⟨_, .step htrace hs⟩

/-- The invariant rule for a relation between the events reported so far and the
current state. -/
theorem Trace.invariant {f : σ → ι → List ε} {I : List ε → σ → Prop}
    (hinit : I [] M.init)
    (hstep : ∀ events s l s', M.Reachable s → I events s →
      M.step s l = some s' → I (events ++ f s l) s')
    {events : List ε} {s : σ} (h : M.Trace f events s) : I events s := by
  induction h with
  | init => exact hinit
  | step htrace hs ih => exact hstep _ _ _ _ htrace.reachable ih hs

/-! ## Restricted machines -/

section Restrict

variable {ok : σ → ι → Prop} [∀ s l, Decidable (ok s l)]

/-- A step of the restricted machine is a step of the machine that meets the
discipline. -/
theorem restrict_step {s s' : σ} {l : ι} :
    (M.restrict ok).step s l = some s' ↔ ok s l ∧ M.step s l = some s' := by
  simp only [restrict]
  by_cases hok : ok s l
  · simp [hok]
  · simp [hok]

/-- A run under a discipline is a run. -/
theorem Reachable.of_restrict {s : σ} (h : (M.restrict ok).Reachable s) :
    M.Reachable s := by
  induction h with
  | init => exact .init
  | step _ hs ih => exact .step ih (restrict_step.mp hs).2

end Restrict

/-! ## Simulation -/

/-- The map `abs` carries every step out of a reachable state of `M`, labelled
`l`, to the step of `N` labelled `move s l`. -/
structure Simulates {τ μ : Type} (M : Machine σ ι) (N : Machine τ μ) (abs : σ → τ)
    (move : σ → ι → μ) : Prop where
  init : abs M.init = N.init
  step : ∀ {s l s'}, M.Reachable s → M.step s l = some s' →
    N.step (abs s) (move s l) = some (abs s')

namespace Simulates

variable {τ μ : Type} {N : Machine τ μ} {abs : σ → τ} {move : σ → ι → μ}

/-- What is reachable maps to what is reachable. -/
theorem reachable (sim : Simulates M N abs move) {s : σ} (h : M.Reachable s) :
    N.Reachable (abs s) := by
  induction h with
  | init => exact sim.init ▸ .init
  | step hreach hs ih => exact .step ih (sim.step hreach hs)

/-- A trace maps to the trace that reports the same events. -/
theorem trace (sim : Simulates M N abs move) {f : σ → ι → List ε}
    {g : τ → μ → List ε} (hfg : ∀ s l, f s l = g (abs s) (move s l))
    {events : List ε} {s : σ} (h : M.Trace f events s) :
    N.Trace g events (abs s) := by
  induction h with
  | init => exact sim.init ▸ .init
  | step htrace hs ih => exact hfg _ _ ▸ .step ih (sim.step htrace.reachable hs)

/-- A simulation restricts to disciplines that correspond. -/
theorem restrict (sim : Simulates M N abs move) {ok : σ → ι → Prop}
    {ok' : τ → μ → Prop} [∀ s l, Decidable (ok s l)] [∀ s l, Decidable (ok' s l)]
    (hok : ∀ s l, M.Reachable s → ok s l → ok' (abs s) (move s l)) :
    Simulates (M.restrict ok) (N.restrict ok') abs move where
  init := sim.init
  step := by
    intro s l s' hreach hs
    obtain ⟨hallowed, hs⟩ := restrict_step.mp hs
    have hreach := hreach.of_restrict
    exact restrict_step.mpr ⟨hok s l hreach hallowed, sim.step hreach hs⟩

end Simulates

/-! ## Simulation by runs -/

/-- Some run leads from `s` to `s'` and reports `events`. -/
def Runs (M : Machine σ ι) (f : σ → ι → List ε) (s : σ) (events : List ε) (s' : σ) : Prop :=
  ∃ ls, M.exec s ls = some s' ∧ M.report f s ls = events

theorem Runs.refl (f : σ → ι → List ε) (s : σ) : M.Runs f s [] s := ⟨[], rfl, rfl⟩

theorem Runs.one {f : σ → ι → List ε} {s s' : σ} {l : ι} (h : M.step s l = some s') :
    M.Runs f s (f s l) s' :=
  ⟨[l], by simp [exec, h], by simp [report, h]⟩

theorem Runs.trans {f : σ → ι → List ε} {s s' s'' : σ} {events events' : List ε}
    (h : M.Runs f s events s') (h' : M.Runs f s' events' s'') :
    M.Runs f s (events ++ events') s'' := by
  obtain ⟨ls, hexec, rfl⟩ := h
  induction ls generalizing s with
  | nil =>
      obtain rfl : s = s' := by simpa [exec] using hexec
      simpa [report] using h'
  | cons l ls ih =>
      obtain ⟨next, hs, hrest⟩ := Option.bind_eq_some_iff.mp hexec
      obtain ⟨ls', hexec', hreport'⟩ := ih hrest
      refine ⟨l :: ls', by simp [exec, hs, hexec'], ?_⟩
      simp [report, hs, hreport', List.append_assoc]

theorem Runs.of_eq {f : σ → ι → List ε} {s s' s'' : σ} {events : List ε}
    (h : M.Runs f s events s') (heq : s' = s'') : M.Runs f s events s'' := heq ▸ h

/-- The map `abs` carries every step out of a reachable state of `M` to a run of `N`, which
reports what `pick` keeps of the events of the step. -/
structure Implements {τ μ δ : Type} (M : Machine σ ι) (N : Machine τ μ) (abs : σ → τ)
    (f : σ → ι → List ε) (g : τ → μ → List δ) (pick : ε → Option δ) : Prop where
  init : abs M.init = N.init
  step : ∀ {s l s'}, M.Reachable s → M.step s l = some s' →
    N.Runs g (abs s) ((f s l).filterMap pick) (abs s')

/-! ## Replaying concrete runs -/

theorem Reachable.exec {s s' : σ} {ls : List ι} (h : M.Reachable s)
    (hrun : M.exec s ls = some s') : M.Reachable s' := by
  induction ls generalizing s with
  | nil =>
      have : s = s' := by simpa [Machine.exec] using hrun
      exact this ▸ h
  | cons l ls ih =>
      obtain ⟨next, hs, hrest⟩ := Option.bind_eq_some_iff.mp hrun
      exact ih (.step h hs) hrest

/-- A run goes on from the end of another one. -/
theorem exec_append {s s' : σ} {ls ls' : List ι} (hrun : M.exec s ls = some s') :
    M.exec s (ls ++ ls') = M.exec s' ls' := by
  induction ls generalizing s with
  | nil =>
      have : s = s' := by simpa [Machine.exec] using hrun
      exact this ▸ rfl
  | cons l ls ih =>
      obtain ⟨next, hs, hrest⟩ := Option.bind_eq_some_iff.mp hrun
      rw [List.cons_append, Machine.exec, hs, Option.bind_some, ih hrest]

/-- What every step whose label meets `ok` preserves, of what was reported so far and of the state,
holds after a run of such labels. -/
theorem exec_report_invariant {f : σ → ι → List ε} {I : List ε → σ → Prop} {ok : ι → Prop}
    (hstep : ∀ log s l s', ok l → I log s → M.step s l = some s' → I (log ++ f s l) s')
    (log : List ε) {s s' : σ} {ls : List ι} (hI : I log s) (hok : ∀ l ∈ ls, ok l)
    (hrun : M.exec s ls = some s') : I (log ++ M.report f s ls) s' := by
  induction ls generalizing s log with
  | nil =>
      have : s = s' := by simpa [Machine.exec] using hrun
      subst this
      simpa [report] using hI
  | cons l ls ih =>
      obtain ⟨next, hs, hrest⟩ := Option.bind_eq_some_iff.mp hrun
      have hnext := hstep log s l next (hok l List.mem_cons_self) hI hs
      have hlast := ih _ hnext (fun l' hl' => hok l' (List.mem_cons_of_mem l hl')) hrest
      simpa [report, hs, List.append_assoc] using hlast

/-- The same of the state alone. -/
theorem exec_invariant {I : σ → Prop} {ok : ι → Prop}
    (hstep : ∀ s l s', ok l → I s → M.step s l = some s' → I s') {s s' : σ} {ls : List ι}
    (hI : I s) (hok : ∀ l ∈ ls, ok l) (hrun : M.exec s ls = some s') : I s' :=
  exec_report_invariant (M := M) (f := fun _ _ => ([] : List Unit)) (I := fun _ s => I s)
    (fun _ s l s' => hstep s l s') [] hI hok hrun

/-- The end of a successful replay is reachable. -/
theorem reachable_of_exec {s : σ} {ls : List ι}
    (hrun : M.exec M.init ls = some s) : M.Reachable s :=
  Reachable.init.exec hrun

theorem Trace.exec {f : σ → ι → List ε} {events : List ε} {s s' : σ}
    {ls : List ι} (h : M.Trace f events s) (hrun : M.exec s ls = some s') :
    M.Trace f (events ++ M.report f s ls) s' := by
  induction ls generalizing s events with
  | nil =>
      have : s = s' := by simpa [Machine.exec] using hrun
      subst this
      simpa [report] using h
  | cons l ls ih =>
      obtain ⟨next, hs, hrest⟩ := Option.bind_eq_some_iff.mp hrun
      have hnext := ih (.step h hs) hrest
      simpa [report, hs, List.append_assoc] using hnext

/-- A trace maps to a trace that reports what `pick` keeps of its events. -/
theorem Implements.trace {τ μ δ : Type} {N : Machine τ μ} {abs : σ → τ}
    {f : σ → ι → List ε} {g : τ → μ → List δ} {pick : ε → Option δ}
    (impl : Implements M N abs f g pick) {events : List ε} {s : σ}
    (h : M.Trace f events s) : N.Trace g (events.filterMap pick) (abs s) := by
  induction h with
  | init => exact impl.init ▸ .init
  | step htrace hs ih =>
      obtain ⟨moves, hexec, hreport⟩ := impl.step htrace.reachable hs
      rw [List.filterMap_append, ← hreport]
      exact ih.exec hexec

/-- A successful replay is a run that reports what `report` computes. -/
theorem trace_of_exec {f : σ → ι → List ε} {s : σ} {ls : List ι}
    (hrun : M.exec M.init ls = some s) : M.Trace f (M.report f M.init ls) s := by
  simpa using Trace.init.exec hrun

/-- A concrete run whose last state passes a test yields a reachable state that
passes it. -/
theorem exists_reachable_of_exec {test : σ → Bool} {ls : List ι}
    (hrun : (M.exec M.init ls).any test = true) :
    ∃ s, M.exec M.init ls = some s ∧ M.Reachable s ∧ test s = true := by
  cases hs : M.exec M.init ls with
  | none => simp [hs] at hrun
  | some s => exact ⟨s, rfl, reachable_of_exec hs, by simpa [hs] using hrun⟩

end Machine

/-! ## Silence after an event -/

/-- Between an event that hushes and a later one that is loud, there is one that wakes. -/
def Hushed {ε : Type} (hushes wakes loud : ε → Prop) (events : List ε) : Prop :=
  ∀ (pre mid post : List ε) (x y : ε), events = pre ++ x :: mid ++ y :: post → hushes x → loud y →
    ∃ z ∈ mid, wakes z

namespace Machine

variable {σ ι ε : Type}

/-- The predicate `Q` holds from an event that hushes to the next one that wakes. -/
structure Quiets (M : Machine σ ι) (f : σ → ι → Option ε) (hushes wakes loud : ε → Prop)
    (Q : σ → Prop) : Prop where
  enters : ∀ {s l s' e}, M.Reachable s → M.step s l = some s' → f s l = some e → hushes e → Q s'
  keeps : ∀ {s l s'}, M.Reachable s → Q s → M.step s l = some s' →
    (∀ e, f s l = some e → ¬ wakes e) → Q s'
  silent : ∀ {s l s' e}, M.Reachable s → Q s → M.step s l = some s' → f s l = some e → ¬ loud e

variable {M : Machine σ ι} {f : σ → ι → Option ε} {hushes wakes loud : ε → Prop} {Q : σ → Prop}

/-- An event has hushed the machine, and none has woken it since. -/
def Silent (hushes wakes : ε → Prop) (events : List ε) : Prop :=
  ∃ pre x mid, events = pre ++ x :: mid ∧ hushes x ∧ ∀ z ∈ mid, ¬ wakes z

theorem silent_concat {events : List ε} {e : ε} (h : Silent hushes wakes (events ++ [e])) :
    hushes e ∨ Silent hushes wakes events ∧ ¬ wakes e := by
  obtain ⟨pre, x, mid, heq, hx, hmid⟩ := h
  rcases List.eq_nil_or_concat mid with rfl | ⟨mid, y, rfl⟩
  · obtain ⟨_, hlast⟩ := List.append_inj' heq rfl
    cases hlast
    exact .inl hx
  · rw [List.concat_eq_append, ← List.cons_append, ← List.append_assoc] at heq
    obtain ⟨rfl, hlast⟩ := List.append_inj' heq rfl
    cases hlast
    exact .inr ⟨⟨pre, x, mid, rfl, hx, fun z hz => hmid z (by simp [hz])⟩, hmid e (by simp)⟩

theorem hushed_concat {events : List ε} {e : ε} (h : Hushed hushes wakes loud events)
    (he : Silent hushes wakes events → ¬ loud e) : Hushed hushes wakes loud (events ++ [e]) := by
  intro pre mid post x y heq hx hy
  rcases List.eq_nil_or_concat post with rfl | ⟨post, z, rfl⟩
  · obtain ⟨rfl, hlast⟩ := List.append_inj' heq rfl
    cases hlast
    by_contra hwakes
    exact he ⟨pre, x, mid, rfl, hx, fun z hz hz' => hwakes ⟨z, hz, hz'⟩⟩ hy
  · rw [List.concat_eq_append, ← List.cons_append, ← List.append_assoc] at heq
    obtain ⟨hevents, _⟩ := List.append_inj' heq rfl
    exact h pre mid post x y hevents hx hy

/-- The rule for `Hushed`. -/
theorem Quiets.hushed (hQ : Quiets M f hushes wakes loud Q) {events : List ε} {s : σ}
    (h : M.Trace (fun s l => (f s l).toList) events s) : Hushed hushes wakes loud events := by
  suffices hboth : Hushed hushes wakes loud events ∧ (Silent hushes wakes events → Q s) from hboth.1
  induction h with
  | init =>
      refine ⟨fun pre mid post x y heq => ?_, fun ⟨pre, x, mid, heq, _⟩ => ?_⟩
      · simp at heq
      · simp at heq
  | @step events s s' l htrace hstep ih =>
      obtain ⟨hhushed, hquiet⟩ := ih
      have hreach := htrace.reachable
      cases he : f s l with
      | none =>
          rw [Option.toList_none, List.append_nil]
          refine ⟨hhushed, fun hsilent => hQ.keeps hreach (hquiet hsilent) hstep fun e hsome => ?_⟩
          rw [he] at hsome
          cases hsome
      | some e =>
          refine ⟨hushed_concat hhushed fun hsilent => hQ.silent hreach (hquiet hsilent) hstep he,
            fun hsilent => ?_⟩
          rcases silent_concat hsilent with hhushes | ⟨hbefore, hwakes⟩
          · exact hQ.enters hreach hstep he hhushes
          · refine hQ.keeps hreach (hquiet hbefore) hstep fun e' hsome => ?_
            rw [he] at hsome
            cases hsome
            exact hwakes

end Machine

end War3BattleTool.Foundation

import War3BattleTool.Server.Standing

set_option autoImplicit false

/-!
# The server with its locks

`Lobby` takes every lock-guarded block for one step.  Here the tasks take the locks one by one,
wait for each other, and may be cancelled while they wait.  The steps of the server are still
those of `Lobby`; what is under a lock stays as it is until its holder has run its block
(`sameMap_of_run`), and no task waits for ever because others do (`sections_end`).
-/

namespace War3BattleTool.Server

open War3BattleTool.Foundation War3BattleTool.Protocol

/-- The server, and who holds which lock. -/
structure Locked where
  lobby : Lobby
  locks : Locks MapLock ServerTask

namespace Locked

/-- What can happen next. -/
inductive Label where
  /-- a task comes to its next block -/
  | enter (t : ServerTask)
  /-- a task asks for the next lock of its block -/
  | ask (t : ServerTask)
  /-- a lock is given to the first task in its queue -/
  | grant (k : MapLock)
  /-- a step of the server; a task runs its block when it has all of its locks -/
  | act (l : Lobby.Label)
  /-- a request is given up before it is served -/
  | abandon (t : ServerTask)

/-- The server after startup. -/
def start : Locked where
  lobby := .start
  locks := .start

/-- The request of the connection has not been served. -/
def isNew (s : Lobby) : ServerTask → Bool
  | .socket c => (s.sockets.get? c).isNone
  | .tunnel c => (s.tunnel.pcOf c).isNone
  | .cleanup => false

/-- The locks after the block of a task, which has all of its locks and gives them back. -/
def finish (s : Locked) : Option ServerTask → Option (Locks MapLock ServerTask)
  | some t => if s.lobby.wanted t = [] then some s.locks else s.locks.step (.leave t)
  | none => some s.locks

/-- The locks after a step of the server. -/
def release (s : Locked) : Lobby.Label → Option (Locks MapLock ServerTask)
  | .drop c => some (s.locks.out (.socket c))
  | l => s.finish l.task

/-- One step. -/
def step (s : Locked) : Label → Option Locked
  | .enter t =>
      if s.lobby.wanted t = [] then none
      else (s.locks.step (.enter t (s.lobby.wanted t))).map fun locks => { s with locks := locks }
  | .ask t => (s.locks.step (.ask t)).map fun locks => { s with locks := locks }
  | .grant k => (s.locks.step (.grant k)).map fun locks => { s with locks := locks }
  | .act l =>
      (s.lobby.step l).bind fun lobby => (s.release l).map fun locks => ⟨lobby, locks⟩
  | .abandon t =>
      if isNew s.lobby t then (s.locks.step (.cancel t)).map fun locks => { s with locks := locks }
      else none

/-- The server with its locks as a machine. -/
def machine : Machine Locked Label where
  init := start
  step := step

/-- The step goes on with a section that has begun. -/
def goesOn (s : Locked) : Label → Bool
  | .ask _ | .grant _ => true
  | .act l => l.task.any fun t => s.lobby.wanted t ≠ []
  | .enter _ | .abandon _ => false

/-- The task whose section a step ends. -/
def Label.ends : Label → Option ServerTask
  | .act l => l.ends
  | .abandon t => some t
  | _ => none

/-! ## What holds in every state -/

/-- The locks are in order, and a task in a section takes the locks of its next block. -/
structure Sound (s : Locked) : Prop where
  locks : Locks.Sound MapLock.rank s.locks
  opened : ∀ t, s.locks.visit t ≠ .outside → s.lobby.wanted t ≠ []
  mem : ∀ t, s.locks.visit t ≠ .outside → ∀ a,
    a ∈ s.lobby.wanted t ↔ a ∈ (s.locks.visit t).held ∨ a ∈ (s.locks.visit t).todo

variable {s s' : Locked} {t : ServerTask}

theorem visit_out (s : Locks MapLock ServerTask) (t t' : ServerTask) :
    (s.out t).visit t' = if t' = t then .outside else s.visit t' := Locks.visit_move ..

/-- A step of the server ends the section of its task, and no other. -/
theorem release_cases {l : Lobby.Label} {locks : Locks MapLock ServerTask}
    (hrelease : s.release l = some locks) :
    (∃ t, l.ends = some t ∧ locks = s.locks.out t) ∨
      ((∀ t, l.ends = some t → s.lobby.wanted t = []) ∧ locks = s.locks) := by
  have hfinish : ∀ task : Option ServerTask, s.finish task = some locks →
      (∃ t, task = some t ∧ locks = s.locks.out t) ∨
        ((∀ t, task = some t → s.lobby.wanted t = []) ∧ locks = s.locks) := by
    intro task hfinish
    cases task with
    | none => exact .inr ⟨by rintro t ⟨⟩, (Option.some.inj hfinish).symm⟩
    | some t =>
        simp only [finish] at hfinish
        split at hfinish
        next hwanted =>
          refine .inr ⟨?_, (Option.some.inj hfinish).symm⟩
          rintro t' ⟨⟩
          exact hwanted
        next =>
          simp only [Locks.step] at hfinish
          split at hfinish <;> cases hfinish
          exact .inl ⟨t, rfl, rfl⟩
  cases l with
  | drop c => exact .inl ⟨.socket c, rfl, (Option.some.inj hrelease).symm⟩
  | _ => exact hfinish _ hrelease

/-- A task whose section goes on stands before the same block. -/
theorem Sound.continues {locks : Locks MapLock ServerTask} (hs : s.Sound)
    (hlocks : Locks.Sound MapLock.rank locks)
    (hvisit : ∀ t, (s.locks.visit t).Continues (locks.visit t)) :
    Sound { s with locks := locks } where
  locks := hlocks
  opened := fun t hin => hs.opened t fun hout => hin ((hvisit t).outside.mpr hout)
  mem := fun t hin a =>
    (hs.mem t (fun hout => hin ((hvisit t).outside.mpr hout)) a).trans ((hvisit t).mem a).symm

/-- A step of the server leaves the sections of the other tasks as they are. -/
theorem Sound.act {l : Lobby.Label} (hs : s.Sound) (hstep : s.step (.act l) = some s') :
    s'.Sound := by
  obtain ⟨lobby, hlobby, hmap⟩ := Option.bind_eq_some_iff.mp hstep
  obtain ⟨locks, hrelease, rfl⟩ := Option.map_eq_some_iff.mp hmap
  have hcases := release_cases hrelease
  have hsound : Locks.Sound MapLock.rank locks := by
    rcases hcases with ⟨t', _, rfl⟩ | ⟨_, rfl⟩
    · exact hs.locks.out
    · exact hs.locks
  -- A task that is inside after the step was inside before it, and did not act.
  have hkept : ∀ t, locks.visit t ≠ .outside →
      locks.visit t = s.locks.visit t ∧ lobby.wanted t = s.lobby.wanted t := by
    intro t hin
    rcases hcases with ⟨t', ht', rfl⟩ | ⟨hends, rfl⟩
    · rw [visit_out] at hin ⊢
      split at hin
      · exact absurd rfl hin
      next hne =>
        rw [if_neg hne]
        refine ⟨rfl, Lobby.wanted_of_step hlobby ?_ (hs.opened t hin)⟩
        rw [ht']
        exact fun heq => hne (Option.some.inj heq).symm
    · exact ⟨rfl, Lobby.wanted_of_step hlobby (fun ht => hs.opened t hin (hends t ht))
        (hs.opened t hin)⟩
  refine ⟨hsound, fun t hin => ?_, fun t hin => ?_⟩
  · obtain ⟨hvisit, hwanted⟩ := hkept t hin
    rw [hwanted]
    exact hs.opened t (hvisit ▸ hin)
  · obtain ⟨hvisit, hwanted⟩ := hkept t hin
    rw [hwanted, hvisit]
    exact hs.mem t (hvisit ▸ hin)

theorem Sound.step {l : Label} (hs : s.Sound) (hstep : s.step l = some s') : s'.Sound := by
  cases l with
  | enter t =>
      simp only [Locked.step] at hstep
      split at hstep
      · cases hstep
      next hopen =>
        obtain ⟨locks, henter, rfl⟩ := Option.map_eq_some_iff.mp hstep
        have hsound : Locks.Sound MapLock.rank locks := by
          refine hs.locks.step henter ?_
          rintro t' wanted heq
          cases heq
          exact s.lobby.rising_wanted t
        simp only [Locks.step] at henter
        split at henter <;> cases henter
        refine ⟨hsound, fun t' hin => ?_, fun t' hin => ?_⟩
        · rw [Locks.visit_move] at hin
          split at hin
          next heq => rwa [heq]
          next => exact hs.opened t' hin
        · rw [Locks.visit_move] at hin ⊢
          split
          next heq => simp [heq]
          next hne =>
            rw [if_neg hne] at hin
            exact hs.mem t' hin
  | ask t =>
      obtain ⟨locks, hask, rfl⟩ := Option.map_eq_some_iff.mp hstep
      exact hs.continues (hs.locks.ask hask) fun _ => Locks.continues_ask hask
  | grant k =>
      obtain ⟨locks, hgrant, rfl⟩ := Option.map_eq_some_iff.mp hstep
      exact hs.continues (hs.locks.grant hgrant) fun _ => Locks.continues_grant hs.locks hgrant
  | act l => exact hs.act hstep
  | abandon t =>
      simp only [Locked.step] at hstep
      split at hstep
      · obtain ⟨locks, hcancel, rfl⟩ := Option.map_eq_some_iff.mp hstep
        simp only [Locks.step] at hcancel
        split at hcancel <;> cases hcancel
        refine ⟨hs.locks.out, fun t' hin => ?_, fun t' hin => ?_⟩
        · rw [visit_out] at hin
          split at hin
          · exact absurd rfl hin
          · exact hs.opened t' hin
        · rw [visit_out] at hin ⊢
          split at hin
          · exact absurd rfl hin
          next hne =>
            rw [if_neg hne]
            exact hs.mem t' hin
      · cases hstep

theorem sound_of_reachable (h : machine.Reachable s) : s.Sound := by
  refine h.invariant ?_ fun _ _ _ _ hs hstep => hs.step hstep
  exact ⟨Locks.Sound.start, fun _ hin => absurd rfl hin, fun _ hin => absurd rfl hin⟩

/-- The steps of the server are those of `Lobby`. -/
theorem lobby_of_step {l : Label} (hstep : s.step l = some s') :
    (∃ m, l = .act m ∧ s.lobby.step m = some s'.lobby) ∨ s'.lobby = s.lobby := by
  cases l with
  | act m =>
      obtain ⟨lobby, hlobby, hmap⟩ := Option.bind_eq_some_iff.mp hstep
      obtain ⟨locks, _, rfl⟩ := Option.map_eq_some_iff.mp hmap
      exact .inl ⟨m, rfl, hlobby⟩
  | enter t | abandon t =>
      simp only [step] at hstep
      split at hstep
      all_goals first
        | cases hstep
        | obtain ⟨locks, _, rfl⟩ := Option.map_eq_some_iff.mp hstep
          exact .inr rfl
  | ask t | grant k =>
      obtain ⟨locks, _, rfl⟩ := Option.map_eq_some_iff.mp hstep
      exact .inr rfl

theorem lobby_of_reachable (h : machine.Reachable s) : Lobby.machine.Reachable s.lobby := by
  induction h with
  | init => exact .init
  | step _ hstep ih =>
      rcases lobby_of_step hstep with ⟨m, _, hlobby⟩ | hlobby
      · exact .step ih hlobby
      · rwa [hlobby]

/-! ## What is under a lock -/

variable {k : MapLock} {m : LockMode}

/-- A task keeps its locks until its section ends. -/
theorem held_of_step {l : Label} (hs : s.Sound) (hstep : s.step l = some s')
    (hl : l.ends ≠ some t) (hheld : (k, m) ∈ (s.locks.visit t).held) :
    (k, m) ∈ (s'.locks.visit t).held := by
  cases l with
  | enter t' =>
      simp only [step] at hstep
      split at hstep
      · cases hstep
      · obtain ⟨locks, henter, rfl⟩ := Option.map_eq_some_iff.mp hstep
        simp only [Locks.step] at henter
        split at henter <;> cases henter
        next hout =>
          rw [Locks.visit_move]
          split
          next heq =>
            rw [heq, hout] at hheld
            cases hheld
          next => exact hheld
  | ask t' =>
      obtain ⟨locks, hask, rfl⟩ := Option.map_eq_some_iff.mp hstep
      exact (Locks.continues_ask hask).held _ hheld
  | grant k' =>
      obtain ⟨locks, hgrant, rfl⟩ := Option.map_eq_some_iff.mp hstep
      exact (Locks.continues_grant hs.locks hgrant).held _ hheld
  | act l =>
      obtain ⟨lobby, _, hmap⟩ := Option.bind_eq_some_iff.mp hstep
      obtain ⟨locks, hrelease, rfl⟩ := Option.map_eq_some_iff.mp hmap
      rcases release_cases hrelease with ⟨t', ht', rfl⟩ | ⟨_, rfl⟩
      · have hne : t ≠ t' := by
          rintro rfl
          exact hl ht'
        rwa [visit_out, if_neg hne]
      · exact hheld
  | abandon t' =>
      simp only [step] at hstep
      split at hstep
      · obtain ⟨locks, hcancel, rfl⟩ := Option.map_eq_some_iff.mp hstep
        have hne : t ≠ t' := by
          rintro rfl
          exact hl rfl
        simp only [Locks.step] at hcancel
        split at hcancel <;> cases hcancel
        rwa [visit_out, if_neg hne]
      · cases hstep

theorem ends_of_task {l : Lobby.Label} (hl : l.task = some t) : l.ends = some t := by
  cases l with
  | drop c => cases hl
  | _ => exact hl

/-- A task that runs its block has all of its locks. -/
theorem working_of_act {l : Lobby.Label} (hstep : s.step (.act l) = some s') (hl : l.task = some t)
    (hopen : s.lobby.wanted t ≠ []) : ∃ held, s.locks.visit t = .working held := by
  obtain ⟨lobby, _, hmap⟩ := Option.bind_eq_some_iff.mp hstep
  obtain ⟨locks, hrelease, _⟩ := Option.map_eq_some_iff.mp hmap
  have hfinish : s.finish l.task = some locks := by
    cases l with
    | drop c => cases hl
    | _ => exact hrelease
  rw [hl, finish, if_neg hopen] at hfinish
  simp only [Locks.step] at hfinish
  split at hfinish <;> cases hfinish
  next hvisit _ => exact ⟨_, hvisit⟩

/-- Nobody else changes a map while a task has its lock. -/
theorem sameMap_of_held {l : Label} (hs : s.Sound) (hstep : s.step l = some s')
    (hl : l.ends ≠ some t) (hheld : (k, m) ∈ (s.locks.visit t).held) :
    s.lobby.SameMap s'.lobby k := by
  rcases lobby_of_step hstep with ⟨l, rfl, hlobby⟩ | hlobby
  · refine Lobby.sameMap_of_step hlobby fun t' ht' hwrite => ?_
    obtain ⟨held, hvisit⟩ := working_of_act hstep ht' (List.ne_nil_of_mem hwrite)
    have hin : s.locks.visit t' ≠ .outside := by
      rw [hvisit]
      rintro ⟨⟩
    have hheld' : (k, .write) ∈ (s.locks.visit t').held := by
      rcases (hs.mem t' hin _).mp hwrite with hmem | hmem
      · exact hmem
      · rw [hvisit] at hmem
        cases hmem
    obtain rfl := hs.locks.eq_of_write hheld' hheld
    exact hl (ends_of_task ht')
  · rw [hlobby]
    exact Lobby.sameMap_of_maps rfl rfl

theorem sameMap_trans {s s' s'' : Lobby} (h : s.SameMap s' k) (h' : s'.SameMap s'' k) :
    s.SameMap s'' k := by
  cases k <;> exact h'.trans h

/-- From the moment at which a task gets a lock until it has run its block, the map under the
lock stays as it is, whatever everybody else does. -/
theorem sameMap_of_run {labels : List Label} (hs : machine.Reachable s)
    (hrun : machine.exec s labels = some s') (hends : ∀ l ∈ labels, l.ends ≠ some t)
    (hheld : (k, m) ∈ (s.locks.visit t).held) :
    s.lobby.SameMap s'.lobby k ∧ (k, m) ∈ (s'.locks.visit t).held := by
  induction labels generalizing s with
  | nil =>
      cases hrun
      exact ⟨Lobby.sameMap_of_maps rfl rfl, hheld⟩
  | cons l labels ih =>
      obtain ⟨s₁, hstep, hrest⟩ := Option.bind_eq_some_iff.mp hrun
      rw [List.forall_mem_cons] at hends
      have hsound := sound_of_reachable hs
      have hsame := sameMap_of_held hsound hstep hends.1 hheld
      obtain ⟨hrestSame, hkept⟩ := ih (.step hs hstep) hrest hends.2
        (held_of_step hsound hstep hends.1 hheld)
      exact ⟨sameMap_trans hsame hrestSame, hkept⟩

/-- Two clients ask for a lobby connection; the first of them has the lock. -/
def contended : List Label :=
  [.enter (.socket 0), .ask (.socket 0), .enter (.socket 1), .ask (.socket 1),
    .grant .connections]

/-- Meanwhile a third client asks for one, and a tunnel connection is admitted. -/
def waitsOutside : List Label :=
  [.enter (.socket 2), .ask (.socket 2), .enter (.tunnel 2), .ask (.tunnel 2),
    .grant .tunnelConnections,
    .act (.tunnel (.request 2 true (.v4 0x08080808) (some "t") (some "host")))]

/-- Two clients want the map that the first one holds. -/
theorem sameMap_contended : ∃ s s', machine.Reachable s ∧
    machine.exec s waitsOutside = some s' ∧
      (.connections, .write) ∈ (s.locks.visit (.socket 0)).held ∧
      (s'.locks.lock .connections).queue = [(.socket 1, .write), (.socket 2, .write)] ∧
      s.lobby.SameMap s'.lobby .connections ∧
      (.connections, .write) ∈ (s'.locks.visit (.socket 0)).held := by
  have hrun : (machine.exec machine.init contended).any (fun s =>
      decide ((.connections, .write) ∈ (s.locks.visit (.socket 0)).held) &&
        (machine.exec s waitsOutside).any fun s' => decide
          ((s'.locks.lock .connections).queue = [(.socket 1, .write), (.socket 2, .write)])) =
      true := by decide
  obtain ⟨s, _, hreach, htest⟩ := Machine.exists_reachable_of_exec hrun
  rw [Bool.and_eq_true, decide_eq_true_eq] at htest
  obtain ⟨s', hrun, hqueue⟩ := Option.any_eq_true _ _ |>.mp htest.2
  exact ⟨s, s', hreach, hrun, htest.1, of_decide_eq_true hqueue,
    sameMap_of_run hreach hrun (by decide) htest.1⟩

/-! ## Sections end -/

variable {T : Finset ServerTask}

/-- As long as some task is in a section, some task that is in a section can go on. -/
theorem exists_goesOn (hs : machine.Reachable s) (hin : s.locks.visit t ≠ .outside) :
    ∃ l s', s.goesOn l = true ∧ s.step l = some s' := by
  have hsound := sound_of_reachable hs
  obtain ⟨l, hown, hstep⟩ := hsound.locks.exists_move hin
  obtain ⟨locks, hlocks⟩ := Option.isSome_iff_exists.mp hstep
  cases l with
  | enter t' wanted | cancel t' => cases hown
  | ask t' =>
      refine ⟨.ask t', { s with locks := locks }, rfl, ?_⟩
      simp only [step, hlocks, Option.map_some]
  | grant k =>
      refine ⟨.grant k, { s with locks := locks }, rfl, ?_⟩
      simp only [step, hlocks, Option.map_some]
  | leave t' =>
      -- The task has all of its locks, so it can run its block.
      have hin' : s.locks.visit t' ≠ .outside := by
        intro hout
        simp [Locks.step, hout] at hstep
      obtain ⟨l, lobby, htask, hlobby⟩ := Lobby.exists_act
        (Lobby.drawsOnce_of_reachable (lobby_of_reachable hs)) (hsound.opened t' hin')
      have hrelease : s.release l = some locks := by
        have hfinish : s.finish l.task = some locks := by
          rw [htask, finish, if_neg (hsound.opened t' hin'), hlocks]
        cases l with
        | drop c => cases htask
        | _ => exact hfinish
      refine ⟨.act l, ⟨lobby, locks⟩, ?_, ?_⟩
      · simp [goesOn, htask, hsound.opened t' hin']
      · simp only [step, hlobby, hrelease, Option.bind_some, Option.map_some]

/-- When no new section begins, each step of a section takes one off the work that is left, and
no other step adds to it. -/
theorem work_of_step {l : Label} (hs : s.Sound) (hT : s.locks.Within T)
    (hstep : s.step l = some s') (hl : ∀ t, l ≠ .enter t) :
    s'.locks.Within T ∧
      s'.locks.work T + (if s.goesOn l then 1 else 0) ≤ s.locks.work T := by
  have hmove : ∀ {m locks}, Locks.Move.isOwn m = true → s.locks.step m = some locks →
      locks.Within T ∧ locks.work T + 1 ≤ s.locks.work T := by
    intro m locks hown hlocks
    obtain ⟨hwithin, hwork⟩ := Locks.work_of_move hs.locks hT hown hlocks
    exact ⟨hwithin, hwork.le⟩
  cases l with
  | enter t => exact absurd rfl (hl t)
  | ask t =>
      obtain ⟨locks, hask, rfl⟩ := Option.map_eq_some_iff.mp hstep
      exact hmove rfl hask
  | grant k =>
      obtain ⟨locks, hgrant, rfl⟩ := Option.map_eq_some_iff.mp hstep
      exact hmove rfl hgrant
  | act l =>
      obtain ⟨lobby, _, hmap⟩ := Option.bind_eq_some_iff.mp hstep
      obtain ⟨locks, hrelease, rfl⟩ := Option.map_eq_some_iff.mp hmap
      by_cases hgoes : s.goesOn (.act l) = true
      · rw [if_pos hgoes]
        simp only [goesOn, Option.any_eq_true, decide_eq_true_eq] at hgoes
        obtain ⟨t, htask, hopen⟩ := hgoes
        have hfinish : s.finish l.task = some locks := by
          cases l with
          | drop c => cases htask
          | _ => exact hrelease
        rw [htask, finish, if_neg hopen] at hfinish
        exact hmove rfl hfinish
      · rw [if_neg hgoes]
        rcases release_cases hrelease with ⟨t, _, rfl⟩ | ⟨_, rfl⟩
        · exact Locks.work_out t hT
        · exact ⟨hT, Nat.le_refl _⟩
  | abandon t =>
      simp only [step] at hstep
      split at hstep
      · obtain ⟨locks, hcancel, rfl⟩ := Option.map_eq_some_iff.mp hstep
        simp only [Locks.step] at hcancel
        split at hcancel <;> cases hcancel
        exact Locks.work_out t hT
      · cases hstep

/-- The steps of sections in a run. -/
def sectionSteps (s : Locked) (labels : List Label) : List (Stride Locked Label) :=
  machine.strides (fun s l => s.goesOn l) s labels

/-- When no new section begins, the sections that have begun end: only so many of their steps
are left, and until then some task can go on. -/
theorem sections_end (hs : machine.Reachable s) : ∃ n, ∀ labels s',
    (∀ t, .enter t ∉ labels) → machine.exec s labels = some s' →
      (s.sectionSteps labels).length ≤ n ∧
        ((∀ t, s'.locks.visit t = .outside) ∨ ∃ l s'', s'.goesOn l = true ∧
          s'.step l = some s'') := by
  obtain ⟨T, hT⟩ := (sound_of_reachable hs).locks.finite
  refine ⟨s.locks.work T, fun labels s' henter hrun => ⟨?_, ?_⟩⟩
  · have hwork : ∀ labels s, machine.Reachable s → s.locks.Within T →
        (∀ t, Label.enter t ∉ labels) → ∀ s', machine.exec s labels = some s' →
          (s.sectionSteps labels).length ≤ s.locks.work T := by
      intro labels
      induction labels with
      | nil => intros; exact Nat.zero_le _
      | cons l labels ih =>
          intro s hs hT henter s' hrun
          obtain ⟨s₁, hstep, hrest⟩ := Option.bind_eq_some_iff.mp hrun
          obtain ⟨hT', hle⟩ := work_of_step (sound_of_reachable hs) hT hstep
            fun t heq => henter t (heq ▸ List.mem_cons_self ..)
          have hlater := ih s₁ (.step hs hstep) hT'
            (fun t hmem => henter t (List.mem_cons_of_mem _ hmem)) s' hrest
          have hcount : (s.sectionSteps (l :: labels)).length =
              (if s.goesOn l then 1 else 0) + (s₁.sectionSteps labels).length := by
            rw [sectionSteps, Machine.strides_cons hstep, List.length_append]
            split <;> rfl
          omega
    exact hwork labels s hs hT henter s' hrun
  · by_cases hout : ∀ t, s'.locks.visit t = .outside
    · exact .inl hout
    · rw [not_forall] at hout
      obtain ⟨t, hin⟩ := hout
      exact .inr (exists_goesOn (hs.exec hrun) hin)

theorem sections_end_contended : ∃ s, machine.exec .start contended = some s ∧
    s.locks.visit (.socket 1) ≠ .outside ∧ ∃ n, ∀ labels s',
      (∀ t, .enter t ∉ labels) → machine.exec s labels = some s' →
        (s.sectionSteps labels).length ≤ n ∧
          ((∀ t, s'.locks.visit t = .outside) ∨ ∃ l s'', s'.goesOn l = true ∧
            s'.step l = some s'') := by
  have hrun : (machine.exec machine.init contended).any
      (fun s => !(s.locks.visit (.socket 1)).todo.isEmpty) = true := by decide
  obtain ⟨s, hexec, hreach, htest⟩ := Machine.exists_reachable_of_exec hrun
  refine ⟨s, hexec, fun hout => ?_, sections_end hreach⟩
  rw [hout] at htest
  cases htest

end Locked

end War3BattleTool.Server

import War3BattleTool.Client.Commands
import War3BattleTool.Foundation.Supervisor

set_option autoImplicit false

/-!
# Tunnels and their events

The app holds one tunnel at a time, and acts on the events of all of them.  Events carry no
tunnel, so one that comes late acts on what the app keeps for a later tunnel.  As long as no
event comes that late (`timely`), every event is attributed to its own tunnel, and the only
live tunnel is the one that `abort_tunnel` cancels.
-/

namespace War3BattleTool.Client

open War3BattleTool.Foundation War3BattleTool.Protocol

/-- The events that act on the tunnel of the app. -/
def TunnelEvent.actsOnTunnel : TunnelEvent → Bool
  | .proxyReady | .transportSelected _ | .transportUpgraded | .finished _ => true
  | .strategyResults _ => false

/-- The tunnel whose end the entry reports. -/
def Posted.ended : Posted → Option TunnelId
  | .tunnel k (.finished _) => some k
  | _ => none

/-- The tunnels that the app has something of: a handle, a transport, a pending GAMEINFO or an
injection task. -/
def War3App.present (a : War3App) : List TunnelId :=
  a.tunnelHandle.toList ++ (a.transport.map (·.tunnel)).toList ++
    (a.pendingGameinfo.map (·.tunnel)).toList ++ (a.injectionHandle.map (·.tunnel)).toList

/-- Nothing that belongs to a tunnel later than `k` changes; the transport of the app belongs to
the tunnel that it holds, and to the one whose event set it. -/
structure War3App.Spares (k : TunnelId) (a a' : War3App) : Prop where
  tunnelHandle : ∀ j, a.tunnelHandle = some j → k < j →
    a'.tunnelHandle = some j ∧ a'.transport = a.transport
  transport : ∀ x, a.transport = some x → k < x.tunnel → a'.transport = some x
  pendingGameinfo : ∀ x, a.pendingGameinfo = some x → k < x.tunnel →
    a'.pendingGameinfo = some x
  injectionHandle : ∀ x, a.injectionHandle = some x → k < x.tunnel →
    a'.injectionHandle = some x

namespace Process

/-- The tunnel whose event the step acts on. -/
def actsFor (s : Process) : Label → Option TunnelId
  | .poll =>
      match s.frame, s.tunnelEvents with
      | .tunnels, .tunnel k event :: _ => if event.actsOnTunnel then some k else none
      | _, _ => none
  | _ => none

/-- When the app acts on an event, it has nothing of a later tunnel. -/
def timely (s : Process) (l : Label) : Prop :=
  ∀ k ∈ s.actsFor l, ∀ j ∈ s.app.present, j ≤ k

instance (s : Process) (l : Label) : Decidable (s.timely l) :=
  inferInstanceAs (Decidable (∀ k ∈ s.actsFor l, _))

/-- The tunnel task was started, and is neither finished nor aborted. -/
def isLive (s : Process) (k : TunnelId) : Bool := s.tunnels[k]?.any (·.isLive)

/-- Every event that is acted on spares the later tunnels; the live tunnel is the one that the
app holds, there is no other, and `abort_tunnel` leaves none. -/
structure Attributed (M : Machine Process Label) (s : Process) : Prop where
  spares : ∀ {l s' k}, M.step s l = some s' → s.actsFor l = some k → s.app.Spares k s'.app
  held : ∀ {k}, s.isLive k = true → s.app.tunnelHandle = some k
  unique : ∀ {j k}, s.isLive j = true → s.isLive k = true → j = k
  aborted : ∀ k, s.abortTunnel.isLive k = false

/-- The app as the supervisor of its tunnels. -/
def supervisor (s : Process) : Supervisor where
  started := s.tunnels.length
  holds := s.app.tunnelHandle
  live := s.isLive
  notices := s.tunnelEvents.filterMap (·.ended)

variable {s s' : Process} {l : Label} {k : TunnelId}

/-! ## What a step does to the tunnels -/

/-- The step leaves the tunnels alone. -/
structure KeepsTunnels (s s' : Process) : Prop where
  tunnels : s'.tunnels = s.tunnels
  tunnelHandle : s'.app.tunnelHandle = s.app.tunnelHandle
  tunnelEvents : s'.tunnelEvents = s.tunnelEvents

theorem KeepsTunnels.refl (s : Process) : KeepsTunnels s s := ⟨rfl, rfl, rfl⟩

theorem keepsTunnels_sendOrWarn (s : Process) (c : Command) :
    KeepsTunnels s (s.sendOrWarn c).1 := by
  rw [fst_sendOrWarn]
  exact ⟨rfl, rfl, rfl⟩

theorem keepsTunnels_cancelInFlight (a : War3App) :
    a.cancelInFlight.tunnelHandle = a.tunnelHandle := by
  unfold War3App.cancelInFlight
  split <;> rfl

theorem keepsTunnels_surfaceError (a : War3App) (message : String) :
    (a.surfaceError message).tunnelHandle = a.tunnelHandle := by
  unfold War3App.surfaceError
  split <;> rfl

theorem keepsTunnels_netConnected (s : Process) : KeepsTunnels s s.netConnected := by
  have happ : ∀ a : War3App, a.clearServerError.tunnelHandle = a.tunnelHandle := by
    intro a
    unfold War3App.clearServerError
    split <;> rfl
  unfold netConnected sendRegister
  dsimp only
  split
  · rw [fst_sendOrWarn]
    exact ⟨rfl, happ _, rfl⟩
  · exact ⟨rfl, happ _, rfl⟩

/-- Nothing is started, and the events that are put on the queue end no tunnel. -/
theorem rests (hkeeps : s'.tunnels.length = s.tunnels.length)
    (hholds : s'.app.tunnelHandle = s.app.tunnelHandle)
    (hlive : ∀ k, s'.isLive k = true → s.isLive k = true)
    (hevents : ∀ p ∈ s'.tunnelEvents, p ∈ s.tunnelEvents ∨ p.ended = none) :
    s.supervisor.Step s'.supervisor := by
  refine .rests hkeeps hholds hlive fun k hk => ?_
  obtain ⟨p, hp, hended⟩ := List.mem_filterMap.mp hk
  rcases hevents p hp with hold | hnone
  · exact List.mem_filterMap.mpr ⟨p, hold, hended⟩
  · rw [hnone] at hended
    cases hended

theorem KeepsTunnels.rests (h : KeepsTunnels s s') : s.supervisor.Step s'.supervisor := by
  refine Process.rests (by rw [h.tunnels]) h.tunnelHandle (fun k hk => ?_) (fun p hp => ?_)
  · rwa [isLive, h.tunnels] at hk
  · rw [h.tunnelEvents] at hp
    exact .inl hp

theorem isLive_modify_abort (tunnels : List TunnelTask) (j k : TunnelId) :
    ((tunnels.modify j fun t => { t with aborted := true })[k]?.any (·.isLive)) =
      (tunnels[k]?.any (·.isLive) && k ≠ j) := by
  rw [List.getElem?_modify]
  by_cases hjk : j = k
  · subst hjk
    cases tunnels[j]? <;> simp [TunnelTask.isLive]
  · cases tunnels[k]? <;> simp [hjk, Ne.symm hjk]

/-- `abort_tunnel` cancels the tunnel that the app holds. -/
theorem isLive_abortTunnel (s : Process) (k : TunnelId) :
    s.abortTunnel.isLive k = (s.isLive k && s.app.tunnelHandle ≠ some k) := by
  unfold abortTunnel
  cases hholds : s.app.tunnelHandle with
  | none => simp [isLive]
  | some j =>
      simp only [isLive, isLive_modify_abort]
      simp [eq_comm]

theorem length_abortTunnel (s : Process) : s.abortTunnel.tunnels.length = s.tunnels.length := by
  unfold abortTunnel
  split <;> simp

theorem tunnelEvents_abortTunnel (s : Process) : s.abortTunnel.tunnelEvents = s.tunnelEvents := by
  unfold abortTunnel
  split <;> rfl

/-- A tunnel is started: the held one is aborted first. -/
theorem starts {t : TunnelTask} (htunnels : s'.tunnels = s.abortTunnel.tunnels ++ [t])
    (hholds : s'.app.tunnelHandle = some s.abortTunnel.tunnels.length)
    (hevents : s'.tunnelEvents = s.abortTunnel.tunnelEvents) :
    s.supervisor.Step s'.supervisor := by
  rw [length_abortTunnel] at hholds
  rw [tunnelEvents_abortTunnel] at hevents
  refine .starts ?_ hholds (fun k hk => ?_) (fun k hk => ?_)
  · simp [supervisor, htunnels, length_abortTunnel]
  · have hk' : s'.isLive k = true := hk
    rw [isLive, htunnels] at hk'
    by_cases hlt : k < s.abortTunnel.tunnels.length
    · rw [List.getElem?_append_left hlt] at hk'
      have hold : s.abortTunnel.isLive k = true := hk'
      rw [isLive_abortTunnel, Bool.and_eq_true, decide_eq_true_eq] at hold
      exact .inr hold
    · left
      rw [length_abortTunnel] at hlt
      by_contra hne
      have hover : s.abortTunnel.tunnels.length + 1 ≤ k := by
        rw [length_abortTunnel]
        exact Nat.lt_of_le_of_ne (Nat.le_of_not_lt hlt) (Ne.symm hne)
      rw [List.getElem?_eq_none (by simpa using hover)] at hk'
      cases hk'
  · rwa [supervisor, hevents] at hk

theorem starts_startHostTunnel (s : Process) (token : String) :
    s.supervisor.Step (s.startHostTunnel token).supervisor :=
  starts rfl rfl rfl

theorem starts_joinResult (op : Option OpId) (success : Bool) (token : Option String)
    (gameinfo : Option Bytes) :
    s.supervisor.Step (s.joinResult op success token gameinfo).supervisor := by
  unfold joinResult
  split
  · split
    · split
      · exact starts (s := s.setPending (some .joinSuccess)) rfl rfl rfl
      · exact KeepsTunnels.rests ⟨rfl, rfl, rfl⟩
    · exact KeepsTunnels.rests ⟨rfl, rfl, rfl⟩
  · exact (KeepsTunnels.refl s).rests

theorem rests_peerUPnPAddr (externalAddr : Option SocketAddr) :
    s.supervisor.Step (s.peerUPnPAddr externalAddr).supervisor := by
  unfold peerUPnPAddr
  split
  · next addr _ =>
    split
    · next j _ =>
      refine rests (by simp) rfl (fun k hk => ?_) (fun p hp => .inl hp)
      unfold isLive at hk ⊢
      simp only [List.getElem?_modify] at hk
      cases htask : s.tunnels[k]? with
      | none => simp [htask] at hk
      | some t =>
          rw [htask] at hk
          split at hk <;> simpa [TunnelTask.isLive] using hk
    · exact (KeepsTunnels.refl s).rests
  · exact (KeepsTunnels.refl s).rests

theorem step_handleServerMessage (letter : Letter) :
    s.supervisor.Step (s.handleServerMessage letter).supervisor := by
  unfold handleServerMessage
  split
  · exact KeepsTunnels.rests ⟨rfl, rfl, rfl⟩
  · exact KeepsTunnels.rests ⟨rfl, rfl, rfl⟩
  · exact KeepsTunnels.rests ⟨rfl, rfl, rfl⟩
  · unfold roomUpdate
    split <;> exact KeepsTunnels.rests ⟨rfl, rfl, rfl⟩
  · exact starts_joinResult _ _ _ _
  · exact starts_startHostTunnel s _
  · exact starts_startHostTunnel s _
  · exact KeepsTunnels.rests ⟨rfl, rfl, rfl⟩
  · exact rests_peerUPnPAddr _
  · exact KeepsTunnels.rests ⟨rfl, keepsTunnels_surfaceError _ _, rfl⟩
  · exact (KeepsTunnels.refl s).rests
  · exact (KeepsTunnels.refl s).rests

theorem step_netEvent (e : NetEvent) : s.supervisor.Step (s.netEvent e).supervisor := by
  cases e with
  | connected => exact (keepsTunnels_netConnected s).rests
  | disconnected => exact KeepsTunnels.rests ⟨rfl, keepsTunnels_cancelInFlight _, rfl⟩
  | reconnecting attempt => exact KeepsTunnels.rests ⟨rfl, keepsTunnels_cancelInFlight _, rfl⟩
  | serverMessage letter => exact step_handleServerMessage letter

theorem keepsTunnels_upnpEvent (s : Process) (token addr : String) :
    KeepsTunnels s (s.upnpEvent token addr) := by
  unfold upnpEvent
  have hkeeps := keepsTunnels_sendOrWarn s ⟨.upnpMapped addr token, none⟩
  dsimp only
  split
  · exact hkeeps
  · exact ⟨hkeeps.tunnels, hkeeps.tunnelHandle, hkeeps.tunnelEvents⟩

theorem keepsTunnels_gameinfoCaptured (s : Process) (op : OpId) (roomName mapName : String)
    (maxPlayers : Nat) (gameinfo : Bytes) :
    KeepsTunnels s (s.gameinfoCaptured op roomName mapName maxPlayers gameinfo) := by
  unfold gameinfoCaptured
  split
  · exact ⟨rfl, rfl, rfl⟩
  · have hkeeps := keepsTunnels_sendOrWarn s
      ⟨.createRoom roomName mapName maxPlayers gameinfo, some op⟩
    dsimp only
    split
    · exact hkeeps
    · exact ⟨hkeeps.tunnels, hkeeps.tunnelHandle, hkeeps.tunnelEvents⟩

/-- Only the end of a tunnel makes the app let go of a tunnel. -/
theorem keepsTunnels_posted (s : Process) {p : Posted} (hp : p.ended = none) :
    KeepsTunnels s (s.posted p) := by
  cases p with
  | gameinfoCaptured op roomName mapName maxPlayers gameinfo =>
      exact keepsTunnels_gameinfoCaptured s _ _ _ _ _
  | tunnel k event =>
      cases event with
      | finished error => simp [Posted.ended] at hp
      | _ => exact ⟨rfl, rfl, rfl⟩

theorem keepsTunnels_clickJoin (s : Process) (room : RoomInfo) :
    KeepsTunnels s (s.clickJoin room) := by
  unfold clickJoin
  have hkeeps := keepsTunnels_sendOrWarn s ⟨.joinRoom room.roomId, some s.ops.length⟩
  dsimp only
  split
  · exact ⟨hkeeps.tunnels, hkeeps.tunnelHandle, hkeeps.tunnelEvents⟩
  · exact hkeeps

theorem keepsTunnels_finishWizard (s : Process) (nickname : String) (war3Version : War3Version) :
    KeepsTunnels s (s.finishWizard nickname war3Version) := by
  unfold finishWizard sendRegister
  dsimp only
  split
  · rw [fst_sendOrWarn]
    exact ⟨rfl, rfl, rfl⟩
  · exact ⟨rfl, rfl, rfl⟩

theorem keepsTunnels_input {i : Input} (h : s.input i = some s') : KeepsTunnels s s' := by
  obtain ⟨_, next, hnext, rfl⟩ := shows_of_input h
  have hkeeps : KeepsTunnels s next := by
    cases hnext with
    | sets app _ htunnel _ _ _ => exact ⟨rfl, htunnel, rfl⟩
    | registers => exact keepsTunnels_finishWizard s _ _
    | joins => exact keepsTunnels_clickJoin s _
    | closes => exact keepsTunnels_sendOrWarn s _
    | creates => exact ⟨rfl, rfl, rfl⟩
  exact ⟨hkeeps.tunnels, hkeeps.tunnelHandle, hkeeps.tunnelEvents⟩

/-- The end of a tunnel is heeded: the app holds no later one. -/
theorem heeds {error : Option String} {rest : List Posted} (hk : s.actsFor .poll = some k)
    (hevents : s.tunnelEvents = .tunnel k (.finished error) :: rest) (htimely : s.timely .poll)
    (htunnels : s'.tunnels = s.tunnels) (hholds : s'.app.tunnelHandle = none)
    (hrest : s'.tunnelEvents = rest) : s.supervisor.Step s'.supervisor := by
  refine .heeds k ?_ (fun j hj => ?_) (by simp [supervisor, htunnels]) hholds (fun j hj => ?_)
    (fun j hj => ?_)
  · simp [supervisor, hevents, Posted.ended]
  · have hj' : s.app.tunnelHandle = some j := hj
    exact htimely k hk j (by simp [War3App.present, hj'])
  · have hj' : s'.isLive j = true := hj
    rwa [isLive, htunnels] at hj'
  · have hj' : j ∈ s'.tunnelEvents.filterMap (·.ended) := hj
    rw [hrest] at hj'
    simp only [supervisor, hevents, List.filterMap_cons]
    split
    · exact hj'
    · exact List.mem_cons_of_mem _ hj'

theorem step_posted {p : Posted} {rest : List Posted} (hframe : s.frame = .tunnels)
    (hevents : s.tunnelEvents = p :: rest) (htimely : s.timely .poll) :
    s.supervisor.Step ({ s with tunnelEvents := rest }.posted p).supervisor := by
  cases hp : p.ended with
  | some k =>
      obtain ⟨error, rfl⟩ : ∃ error, p = .tunnel k (.finished error) := by
        unfold Posted.ended at hp
        split at hp
        · cases hp
          exact ⟨_, rfl⟩
        · cases hp
      exact heeds (by simp [actsFor, hframe, hevents, TunnelEvent.actsOnTunnel]) hevents htimely
        rfl rfl rfl
  | none =>
      have hkeeps := keepsTunnels_posted { s with tunnelEvents := rest } hp
      refine rests (by rw [hkeeps.tunnels]) hkeeps.tunnelHandle (fun k hk => ?_)
        (fun q hq => .inl ?_)
      · rwa [isLive, hkeeps.tunnels] at hk
      · rw [hkeeps.tunnelEvents] at hq
        rw [hevents]
        exact List.mem_cons_of_mem _ hq

theorem step_poll (htimely : s.timely .poll) (h : s.poll = some s') :
    s.supervisor.Step s'.supervisor := by
  cases polls_of_poll h with
  | @event e rest _ _ => exact step_netEvent (s := { s with events := rest }) e
  | @upnp token addr rest _ _ =>
      have hkeeps := keepsTunnels_upnpEvent { s with upnpMapped := rest } token addr
      exact KeepsTunnels.rests ⟨hkeeps.tunnels, hkeeps.tunnelHandle, hkeeps.tunnelEvents⟩
  | posted hframe hevents => exact step_posted hframe hevents htimely
  | ends => exact KeepsTunnels.rests ⟨rfl, rfl, rfl⟩

/-- What the steps of a tunnel task do to it, and which events they emit: no step revives it, and
the end of the task is the last one. -/
theorem live_of_taskStep {t t' : TunnelTask} {move : TunnelMove} {emitted : List TunnelEvent}
    (h : t.step move = some (t', emitted)) :
    (t'.isLive = true → t.isLive = true) ∧
      ((∃ error, .finished error ∈ emitted) → t'.isLive = false) := by
  cases move <;> cases hpc : t.pc <;> cases habort : t.aborted <;>
    simp [TunnelTask.step, hpc, habort] at h <;>
    (obtain ⟨rfl, rfl⟩ := h; simp [TunnelTask.isLive, hpc, habort])

theorem isLive_set {tunnels : List TunnelTask} {t t' : TunnelTask}
    (ht : tunnels[k]? = some t) (j : TunnelId) :
    ((tunnels.set k t')[j]?.any (·.isLive)) =
      if j = k then t'.isLive else tunnels[j]?.any (·.isLive) := by
  by_cases hjk : j = k
  · subst hjk
    have hlt : j < tunnels.length := (List.getElem?_eq_some_iff.mp ht).1
    simp [hlt]
  · rw [List.getElem?_set_ne (Ne.symm hjk), if_neg hjk]

theorem step_tunnel {move : TunnelMove} (h : s.tunnel k move = some s') :
    s.supervisor.Step s'.supervisor := by
  obtain ⟨⟨t', emitted⟩, htask, rfl⟩ := Option.map_eq_some_iff.mp h
  obtain ⟨t, ht, htask⟩ := Option.bind_eq_some_iff.mp htask
  have hlt : k < s.tunnels.length := (List.getElem?_eq_some_iff.mp ht).1
  obtain ⟨hlive, hends⟩ := live_of_taskStep htask
  have hold : ∀ j, s.isLive j = if j = k then t.isLive else s.tunnels[j]?.any (·.isLive) := by
    intro j
    split
    · next hjk => simp [isLive, hjk, ht]
    · rfl
  by_cases hfinished : ∃ error, TunnelEvent.finished error ∈ emitted
  · refine .ends k hlt (by simp [supervisor]) rfl (fun j hj => ?_) (fun j hj => ?_)
    · have hj' : ((s.tunnels.set k t')[j]?.any (·.isLive)) = true := hj
      rw [isLive_set ht] at hj'
      split at hj'
      · rw [hends hfinished] at hj'
        cases hj'
      · next hjk => exact ⟨hj', hjk⟩
    · obtain ⟨p, hp, hended⟩ := List.mem_filterMap.mp hj
      rcases List.mem_append.mp hp with hp | hp
      · exact .inl (List.mem_filterMap.mpr ⟨p, hp, hended⟩)
      · obtain ⟨event, _, rfl⟩ := List.mem_map.mp hp
        right
        unfold Posted.ended at hended
        split at hended <;> simp_all
  · refine rests (by simp) rfl (fun j hj => ?_) (fun p hp => ?_)
    · unfold isLive at hj
      rw [isLive_set ht] at hj
      rw [hold]
      split at hj
      · next hjk => simp [hjk, hlive hj]
      · next hjk => simpa [hjk] using hj
    · rcases List.mem_append.mp hp with hp | hp
      · exact .inl hp
      · obtain ⟨event, hevent, rfl⟩ := List.mem_map.mp hp
        right
        cases event with
        | finished error => exact absurd ⟨error, hevent⟩ hfinished
        | _ => rfl

/-- The detached tasks of a tunnel do not change whether it is live. -/
theorem step_report {r : Report} (h : s.report k r = some s') :
    s.supervisor.Step s'.supervisor := by
  obtain ⟨t, ht, h⟩ := Option.bind_eq_some_iff.mp h
  have hsame : ∀ (t' : TunnelTask) (events : List Posted), s'.tunnels = s.tunnels.set k t' →
      t'.isLive = t.isLive → s'.app.tunnelHandle = s.app.tunnelHandle →
      s'.tunnelEvents = s.tunnelEvents ++ events → (∀ p ∈ events, p.ended = none) →
      s.supervisor.Step s'.supervisor := by
    intro t' events htunnels hlive hholds hevents hquiet
    refine rests (by simp [htunnels]) hholds (fun j hj => ?_) (fun p hp => ?_)
    · rw [isLive, htunnels, isLive_set ht] at hj
      unfold isLive
      split at hj
      · next hjk => simpa [hjk, ht, ← hlive] using hj
      · exact hj
    · rw [hevents] at hp
      exact (List.mem_append.mp hp).imp_right (hquiet p)
  cases r with
  | diagnostics results =>
      simp only at h
      split at h
      · cases h
        exact hsame _ [.tunnel k (.strategyResults results)] rfl rfl rfl rfl
          (by simp [Posted.ended])
      · cases h
  | mapped externalAddr =>
      simp only at h
      split at h
      · cases h
        exact hsame _ [] rfl rfl rfl (by simp) (by simp)
      · cases h
  | unmapped =>
      simp only at h
      split at h
      · cases h
        exact hsame _ [] rfl rfl rfl (by simp) (by simp)
      · cases h

theorem step_captured {op : OpId} {gameinfo : Bytes} {fields : Option GameinfoFields}
    (h : s.captured op gameinfo fields = some s') : s.supervisor.Step s'.supervisor := by
  obtain ⟨c, _, rfl⟩ := Option.map_eq_some_iff.mp h
  refine rests rfl rfl (fun _ hk => hk) fun p hp => ?_
  rcases List.mem_append.mp hp with hp | hp
  · exact .inl hp
  · rw [List.mem_singleton.mp hp]
    exact .inr rfl

theorem supervisor_step (htimely : s.timely l) (h : s.step l = some s') :
    s.supervisor.Step s'.supervisor := by
  cases hl : l.isRemote with
  | true =>
      have hkeeps := keepsUi_of_remote hl h
      exact KeepsTunnels.rests ⟨hkeeps.tunnels, by rw [hkeeps.app], hkeeps.tunnelEvents⟩
  | false =>
      cases l with
      | poll => exact step_poll htimely h
      | input i => exact (keepsTunnels_input h).rests
      | tunnel k move => exact step_tunnel h
      | report k r => exact step_report h
      | captured op gameinfo fields => exact step_captured h
      | _ => cases hl

theorem sound_of_reachable {config : AppConfig}
    (h : ((machine config).restrict timely).Reachable s) : s.supervisor.Sound := by
  induction h with
  | init =>
      refine ⟨fun k hk => ?_, fun k hk => ?_, fun k hk => ?_⟩
      · simp [supervisor, machine, Machine.restrict, isLive, start] at hk
      · simp [supervisor, machine, Machine.restrict, start, War3App.new] at hk
      · simp [supervisor, machine, Machine.restrict, start] at hk
  | step _ hstep ih =>
      obtain ⟨htimely, hstep⟩ := Machine.restrict_step.mp hstep
      exact ih.step (supervisor_step htimely hstep)

/-! ## Where tunnels start -/

/-- A tunnel is started by a message of the server only. -/
theorem starts_of_step (h : s.step l = some s') :
    s'.tunnels.length = s.tunnels.length ∨
      ∃ letter rest, l = .poll ∧ s.frame = .events ∧ s.events = .serverMessage letter :: rest ∧
        s' = { s with events := rest }.handleServerMessage letter := by
  cases hl : l.isRemote with
  | true => exact .inl (by rw [(keepsUi_of_remote hl h).tunnels])
  | false =>
      cases l with
      | poll =>
          cases polls_of_poll h with
          | @event e rest hframe hevents =>
              cases e with
              | serverMessage letter => exact .inr ⟨letter, rest, rfl, hframe, hevents, rfl⟩
              | connected =>
                  exact .inl (congrArg List.length
                    (keepsTunnels_netConnected { s with events := rest }).tunnels)
              | disconnected | reconnecting attempt => exact .inl rfl
          | @upnp token addr rest _ _ =>
              have hkeeps := keepsTunnels_upnpEvent { s with upnpMapped := rest } token addr
              exact .inl (by rw [hkeeps.tunnels])
          | @posted p rest _ _ =>
              left
              cases p with
              | tunnel k event => cases event <;> rfl
              | gameinfoCaptured op roomName mapName maxPlayers gameinfo =>
                  rw [(keepsTunnels_posted { s with tunnelEvents := rest } rfl).tunnels]
          | ends => exact .inl rfl
      | input i => exact .inl (by rw [(keepsTunnels_input h).tunnels])
      | tunnel k move =>
          obtain ⟨_, _, rfl⟩ := Option.map_eq_some_iff.mp h
          exact .inl (List.length_set ..)
      | report k r =>
          obtain ⟨t, _, h⟩ := Option.bind_eq_some_iff.mp h
          cases r <;> simp only at h <;> split at h <;> cases h <;> exact .inl (List.length_set ..)
      | captured op gameinfo fields =>
          obtain ⟨c, _, rfl⟩ := Option.map_eq_some_iff.mp h
          exact .inl rfl
      | _ => cases hl

theorem drop_abortTunnel (s : Process) (t : TunnelTask) :
    (s.abortTunnel.tunnels ++ [t]).drop s.tunnels.length = [t] := by
  rw [← length_abortTunnel, List.drop_left]

/-- A joiner's tunnel, the only kind that is for an operation, is started by a `JoinResult` that
the app waits for. -/
theorem joins_of_handleServerMessage {letter : Letter} {t : TunnelTask}
    (ht : t ∈ (s.handleServerMessage letter).tunnels.drop s.tunnels.length)
    (hjoiner : t.role = .joiner ∨ t.op.isSome = true) :
    t.op = letter.answers ∧ (∃ room gameinfo,
      letter.message = .joinResult true room (some t.token) (some gameinfo)) ∧
        ∃ roomName op, s.app.pendingAction = some (.joining roomName op) := by
  have hnone : ∀ {tunnels : List TunnelTask}, tunnels.length = s.tunnels.length →
      t ∉ tunnels.drop s.tunnels.length := by
    intro tunnels hlength hmem
    rw [← hlength, List.drop_length] at hmem
    cases hmem
  unfold handleServerMessage at ht
  split at ht
  case h_4 =>
    unfold roomUpdate at ht
    split at ht <;> exact absurd ht (hnone rfl)
  case h_5 success room token gameinfo hm =>
    unfold joinResult at ht
    split at ht
    · next roomName op hpending =>
      split at ht
      · next hsuccess =>
        split at ht
        · simp only [startJoinerTunnel, spawnTunnel, setApp] at ht
          change t ∈ List.drop (s.setPending (some .joinSuccess)).tunnels.length _ at ht
          rw [drop_abortTunnel, List.mem_singleton] at ht
          subst ht hsuccess
          exact ⟨rfl, ⟨_, _, hm⟩, roomName, op, hpending⟩
        · exact absurd ht (hnone rfl)
      · exact absurd ht (hnone rfl)
    · exact absurd ht (hnone rfl)
  case h_6 | h_7 =>
    simp only [startHostTunnel, spawnTunnel, setApp] at ht
    rw [drop_abortTunnel, List.mem_singleton] at ht
    subst ht
    rcases hjoiner with hrole | hop
    · cases hrole
    · cases hop
  case h_9 =>
    unfold peerUPnPAddr at ht
    repeat' split at ht
    all_goals exact absurd ht (hnone (by simp))
  all_goals exact absurd ht (hnone rfl)

/-! ## Attribution -/

/-- What the app has nothing of is spared. -/
theorem spares_of_timely {a a' : War3App} (h : ∀ j ∈ a.present, j ≤ k) : a.Spares k a' where
  tunnelHandle := fun j hj hlater =>
    absurd (h j (by simp [War3App.present, hj])) (Nat.not_le.mpr hlater)
  transport := fun x hx hlater =>
    absurd (h x.tunnel (by simp [War3App.present, hx])) (Nat.not_le.mpr hlater)
  pendingGameinfo := fun x hx hlater =>
    absurd (h x.tunnel (by simp [War3App.present, hx])) (Nat.not_le.mpr hlater)
  injectionHandle := fun x hx hlater =>
    absurd (h x.tunnel (by simp [War3App.present, hx])) (Nat.not_le.mpr hlater)

/-- In a run in which every event is acted on before a later tunnel is there, events are
attributed to the right tunnel, and no tunnel escapes `abort_tunnel`. -/
theorem attributed_of_timely (config : AppConfig) {s : Process}
    (h : ((machine config).restrict timely).Reachable s) :
    Attributed ((machine config).restrict timely) s := by
  have hsound := sound_of_reachable h
  refine ⟨fun {l s' k} hstep hacts => ?_, fun hk => hsound.held _ hk,
    fun hj hk => hsound.unique hj hk, fun k => ?_⟩
  · obtain ⟨htimely, _⟩ := Machine.restrict_step.mp hstep
    exact spares_of_timely (htimely k hacts)
  · rw [isLive_abortTunnel]
    cases hk : s.isLive k with
    | false => rfl
    | true =>
        have hheld : s.app.tunnelHandle = some k := hsound.held k hk
        simp [hheld]

/-- The config of a player. -/
def somebody : AppConfig := ⟨"a", .v127⟩

/-- A session begins; a player joins the room of this client, which starts a tunnel. -/
def hostsTunnel : List Label :=
  [.connect true, .poll, .reply (.playerJoined "b" "t") none false, .deliver, .poll]

/-- The first tunnel ends, the app acts on its events, and then the next player joins. -/
def hostsAfter : List Label :=
  hostsTunnel ++ [.tunnel 0 .succeeds, .tunnel 0 (.fails "error"), .poll, .poll, .poll, .poll,
    .poll, .input .idle, .reply (.playerJoined "c" "u") none false, .deliver, .poll,
    .tunnel 1 .succeeds]

/-- The second tunnel of a host is attributed: its event waits for the app, and those of the first
one have been acted on. -/
theorem attributed_hosting : ∃ s, s.isLive 0 = false ∧ s.isLive 1 = true ∧
    s.tunnelEvents = [.tunnel 1 (.transportSelected .relay)] ∧
      Attributed ((machine somebody).restrict timely) s := by
  have hrun : (((machine somebody).restrict timely).exec
      ((machine somebody).restrict timely).init hostsAfter).any (fun s =>
        !s.isLive 0 && s.isLive 1 &&
          s.tunnelEvents = [.tunnel 1 (.transportSelected .relay)]) = true := by
    decide
  obtain ⟨s, _, hreach, htest⟩ := Machine.exists_reachable_of_exec hrun
  simp only [Bool.and_eq_true, Bool.not_eq_true', decide_eq_true_eq] at htest
  exact ⟨s, htest.1.1, htest.1.2, htest.2, attributed_of_timely somebody hreach⟩

/-- The first tunnel ends while the next player joins: the app starts the second tunnel, and
then acts on the events of the first one. -/
def hostsTwice : List Label :=
  hostsTunnel ++ [.tunnel 0 .succeeds, .tunnel 0 (.fails "error"),
    .reply (.playerJoined "c" "u") none false, .deliver, .poll, .poll, .poll, .poll, .poll]

/-- The end of the first tunnel makes the app let go of the second one, which no `abort_tunnel`
can cancel any more. -/
theorem not_attributed : ∃ s, (machine somebody).Reachable s ∧ s.isLive 1 = true ∧
    s.app.tunnelHandle = none ∧ ¬ Attributed (machine somebody) s := by
  have hrun : ((machine somebody).exec (machine somebody).init hostsTwice).any
      (fun s => s.isLive 1 && s.app.tunnelHandle = none) = true := by
    decide
  obtain ⟨s, _, hreach, htest⟩ := Machine.exists_reachable_of_exec hrun
  rw [Bool.and_eq_true, decide_eq_true_eq] at htest
  refine ⟨s, hreach, htest.1, htest.2, fun hattributed => ?_⟩
  have hheld := hattributed.held htest.1
  rw [htest.2] at hheld
  cases hheld

end Process

end War3BattleTool.Client

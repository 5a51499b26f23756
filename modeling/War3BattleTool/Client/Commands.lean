import War3BattleTool.Client.Runtime

set_option autoImplicit false

/-!
# What the UI thread sends

The UI thread acts on the other tasks through `cmd_tx` only: `queued` is what a step puts on it.
Everything else that a step of the UI thread changes is its own.
-/

namespace War3BattleTool.Client

open War3BattleTool.Foundation War3BattleTool.Protocol

namespace Process

/-- What `send_or_warn` puts on the queue. -/
def sendable (s : Process) (c : Command) : List Command := if s.network = .stopped then [] else [c]

/-- The `Register` of this client. -/
def register (config : AppConfig) : Command :=
  ⟨.register config.nickname config.war3Version (some clientVersion), none⟩

/-- What handling an event of the network task sends. -/
def queuedByNet (s : Process) : NetEvent → List Command
  | .connected =>
      if !s.app.isRegistered && s.app.config.isConfigured then s.sendable (register s.app.config)
      else []
  | _ => []

/-- What handling an entry of the queue of tunnel events sends. -/
def queuedByPosted (s : Process) : Posted → List Command
  | .gameinfoCaptured op roomName mapName maxPlayers gameinfo =>
      if gameinfo.isEmpty then []
      else s.sendable ⟨.createRoom roomName mapName maxPlayers gameinfo, some op⟩
  | .tunnel _ _ => []

/-- What the next `try_recv` sends. -/
def queuedByPoll (s : Process) : List Command :=
  match s.frame with
  | .events => (s.events.head?.map s.queuedByNet).getD []
  | .upnp =>
      (s.upnpMapped.head?.map fun (token, addr) =>
        s.sendable ⟨.upnpMapped addr token, none⟩).getD []
  | .tunnels => (s.tunnelEvents.head?.map s.queuedByPosted).getD []
  | .show => []

/-- What the rest of a frame sends. -/
def queuedByInput (s : Process) : Input → List Command
  | .finishWizard nickname war3Version =>
      if s.app.connectionState = .connected then s.sendable (register ⟨nickname, war3Version⟩)
      else []
  | .join room => s.sendable ⟨.joinRoom room.roomId, some s.ops.length⟩
  | .closeRoom => s.sendable ⟨.closeRoom, none⟩
  | _ => []

/-- What a step puts on `cmd_tx`. -/
def queued (s : Process) : Label → List Command
  | .poll => s.queuedByPoll
  | .input i => s.queuedByInput i
  | _ => []

/-- The operations that a step begins. -/
def begun (s : Process) : Label → List Operation
  | .input (.join room) => if s.network = .stopped then [] else [.join room.roomId room.roomName]
  | .input (.create maxPlayers) => [.create maxPlayers]
  | _ => []

/-- The captures that a step begins. -/
def capturesBegun (s : Process) : Label → List Capture
  | .input (.create maxPlayers) => [⟨s.ops.length, maxPlayers⟩]
  | _ => []

/-- A handler of the UI thread sends `new`, and leaves the queues and tasks alone otherwise. -/
structure Sends (s : Process) (new : List Command) (s' : Process) : Prop where
  cmds : s'.cmds = s.cmds ++ new
  events : s'.events = s.events
  tunnelEvents : s'.tunnelEvents = s.tunnelEvents
  upnpMapped : s'.upnpMapped = s.upnpMapped
  captures : s'.captures = s.captures
  network : s'.network = s.network
  closed : s'.closed = s.closed
  ops : s'.ops = s.ops
  processed : s'.processed = s.processed

variable {s s' s'' : Process} {l : Label} {new : List Command}

theorem fst_sendOrWarn (s : Process) (c : Command) :
    (s.sendOrWarn c).1 = { s with cmds := s.cmds ++ s.sendable c } := by
  unfold sendOrWarn sendable
  split <;> simp

theorem snd_sendOrWarn (s : Process) (c : Command) :
    (s.sendOrWarn c).2 = decide (s.network ≠ .stopped) := by
  unfold sendOrWarn
  split <;> simp_all

/-! ## The handlers -/

theorem sends_nil (hcmds : s'.cmds = s.cmds) (hevents : s'.events = s.events)
    (htunnelEvents : s'.tunnelEvents = s.tunnelEvents) (hupnp : s'.upnpMapped = s.upnpMapped)
    (hcaptures : s'.captures = s.captures) (hnetwork : s'.network = s.network)
    (hclosed : s'.closed = s.closed) (hops : s'.ops = s.ops)
    (hprocessed : s'.processed = s.processed) : Sends s [] s' :=
  ⟨by rw [hcmds, List.append_nil], hevents, htunnelEvents, hupnp, hcaptures, hnetwork, hclosed,
    hops, hprocessed⟩

theorem sends_setApp (s : Process) (app : War3App) : Sends s [] (s.setApp app) :=
  sends_nil rfl rfl rfl rfl rfl rfl rfl rfl rfl

theorem sends_sendOrWarn (s : Process) (c : Command) :
    Sends s (s.sendable c) (s.sendOrWarn c).1 := by
  rw [fst_sendOrWarn]
  exact ⟨rfl, rfl, rfl, rfl, rfl, rfl, rfl, rfl, rfl⟩

/-- The app, the frame and the tunnels are the UI thread's own. -/
theorem Sends.own (h : Sends s new s') (app : War3App) (frame : FramePc)
    (tunnels : List TunnelTask) :
    Sends s new { s' with app := app, frame := frame, tunnels := tunnels } :=
  ⟨h.cmds, h.events, h.tunnelEvents, h.upnpMapped, h.captures, h.network, h.closed, h.ops,
    h.processed⟩

theorem sends_abortTunnel (s : Process) : Sends s [] s.abortTunnel := by
  unfold abortTunnel
  split <;> exact sends_nil rfl rfl rfl rfl rfl rfl rfl rfl rfl

theorem Sends.of_setApp {app : War3App} (h : Sends (s.setApp app) new s') : Sends s new s' :=
  ⟨h.cmds, h.events, h.tunnelEvents, h.upnpMapped, h.captures, h.network, h.closed, h.ops,
    h.processed⟩

theorem sends_startJoinerTunnel (s : Process) (op : Option OpId) (token : String)
    (gameinfo : Bytes) : Sends s [] (s.startJoinerTunnel op token gameinfo) :=
  (sends_abortTunnel s).own _ _ _

theorem sends_joinResult (op : Option OpId) (success : Bool) (token : Option String)
    (gameinfo : Option Bytes) : Sends s [] (s.joinResult op success token gameinfo) := by
  unfold joinResult
  split
  · split
    · split
      · exact (sends_startJoinerTunnel (s.setPending _) _ _ _).of_setApp
      · exact sends_setApp s _
    · exact sends_setApp s _
  · exact sends_nil rfl rfl rfl rfl rfl rfl rfl rfl rfl

/-- No message of the server makes the app send a command. -/
theorem sends_handleServerMessage (s : Process) (letter : Letter) :
    Sends s [] (s.handleServerMessage letter) := by
  unfold handleServerMessage
  split
  case h_4 =>
    unfold roomUpdate
    split <;> exact sends_setApp s _
  case h_5 => exact sends_joinResult _ _ _ _
  case h_6 | h_7 => exact (sends_abortTunnel s).own _ _ _
  case h_9 =>
    unfold peerUPnPAddr
    repeat' split
    all_goals exact sends_nil rfl rfl rfl rfl rfl rfl rfl rfl rfl
  all_goals exact sends_nil rfl rfl rfl rfl rfl rfl rfl rfl rfl

theorem sends_netEvent (s : Process) (e : NetEvent) : Sends s (s.queuedByNet e) (s.netEvent e) := by
  cases e with
  | connected =>
      have happ : ∀ a : War3App, a.clearServerError.myPlayerId = a.myPlayerId ∧
          a.clearServerError.config = a.config := by
        intro a
        unfold War3App.clearServerError
        split <;> exact ⟨rfl, rfl⟩
      simp only [netEvent, netConnected, queuedByNet, War3App.isRegistered, setApp, happ]
      by_cases hregisters : (!s.app.myPlayerId.isSome && s.app.config.isConfigured) = true
      · simp only [hregisters, if_true]
        unfold sendRegister
        rw [fst_sendOrWarn]
        simp only [happ]
        exact ⟨rfl, rfl, rfl, rfl, rfl, rfl, rfl, rfl, rfl⟩
      · simp only [hregisters]
        exact sends_nil rfl rfl rfl rfl rfl rfl rfl rfl rfl
  | disconnected | reconnecting attempt => exact sends_setApp s _
  | serverMessage letter => exact sends_handleServerMessage s letter

theorem sends_upnpEvent (s : Process) (token addr : String) :
    Sends s (s.sendable ⟨.upnpMapped addr token, none⟩) (s.upnpEvent token addr) := by
  have hsends := sends_sendOrWarn s ⟨.upnpMapped addr token, none⟩
  unfold upnpEvent
  dsimp only
  split
  · exact hsends
  · exact hsends.own _ _ _

theorem sends_posted (s : Process) (p : Posted) : Sends s (s.queuedByPosted p) (s.posted p) := by
  cases p with
  | tunnel k event =>
      cases event <;> exact sends_nil rfl rfl rfl rfl rfl rfl rfl rfl rfl
  | gameinfoCaptured op roomName mapName maxPlayers gameinfo =>
      simp only [posted, gameinfoCaptured, queuedByPosted]
      split
      · exact sends_setApp s _
      · have hsends :=
          sends_sendOrWarn s ⟨.createRoom roomName mapName maxPlayers gameinfo, some op⟩
        split
        · exact hsends
        · exact hsends.own _ _ _

/-! ## Steps of the UI thread -/

/-- What a `try_recv` does. -/
inductive Polls (s : Process) : Process → Prop
  | event {e : NetEvent} {rest : List NetEvent} (hframe : s.frame = .events)
      (hevents : s.events = e :: rest) : Polls s ({ s with events := rest }.netEvent e)
  | upnp {token addr : String} {rest : List (String × String)} (hframe : s.frame = .upnp)
      (hmapped : s.upnpMapped = (token, addr) :: rest) :
      Polls s ({ s with upnpMapped := rest }.upnpEvent token addr)
  | posted {p : Posted} {rest : List Posted} (hframe : s.frame = .tunnels)
      (hevents : s.tunnelEvents = p :: rest) : Polls s ({ s with tunnelEvents := rest }.posted p)
  | ends {frame : FramePc} (hqueued : s.queuedByPoll = []) : Polls s { s with frame := frame }

theorem polls_of_poll (h : s.poll = some s') : Polls s s' := by
  unfold poll at h
  split at h
  · next hframe =>
    split at h
    · next hevents =>
      cases h
      exact .event hframe hevents
    · next hevents =>
      cases h
      exact .ends (by simp [queuedByPoll, hframe, hevents])
  · next hframe =>
    split at h
    · next hmapped =>
      cases h
      exact .upnp hframe hmapped
    · next hmapped =>
      cases h
      exact .ends (by simp [queuedByPoll, hframe, hmapped])
  · next hframe =>
    split at h
    · next hevents =>
      cases h
      exact .posted hframe hevents
    · next hevents =>
      cases h
      exact .ends (by simp [queuedByPoll, hframe, hevents])
  · cases h

/-- What the rest of a frame does. -/
inductive Shows (s : Process) : Input → Process → Prop
  | sets {i : Input} (app : War3App) (hpending : app.pendingAction = s.app.pendingAction ∨
        app.pendingAction = none) (htunnel : app.tunnelHandle = s.app.tunnelHandle)
      (hqueued : s.queuedByInput i = []) (hbegun : s.begun (.input i) = [])
      (hcaptures : s.capturesBegun (.input i) = []) (hwizard : app.wizard = s.app.wizard)
      (hid : app.myPlayerId = s.app.myPlayerId)
      (hconfig : app.config = s.app.config ∨ i = .settings app.config) : Shows s i (s.setApp app)
  | registers {nickname : String} {war3Version : War3Version} (hwizard : s.app.wizard = true) :
      Shows s (.finishWizard nickname war3Version) (s.finishWizard nickname war3Version)
  | joins {room : RoomInfo} (hroom : s.canJoin room = true) :
      Shows s (.join room) (s.clickJoin room)
  | closes : Shows s .closeRoom (s.sendOrWarn ⟨.closeRoom, none⟩).1
  | creates {maxPlayers : Nat} : Shows s (.create maxPlayers) (s.clickCreate maxPlayers)

theorem shows_of_click {i : Input} (h : s.click i = some s') : Shows s i s' := by
  unfold click at h
  split at h
  · split at h
    · split at h
      · cases h
      · cases h
        exact .sets _ (.inr rfl) rfl rfl rfl rfl rfl rfl (.inl rfl)
    · cases h
  · split at h
    · next hroom =>
      cases h
      exact .joins hroom
    · cases h
  · split at h
    · cases h
      exact .closes
    · cases h
  · split at h
    · cases h
    · cases h
      exact .sets _ (.inl rfl) rfl rfl rfl rfl rfl rfl (.inl rfl)
  · split at h
    · cases h
      exact .sets _ (.inl rfl) rfl rfl rfl rfl rfl rfl (.inl rfl)
    · cases h
  · split at h
    · cases h
      exact .creates
    · cases h
  · cases h

theorem shows_of_input {i : Input} (h : s.input i = some s') :
    s.frame = .show ∧ ∃ next, Shows s i next ∧ s' = { next with frame := .events } := by
  unfold input at h
  split at h
  · next hframe =>
    obtain ⟨next, hnext, rfl⟩ := Option.map_eq_some_iff.mp h
    refine ⟨hframe, next, ?_, rfl⟩
    unfold showFrame at hnext
    split at hnext
    · cases hnext
      exact .sets s.app (.inl rfl) rfl rfl rfl rfl rfl rfl (.inl rfl)
    · split at hnext
      · next hwizard =>
        cases hnext
        rw [Bool.and_eq_true] at hwizard
        exact .registers hwizard.1
      · cases hnext
    · split at hnext
      · cases hnext
      · cases hnext
        exact .sets _ (.inl rfl) rfl rfl rfl rfl rfl rfl (.inr rfl)
    · split at hnext
      · exact shows_of_click hnext
      · cases hnext
  · cases h

/-- What a step of the UI thread, or of a task that the app has spawned, does to the network
task, and what it sends. -/
structure SendsStep (s : Process) (l : Label) (s' : Process) : Prop where
  cmds : s'.cmds = s.cmds ++ s.queued l
  network : s'.network = s.network
  closed : s'.closed = s.closed
  processed : s'.processed = s.processed
  ops : s'.ops = s.ops ++ s.begun l
  captures : ∀ c ∈ s'.captures, c ∈ s.captures ∨ c ∈ s.capturesBegun l

theorem Sends.step (h : Sends s (s.queued l) s') (hbegun : s.begun l = []) :
    SendsStep s l s' where
  cmds := h.cmds
  network := h.network
  closed := h.closed
  processed := h.processed
  ops := by rw [h.ops, hbegun, List.append_nil]
  captures := fun c hc => .inl (h.captures ▸ hc)

theorem sendsStep_poll (h : s.poll = some s') : SendsStep s .poll s' := by
  cases polls_of_poll h with
  | @event e rest hframe hevents =>
      have hqueued : s.queued .poll = { s with events := rest }.queuedByNet e := by
        simp only [queued, queuedByPoll, hframe, hevents, List.head?_cons, Option.map_some,
          Option.getD_some]
        rfl
      have hsends := sends_netEvent { s with events := rest } e
      rw [← hqueued] at hsends
      exact ⟨hsends.cmds, hsends.network, hsends.closed, hsends.processed,
        hsends.ops.trans (List.append_nil _).symm, fun c hc => .inl (hsends.captures ▸ hc)⟩
  | @upnp token addr rest hframe hmapped =>
      have hqueued : s.queued .poll =
          { s with upnpMapped := rest }.sendable ⟨.upnpMapped addr token, none⟩ := by
        simp only [queued, queuedByPoll, hframe, hmapped, List.head?_cons, Option.map_some,
          Option.getD_some]
        rfl
      have hsends := sends_upnpEvent { s with upnpMapped := rest } token addr
      rw [← hqueued] at hsends
      exact ⟨hsends.cmds, hsends.network, hsends.closed, hsends.processed,
        hsends.ops.trans (List.append_nil _).symm, fun c hc => .inl (hsends.captures ▸ hc)⟩
  | @posted p rest hframe hevents =>
      have hqueued : s.queued .poll = { s with tunnelEvents := rest }.queuedByPosted p := by
        simp only [queued, queuedByPoll, hframe, hevents, List.head?_cons, Option.map_some,
          Option.getD_some]
        rfl
      have hsends := sends_posted { s with tunnelEvents := rest } p
      rw [← hqueued] at hsends
      exact ⟨hsends.cmds, hsends.network, hsends.closed, hsends.processed,
        hsends.ops.trans (List.append_nil _).symm, fun c hc => .inl (hsends.captures ▸ hc)⟩
  | ends hqueued =>
      exact ⟨by rw [queued, hqueued, List.append_nil], rfl, rfl, rfl, (List.append_nil _).symm,
        fun c hc => .inl hc⟩

theorem sendsStep_clickJoin (s : Process) (room : RoomInfo) :
    SendsStep s (.input (.join room)) (s.clickJoin room) := by
  unfold clickJoin
  dsimp only
  rw [fst_sendOrWarn, snd_sendOrWarn]
  by_cases hstopped : s.network = .stopped
  · have hsent : decide (s.network ≠ .stopped) = false := by simp [hstopped]
    rw [hsent]
    exact ⟨rfl, rfl, rfl, rfl, by simp [begun, hstopped], fun c hc => .inl hc⟩
  · have hsent : decide (s.network ≠ .stopped) = true := by simp [hstopped]
    rw [hsent]
    exact ⟨rfl, rfl, rfl, rfl, by simp [begun, hstopped, setPending, setApp, begin],
      fun c hc => .inl hc⟩

theorem sendsStep_finishWizard (s : Process) (nickname : String) (war3Version : War3Version) :
    SendsStep s (.input (.finishWizard nickname war3Version))
      (s.finishWizard nickname war3Version) := by
  unfold finishWizard sendRegister
  dsimp only [setApp]
  by_cases hconnected : s.app.connectionState = .connected
  · rw [if_pos hconnected, fst_sendOrWarn]
    refine ⟨?_, rfl, rfl, rfl, (List.append_nil _).symm, fun c hc => .inl hc⟩
    rw [queued, queuedByInput, if_pos hconnected]
    rfl
  · rw [if_neg hconnected]
    refine ⟨?_, rfl, rfl, rfl, (List.append_nil _).symm, fun c hc => .inl hc⟩
    rw [queued, queuedByInput, if_neg hconnected, List.append_nil]

theorem sendsStep_input {i : Input} (h : s.input i = some s') : SendsStep s (.input i) s' := by
  obtain ⟨_, next, hnext, rfl⟩ := shows_of_input h
  have hstep : SendsStep s (.input i) next := by
    cases hnext with
    | sets _ _ _ hqueued hbegun _ =>
        exact ⟨by rw [queued, hqueued, List.append_nil]; rfl, rfl, rfl, rfl,
          by rw [hbegun, List.append_nil]; rfl, fun c hc => .inl hc⟩
    | registers => exact sendsStep_finishWizard s _ _
    | joins => exact sendsStep_clickJoin s _
    | closes => exact (sends_sendOrWarn s _).step rfl
    | creates =>
        exact ⟨(List.append_nil _).symm, rfl, rfl, rfl, rfl, fun c hc => List.mem_append.mp hc⟩
  exact ⟨hstep.cmds, hstep.network, hstep.closed, hstep.processed, hstep.ops, hstep.captures⟩

/-- The UI thread and the tasks of the app. -/
theorem sendsStep_of_local (hl : l.isRemote = false) (h : s.step l = some s') :
    SendsStep s l s' := by
  cases l with
  | poll => exact sendsStep_poll h
  | input i => exact sendsStep_input h
  | tunnel k move =>
      obtain ⟨_, _, rfl⟩ := Option.map_eq_some_iff.mp h
      exact ⟨(List.append_nil _).symm, rfl, rfl, rfl, (List.append_nil _).symm,
        fun c hc => .inl hc⟩
  | report k r =>
      obtain ⟨t, _, h⟩ := Option.bind_eq_some_iff.mp h
      cases r <;> simp only at h <;> split at h <;> cases h <;>
        exact ⟨(List.append_nil _).symm, rfl, rfl, rfl, (List.append_nil _).symm,
          fun c hc => .inl hc⟩
  | captured op gameinfo fields =>
      obtain ⟨c, _, rfl⟩ := Option.map_eq_some_iff.mp h
      exact ⟨(List.append_nil _).symm, rfl, rfl, rfl, (List.append_nil _).symm,
        fun c hc => .inl (List.mem_of_mem_erase hc)⟩
  | _ => cases hl

end Process

end War3BattleTool.Client

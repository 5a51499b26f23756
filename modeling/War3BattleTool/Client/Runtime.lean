import War3BattleTool.Client.App
import War3BattleTool.Foundation.Machine

set_option autoImplicit false

/-!
# The client process (`client/src/net/discovery.rs`, `client/src/net/tunnel.rs`)

The tasks beside the UI thread: the tunnel tasks, the captures, and `run_connection` with its
sessions.  Everything steps in any order.  A session is two queues, to and from the server; the
server end is an environment that works through the commands one by one, as the receive loop of
`handle_socket` does, and sends what it likes, but a `JoinResult` only while it works on a
`JoinRoom`, and an `Error` only to the sender of the frame it works on.
-/

namespace War3BattleTool.Client

open War3BattleTool.Foundation War3BattleTool.Protocol

/-- What a tunnel task does next. -/
inductive TunnelMove where
  /-- the pending `.await` succeeds -/
  | succeeds
  /-- the pending `.await` fails, or the bridge ends with an error -/
  | fails (error : String)
  /-- the bridge swaps to QUIC -/
  | swaps
  /-- the bridge ends -/
  | ends
  /-- the runtime drops the aborted task -/
  | dropped
  deriving DecidableEq

/-- What a detached task of a tunnel reports. -/
inductive Report where
  | diagnostics (results : List StrategyResult)
  | mapped (externalAddr : String)
  /-- the UPnP mapping failed -/
  | unmapped
  deriving DecidableEq

/-- The fields that `parse_gameinfo` reads. -/
structure GameinfoFields where
  gameName : String
  mapPath : Option String
  deriving DecidableEq

namespace TunnelTask

/-- The step of a tunnel task, with the events that it puts on the queue. -/
def step (t : TunnelTask) : TunnelMove → Option (TunnelTask × List TunnelEvent)
  | .succeeds =>
      match t.pc with
      | .binding =>
          some ({ t with pc := .connecting }, [.proxyReady, .transportSelected .relay])
      | .starting => some ({ t with pc := .connecting }, [.transportSelected .relay])
      | .connecting => some ({ t with pc := .pairing }, [])
      | .pairing =>
          some ({ t with pc := .relaying, diagnosing := true, mapping := t.role = .host }, [])
      | _ => none
  | .fails error =>
      match t.pc with
      | .binding | .connecting | .pairing | .relaying =>
          some ({ t with pc := .finished }, [.finished (some error)])
      | _ => none
  | .swaps =>
      if t.pc = .relaying then some ({ t with pc := .direct }, [.transportUpgraded]) else none
  | .ends =>
      match t.pc with
      | .relaying | .direct => some ({ t with pc := .finished }, [.finished none])
      | _ => none
  | .dropped =>
      match t.pc with
      | .finished | .dropped => none
      | _ => if t.aborted then some ({ t with pc := .dropped }, []) else none

/-- The task is neither finished nor aborted. -/
def isLive (t : TunnelTask) : Bool :=
  !t.aborted && match t.pc with
    | .finished | .dropped => false
    | _ => true

end TunnelTask

namespace Session

/-- A session begins. -/
def start : Session where
  sent := []
  toServer := []
  serving := none
  toClient := []

/-- What the server may send; `own` when the handler of this client sends it. -/
def maySend (x : Session) (m : ServerMessage) (own : Bool) : Bool :=
  match m with
  | .joinResult _ _ _ _ =>
      own && x.serving.any fun c =>
        match c.message with
        | .joinRoom _ => true
        | _ => false
  | .error _ => own && x.serving.isSome
  | _ => true

end Session

/-- The network task is between two sessions. -/
def NetworkTask.isBetween : NetworkTask → Bool
  | .connecting _ | .reporting _ | .waiting _ => true
  | .session _ | .stopped => false

namespace Process

/-- The process starts: `run_connection` makes its first attempt. -/
def start (config : AppConfig) : Process where
  app := .new config
  frame := .events
  cmds := []
  events := []
  tunnelEvents := []
  upnpMapped := []
  tunnels := []
  captures := []
  network := .connecting 1
  closed := []
  ops := []
  processed := []

/-- What happens next. -/
inductive Label where
  /-- the UI thread: `try_recv` -/
  | poll
  /-- the UI thread: the rest of the frame -/
  | input (i : Input)
  /-- a tunnel task -/
  | tunnel (k : TunnelId) (move : TunnelMove)
  /-- the detached tasks of a tunnel -/
  | report (k : TunnelId) (r : Report)
  /-- `check_room` has returned, and `parse_gameinfo` has read the packet -/
  | captured (op : OpId) (gameinfo : Bytes) (fields : Option GameinfoFields)
  /-- `connect_async` resolves -/
  | connect (ok : Bool)
  /-- `cmd_rx.recv()` resolves, and the command is sent or the send fails -/
  | sendNext (ok : Bool)
  /-- a heartbeat or a ping, sent or not -/
  | tick (m : ClientMessage) (ok : Bool)
  /-- `ws_rx.next()` yields a message -/
  | deliver
  /-- `ws_rx.next()` yields a close, an error or the end -/
  | lose
  /-- `Reconnecting` is reported -/
  | reconnecting
  /-- the delay is over -/
  | retry
  /-- the network task is gone -/
  | stop
  /-- the server takes the next command -/
  | serve
  /-- the server sends a message to this client -/
  | reply (m : ServerMessage) (externalAddr : Option SocketAddr) (own : Bool)
  /-- the server is done with the command -/
  | served
  deriving DecidableEq

/-- A tunnel task steps. -/
def tunnel (s : Process) (k : TunnelId) (move : TunnelMove) : Option Process :=
  (s.tunnels[k]?.bind (·.step move)).map fun (t, emitted) =>
    { s with
      tunnels := s.tunnels.set k t
      tunnelEvents := s.tunnelEvents ++ emitted.map (.tunnel k) }

/-- A detached task of a tunnel reports, once; it does so after its tunnel was aborted too. -/
def report (s : Process) (k : TunnelId) (r : Report) : Option Process :=
  s.tunnels[k]?.bind fun t =>
    match r with
    | .diagnostics results =>
        if t.diagnosing then
          some { s with
            tunnels := s.tunnels.set k { t with diagnosing := false }
            tunnelEvents := s.tunnelEvents ++ [.tunnel k (.strategyResults results)] }
        else none
    | .mapped externalAddr =>
        if t.mapping then
          some { s with
            tunnels := s.tunnels.set k { t with mapping := false }
            upnpMapped := s.upnpMapped ++ [(t.token, externalAddr)] }
        else none
    | .unmapped =>
        if t.mapping then
          some { s with tunnels := s.tunnels.set k { t with mapping := false } }
        else none

/-- A capture ends: what it found goes to the queue of tunnel events. -/
def captured (s : Process) (op : OpId) (gameinfo : Bytes) (fields : Option GameinfoFields) :
    Option Process :=
  (s.captures.find? (·.op = op)).map fun c =>
    { s with
      captures := s.captures.erase c
      tunnelEvents := s.tunnelEvents ++ [.gameinfoCaptured op
        ((fields.map (·.gameName)).getD "") ((fields.bind (·.mapPath)).getD "")
        c.maxPlayers gameinfo] }

/-- `handle_session` returns: `Disconnected`. -/
def endSession (s : Process) (x : Session) : Process :=
  { s with
    network := .reporting 0
    closed := x.sent :: s.closed
    events := s.events ++ [.disconnected] }

/-- A step inside a session. -/
def whenInSession (s : Process) (f : Session → Option Process) : Option Process :=
  match s.network with
  | .session x => f x
  | _ => none

/-- `cmd_rx.recv()`: a command that cannot be sent is lost, and the session with it. -/
def sendNext (s : Process) (x : Session) (ok : Bool) : Option Process :=
  match s.cmds with
  | [] => none
  | c :: rest =>
      let s := { s with cmds := rest }
      if ok then
        some { s with
          network := .session { x with
            sent := x.sent ++ [c.message]
            toServer := x.toServer ++ [c] } }
      else some (s.endSession x)

/-- The heartbeat and the ping of `handle_session`. -/
def tick (s : Process) (x : Session) (m : ClientMessage) (ok : Bool) : Option Process :=
  match m with
  | .heartbeat | .ping _ =>
      if ok then
        some { s with network := .session { x with toServer := x.toServer ++ [⟨m, none⟩] } }
      else some (s.endSession x)
  | _ => none

/-- `ws_rx.next()`: every message but a `Pong` goes to the UI. -/
def deliver (s : Process) (x : Session) : Option Process :=
  match x.toClient with
  | [] => none
  | letter :: rest =>
      let s := { s with network := .session { x with toClient := rest } }
      match letter.message with
      | .pong _ => some s
      | _ => some { s with events := s.events ++ [.serverMessage letter] }

/-- The server takes the next command. -/
def serve (s : Process) (x : Session) : Option Process :=
  match x.serving, x.toServer with
  | none, c :: rest =>
      some { s with network := .session { x with toServer := rest, serving := some c } }
  | _, _ => none

/-- The server sends a message to this client. -/
def reply (s : Process) (x : Session) (m : ServerMessage) (externalAddr : Option SocketAddr)
    (own : Bool) : Option Process :=
  if x.maySend m own then
    let letter : Letter :=
      { message := m, externalAddr := externalAddr,
        answers := if own then x.serving.bind (·.op) else none, processed := s.processed }
    some { s with network := .session { x with toClient := x.toClient ++ [letter] } }
  else none

/-- The server is done with the command it works on. -/
def served (s : Process) (x : Session) : Option Process :=
  x.serving.map fun c =>
    { s with
      network := .session { x with serving := none }
      processed := c.op.toList ++ s.processed }

/-- `run_connection` after a failed attempt, or a session. -/
def reconnecting (s : Process) : Option Process :=
  match s.network with
  | .reporting attempt =>
      some { s with network := .waiting attempt, events := s.events ++ [.reconnecting attempt] }
  | _ => none

/-- `connect_async` resolves. -/
def connect (s : Process) (ok : Bool) : Option Process :=
  match s.network with
  | .connecting attempt =>
      if ok then some { s with network := .session .start, events := s.events ++ [.connected] }
      else some { s with network := .reporting attempt }
  | _ => none

/-- The delay is over. -/
def retry (s : Process) : Option Process :=
  match s.network with
  | .waiting attempt => some { s with network := .connecting (attempt + 1) }
  | _ => none

/-- The network task is gone. -/
def stop (s : Process) : Option Process :=
  match s.network with
  | .stopped => none
  | .session x => some { s with network := .stopped, closed := x.sent :: s.closed }
  | _ => some { s with network := .stopped }

/-- One step of the client process. -/
def step (s : Process) : Label → Option Process
  | .poll => s.poll
  | .input i => s.input i
  | .tunnel k move => s.tunnel k move
  | .report k r => s.report k r
  | .captured op gameinfo fields => s.captured op gameinfo fields
  | .connect ok => s.connect ok
  | .sendNext ok => s.whenInSession fun x => s.sendNext x ok
  | .tick m ok => s.whenInSession fun x => s.tick x m ok
  | .deliver => s.whenInSession s.deliver
  | .lose => s.whenInSession fun x => some (s.endSession x)
  | .reconnecting => s.reconnecting
  | .retry => s.retry
  | .stop => s.stop
  | .serve => s.whenInSession s.serve
  | .reply m externalAddr own => s.whenInSession fun x => s.reply x m externalAddr own
  | .served => s.whenInSession s.served

/-- The client process as a machine. -/
def machine (config : AppConfig) : Machine Process Label where
  init := start config
  step := step

/-! ## The parties of a step -/

/-- The step is one of the network task or of the server. -/
def Label.isRemote : Label → Bool
  | .poll | .input _ | .tunnel _ _ | .report _ _ | .captured _ _ _ => false
  | _ => true

variable {s s' : Process} {l : Label}

theorem whenInSession_eq_some {f : Session → Option Process} :
    s.whenInSession f = some s' ↔ ∃ x, s.network = .session x ∧ f x = some s' := by
  unfold whenInSession
  split
  · next x hx => simp [hx]
  · next hnone =>
    simp only [reduceCtorEq, false_iff]
    rintro ⟨x, hx, _⟩
    exact hnone x hx

/-- What the steps of the network task and of the server do. -/
inductive RemoteStep (s : Process) : Label → Process → Prop
  | connects {attempt : Nat} (hnetwork : s.network = .connecting attempt) :
      RemoteStep s (.connect true)
        { s with network := .session .start, events := s.events ++ [.connected] }
  | sends {x : Session} {c : Command} {rest : List Command} (hnetwork : s.network = .session x)
      (hcmds : s.cmds = c :: rest) :
      RemoteStep s (.sendNext true)
        { s with
          cmds := rest
          network := .session { x with
            sent := x.sent ++ [c.message]
            toServer := x.toServer ++ [c] } }
  | ends {l : Label} {x : Session} {cmds : List Command} (hnetwork : s.network = .session x)
      (hcmds : ∀ c ∈ cmds, c ∈ s.cmds) : RemoteStep s l ({ s with cmds := cmds }.endSession x)
  | works {l : Label} {x y : Session} {new : List NetEvent} {processed : List OpId}
      (hnetwork : s.network = .session x) (hsent : y.sent = x.sent)
      (hnew : ∀ e ∈ new, ∃ letter, e = .serverMessage letter) :
      RemoteStep s l
        { s with network := .session y, events := s.events ++ new, processed := processed }
  | waits {l : Label} {network : NetworkTask} {new : List NetEvent}
      (hold : s.network.isBetween = true) (hnetwork : network.isBetween = true)
      (hnew : ∀ e ∈ new, ∃ attempt, e = .reconnecting attempt) :
      RemoteStep s l { s with network := network, events := s.events ++ new }
  | stops {closed : List (List ClientMessage)}
      (hclosed : closed = s.closed ∨ ∃ x, s.network = .session x ∧ closed = x.sent :: s.closed) :
      RemoteStep s .stop { s with network := .stopped, closed := closed }

/-- The work of a session that reports nothing. -/
theorem works_quietly {x y : Session} (hx : s.network = .session x) (hsent : y.sent = x.sent)
    {processed : List OpId} :
    RemoteStep s l { s with network := .session y, processed := processed } := by
  have hworks : RemoteStep s l
      { s with network := .session y, events := s.events ++ [], processed := processed } :=
    .works hx hsent (by simp)
  rwa [List.append_nil] at hworks

theorem waits_quietly {network : NetworkTask} (hold : s.network.isBetween = true)
    (hnetwork : network.isBetween = true) : RemoteStep s l { s with network := network } := by
  have hwaits : RemoteStep s l { s with network := network, events := s.events ++ [] } :=
    .waits hold hnetwork (by simp)
  rwa [List.append_nil] at hwaits

theorem remoteStep_of_step (hl : l.isRemote = true) (h : s.step l = some s') :
    RemoteStep s l s' := by
  cases l with
  | poll | input | tunnel | report | captured => cases hl
  | connect ok =>
      simp only [step, connect] at h
      split at h
      · next hnetwork =>
        split at h
        · next hok =>
          cases h
          exact hok ▸ .connects hnetwork
        · cases h
          exact waits_quietly (by rw [hnetwork]; rfl) rfl
      · cases h
  | reconnecting =>
      simp only [step, reconnecting] at h
      split at h
      · next hnetwork =>
        cases h
        exact .waits (by rw [hnetwork]; rfl) rfl (by simp)
      · cases h
  | retry =>
      simp only [step, retry] at h
      split at h
      · next hnetwork =>
        cases h
        exact waits_quietly (by rw [hnetwork]; rfl) rfl
      · cases h
  | stop =>
      simp only [step, stop] at h
      split at h
      · cases h
      · next x hx =>
        cases h
        exact .stops (.inr ⟨x, hx, rfl⟩)
      · cases h
        exact .stops (.inl rfl)
  | sendNext ok =>
      obtain ⟨x, hx, h⟩ := whenInSession_eq_some.mp h
      unfold sendNext at h
      split at h
      · cases h
      · next c rest hcmds =>
        dsimp only at h
        split at h
        · next hok =>
          cases h
          exact hok ▸ .sends hx hcmds
        · cases h
          exact .ends hx fun d hd => hcmds ▸ List.mem_cons_of_mem _ hd
  | tick m ok =>
      obtain ⟨x, hx, h⟩ := whenInSession_eq_some.mp h
      unfold tick at h
      split at h
      · split at h <;> cases h
        · exact works_quietly hx (by rfl)
        · exact .ends hx fun c hc => hc
      · split at h <;> cases h
        · exact works_quietly hx (by rfl)
        · exact .ends hx fun c hc => hc
      · cases h
  | deliver =>
      obtain ⟨x, hx, h⟩ := whenInSession_eq_some.mp h
      unfold deliver at h
      split at h
      · cases h
      · dsimp only at h
        split at h <;> cases h
        · exact works_quietly hx (by rfl)
        · exact .works hx (by rfl) (by simp)
  | lose =>
      obtain ⟨x, hx, h⟩ := whenInSession_eq_some.mp h
      cases h
      exact .ends hx fun c hc => hc
  | serve =>
      obtain ⟨x, hx, h⟩ := whenInSession_eq_some.mp h
      unfold serve at h
      split at h <;> cases h
      exact works_quietly hx (by rfl)
  | reply m externalAddr own =>
      obtain ⟨x, hx, h⟩ := whenInSession_eq_some.mp h
      unfold reply at h
      split at h <;> cases h
      exact works_quietly hx (by rfl)
  | served =>
      obtain ⟨x, hx, h⟩ := whenInSession_eq_some.mp h
      obtain ⟨c, _, rfl⟩ := Option.map_eq_some_iff.mp h
      exact works_quietly hx (by rfl)

/-- The step leaves the UI and the tasks of the app alone. -/
structure KeepsUi (s s' : Process) : Prop where
  app : s'.app = s.app
  frame : s'.frame = s.frame
  tunnelEvents : s'.tunnelEvents = s.tunnelEvents
  upnpMapped : s'.upnpMapped = s.upnpMapped
  tunnels : s'.tunnels = s.tunnels
  captures : s'.captures = s.captures
  ops : s'.ops = s.ops

/-- The network task and the server act on the network and on the queues to and from it. -/
theorem keepsUi_of_remote (hl : l.isRemote = true) (h : s.step l = some s') : KeepsUi s s' := by
  cases remoteStep_of_step hl h <;> exact ⟨rfl, rfl, rfl, rfl, rfl, rfl, rfl⟩

/-- They take commands, and put none. -/
theorem cmds_of_remote (hl : l.isRemote = true) (h : s.step l = some s') :
    ∀ c ∈ s'.cmds, c ∈ s.cmds := by
  cases remoteStep_of_step hl h with
  | sends _ hcmds =>
      rw [hcmds]
      exact fun c hc => List.mem_cons_of_mem _ hc
  | ends _ hcmds => exact hcmds
  | _ => exact fun c hc => hc

end Process

end War3BattleTool.Client

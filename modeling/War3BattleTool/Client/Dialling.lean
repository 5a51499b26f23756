import War3BattleTool.Client.Operations
import War3BattleTool.Client.Tunnels

set_option autoImplicit false

/-!
# What the tunnels are told to dial

The app keeps the address of a `StunInfo` for the tunnel that it starts next, and the sender
of the oneshot of the joiner's tunnel that it started last.  `Dialler` is this part of the
client: the two slots, and what each tunnel was given.  A message of the server acts on it by
`Dialler.handle`; nothing else does (`dialler_step`).
-/

namespace War3BattleTool.Client

open War3BattleTool.Foundation War3BattleTool.Protocol

/-- What a tunnel was given. -/
structure Dials where
  role : TunnelRole
  token : String
  peerAddr : Option IpAddr
  upnpAddr : Option SocketAddr
  deriving DecidableEq

/-- The two slots of the app, and what its tunnels were given. -/
structure Dialler where
  peerAddr : Option IpAddr
  upnpAddrSender : Option TunnelId
  tunnels : List Dials
  deriving DecidableEq

namespace Dialler

/-- A tunnel is started, and takes the address of the last `StunInfo`. -/
def startTunnel (d : Dialler) (role : TunnelRole) (token : String) : Dialler :=
  { d with
    peerAddr := none
    tunnels := d.tunnels ++ [⟨role, token, d.peerAddr, none⟩] }

/-- A joiner's tunnel is started, and waits for the address of the host's mapping. -/
def startJoiner (d : Dialler) (token : String) : Dialler :=
  { d.startTunnel .joiner token with upnpAddrSender := some d.tunnels.length }

/-- An address is sent to the tunnel that waits for one. -/
def sendAddr (d : Dialler) (addr : SocketAddr) : Dialler :=
  match d.upnpAddrSender with
  | some k =>
      { d with
        upnpAddrSender := none
        tunnels := d.tunnels.modify k fun t => { t with upnpAddr := some addr } }
  | none => d

/-- A message of the server; `waits` tells whether the app waits for a `JoinResult`. -/
def handle (d : Dialler) (waits : Bool) (m : ServerMessage) (externalAddr : Option SocketAddr) :
    Dialler :=
  match m with
  | .stunInfo peerAddr => { d with peerAddr := some peerAddr }
  | .playerJoined _ token | .tunnelReady token => d.startTunnel .host token
  | .joinResult success _ (some token) (some _) =>
      if waits && success then d.startJoiner token else d
  | .peerUPnPAddr _ =>
      match externalAddr.filter (isSafeExternalAddr ·.ip) with
      | some addr => d.sendAddr addr
      | none => d
  | _ => d

variable {d : Dialler} {waits : Bool} {m : ServerMessage} {externalAddr : Option SocketAddr}

theorem upnpAddr_startTunnel {role : TunnelRole} {token : String} {t : Dials} {addr : SocketAddr}
    (ht : t ∈ (d.startTunnel role token).tunnels) (haddr : t.upnpAddr = some addr) :
    t ∈ d.tunnels := by
  rcases List.mem_append.mp ht with hold | hnew
  · exact hold
  · rw [List.mem_singleton.mp hnew] at haddr
    cases haddr

/-- A tunnel was sent its address before, or is sent the address of a `PeerUPnPAddr` that
passes the filter. -/
theorem upnpAddr_handle {t : Dials} {addr : SocketAddr}
    (ht : t ∈ (d.handle waits m externalAddr).tunnels) (haddr : t.upnpAddr = some addr) :
    (∃ t' ∈ d.tunnels, t'.upnpAddr = some addr) ∨
      (∃ text, m = .peerUPnPAddr text) ∧ externalAddr = some addr ∧
        isSafeExternalAddr addr.ip = true := by
  unfold handle at ht
  split at ht
  case h_2 | h_3 => exact .inl ⟨t, upnpAddr_startTunnel ht haddr, haddr⟩
  case h_4 =>
    split at ht
    · exact .inl ⟨t, upnpAddr_startTunnel ht haddr, haddr⟩
    · exact .inl ⟨t, ht, haddr⟩
  case h_5 text =>
    split at ht
    · next addr' hfilter =>
      obtain ⟨hsome, hsafe⟩ := Option.filter_eq_some_iff.mp hfilter
      unfold sendAddr at ht
      split at ht
      · obtain ⟨j, hj⟩ := List.mem_iff_getElem?.mp ht
        rw [List.getElem?_modify] at hj
        obtain ⟨t', ht', heq⟩ := Option.map_eq_some_iff.mp hj
        split at heq
        · subst heq
          cases haddr
          exact .inr ⟨⟨text, rfl⟩, hsome, hsafe⟩
        · subst heq
          exact .inl ⟨t', List.mem_of_getElem? ht', haddr⟩
      · exact .inl ⟨t, ht, haddr⟩
    · exact .inl ⟨t, ht, haddr⟩
  all_goals exact .inl ⟨t, ht, haddr⟩

end Dialler

/-- What a tunnel task was given. -/
def TunnelTask.dials (t : TunnelTask) : Dials := ⟨t.role, t.token, t.peerAddr, t.upnpAddr⟩

/-- The app waits for a `JoinResult`. -/
def War3App.waitsForJoin (a : War3App) : Bool :=
  match a.pendingAction with
  | some (.joining _ _) => true
  | _ => false

namespace Process

/-- The slots and the tunnels of the client. -/
def dialler (s : Process) : Dialler where
  peerAddr := s.app.peerAddr
  upnpAddrSender := s.app.upnpAddrSender
  tunnels := s.tunnels.map (·.dials)

variable {s s' : Process} {l : Label}

theorem dialler_sendOrWarn (s : Process) (c : Command) :
    (s.sendOrWarn c).1.dialler = s.dialler := by
  rw [fst_sendOrWarn]
  rfl

theorem dials_modify {tunnels : List TunnelTask} {k : TunnelId} {f : TunnelTask → TunnelTask}
    (hf : ∀ t, (f t).dials = t.dials) :
    (tunnels.modify k f).map (·.dials) = tunnels.map (·.dials) := by
  apply List.ext_getElem?
  intro j
  rw [List.getElem?_map, List.getElem?_modify, List.getElem?_map]
  cases tunnels[j]? with
  | none => rfl
  | some t =>
      simp only [Option.map_eq_map, Option.map_some]
      split
      · rw [hf]
      · rfl

theorem dials_set {tunnels : List TunnelTask} {k : TunnelId} {t t' : TunnelTask}
    (ht : tunnels[k]? = some t) (hdials : t'.dials = t.dials) :
    (tunnels.set k t').map (·.dials) = tunnels.map (·.dials) := by
  apply List.ext_getElem?
  intro j
  rw [List.getElem?_map, List.getElem?_set, List.getElem?_map]
  by_cases hj : k = j
  · obtain ⟨hlt, rfl⟩ := List.getElem?_eq_some_iff.mp ht
    subst hj
    simp [hlt, hdials]
  · simp [hj]

/-- `abort_tunnel` leaves the slots and the arguments of the tunnels alone. -/
theorem dialler_abortTunnel (s : Process) : s.abortTunnel.dialler = s.dialler := by
  unfold abortTunnel
  split
  · exact congrArg (Dialler.mk s.app.peerAddr s.app.upnpAddrSender) (dials_modify fun _ => rfl)
  · rfl

/-! ## Server messages -/

theorem dialler_startHostTunnel (s : Process) (token : String) :
    (s.startHostTunnel token).dialler = s.dialler.startTunnel .host token := by
  have habort := dialler_abortTunnel s
  simp only [dialler, Dialler.mk.injEq] at habort
  obtain ⟨hpeer, hsender, htunnels⟩ := habort
  simp only [startHostTunnel, spawnTunnel, setApp, dialler, Dialler.startTunnel, List.map_append,
    List.map_cons, List.map_nil, hsender, htunnels, hpeer]
  rfl

theorem dialler_startJoinerTunnel (s : Process) (op : Option OpId) (token : String)
    (gameinfo : Bytes) :
    (s.startJoinerTunnel op token gameinfo).dialler = s.dialler.startJoiner token := by
  have habort := dialler_abortTunnel s
  simp only [dialler, Dialler.mk.injEq] at habort
  obtain ⟨hpeer, hsender, htunnels⟩ := habort
  simp only [startJoinerTunnel, spawnTunnel, setApp, dialler, Dialler.startJoiner,
    Dialler.startTunnel, List.map_append, List.map_cons, List.map_nil, htunnels, hpeer,
    List.length_map]
  rfl

theorem dialler_joinResult (op : Option OpId) (success : Bool) (room token : Option String)
    (gameinfo : Option Bytes) (addr : Option SocketAddr) :
    (s.joinResult op success token gameinfo).dialler =
      s.dialler.handle s.app.waitsForJoin (.joinResult success room token gameinfo) addr := by
  unfold joinResult
  split
  · next hpending =>
    have hwaits : s.app.waitsForJoin = true := by rw [War3App.waitsForJoin, hpending]
    rw [hwaits]
    cases success with
    | true =>
        cases token with
        | none => rfl
        | some token =>
            cases gameinfo with
            | none => rfl
            | some gameinfo =>
                exact dialler_startJoinerTunnel (s.setPending (some .joinSuccess)) op token gameinfo
    | false => cases token <;> cases gameinfo <;> rfl
  · next hpending =>
    have hwaits : s.app.waitsForJoin = false := by
      unfold War3App.waitsForJoin
      split
      · next roomName op hjoining => exact absurd hjoining (hpending roomName op)
      · rfl
    rw [hwaits]
    cases token <;> cases gameinfo <;> rfl

theorem dialler_peerUPnPAddr (text : String) (addr : Option SocketAddr) (waits : Bool) :
    (s.peerUPnPAddr addr).dialler = s.dialler.handle waits (.peerUPnPAddr text) addr := by
  simp only [peerUPnPAddr, Dialler.handle]
  cases addr.filter (isSafeExternalAddr ·.ip) with
  | none => rfl
  | some x =>
      have hsender : s.dialler.upnpAddrSender = s.app.upnpAddrSender := rfl
      simp only [Dialler.sendAddr, hsender]
      cases s.app.upnpAddrSender with
      | none => rfl
      | some k =>
          refine congrArg (Dialler.mk s.app.peerAddr none) (List.ext_getElem? fun j => ?_)
          simp only [List.getElem?_map, List.getElem?_modify, dialler]
          cases s.tunnels[j]? with
          | none => rfl
          | some t =>
              simp only [Option.map_eq_map, Option.map_some]
              split <;> rfl

/-- `handle_server_message` acts on the slots and the tunnels as `Dialler.handle` does. -/
theorem dialler_handleServerMessage (s : Process) (letter : Letter) :
    (s.handleServerMessage letter).dialler =
      s.dialler.handle s.app.waitsForJoin letter.message letter.externalAddr := by
  unfold handleServerMessage
  split
  case h_4 hm =>
    rw [hm]
    unfold roomUpdate
    split <;> rfl
  case h_5 success room token gameinfo hm =>
    rw [hm]
    exact dialler_joinResult _ success room token gameinfo _
  case h_6 nickname token hm =>
    rw [hm]
    exact dialler_startHostTunnel s token
  case h_7 token hm =>
    rw [hm]
    exact dialler_startHostTunnel s token
  case h_9 text hm =>
    rw [hm]
    exact dialler_peerUPnPAddr text _ _
  case h_10 text hm =>
    rw [hm]
    unfold War3App.surfaceError
    split <;> rfl
  all_goals next hm => rw [hm]; rfl

/-! ## Other steps -/

theorem dialler_netConnected (s : Process) : s.netConnected.dialler = s.dialler := by
  have happ : ∀ a : War3App, (s.setApp a.clearServerError).dialler = (s.setApp a).dialler := by
    intro a
    unfold War3App.clearServerError
    split <;> rfl
  unfold netConnected sendRegister
  dsimp only
  split
  · exact (dialler_sendOrWarn _ _).trans (happ _)
  · exact happ _

theorem dialler_netEvent {e : NetEvent} (he : ∀ letter, e ≠ .serverMessage letter) :
    (s.netEvent e).dialler = s.dialler := by
  have hcancel : ∀ a : War3App, (s.setApp a.cancelInFlight).dialler = (s.setApp a).dialler := by
    intro a
    unfold War3App.cancelInFlight
    split <;> rfl
  cases e with
  | connected => exact dialler_netConnected s
  | disconnected | reconnecting attempt => exact hcancel _
  | serverMessage letter => exact absurd rfl (he letter)

theorem dialler_upnpEvent (s : Process) (token addr : String) :
    (s.upnpEvent token addr).dialler = s.dialler := by
  have hsent := dialler_sendOrWarn s ⟨.upnpMapped addr token, none⟩
  unfold upnpEvent
  dsimp only
  split
  · exact hsent
  · exact hsent

theorem dialler_posted (s : Process) (p : Posted) : (s.posted p).dialler = s.dialler := by
  cases p with
  | tunnel k event => cases event <;> rfl
  | gameinfoCaptured op roomName mapName maxPlayers gameinfo =>
      have hsent := dialler_sendOrWarn s ⟨.createRoom roomName mapName maxPlayers gameinfo, some op⟩
      simp only [posted, gameinfoCaptured]
      split
      · rfl
      · split
        · exact hsent
        · exact hsent

theorem dialler_click {i : Input} (h : s.click i = some s') : s'.dialler = s.dialler := by
  unfold click at h
  split at h
  · split at h
    · split at h <;> cases h
      rfl
    · cases h
  · split at h <;> cases h
    unfold clickJoin
    dsimp only
    split <;> exact dialler_sendOrWarn s _
  · split at h <;> cases h
    exact dialler_sendOrWarn s _
  · split at h <;> cases h
    rfl
  · split at h <;> cases h
    rfl
  · split at h <;> cases h
    rfl
  · cases h

theorem dialler_input {i : Input} (h : s.input i = some s') : s'.dialler = s.dialler := by
  unfold input at h
  split at h
  · obtain ⟨next, hnext, rfl⟩ := Option.map_eq_some_iff.mp h
    change next.dialler = s.dialler
    unfold showFrame at hnext
    split at hnext
    · cases hnext
      rfl
    · split at hnext <;> cases hnext
      unfold finishWizard sendRegister
      dsimp only
      split
      · exact dialler_sendOrWarn _ _
      · rfl
    · split at hnext <;> cases hnext
      rfl
    · split at hnext
      · exact dialler_click hnext
      · cases hnext
  · cases h

theorem dials_taskStep {t t' : TunnelTask} {move : TunnelMove} {emitted : List TunnelEvent}
    (h : t.step move = some (t', emitted)) : t'.dials = t.dials := by
  cases move with
  | succeeds | fails error | swaps | ends =>
      simp only [TunnelTask.step] at h
      split at h <;> cases h <;> rfl
  | dropped =>
      simp only [TunnelTask.step] at h
      split at h
      · cases h
      · cases h
      · split at h <;> cases h
        rfl

theorem dialler_tunnel {k : TunnelId} {move : TunnelMove} (h : s.tunnel k move = some s') :
    s'.dialler = s.dialler := by
  obtain ⟨⟨t', emitted⟩, hmove, rfl⟩ := Option.map_eq_some_iff.mp h
  obtain ⟨t, ht, hmove⟩ := Option.bind_eq_some_iff.mp hmove
  exact congrArg (Dialler.mk s.app.peerAddr s.app.upnpAddrSender)
    (dials_set ht (dials_taskStep hmove))

theorem dialler_report {k : TunnelId} {r : Report} (h : s.report k r = some s') :
    s'.dialler = s.dialler := by
  obtain ⟨t, ht, h⟩ := Option.bind_eq_some_iff.mp h
  cases r <;> simp only at h <;> split at h <;> cases h <;>
    exact congrArg (Dialler.mk s.app.peerAddr s.app.upnpAddrSender) (dials_set ht rfl)

/-- Only a message of the server acts on the slots and the tunnels. -/
theorem dialler_step (h : s.step l = some s') : s'.dialler = s.dialler ∨
    ∃ letter rest, l = .poll ∧ s.frame = .events ∧ s.events = .serverMessage letter :: rest ∧
      s' = { s with events := rest }.handleServerMessage letter := by
  cases hl : l.isRemote with
  | true =>
      have hui := keepsUi_of_remote hl h
      exact .inl (by rw [dialler, hui.app, hui.tunnels, dialler])
  | false =>
      cases l with
      | poll =>
          cases polls_of_poll h with
          | @event e rest hframe hevents =>
              by_cases he : ∃ letter, e = .serverMessage letter
              · obtain ⟨letter, rfl⟩ := he
                exact .inr ⟨letter, rest, rfl, hframe, hevents, rfl⟩
              · exact .inl (dialler_netEvent (not_exists.mp he))
          | upnp => exact .inl (dialler_upnpEvent _ _ _)
          | posted => exact .inl (dialler_posted _ _)
          | ends => exact .inl rfl
      | input i => exact .inl (dialler_input h)
      | tunnel k move => exact .inl (dialler_tunnel h)
      | report k r => exact .inl (dialler_report h)
      | captured op gameinfo fields =>
          obtain ⟨c, _, rfl⟩ := Option.map_eq_some_iff.mp h
          exact .inl rfl
      | _ => cases hl

end Process

end War3BattleTool.Client

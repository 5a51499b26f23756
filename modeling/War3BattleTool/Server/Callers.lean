import War3BattleTool.Protocol.AddrText
import War3BattleTool.Server.Origins
import War3BattleTool.Server.Slots
import War3BattleTool.Server.Standing

set_option autoImplicit false

/-!
# Who is counted (`real_ip` of `server/src/main.rs`)

Requests come from a TCP peer, with headers of the peer's choice.  The server believes
`X-Real-IP` if the peer is the proxy on its own machine, and nobody else (`realIp`), so a remote
peer cannot get round the limit of connections for its address, and the clients behind the proxy
are told apart (`connections_le_limit`).
-/

namespace War3BattleTool.Server

open War3BattleTool.Foundation War3BattleTool.Protocol

/-- `is_loopback`. -/
def isLoopback : IpAddr → Bool
  | .v4 a => octet a 0 = 127
  | .v6 a => a = 1

/-- A TCP peer that sends a request, and the values of its header `x-real-ip`. -/
structure Caller where
  peer : SocketAddr
  xRealIp : List HeaderValue

/-- `real_ip`. -/
def realIp (headers : List HeaderValue) (fallback : SocketAddr) : IpAddr :=
  if isLoopback fallback.ip then
    ((headers.head?.bind HeaderValue.toStr).bind parseIpAddr).getD fallback.ip
  else fallback.ip

/-- The address that the server takes a caller for. -/
def Caller.clientIp (caller : Caller) : IpAddr := realIp caller.xRealIp caller.peer

theorem Caller.clientIp_of_remote {caller : Caller} (h : isLoopback caller.peer.ip = false) :
    caller.clientIp = caller.peer.ip := by
  rw [clientIp, realIp, h]
  rfl

/-- The caller is the proxy, and names this address in one of its texts. -/
def Caller.forwards (ip : IpAddr) (caller : Caller) : Bool :=
  isLoopback caller.peer.ip &&
    (caller.xRealIp.head?.bind HeaderValue.toStr).bind parseIpAddr = some ip

/-- The server believes the proxy. -/
theorem Caller.clientIp_of_forwards {caller : Caller} {ip : IpAddr}
    (h : caller.forwards ip = true) : caller.clientIp = ip := by
  obtain ⟨hlocal, hvalue⟩ := Bool.and_eq_true_iff.mp h
  rw [clientIp, realIp, if_pos hlocal, of_decide_eq_true hvalue, Option.getD_some]

theorem isAscii_ipText (ip : IpAddr) : IsAscii (ipText ip) := by
  intro c hc
  cases ip with
  | v4 a => exact ((AddrPart.ipv4 a).chars c (by simpa [ipText, ipChars] using hc)).ascii
  | v6 a => exact ((AddrPart.ipv6 a).chars c (by simpa [ipText, ipChars] using hc)).ascii

/-- The text that `Display` gives an address names it. -/
theorem Caller.forwards_ipText {caller : Caller} {ip : IpAddr} {value : HeaderValue}
    (hlocal : isLoopback caller.peer.ip = true) (hhead : caller.xRealIp.head? = some value)
    (hbytes : value.bytes = utf8Bytes (ipText ip)) : caller.forwards ip = true := by
  have hstr := toStr_of_ascii hbytes (isAscii_ipText ip)
  rw [forwards, hlocal, hhead, Option.bind_some, hstr, Option.bind_some, parseIpAddr_ipText]
  exact decide_eq_true rfl

namespace TunnelService

variable {s s' : TunnelService} {c : ConnId}

/-- The address of a connection. -/
def clientIpOf (s : TunnelService) (c : ConnId) : Option IpAddr := (s.badge c).map (·.clientIp)

/-- A connection keeps its address, or begins with that of its request. -/
theorem clientIpOf_of_step {l : Label} (hstep : s.step l = some s') :
    s'.clientIpOf c = s.clientIpOf c ∨
      ∃ originOk ip token role, l = .request c originOk ip token role ∧
        s'.clientIpOf c = some ip := by
  have hkept : ∀ {c' : ConnId} {b b' : Badge}, s.badge c' = some b →
      s'.badge = Function.update s.badge c' (some b') → b'.clientIp = b.clientIp →
        s'.clientIpOf c = s.clientIpOf c := by
    intro c' b b' hb hbadge hip
    rw [clientIpOf, clientIpOf, hbadge, Function.update_apply]
    split
    next heq => rw [heq, hb, Option.map_some, Option.map_some, hip]
    next => rfl
  cases handles_step hstep with
  | keeps hbadge | refuses hbadge => exact .inl (by rw [clientIpOf, clientIpOf, hbadge])
  | @admits c' originOk ip token role hfresh hrole hbadge =>
      by_cases heq : c = c'
      · subst heq
        refine .inr ⟨originOk, ip, some token, some role, rfl, ?_⟩
        rw [clientIpOf, hbadge, Function.update_self]
        rfl
      · exact .inl (by rw [clientIpOf, clientIpOf, hbadge, Function.update_of_ne heq])
  | loses hb _ _ hbadge | verifies hb _ _ hbadge | releases hb _ _ hbadge =>
      exact .inl (hkept hb hbadge rfl)

end TunnelService

namespace Lobby

variable {s s' : Lobby} {c : Nat}

/-- The address of a connection to a service. -/
def clientIpOf (s : Lobby) : Service → Nat → Option IpAddr
  | .lobby, c => (s.sockets.get? c).map (·.clientIp)
  | .tunnel, c => s.tunnel.clientIpOf c

/-- The connection that a step asks for, and for which address. -/
def Label.asks : Label → Option (Service × Nat × IpAddr)
  | .request c _ ip => some (.lobby, c, ip)
  | .tunnel (.request c _ ip _ _) => some (.tunnel, c, ip)
  | _ => none

theorem wsClientIp_of_step {l : Label} (hstep : s.step l = some s') :
    s'.clientIpOf .lobby c = s.clientIpOf .lobby c ∨
      ∃ ip, l.asks = some (.lobby, c, ip) ∧ s'.clientIpOf .lobby c = some ip := by
  have hmoved : ∀ c', isOwn c' s l = true → s'.clientIpOf .lobby c = s.clientIpOf .lobby c := by
    intro c' hown
    obtain ⟨h, h', hc', hm⟩ := moves_of_own hstep hown
    rw [clientIpOf, clientIpOf, hm.sockets, Function.update_apply]
    split
    next heq =>
      rw [heq, hc']
      exact congrArg some hm.clientIp
    next => rfl
  have hsame : s'.sockets = s.sockets → s'.clientIpOf .lobby c = s.clientIpOf .lobby c :=
    fun hsockets => by rw [clientIpOf, clientIpOf, hsockets]
  cases l with
  | elapse d =>
      cases hstep
      exact .inl rfl
  | tunnel l =>
      simp only [step] at hstep
      split at hstep
      · obtain ⟨tunnel, _, rfl⟩ := Option.map_eq_some_iff.mp hstep
        exact .inl rfl
      · cases hstep
  | request c' originOk ip =>
      simp only [step, request] at hstep
      split at hstep
      · cases hstep
      · split at hstep
        · cases hstep
          by_cases heq : c = c'
          · subst heq
            refine .inr ⟨ip, rfl, ?_⟩
            simp [clientIpOf, setApp, Table.get?_insert, Socket.clientIp]
          · refine .inl ?_
            simp [clientIpOf, setApp, Table.get?_insert, heq]
        · cases hstep
          exact .inl rfl
  | upgrade c' playerId =>
      left
      simp only [step] at hstep
      split at hstep
      next ip hc' =>
        cases playerId with
        | some playerId =>
            simp only [upgraded] at hstep
            split at hstep <;> cases hstep
            by_cases heq : c = c'
            · simp [clientIpOf, put, Table.get?_modify, heq, hc', Socket.clientIp, Handler.start]
            · simp [clientIpOf, put, Table.get?_modify, heq]
        | none =>
            cases hstep
            by_cases heq : c = c'
            · simp [clientIpOf, Table.get?_modify, heq, hc', Socket.clientIp]
            · simp [clientIpOf, Table.get?_modify, heq]
      next => cases hstep
  | frame c' item | block c' fresh | drop c' => exact .inl (hmoved c' (by simp [isOwn]))
  | sent c' ok =>
      obtain ⟨o, _, hsent⟩ := Option.bind_eq_some_iff.mp hstep
      obtain ⟨o', _, rfl⟩ := Option.map_eq_some_iff.mp hsent
      exact .inl rfl
  | cleanup => exact .inl (hsame (cleanupStep_frame hstep).1)

/-- A connection keeps its address, or begins with that of its request. -/
theorem clientIpOf_of_step (service : Service) {l : Label} (hstep : s.step l = some s') :
    s'.clientIpOf service c = s.clientIpOf service c ∨
      ∃ ip, l.asks = some (service, c, ip) ∧ s'.clientIpOf service c = some ip := by
  cases service with
  | lobby => exact wsClientIp_of_step hstep
  | tunnel =>
      obtain htunnel | ⟨m, hlabel, hmoves⟩ := tunnel_cases hstep
      · exact .inl (congrArg (·.clientIpOf c) htunnel)
      · obtain hsame | ⟨originOk, ip, token, role, rfl, hip⟩ :=
          TunnelService.clientIpOf_of_step (c := c) hmoves
        · exact .inl hsame
        · obtain rfl := eq_tunnel_of_conn hlabel rfl
          exact .inr ⟨ip, rfl, hip⟩

/-- A connection is asked for before it is there. -/
theorem clientIpOf_of_asks {service : Service} {l : Label} {ip : IpAddr}
    (hstep : s.step l = some s') (hasks : l.asks = some (service, c, ip)) :
    s.clientIpOf service c = none := by
  cases l with
  | request c' originOk ip' =>
      cases hasks
      simp only [step, request] at hstep
      split at hstep
      · cases hstep
      next hnone => rw [clientIpOf, hnone, Option.map_none]
  | tunnel l =>
      cases l with
      | request c' originOk ip' token role =>
          cases hasks
          have hnone : s.tunnel.tasks.get? c = none := by
            simp only [step] at hstep
            split at hstep
            · obtain ⟨tunnel, hrequest, _⟩ := Option.map_eq_some_iff.mp hstep
              cases TunnelService.Step.of_step hrequest with
              | denied hnone | admitted hnone => exact hnone
              | own _ hown => cases hown
            · cases hstep
          simp [clientIpOf, TunnelService.clientIpOf, TunnelService.badge, hnone]
      | _ => cases hasks
  | _ => cases hasks

end Lobby

theorem Socket.clientIp_of_live {socket : Socket} {ip : IpAddr} (h : socket.live = some ip) :
    socket.clientIp = ip := by
  cases socket with
  | upgrading ip' => exact Option.some.inj h
  | upgradeFailed ip' => cases h
  | running handler =>
      simp only [live] at h
      split at h
      · cases h
      · exact Option.some.inj h

theorem TunnelTask.clientIp_of_live {t : TunnelTask} {ip : IpAddr} (h : t.live = some ip) :
    t.clientIp = ip := by
  unfold live at h
  split at h
  · cases h
  · cases h
  · exact Option.some.inj h

/-! ## The server behind `real_ip` -/

instance : DecidableEq Service
  | .lobby, .lobby | .tunnel, .tunnel => isTrue rfl
  | .lobby, .tunnel | .tunnel, .lobby => isFalse nofun

/-- The server, and who asked for each connection last. -/
structure Site where
  lobby : Lobby
  callers : Service → Nat → Option Caller

namespace Site

/-- What can happen next: a request of a caller, or a step that is no request. -/
inductive Label where
  | ws (c : SocketId) (originOk : Bool) (caller : Caller)
  | tunnel (c : ConnId) (originOk : Bool) (caller : Caller) (token role : Option String)
  | own (l : Lobby.Label)

/-- The step of the server. -/
def Label.received : Label → Lobby.Label
  | .ws c originOk caller => .request c originOk caller.clientIp
  | .tunnel c originOk caller token role => .tunnel (.request c originOk caller.clientIp token role)
  | .own l => l

/-- Who asks for which connection. -/
def Label.calls : Label → Option (Service × Nat × Caller)
  | .ws c _ caller => some (.lobby, c, caller)
  | .tunnel c _ caller _ _ => some (.tunnel, c, caller)
  | .own _ => none

/-- Who asked for each connection last, after a step. -/
def record (s : Site) (l : Label) (service : Service) (c : Nat) : Option Caller :=
  match l.calls with
  | some (service', c', caller) =>
      if service = service' ∧ c = c' then some caller else s.callers service c
  | none => s.callers service c

/-- `ws_handler` and `tunnel_handler` take the address from `real_ip`; only callers make
requests. -/
def step (s : Site) (l : Label) : Option Site :=
  if l.received.asks.isSome = l.calls.isSome then
    (s.lobby.step l.received).map fun lobby =>
      { lobby := lobby, callers := s.record l }
  else none

def machine : Machine Site Label where
  init := ⟨.start, fun _ _ => none⟩
  step := step

variable {s s' : Site}

/-- Every connection has the address that its caller is taken for. -/
structure Named (s : Site) : Prop where
  caller : ∀ {service c ip}, s.lobby.clientIpOf service c = some ip →
    ∃ caller, s.callers service c = some caller ∧ caller.clientIp = ip

theorem asks_of_calls {l : Label} {service : Service} {c : Nat} {caller : Caller}
    (h : l.calls = some (service, c, caller)) :
    l.received.asks = some (service, c, caller.clientIp) := by
  cases l <;> cases h <;> rfl

/-- Nobody takes the name of a connection that is there. -/
theorem Named.step {l : Label} (h : s.Named) (hstep : s.step l = some s') : s'.Named := by
  unfold Site.step at hstep
  split at hstep
  next hasks =>
    obtain ⟨lobby, hlobby, rfl⟩ := Option.map_eq_some_iff.mp hstep
    refine ⟨fun {service c ip} hip => ?_⟩
    have hmoved := Lobby.clientIpOf_of_step (c := c) service hlobby
    cases hcalls : l.calls with
    | none =>
        have hnone : l.received.asks = none := by simpa [hcalls] using hasks
        obtain hsame | ⟨ip', hask, _⟩ := hmoved
        · rw [hsame] at hip
          obtain ⟨caller, hcaller, hclient⟩ := h.caller hip
          exact ⟨caller, by simpa [record, hcalls] using hcaller, hclient⟩
        · rw [hnone] at hask
          cases hask
    | some call =>
        obtain ⟨service', c', caller⟩ := call
        have hask := asks_of_calls hcalls
        by_cases heq : service = service' ∧ c = c'
        · obtain ⟨rfl, rfl⟩ := heq
          refine ⟨caller, by simp [record, hcalls], ?_⟩
          obtain hsame | ⟨ip', hask', hip'⟩ := hmoved
          · rw [hsame, Lobby.clientIpOf_of_asks hlobby hask] at hip
            cases hip
          · rw [hask] at hask'
            cases hask'
            exact Option.some.inj (hip'.symm.trans hip)
        · obtain hsame | ⟨ip', hask', _⟩ := hmoved
          · rw [hsame] at hip
            obtain ⟨caller₀, hcaller₀, hclient⟩ := h.caller hip
            exact ⟨caller₀, by simpa [record, hcalls, heq] using hcaller₀, hclient⟩
          · rw [hask] at hask'
            cases hask'
            exact absurd ⟨rfl, rfl⟩ heq
  next => cases hstep

theorem named_of_reachable (h : machine.Reachable s) : s.Named := by
  refine h.invariant ⟨?_⟩ fun _ _ _ _ hnamed hstep => hnamed.step hstep
  intro service c ip hip
  cases service <;> cases hip

theorem lobby_of_reachable (h : machine.Reachable s) : Lobby.machine.Reachable s.lobby := by
  apply h.invariant (I := fun s => Lobby.machine.Reachable s.lobby)
  · exact .init
  intro s l s' _ hlobby hstep
  have hstep : s.step l = some s' := hstep
  unfold Site.step at hstep
  split at hstep
  · obtain ⟨lobby, hown, rfl⟩ := Option.map_eq_some_iff.mp hstep
    exact .step hlobby hown
  · cases hstep

/-- The connection was asked for by one of these callers. -/
def calledBy (s : Site) (who : Caller → Bool) (service : Service) (c : Nat) : Bool :=
  (s.callers service c).any who

/-- The number of connections of these callers that have neither ended nor failed to upgrade. -/
def connections (s : Site) (who : Caller → Bool) : Service → Nat
  | .lobby => s.lobby.sockets.entries.countP fun e => e.2.live.isSome && s.calledBy who .lobby e.1
  | .tunnel =>
      s.lobby.tunnel.tasks.entries.countP fun e => e.2.live.isSome && s.calledBy who .tunnel e.1

variable {who : Caller → Bool} {ip : IpAddr}

theorem Named.eq_of_calledBy (h : s.Named) (service : Service)
    (hwho : ∀ caller, who caller = true → caller.clientIp = ip) {c : Nat} {ip' : IpAddr}
    (hcalled : s.calledBy who service c = true)
    (hip : s.lobby.clientIpOf service c = some ip') : ip' = ip := by
  obtain ⟨caller, hcaller, rfl⟩ := h.caller hip
  rw [calledBy, hcaller] at hcalled
  exact hwho caller hcalled

/-- The connections of callers that are all taken for one address count as that address's. -/
theorem connections_le_live (h : s.Named)
    (hwho : ∀ caller, who caller = true → caller.clientIp = ip) (service : Service) :
    s.connections who service ≤ s.lobby.live service ip := by
  cases service with
  | lobby =>
      refine Table.countP_le_tally Socket.live fun c socket ip' hsocket hcalled hlive => ?_
      refine h.eq_of_calledBy .lobby hwho hcalled ?_
      rw [Lobby.clientIpOf, hsocket, Option.map_some, Socket.clientIp_of_live hlive]
  | tunnel =>
      refine Table.countP_le_tally TunnelTask.live fun c t ip' ht hcalled hlive => ?_
      refine h.eq_of_calledBy .tunnel hwho hcalled ?_
      rw [Lobby.clientIpOf, TunnelService.clientIpOf, TunnelService.badge_of_get? ht,
        Option.map_some, ← TunnelTask.clientIp_of_live hlive]
      rfl

theorem live_le_limit (h : machine.Reachable s) (service : Service) (ip : IpAddr) :
    s.lobby.live service ip ≤ service.limit := by
  obtain ⟨events, htrace⟩ := (lobby_of_reachable h).exists_trace (Lobby.failures service)
  exact (Nat.le_add_right _ _).trans ((Lobby.ledger_of_trace htrace).1.bounded ip)

/-- Whatever headers they send, the peers at a remote address stay within the limit for one
address, and so do the clients for which the proxy names one address. -/
theorem connections_le_limit (h : machine.Reachable s) (service : Service) (ip : IpAddr) :
    (isLoopback ip = false →
      s.connections (fun caller => caller.peer.ip = ip) service ≤ service.limit) ∧
      s.connections (·.forwards ip) service ≤ service.limit := by
  have hnamed := named_of_reachable h
  constructor
  · intro hremote
    refine (connections_le_live hnamed (fun caller hpeer => ?_) service).trans
      (live_le_limit h service ip)
    obtain rfl := of_decide_eq_true hpeer
    exact Caller.clientIp_of_remote hremote
  · exact (connections_le_live hnamed (fun _ => Caller.clientIp_of_forwards) service).trans
      (live_le_limit h service ip)

/-- A remote peer that claims to be local with every request. -/
def spoofs (n : Nat) : Label :=
  .ws n true ⟨⟨.v4 0x08080808, 50000⟩, [headerValue "127.0.0.1" (by decide)]⟩

/-- The limit holds a peer that names other addresses. -/
theorem connections_le_limit_spoofs :
    ∃ s, machine.Reachable s ∧ isLoopback (.v4 0x08080808) = false ∧
      s.connections (fun caller => caller.peer.ip = .v4 0x08080808) .lobby = maxConnectionsPerIp ∧
        s.connections (fun caller => caller.peer.ip = .v4 0x08080808) .lobby ≤
          Service.lobby.limit := by
  have hrun : (machine.exec machine.init ((List.range 12).map spoofs)).any
      (fun s => decide (s.connections (fun caller => caller.peer.ip = .v4 0x08080808) .lobby =
        maxConnectionsPerIp)) = true := by
    decide
  obtain ⟨s, _, hreach, hcount⟩ := Machine.exists_reachable_of_exec hrun
  exact ⟨s, hreach, by decide, of_decide_eq_true hcount,
    (connections_le_limit hreach .lobby _).1 (by decide)⟩

end Site

end War3BattleTool.Server

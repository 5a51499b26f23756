import War3BattleTool.Client.App
import War3BattleTool.Client.SwapHandshake
import War3BattleTool.Foundation.Net
import War3BattleTool.Foundation.Utf8

set_option autoImplicit false

/-!
# The joiner's ways to a QUIC stream (`client/src/net/tunnel.rs`, `client/src/net/quic.rs`)

`background_quic_joiner` knows two ways to the host: the address that the server observed, and
the one that the host mapped over UPnP.  It lets both attempts race, and gives the stream of
the winner to the swap handshake.

The race ends with the first attempt to complete, not with the first to succeed.  So the
success that comes first wins if and only if no failure comes before it
(`firstSuccessWins_iff`).
-/

namespace War3BattleTool.Client

open War3BattleTool.Foundation

/-! ## Strategies and their results -/

/-- The other strategy. -/
def StrategyKind.other : StrategyKind → StrategyKind
  | .quicDirect => .upnp
  | .upnp => .quicDirect

theorem StrategyKind.other_ne (kind : StrategyKind) : kind.other ≠ kind := by
  cases kind with
  | quicDirect => exact StrategyKind.noConfusion
  | upnp => exact StrategyKind.noConfusion

theorem StrategyKind.eq_or_eq_other (kind first : StrategyKind) :
    kind = first ∨ kind = first.other := by
  cases kind <;> cases first <;> simp [StrategyKind.other]

/-- `StrategyFailReason`. -/
inductive StrategyFailReason where
  | noStunInfo
  | bindFailed (text : String)
  | timeout
  | handshakeFailed (text : String)
  | upnpGatewayNotFound
  | upnpMappingFailed (text : String)
  | upnpNotAttempted
  | cgnatDetected

/-- The `Display` of a `StrategyFailReason`. -/
def StrategyFailReason.text : StrategyFailReason → String
  | .noStunInfo => "無對方 IP"
  | .bindFailed e => "綁定失敗: " ++ e
  | .timeout => "逾時"
  | .handshakeFailed e => "交握失敗: " ++ e
  | .upnpGatewayNotFound => "Gateway 找不到"
  | .upnpMappingFailed e => "映射失敗: " ++ e
  | .upnpNotAttempted => "未嘗試"
  | .cgnatDetected => "偵測到 CGNAT"

/-! ## One attempt -/

/-- `CONNECT_TIMEOUT`. -/
def connectTimeout : Duration := secs 5

/-- `QUIC_DEFAULT_PORT`. -/
def quicDefaultPort : Nat := 19870

/-- What the QUIC library and the network make of one attempt, whose errors count by their
texts. -/
structure Quic (Conn Stream : Type) where
  /-- `QuicClientConfig::try_from` -/
  clientConfig : Except String Unit
  /-- `Endpoint::client` -/
  client : SocketAddr → Except String Unit
  /-- `endpoint.connect` under an ALPN protocol: it refuses, or a handshake starts -/
  connect : Bytes → SocketAddr → Except String (Future (Except String Conn))
  /-- `conn.open_bi` -/
  openBi : Conn → Future (Except String Stream)
  /-- `send.write_all` -/
  writeAll : Stream → Bytes → Future (Except String Unit)
  /-- `recv.read_exact` of one byte -/
  readExact : Stream → Future (Except String UInt8)

/-- `text.get(..n)`. -/
def getTo (text : String) (n : Nat) : Option String :=
  (text.toList.inits.find? fun cs => (cs.map (·.utf8Size)).sum = n).map String.ofList

/-- `make_alpn`. -/
def makeAlpn (tunnelToken : String) : Bytes :=
  utf8Bytes ("w3t-" ++ (getTo tunnelToken 16).getD tunnelToken)

/-- The wildcard address of the family of `target`, with port zero. -/
def bindAddr (target : SocketAddr) : SocketAddr :=
  match target.ip with
  | .v4 _ => ⟨.v4 0, 0⟩
  | .v6 _ => ⟨.v6 0, 0⟩

section Attempts

variable {Conn Stream : Type}

/-- `connect_direct`. -/
def connectDirect (q : Quic Conn Stream) (target : SocketAddr) (tunnelToken : String) :
    Future (Except String Stream) :=
  match q.clientConfig with
  | .error e => .ready (.error ("QUIC client config: " ++ e))
  | .ok () =>
      match q.client (bindAddr target) with
      | .error e => .ready (.error e)
      | .ok () =>
          match q.connect (makeAlpn tunnelToken) target with
          | .error e => .ready (.error e)
          | .ok handshake =>
              ((handshake.timeout connectTimeout).map fun
                | some conn => conn
                | none => .error "QUIC connect timeout").tryThen q.openBi

/-- What an attempt yields: the stream or the reason why there is none, and the milliseconds
it took. -/
abbrev Attempt (Stream : Type) : Type := Except (StrategyFailReason × Nat) (Stream × Nat)

/-- `try_direct`. -/
def tryDirect (q : Quic Conn Stream) (ip : IpAddr) (tunnelToken : String) :
    Future (Attempt Stream) :=
  (connectDirect q ⟨ip, quicDefaultPort⟩ tunnelToken).timed.map fun
    | (.ok stream, taken) => .ok (stream, taken / millis 1)
    | (.error e, taken) => .error (.handshakeFailed e, taken / millis 1)

/-- `try_upnp`: `upnp_addr_rx` yields the address, or its sender is dropped. -/
def tryUpnp (q : Quic Conn Stream) (tunnelToken : String)
    (upnpAddrRx : Future (Option SocketAddr)) : Future (Attempt Stream) :=
  (upnpAddrRx.andThen fun
    | none => .ready none
    | some addr => (connectDirect q addr tunnelToken).map some).timed.map fun
    | (none, _) => .error (.upnpNotAttempted, 0)
    | (some (.ok stream), taken) => .ok (stream, taken / millis 1)
    | (some (.error e), taken) =>
        .error (.handshakeFailed ("UPnP path: " ++ e), taken / millis 1)

/-! ## `background_quic_joiner` -/

/-- `do_joiner_swap_handshake`. -/
def doJoinerSwapHandshake (q : Quic Conn Stream) (stream : Stream) : Future Bool :=
  (((q.writeAll stream [swapReady]).tryThen fun _ =>
      (q.readExact stream).tryThen fun answer =>
        .ready (if answer = swapAck then .ok () else .error "unexpected swap response")).timeout
    swapHandshakeTimeout).map fun
    | some (.ok ()) => true
    | _ => false

/-- What `background_quic_joiner` has done when it ends. -/
structure JoinerReport (Stream : Type) where
  /-- what it sends as `StrategyResults` -/
  results : List StrategyResult
  /-- the stream it gave to the swap handshake -/
  handedOver : Option Stream
  /-- the stream it sent through `swap_tx` -/
  swapReady : Option Stream

/-- The arms that follow an attempt: a stream goes to the swap handshake, and from there to
the bridge. -/
def settle (q : Quic Conn Stream) (results : List StrategyResult) (method : StrategyKind) :
    Attempt Stream → Future (JoinerReport Stream)
  | .ok (stream, dur) =>
      (doJoinerSwapHandshake q stream).map fun ok =>
        { results := results ++ [⟨method, .success, dur⟩]
          handedOver := some stream
          swapReady := if ok then some stream else none }
  | .error (reason, dur) =>
      .ready
        { results := results ++ [⟨method, .failed reason.text, dur⟩]
          handedOver := none
          swapReady := none }

/-- `background_quic_joiner`.  `q` is the library and the network, as either attempt finds
them; `tie` says whether `select!` prefers the direct attempt when both are ready. -/
def backgroundQuicJoiner (q : StrategyKind → Quic Conn Stream) (tie : Bool)
    (peerIp : Option IpAddr) (tunnelToken : String) (upnpAddrRx : Future (Option SocketAddr)) :
    Future (JoinerReport Stream) :=
  match peerIp with
  | some ip =>
      ((tryDirect (q .quicDirect) ip tunnelToken).select tie
        (tryUpnp (q .upnp) tunnelToken upnpAddrRx)).andThen fun
        | .inl attempt => settle (q .quicDirect) [] .quicDirect attempt
        | .inr attempt => settle (q .upnp) [] .upnp attempt
  | none =>
      (tryUpnp (q .upnp) tunnelToken upnpAddrRx).andThen
        (settle (q .upnp) [⟨.quicDirect, .failed StrategyFailReason.noStunInfo.text, 0⟩] .upnp)

/-- The attempt of a joiner that knows the address of its peer. -/
def attempt (q : StrategyKind → Quic Conn Stream) (ip : IpAddr) (tunnelToken : String)
    (upnpAddrRx : Future (Option SocketAddr)) : StrategyKind → Future (Attempt Stream)
  | .quicDirect => tryDirect (q .quicDirect) ip tunnelToken
  | .upnp => tryUpnp (q .upnp) tunnelToken upnpAddrRx

/-- The strategy whose attempt completes first. -/
def firstToComplete (q : StrategyKind → Quic Conn Stream) (tie : Bool) (ip : IpAddr)
    (tunnelToken : String) (upnpAddrRx : Future (Option SocketAddr)) : Option StrategyKind :=
  Option.map (fun done : Duration × (Attempt Stream ⊕ Attempt Stream) =>
      if done.2.isLeft then .quicDirect else .upnp)
    ((attempt q ip tunnelToken upnpAddrRx .quicDirect).select tie
      (attempt q ip tunnelToken upnpAddrRx .upnp))

/-! ## The race -/

/-- A stream goes to the swap handshake. -/
def HandsOver (q : StrategyKind → Quic Conn Stream) (tie : Bool) (ip : IpAddr)
    (tunnelToken : String) (upnpAddrRx : Future (Option SocketAddr)) : Prop :=
  ∃ d report, backgroundQuicJoiner q tie (some ip) tunnelToken upnpAddrRx =
    .completesWith d report ∧ report.handedOver.isSome = true

/-- First success wins: a stream goes to the swap handshake whenever one of the two attempts
would succeed, and a failure does not cancel the other attempt, whose result is among those
reported. -/
structure FirstSuccessWins (q : StrategyKind → Quic Conn Stream) (tie : Bool) (ip : IpAddr)
    (tunnelToken : String) (upnpAddrRx : Future (Option SocketAddr)) : Prop where
  wins : ∀ kind, (attempt q ip tunnelToken upnpAddrRx kind).succeeds = true →
    HandsOver q tie ip tunnelToken upnpAddrRx
  uncancelled : ∀ kind, firstToComplete q tie ip tunnelToken upnpAddrRx = some kind →
    (attempt q ip tunnelToken upnpAddrRx kind).succeeds = false →
      ∀ d report, backgroundQuicJoiner q tie (some ip) tunnelToken upnpAddrRx =
        .completesWith d report → kind.other ∈ report.results.map (·.method)

variable {q : StrategyKind → Quic Conn Stream} {tie : Bool} {ip : IpAddr} {tunnelToken : String}
  {upnpAddrRx : Future (Option SocketAddr)}

/-- A stream is handed over. -/
theorem exists_settle_ok (q : Quic Conn Stream) (results : List StrategyResult)
    (method : StrategyKind) (stream : Stream) (dur : Nat) :
    ∃ d report, settle q results method (.ok (stream, dur)) = .completesWith d report ∧
      report.handedOver = some stream := by
  obtain ⟨d, answer, htimeout⟩ := Future.exists_timeout swapHandshakeTimeout
    ((q.writeAll stream [swapReady]).tryThen fun _ =>
      (q.readExact stream).tryThen fun answer =>
        .ready (if answer = swapAck then .ok () else .error "unexpected swap response"))
  rw [settle, doJoinerSwapHandshake, htimeout]
  exact ⟨d, _, rfl, rfl⟩

/-- The joiner goes on with the attempt that completes first. -/
theorem backgroundQuicJoiner_of_first {kind : StrategyKind}
    (h : firstToComplete q tie ip tunnelToken upnpAddrRx = some kind) :
    ∃ d a, attempt q ip tunnelToken upnpAddrRx kind = .completesWith d a ∧
      backgroundQuicJoiner q tie (some ip) tunnelToken upnpAddrRx =
        (Future.completesWith d a).andThen (settle (q kind) [] kind) := by
  unfold firstToComplete at h
  unfold backgroundQuicJoiner
  obtain ⟨d, a, hdirect, hselect⟩ | ⟨d, a, hupnp, hselect⟩ | ⟨_, _, hselect⟩ :=
    Future.select_cases tie (attempt q ip tunnelToken upnpAddrRx .quicDirect)
      (attempt q ip tunnelToken upnpAddrRx .upnp)
  · rw [hselect] at h
    obtain rfl : StrategyKind.quicDirect = kind := Option.some.inj h
    rw [attempt, attempt] at hselect
    refine ⟨d, a, hdirect, ?_⟩
    dsimp only
    rw [hselect]
    rfl
  · rw [hselect] at h
    obtain rfl : StrategyKind.upnp = kind := Option.some.inj h
    rw [attempt, attempt] at hselect
    refine ⟨d, a, hupnp, ?_⟩
    dsimp only
    rw [hselect]
    rfl
  · rw [hselect] at h
    cases h

/-- While one of the attempts completes, one of them is the first. -/
theorem exists_first (tie : Bool) {kind : StrategyKind}
    (h : attempt q ip tunnelToken upnpAddrRx kind ≠ .never) :
    ∃ first, firstToComplete q tie ip tunnelToken upnpAddrRx = some first := by
  unfold firstToComplete
  obtain ⟨d, a, _, hselect⟩ | ⟨d, a, _, hselect⟩ | ⟨hdirect, hupnp, _⟩ :=
    Future.select_cases tie (attempt q ip tunnelToken upnpAddrRx .quicDirect)
      (attempt q ip tunnelToken upnpAddrRx .upnp)
  · rw [hselect]
    exact ⟨_, rfl⟩
  · rw [hselect]
    exact ⟨_, rfl⟩
  · cases kind with
    | quicDirect => exact absurd hdirect h
    | upnp => exact absurd hupnp h

theorem attempt_ne_never {kind : StrategyKind}
    (h : (attempt q ip tunnelToken upnpAddrRx kind).succeeds = true) :
    attempt q ip tunnelToken upnpAddrRx kind ≠ .never := by
  obtain ⟨d, a, hyields⟩ := Future.succeeds_iff.mp h
  rw [hyields]
  exact Future.completesWith_ne_never d _

/-- If the attempt that completes first succeeds, its stream is handed over. -/
theorem handedOver_of_first {kind : StrategyKind}
    (hfirst : firstToComplete q tie ip tunnelToken upnpAddrRx = some kind)
    (h : (attempt q ip tunnelToken upnpAddrRx kind).succeeds = true) :
    HandsOver q tie ip tunnelToken upnpAddrRx := by
  obtain ⟨d, a, hyields, hjoiner⟩ := backgroundQuicJoiner_of_first hfirst
  obtain ⟨d', ⟨stream, dur⟩, hok⟩ := Future.succeeds_iff.mp h
  obtain ⟨rfl, rfl⟩ := Future.completesWith_inj (hyields.symm.trans hok)
  obtain ⟨e, report, hsettle, hstream⟩ := exists_settle_ok (q kind) [] kind stream dur
  refine ⟨d + e, report, ?_, by rw [hstream, Option.isSome_some]⟩
  rw [hjoiner, Future.andThen_completesWith hsettle]

/-- If the attempt that completes first fails, its failure is all that the joiner reports, and
no stream is handed over. -/
theorem report_of_first_fails {kind : StrategyKind}
    (hfirst : firstToComplete q tie ip tunnelToken upnpAddrRx = some kind)
    (h : (attempt q ip tunnelToken upnpAddrRx kind).succeeds = false) :
    ∃ d report, backgroundQuicJoiner q tie (some ip) tunnelToken upnpAddrRx =
      .completesWith d report ∧ report.results.map (·.method) = [kind] ∧
        report.handedOver = none := by
  obtain ⟨d, a, hyields, hjoiner⟩ := backgroundQuicJoiner_of_first hfirst
  cases a with
  | ok won =>
      have hwon := Future.succeeds_iff.mpr ⟨d, won, hyields⟩
      rw [h] at hwon
      cases hwon
  | error failed => exact ⟨d, _, hjoiner, rfl, rfl⟩

/-- A stream is handed over if and only if the attempt that completes first succeeds. -/
theorem handsOver_iff_of_first {kind : StrategyKind}
    (hfirst : firstToComplete q tie ip tunnelToken upnpAddrRx = some kind) :
    HandsOver q tie ip tunnelToken upnpAddrRx ↔
      (attempt q ip tunnelToken upnpAddrRx kind).succeeds = true := by
  constructor
  · rintro ⟨d, report, hjoiner, hstream⟩
    by_contra hfails
    obtain ⟨d', report', hjoiner', _, hnone⟩ :=
      report_of_first_fails hfirst (Bool.eq_false_iff.mpr hfails)
    obtain ⟨_, rfl⟩ := Future.completesWith_inj (hjoiner.symm.trans hjoiner')
    rw [hnone] at hstream
    cases hstream
  · intro h
    exact handedOver_of_first hfirst h

/-- First success wins if and only if the attempt that completes first, if there is one,
succeeds.  A stream is there whenever one of the two attempts would succeed if and only if the
attempt that completes first succeeds or the other one would not. -/
theorem firstSuccessWins_iff (q : StrategyKind → Quic Conn Stream) (tie : Bool) (ip : IpAddr)
    (tunnelToken : String) (upnpAddrRx : Future (Option SocketAddr)) :
    (FirstSuccessWins q tie ip tunnelToken upnpAddrRx ↔
        ∀ kind, firstToComplete q tie ip tunnelToken upnpAddrRx = some kind →
          (attempt q ip tunnelToken upnpAddrRx kind).succeeds = true) ∧
      ((∀ kind, (attempt q ip tunnelToken upnpAddrRx kind).succeeds = true →
            HandsOver q tie ip tunnelToken upnpAddrRx) ↔
        ∀ kind, firstToComplete q tie ip tunnelToken upnpAddrRx = some kind →
          (attempt q ip tunnelToken upnpAddrRx kind).succeeds = true ∨
            (attempt q ip tunnelToken upnpAddrRx kind.other).succeeds = false) := by
  refine ⟨⟨?_, ?_⟩, ?_, ?_⟩
  · intro h kind hfirst
    by_contra hfails
    have hfails := Bool.eq_false_iff.mpr hfails
    obtain ⟨d, report, hjoiner, hresults, _⟩ := report_of_first_fails hfirst hfails
    have hmem := h.uncancelled kind hfirst hfails d report hjoiner
    rw [hresults, List.mem_singleton] at hmem
    exact kind.other_ne hmem
  · intro h
    refine ⟨fun kind hsucceeds => ?_, fun kind hfirst hfails => ?_⟩
    · obtain ⟨first, hfirst⟩ := exists_first tie (attempt_ne_never hsucceeds)
      exact handedOver_of_first hfirst (h first hfirst)
    · rw [h kind hfirst] at hfails
      cases hfails
  · intro h kind hfirst
    by_cases hother : (attempt q ip tunnelToken upnpAddrRx kind.other).succeeds = true
    · exact .inl ((handsOver_iff_of_first hfirst).mp (h kind.other hother))
    · exact .inr (Bool.eq_false_iff.mpr hother)
  · intro h kind hsucceeds
    obtain ⟨first, hfirst⟩ := exists_first tie (attempt_ne_never hsucceeds)
    apply (handsOver_iff_of_first hfirst).mpr
    -- the attempt that succeeds is the first to complete, or the other one
    obtain rfl | rfl : kind = first ∨ kind = first.other := kind.eq_or_eq_other first
    · exact hsucceeds
    · apply (h first hfirst).resolve_right
      rw [hsucceeds]
      exact Bool.noConfusion

/-- A network on which every attempt succeeds, after a second. -/
def obliging : Quic Unit Unit where
  clientConfig := .ok ()
  client := fun _ => .ok ()
  connect := fun _ _ => .ok (.completesWith (secs 1) (.ok ()))
  openBi := fun _ => .ready (.ok ())
  writeAll := fun _ _ => .ready (.ok ())
  readExact := fun _ => .ready (.ok swapAck)

/-- The direct attempt would succeed, but the address from UPnP is given up before. -/
theorem not_firstSuccessWins :
    ¬ FirstSuccessWins (fun _ => obliging) true (.v4 0x08080808) "t" (.ready none) := by
  intro h
  obtain ⟨d, report, hjoiner, hstream⟩ := h.wins .quicDirect (by decide)
  obtain ⟨_, rfl⟩ := Future.completesWith_inj (hjoiner.symm.trans rfl)
  cases hstream

end Attempts

end War3BattleTool.Client

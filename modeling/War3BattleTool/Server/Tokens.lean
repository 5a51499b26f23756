import War3BattleTool.Foundation.Vouchers
import War3BattleTool.Server.TunnelSteps

set_option autoImplicit false

/-!
# The lives of the tokens

A token that `register_token` registers has an entry in `upnp_pending`, which a lookup
by the host or a cleanup removes, and one in `token_bindings`, which a pairing or a
cleanup removes.

* `HandlerStep`: what the handlers of tunnel connections do to the maps.
* `simulates_vouchers`: the entries of `upnp_pending` are vouchers, redeemed once.
* `Timed.Tidy`: after a cleanup every bound token is young, or somebody waits with it.
-/

namespace War3BattleTool.Server

open War3BattleTool.Foundation

/-- An entry of `upnp_pending` as a voucher: the host's address is its guard, the joiner what
it is for. -/
def UPnPPending.voucher (entry : UPnPPending) : Voucher IpAddr String where
  guard := entry.hostIp
  value := entry.joinerPlayerId
  issuedAt := entry.createdAt

theorem UPnPPending.voucher_inj {entry entry' : UPnPPending}
    (h : entry.voucher = entry'.voucher) : entry = entry' := by
  obtain ⟨hostIp, joinerPlayerId, createdAt⟩ := entry
  simp only [voucher, Voucher.mk.injEq] at h
  obtain ⟨rfl, rfl, rfl⟩ := h
  rfl

namespace TunnelService

/-! ## What a handler does to the maps -/

/-- The labels of the tasks that serve tunnel connections. -/
def Label.ofHandler : Label → Bool
  | .elapse _ | .registerPending .. | .registerBinding _ | .lookupUpnp .. | .cleanup => false
  | _ => true

/-- The handler of `c` is about to take away whoever waits under `token`. -/
def TakesWaiting (s : TunnelService) (c : ConnId) (token : String) : Prop :=
  ∃ t, s.tasks.get? c = some t ∧ t.token = token ∧
    (t.pc = .lookupWaiting ∨ t.pc = .unregisterWaiting)

/-- What a step of a handler does to the maps: it may use up a binding, and it takes a
waiting party away or puts one there. -/
structure HandlerStep (s : TunnelService) (l : Label) (s' : TunnelService) : Prop where
  now : s'.now = s.now
  issued : s'.issued = s.issued
  cleanup : s'.cleanup = s.cleanup
  upnpPending : s'.tunnel.upnpPending = s.tunnel.upnpPending
  bindings : ∀ {token binding}, s'.tunnel.tokenBindings.get? token = some binding →
    s.tunnel.tokenBindings.get? token = some binding
  waiting : ∀ {token peer}, s.tunnel.waiting.get? token = some peer →
    s'.tunnel.waiting.get? token = some peer ∨
      (∃ peer', s'.tunnel.waiting.get? token = some peer' ∧ peer'.createdAt = s.now) ∨
      ∃ c, l = .block c ∧ s.TakesWaiting c token

variable {s s' : TunnelService} {l : Label} {c : ConnId} {t : TunnelTask}

/-- A step that leaves the maps behind the locks of the handlers alone. -/
theorem HandlerStep.of_maps (hnow : s'.now = s.now) (hissued : s'.issued = s.issued)
    (hcleanup : s'.cleanup = s.cleanup)
    (hupnp : s'.tunnel.upnpPending = s.tunnel.upnpPending)
    (hbindings : s'.tunnel.tokenBindings = s.tunnel.tokenBindings)
    (hwaiting : s'.tunnel.waiting = s.tunnel.waiting) : HandlerStep s l s' where
  now := hnow
  issued := hissued
  cleanup := hcleanup
  upnpPending := hupnp
  bindings := fun h => hbindings ▸ h
  waiting := fun h => .inl (hwaiting ▸ h)

/-- The handler takes away whoever waits under its token. -/
theorem HandlerStep.takes (ht : s.tasks.get? c = some t)
    (hpc : t.pc = .lookupWaiting ∨ t.pc = .unregisterWaiting) (hnow : s'.now = s.now)
    (hissued : s'.issued = s.issued) (hcleanup : s'.cleanup = s.cleanup)
    (hupnp : s'.tunnel.upnpPending = s.tunnel.upnpPending)
    (hbindings : s'.tunnel.tokenBindings = s.tunnel.tokenBindings)
    (hwaiting : s'.tunnel.waiting = s.tunnel.waiting.remove t.token) :
    HandlerStep s (.block c) s' where
  now := hnow
  issued := hissued
  cleanup := hcleanup
  upnpPending := hupnp
  bindings := fun h => hbindings ▸ h
  waiting := fun {token peer} h => by
    by_cases htoken : token = t.token
    · exact .inr (.inr ⟨c, rfl, t, ht, htoken.symm, hpc⟩)
    · refine .inl ?_
      rw [hwaiting, Table.get?_remove, if_neg htoken]
      exact h

theorem handlerStep_registerWaiting (s : TunnelService) (l : Label) (c : ConnId)
    (t : TunnelTask) : HandlerStep s l (s.registerWaiting c t) := by
  refine ⟨rfl, rfl, rfl, rfl, id, fun {token peer} hwaiting => ?_⟩
  change (s.tunnel.waiting.insert t.token ⟨c, c, t.role, s.now⟩).get? token = _ ∨
    (∃ peer', (s.tunnel.waiting.insert t.token ⟨c, c, t.role, s.now⟩).get? token = _ ∧ _) ∨ _
  rw [Table.get?_insert]
  by_cases htoken : token = t.token
  · exact .inr (.inl ⟨_, if_pos htoken, rfl⟩)
  · exact .inl ((if_neg htoken).trans hwaiting)

/-- Every step of a handler is one. -/
theorem handlerStep_of_step (hl : l.ofHandler = true) (h : s.step l = some s') :
    HandlerStep s l s' := by
  cases Step.of_step h with
  | elapse | registerPending | registerBinding | lookupUpnp | cleanup => cases hl
  | denied | admitted | own | releases | forwards | ignores =>
      exact .of_maps rfl rfl rfl rfl rfl rfl
  | found ht hpc => exact .takes ht (.inl hpc) rfl rfl rfl rfl rfl rfl
  | joins | misses => exact ⟨rfl, rfl, rfl, rfl, Table.get?_of_remove, .inl⟩
  | waits => exact handlerStep_registerWaiting ..
  | stopsWaiting ht hpc => exact .takes ht (.inr hpc) rfl rfl rfl rfl rfl rfl

/-! ## The entries of `upnp_pending` -/

/-- The entries as vouchers. -/
def vouchers (s : TunnelService) : Vouchers String IpAddr String where
  now := s.now
  issued := s.issued
  outstanding := fun token => (s.tunnel.upnpPending.get? token).map UPnPPending.voucher

/-- The move that a step is for the vouchers. -/
def voucherMove (s : TunnelService) : Label → Vouchers.Move String IpAddr String
  | .elapse d => .elapse d
  | .registerPending token hostIp _ joinerPlayerId => .issue token hostIp joinerPlayerId
  | .lookupUpnp token claimedHostIp => .redeem token claimedHostIp
  | .cleanup => if s.cleanup = .removeUpnp then .sweep else .idle
  | _ => .idle

/-- What a step does to the entries: a registration with its time, a lookup with its
answer, and the third block of `cleanup_expired` with its time. -/
def upnpEvents (s : TunnelService) : Label → List (VoucherEvent String IpAddr String)
  | .registerPending token hostIp _ joinerPlayerId =>
      if token ∈ s.issued then [] else [.issued token ⟨hostIp, joinerPlayerId, s.now⟩]
  | .lookupUpnp token claimedHostIp =>
      [.redeemed token claimedHostIp (s.lookupUpnp token claimedHostIp).2]
  | .cleanup => if s.cleanup = .removeUpnp then [.swept s.now] else []
  | _ => []

/-- A lookup adds no entry. -/
theorem upnpPending_lookupUpnp {token token' : String} {ip : IpAddr} {entry : UPnPPending}
    (h : (s.lookupUpnp token ip).1.tunnel.upnpPending.get? token' = some entry) :
    s.tunnel.upnpPending.get? token' = some entry := by
  replace h : (s.tunnel.lookupUpnpPending token ip).1.upnpPending.get? token' = some entry := h
  unfold TunnelState.lookupUpnpPending at h
  split at h
  · exact h
  · split at h
    · exact h
    · exact Table.get?_of_remove h

/-- An entry was there, or is that of a token just drawn. -/
theorem upnpPending_of_step {token : String} {entry : UPnPPending} (h : s.step l = some s')
    (hentry : s'.tunnel.upnpPending.get? token = some entry) :
    s.tunnel.upnpPending.get? token = some entry ∨
      ∃ hostIp joinerIp joinerPlayerId, l = .registerPending token hostIp joinerIp joinerPlayerId ∧
        entry = ⟨hostIp, joinerPlayerId, s.now⟩ := by
  cases Step.of_step h with
  | registerPending =>
      simp only [setTunnel, TunnelState.registerTokenPending, Table.get?_insert] at hentry
      split at hentry
      · next htoken =>
        cases hentry
        exact .inr ⟨_, _, _, by rw [htoken], rfl⟩
      · exact .inl hentry
  | lookupUpnp hpending => exact .inl (upnpPending_lookupUpnp (by rwa [hpending]))
  | cleanup =>
      unfold cleanupStep at hentry
      split at hentry
      · exact .inl hentry
      · exact .inl hentry
      · simp only [setTunnel, TunnelState.removeExpiredUpnp, Table.get?_retain] at hentry
        exact .inl (Option.filter_eq_some_iff.mp hentry).1
  | _ => exact .inl hentry

theorem vouchers_of_maps (hnow : s'.now = s.now) (hissued : s'.issued = s.issued)
    (hupnp : s'.tunnel.upnpPending = s.tunnel.upnpPending) : s'.vouchers = s.vouchers := by
  simp only [vouchers, hnow, hissued, hupnp]

/-- A lookup redeems the voucher of the token. -/
theorem vouchers_lookupUpnp (s : TunnelService) (token : String) (ip : IpAddr) :
    s.vouchers.redeem token ip =
      ((s.lookupUpnp token ip).1.vouchers, (s.lookupUpnp token ip).2) := by
  unfold Vouchers.redeem lookupUpnp TunnelState.lookupUpnpPending
  cases hentry : s.tunnel.upnpPending.get? token with
  | none => simp [vouchers, hentry, setTunnel]
  | some entry =>
      by_cases hip : entry.hostIp = ip
      · simp only [vouchers, hentry, Option.map_some, UPnPPending.voucher, hip, if_true,
          not_true_eq_false, if_false, setTunnel, Vouchers.set, ne_eq, Prod.mk.injEq, and_true,
          Vouchers.mk.injEq, true_and]
        funext token'
        rw [Table.get?_remove]
        split
        · rfl
        · rfl
      · simp [vouchers, hentry, UPnPPending.voucher, hip, setTunnel]

/-- A registration issues a voucher. -/
theorem vouchers_registerPending (s : TunnelService) (token : String)
    (registering : Table String TokenBinding) (hostIp : IpAddr) (joinerPlayerId : String) :
    ({ s with registering := registering, issued := token :: s.issued }.setTunnel
        (s.tunnel.registerTokenPending s.now token hostIp joinerPlayerId)).vouchers =
      { s.vouchers with issued := token :: s.issued }.set token
        (some ⟨hostIp, joinerPlayerId, s.now⟩) := by
  simp only [vouchers, setTunnel, TunnelState.registerTokenPending, Vouchers.set,
    Vouchers.mk.injEq, true_and]
  funext token'
  rw [Table.get?_insert]
  split
  · rfl
  · rfl

/-- The third block of a cleanup sweeps the vouchers, the others leave them alone. -/
theorem vouchers_cleanup (s : TunnelService) :
    s.vouchers.step upnpPendingTtl (s.voucherMove .cleanup) = some s.cleanupStep.vouchers := by
  simp only [voucherMove, cleanupStep]
  cases s.cleanup with
  | removeWaiting => exact congrArg some (vouchers_of_maps rfl rfl rfl).symm
  | removeBindings expired => exact congrArg some (vouchers_of_maps rfl rfl rfl).symm
  | removeUpnp =>
      refine congrArg some ?_
      simp only [vouchers, setTunnel, TunnelState.removeExpiredUpnp, Vouchers.mk.injEq, true_and]
      funext token
      rw [Table.get?_retain]
      cases s.tunnel.upnpPending.get? token with
      | none => rfl
      | some entry =>
          by_cases hyoung : elapsed s.now entry.createdAt < upnpPendingTtl
          · simp [Option.filter, hyoung, UPnPPending.voucher]
          · simp [Option.filter, hyoung, UPnPPending.voucher]

/-- Every run of the service is a run of its vouchers. -/
theorem simulates_vouchers :
    Machine.Simulates machine (Vouchers.machine upnpPendingTtl) vouchers voucherMove where
  init := by
    simp only [vouchers, machine, start, TunnelState.new, Table.get?_empty, Option.map_none]
    rfl
  step := by
    intro s l s' _ h
    change s.step l = some s' at h
    cases l with
    | elapse d =>
        cases h
        rfl
    | registerPending token hostIp joinerIp joinerPlayerId =>
        obtain ⟨hfresh, rfl⟩ := registerPending_of_step h
        exact (if_neg hfresh).trans (congrArg some (vouchers_registerPending ..).symm)
    | registerBinding token =>
        obtain ⟨binding, _, rfl⟩ := Option.map_eq_some_iff.mp h
        exact congrArg some (vouchers_of_maps rfl rfl rfl).symm
    | lookupUpnp token ip =>
        cases h
        exact congrArg some (congrArg Prod.fst (vouchers_lookupUpnp s token ip))
    | cleanup =>
        cases h
        exact vouchers_cleanup s
    | _ =>
        have hstep := handlerStep_of_step rfl h
        exact congrArg some (vouchers_of_maps hstep.now hstep.issued hstep.upnpPending).symm

/-- A step reports what its move reports. -/
theorem upnpEvents_eq (s : TunnelService) (l : Label) :
    s.upnpEvents l = s.vouchers.events (s.voucherMove l) := by
  cases l with
  | lookupUpnp token ip =>
      simp only [upnpEvents, voucherMove, Vouchers.events, vouchers_lookupUpnp]
  | cleanup =>
      simp only [upnpEvents, voucherMove]
      split
      · rfl
      · rfl
  | _ => rfl

/-- The UPnP addresses are unicast: what holds after the calls `events`. -/
structure Unicast (events : List (VoucherEvent String IpAddr String)) (s : TunnelService) :
    Prop where
  /-- a lookup answers with the joiner of the token, to the host of the token, once, and it does
  so unless a cleanup found the entry too old before -/
  oneTime : Vouchers.OneTime upnpPendingTtl events
  /-- an entry is there from its registration until it is redeemed or found too old -/
  entries : ∀ token entry, s.tunnel.upnpPending.get? token = some entry ↔
    Vouchers.Live upnpPendingTtl events token entry.voucher
  /-- nothing else changes it: no failed lookup, and nothing done to another token -/
  kept : ∀ token entry l s', s.tunnel.upnpPending.get? token = some entry →
    s.step l = some s' →
    (∀ e ∈ s.upnpEvents l, e.ends upnpPendingTtl token entry.voucher = false) →
      s'.tunnel.upnpPending.get? token = some entry

theorem vouchers_outstanding (s : TunnelService) (token : String) (entry : UPnPPending) :
    s.vouchers.outstanding token = some entry.voucher ↔
      s.tunnel.upnpPending.get? token = some entry := by
  simp only [vouchers, Option.map_eq_some_iff]
  constructor
  · rintro ⟨entry', hentry, heq⟩
    exact UPnPPending.voucher_inj heq ▸ hentry
  · exact fun hentry => ⟨entry, hentry, rfl⟩

theorem kept_of_trace {events : List (VoucherEvent String IpAddr String)} {s : TunnelService}
    (h : machine.Trace upnpEvents events s) :
    Vouchers.Kept upnpPendingTtl events s.vouchers :=
  Vouchers.kept_of_trace (simulates_vouchers.trace upnpEvents_eq h)

/-- UPnP addresses are unicast once, to the right joiner. -/
theorem unicast_of_trace {events : List (VoucherEvent String IpAddr String)}
    {s : TunnelService} (h : machine.Trace upnpEvents events s) : Unicast events s where
  oneTime := (kept_of_trace h).oneTime
  entries := fun token entry =>
    (vouchers_outstanding s token entry).symm.trans (kept_of_trace h).live
  kept := by
    intro token entry l s' hentry hstep hends
    have hlive := (kept_of_trace h).live.mp ((vouchers_outstanding s token entry).mpr hentry)
    refine (vouchers_outstanding s' token entry).mp ((kept_of_trace (.step h hstep)).live.mpr ?_)
    exact hlive.extend hends

/-- Two joins between the same two addresses: a wrong address, the host, and a replay. -/
theorem unicast_of_replay :
    ∃ events s, machine.Trace upnpEvents events s ∧
      .redeemed "t" (.v4 1) (some "p") ∈ events ∧ Unicast events s := by
  let run : List Label :=
    [.registerPending "t" (.v4 1) (.v4 2) "p", .registerPending "u" (.v4 1) (.v4 2) "q",
      .lookupUpnp "t" (.v4 3), .elapse (secs 9), .cleanup, .cleanup, .lookupUpnp "t" (.v4 1),
      .lookupUpnp "t" (.v4 1)]
  have hrun : machine.exec machine.init run = some ((machine.exec machine.init run).getD .start) :=
    rfl
  have h := Machine.trace_of_exec (f := upnpEvents) hrun
  exact ⟨_, _, h, List.mem_of_elem_eq_true (by rfl), unicast_of_trace h⟩

end TunnelService

/-! ## The bindings of the tokens -/

/-- The service, and when the binding of each token was registered. -/
structure Timed where
  service : TunnelService
  registeredAt : String → Option Instant

namespace Timed

/-- The service after startup. -/
def start : Timed where
  service := .start
  registeredAt := fun _ => none

/-- When the bindings were registered, after a step of the service. -/
def stamp (s : Timed) : TunnelService.Label → String → Option Instant
  | .registerBinding token =>
      fun token' => if token' = token then some s.service.now else s.registeredAt token'
  | _ => s.registeredAt

/-- One step of the service. -/
def step (s : Timed) (l : TunnelService.Label) : Option Timed :=
  (s.service.step l).map fun next => ⟨next, s.stamp l⟩

/-- The service with the registration times as a machine. -/
def machine : Machine Timed TunnelService.Label where
  init := start
  step := step

/-- The token was registered at most `PAIRING_TIMEOUT` ago. -/
def young (s : Timed) (token : String) : Bool :=
  (s.registeredAt token).any fun registered => elapsed s.service.now registered ≤ pairingTimeout

/-- Somebody waits with the token, and has not timed out. -/
def waited (s : Timed) (token : String) : Bool :=
  (s.service.tunnel.waiting.get? token).any fun peer =>
    !TunnelState.waitingExpired s.service.now peer

/-- Every bound token is young, or somebody waits with it. -/
def Tidy (s : Timed) : Prop :=
  ∀ token binding, s.service.tunnel.tokenBindings.get? token = some binding →
    s.young token = true ∨ s.waited token = true

/-- A running `cleanup_expired` is about to remove the binding of the token. -/
def condemned (s : Timed) (token : String) : Bool :=
  match s.service.cleanup with
  | .removeBindings expired => expired.contains token
  | _ => false

/-- The bound tokens that a running `cleanup_expired` will leave. -/
def remaining (s : Timed) : List String :=
  (s.service.tunnel.tokenBindings.entries.map (·.1)).filter fun token => !s.condemned token

/-- `d` later. -/
def later (s : Timed) (d : Duration) : Timed :=
  { s with service := { s.service with now := s.service.now + d } }

/-- Somebody waits with every bound token that is no longer young when a cleanup begins, and
while it runs none of those it leaves loses what keeps it. -/
def attended (s : Timed) : TunnelService.Label → Prop
  | .cleanup =>
      s.service.cleanup = .removeWaiting → ∀ token ∈ s.remaining,
        s.young token = true ∨ (s.service.tunnel.waiting.get? token).isSome
  | .elapse d =>
      s.service.cleanup ≠ .removeWaiting → ∀ token ∈ s.remaining,
        s.young token = true ∨ s.waited token = true →
          (s.later d).young token = true ∨ (s.later d).waited token = true
  | .block c =>
      s.service.cleanup ≠ .removeWaiting → ∀ t ∈ s.service.tasks.get? c,
        t.pc = .lookupWaiting ∨ t.pc = .unregisterWaiting →
          t.token ∈ s.remaining → s.young t.token = true
  | _ => True

instance (s : Timed) (l : TunnelService.Label) : Decidable (s.attended l) := by
  unfold attended
  split <;> infer_instance

variable {s s' : Timed} {token : String}

theorem mem_remaining :
    token ∈ s.remaining ↔
      (∃ binding, s.service.tunnel.tokenBindings.get? token = some binding) ∧
        s.condemned token = false := by
  simp only [remaining, List.mem_filter, List.mem_map, Bool.not_eq_true']
  refine and_congr_left fun _ => ?_
  constructor
  · rintro ⟨⟨token', binding⟩, hmem, rfl⟩
    exact ⟨binding, Table.mem_entries_iff.mp hmem⟩
  · rintro ⟨binding, hbinding⟩
    exact ⟨⟨token, binding⟩, Table.mem_entries_iff.mpr hbinding, rfl⟩

theorem waited_iff : s.waited token = true ↔
    ∃ peer, s.service.tunnel.waiting.get? token = some peer ∧
      TunnelState.waitingExpired s.service.now peer = false := by
  unfold waited
  cases s.service.tunnel.waiting.get? token with
  | none => simp
  | some peer => simp

/-- Who has just begun to wait has not timed out. -/
theorem not_waitingExpired {now : Instant} {peer : WaitingPeer} (h : peer.createdAt = now) :
    TunnelState.waitingExpired now peer = false := by
  simp [TunnelState.waitingExpired, elapsed, h]

/-- What a running cleanup leaves is young, or somebody waits with it. -/
def Kept (s : Timed) : Prop :=
  s.service.cleanup ≠ .removeWaiting → ∀ token ∈ s.remaining,
    s.young token = true ∨ s.waited token = true

/-- What is bound stays as it is when the maps do. -/
theorem Kept.of_same (hs : s.Kept) (hnow : s'.service.now = s.service.now)
    (hcleanup : s'.service.cleanup = s.service.cleanup)
    (hbindings : s'.service.tunnel.tokenBindings = s.service.tunnel.tokenBindings)
    (hwaiting : s'.service.tunnel.waiting = s.service.tunnel.waiting)
    (hregistered : s'.registeredAt = s.registeredAt) : s'.Kept := by
  intro hrunning token hremains
  have hold : token ∈ s.remaining := by
    simpa only [remaining, condemned, hbindings, hcleanup] using hremains
  simpa only [young, waited, hnow, hwaiting, hregistered] using hs (hcleanup ▸ hrunning) token hold

/-- A handler leaves what it does not take away. -/
theorem Kept.handler {l : TunnelService.Label} (hs : s.Kept) (hok : s.attended l)
    (hregistered : s'.registeredAt = s.registeredAt)
    (h : TunnelService.HandlerStep s.service l s'.service) : s'.Kept := by
  intro hrunning token hremains
  rw [h.cleanup] at hrunning
  obtain ⟨⟨binding, hbinding⟩, hcondemned⟩ := mem_remaining.mp hremains
  have hold : token ∈ s.remaining :=
    mem_remaining.mpr ⟨⟨binding, h.bindings hbinding⟩, by
      simpa only [condemned, h.cleanup] using hcondemned⟩
  have hyoung : s'.young token = s.young token := by
    simp only [young, h.now, hregistered]
  rw [hyoung]
  rcases hs hrunning token hold with hkept | hwaited
  · exact .inl hkept
  · obtain ⟨peer, hpeer, hunexpired⟩ := waited_iff.mp hwaited
    rcases h.waiting hpeer with hsame | ⟨peer', hpeer', hnew⟩ | ⟨c, rfl, t, ht, rfl, hpc⟩
    · exact .inr (waited_iff.mpr ⟨peer, hsame, h.now ▸ hunexpired⟩)
    · exact .inr (waited_iff.mpr ⟨peer', hpeer', not_waitingExpired (hnew.trans h.now.symm)⟩)
    · exact .inl (hok hrunning t ht hpc hold)

/-- The first block of a cleanup condemns the tokens whose waiting party timed out, the second
drops their bindings. -/
theorem Kept.cleanup (hs : s.Kept) (hok : s.attended .cleanup)
    (hservice : s'.service = s.service.cleanupStep)
    (hregistered : s'.registeredAt = s.registeredAt) : s'.Kept := by
  obtain ⟨service', registeredAt'⟩ := s'
  obtain rfl : service' = s.service.cleanupStep := hservice
  obtain rfl : registeredAt' = s.registeredAt := hregistered
  intro hrunning token hremains
  obtain ⟨⟨binding, hbinding⟩, hcondemned⟩ := mem_remaining.mp hremains
  cases hcleanup : s.service.cleanup with
  | removeWaiting =>
      simp only [TunnelService.cleanupStep, hcleanup] at hbinding hcondemned hrunning ⊢
      have hunexpired : token ∉ s.service.tunnel.expiredTokens s.service.now := by
        intro hmem
        have hsome : (s.service.tunnel.expiredTokens s.service.now).isEmpty = false := by
          cases hlist : s.service.tunnel.expiredTokens s.service.now with
          | nil => simp [hlist] at hmem
          | cons x xs => rfl
        simp [condemned, hsome, TunnelService.dropPeers, TunnelService.setTunnel, hmem]
          at hcondemned
      have hold : token ∈ s.remaining :=
        mem_remaining.mpr ⟨⟨binding, hbinding⟩, by simp [condemned, hcleanup]⟩
      rcases hok hcleanup token hold with hyoung | hwaits
      · exact .inl hyoung
      · obtain ⟨peer, hpeer⟩ := Option.isSome_iff_exists.mp hwaits
        have hpresent : TunnelState.waitingExpired s.service.now peer = false := by
          by_contra hexpired
          exact hunexpired (TunnelState.mem_expiredTokens.mpr
            ⟨peer, hpeer, Bool.eq_true_of_not_eq_false hexpired⟩)
        refine .inr (waited_iff.mpr ⟨peer, ?_, hpresent⟩)
        change (s.service.tunnel.waiting.retain _).get? token = some peer
        rw [Table.get?_retain, hpeer]
        simp [Option.filter, hpresent]
  | removeBindings expired =>
      simp only [TunnelService.cleanupStep, hcleanup] at hbinding ⊢
      change (s.service.tunnel.tokenBindings.retain _).get? token = some binding at hbinding
      rw [Table.get?_retain, Option.filter_eq_some_iff] at hbinding
      obtain ⟨hbound, hspared⟩ := hbinding
      have hold : token ∈ s.remaining :=
        mem_remaining.mpr ⟨⟨binding, hbound⟩, by simpa [condemned, hcleanup] using hspared⟩
      exact hs (by simp [hcleanup]) token hold
  | removeUpnp => simp [TunnelService.cleanupStep, hcleanup, TunnelService.setTunnel] at hrunning

/-- A binding that is registered is young. -/
theorem Kept.register (hs : s.Kept) (token : String) (binding : TokenBinding) :
    Kept ⟨{ s.service with registering := s.service.registering.remove token }.setTunnel
        (s.service.tunnel.registerTokenBinding token binding.hostIp binding.joinerIp),
      s.stamp (.registerBinding token)⟩ := by
  intro hrunning token' hremains
  obtain ⟨⟨binding', hbinding⟩, hcondemned⟩ := mem_remaining.mp hremains
  change (s.service.tunnel.tokenBindings.insert token _).get? token' = some binding' at hbinding
  rw [Table.get?_insert] at hbinding
  by_cases htoken : token' = token
  · left
    simp [young, stamp, htoken, elapsed, TunnelService.setTunnel]
  · rw [if_neg htoken] at hbinding
    have hold : token' ∈ s.remaining := mem_remaining.mpr ⟨⟨binding', hbinding⟩, hcondemned⟩
    refine (hs hrunning token' hold).imp (fun hyoung => ?_) id
    simp only [young, stamp, if_neg htoken]
    exact hyoung

theorem Kept.step {l : TunnelService.Label} (hs : s.Kept) (hok : s.attended l)
    (h : s.step l = some s') : s'.Kept := by
  obtain ⟨next, hstep, rfl⟩ := Option.map_eq_some_iff.mp h
  cases l with
  | elapse d =>
      cases hstep
      exact fun hrunning token hremains => hok hrunning token hremains (hs hrunning token hremains)
  | registerPending token hostIp joinerIp joinerPlayerId =>
      obtain ⟨_, rfl⟩ := TunnelService.registerPending_of_step hstep
      exact hs.of_same rfl rfl rfl rfl rfl
  | registerBinding token =>
      obtain ⟨binding, _, rfl⟩ := Option.map_eq_some_iff.mp hstep
      exact hs.register token binding
  | lookupUpnp token ip =>
      cases hstep
      obtain ⟨pending, hpending⟩ := s.service.tunnel.lookupUpnpPending_frame token ip
      refine hs.of_same rfl rfl ?_ ?_ rfl
      · exact congrArg (·.tokenBindings) hpending
      · exact congrArg (·.waiting) hpending
  | cleanup =>
      cases hstep
      exact hs.cleanup hok rfl rfl
  | _ => exact hs.handler hok rfl (TunnelService.handlerStep_of_step rfl hstep)

theorem kept_of_reachable (h : (machine.restrict attended).Reachable s) : s.Kept := by
  refine Machine.Reachable.invariant (I := Kept) (fun hrunning => absurd rfl hrunning) ?_ h
  intro s l s' _ hs hstep
  obtain ⟨hok, hstep⟩ := Machine.restrict_step.mp hstep
  exact hs.step hok hstep

/-- After every cleanup the unused tokens are gone, as long as each is attended. -/
theorem tidy_of_cleanup (h : (machine.restrict attended).Reachable s)
    (hlast : s.service.cleanup = .removeUpnp) (hstep : s.step .cleanup = some s') :
    s'.Tidy := by
  cases hstep
  intro token binding hbinding
  simp only [TunnelService.cleanupStep, hlast] at hbinding ⊢
  have hremains : token ∈ s.remaining :=
    mem_remaining.mpr ⟨⟨binding, hbinding⟩, by simp [condemned, hlast]⟩
  exact kept_of_reachable h (by simp [hlast]) token hremains

/-! ### One cleanup on its own -/

/-- The service after a cleanup that nothing interrupts. -/
def cleaned (s : Timed) : Timed :=
  let first := s.service.cleanupStep.cleanupStep
  { s with service := if first.cleanup = .removeWaiting then first else first.cleanupStep }

/-- What such a cleanup leaves. -/
theorem cleaned_maps (h : s.service.cleanup = .removeWaiting) :
    s.cleaned.service.now = s.service.now ∧
      s.cleaned.service.tunnel.waiting =
        (s.service.tunnel.removeExpiredWaiting s.service.now).waiting ∧
      ∀ token, s.cleaned.service.tunnel.tokenBindings.get? token =
        if token ∈ s.service.tunnel.expiredTokens s.service.now then none
        else s.service.tunnel.tokenBindings.get? token := by
  cases hexpired : s.service.tunnel.expiredTokens s.service.now with
  | nil =>
      simp [cleaned, TunnelService.cleanupStep, h, hexpired, TunnelService.setTunnel,
        TunnelService.dropPeers, TunnelState.removeExpiredUpnp, TunnelState.removeExpiredWaiting]
  | cons first rest =>
      have hcleaned : s.cleaned.service = s.service.cleanupStep.cleanupStep.cleanupStep := by
        simp [cleaned, TunnelService.cleanupStep, h, hexpired, TunnelService.setTunnel,
          TunnelService.dropPeers]
      rw [hcleaned]
      simp only [TunnelService.cleanupStep, h, hexpired, TunnelService.setTunnel,
        TunnelService.dropPeers]
      refine ⟨rfl, rfl, fun token => ?_⟩
      change (s.service.tunnel.tokenBindings.retain _).get? token = _
      rw [Table.get?_retain]
      by_cases hmem : token ∈ first :: rest
      · rw [if_pos hmem, Option.filter_eq_none_iff]
        simp [hmem]
      · rw [if_neg hmem]
        cases s.service.tunnel.tokenBindings.get? token with
        | none => rfl
        | some binding => exact Option.filter_some_pos (by simpa using hmem)

/-- A cleanup that nothing interrupts drops the unused tokens if and only if somebody waits with
every bound token that is no longer young. -/
theorem tidy_cleaned_iff (h : s.service.cleanup = .removeWaiting) :
    s.cleaned.Tidy ↔ s.attended .cleanup := by
  obtain ⟨hnow, hwaiting, hbindings⟩ := cleaned_maps h
  have hyoung (token : String) : s.cleaned.young token = s.young token := by
    simp only [young, hnow]
    rfl
  have hwaited (token : String) : s.cleaned.waited token = s.waited token := by
    simp only [waited, hnow, hwaiting, TunnelState.removeExpiredWaiting, Table.get?_retain]
    cases s.service.tunnel.waiting.get? token with
    | none => rfl
    | some peer =>
        by_cases hexpired : TunnelState.waitingExpired s.service.now peer = true
        · simp [Option.filter, hexpired]
        · simp [Option.filter, hexpired]
  have hremains {token : String} : token ∈ s.remaining ↔
      ∃ binding, s.service.tunnel.tokenBindings.get? token = some binding :=
    mem_remaining.trans (and_iff_left (by simp [condemned, h]))
  constructor
  · intro htidy _ token hmem
    obtain ⟨binding, hbinding⟩ := hremains.mp hmem
    by_cases hexpired : token ∈ s.service.tunnel.expiredTokens s.service.now
    · obtain ⟨peer, hpeer, _⟩ := TunnelState.mem_expiredTokens.mp hexpired
      exact .inr (Option.isSome_iff_exists.mpr ⟨peer, hpeer⟩)
    · have hkept := htidy token binding ((hbindings token).trans ((if_neg hexpired).trans hbinding))
      rw [hyoung, hwaited] at hkept
      refine hkept.imp id fun hwaits => ?_
      obtain ⟨peer, hpeer, _⟩ := waited_iff.mp hwaits
      exact Option.isSome_iff_exists.mpr ⟨peer, hpeer⟩
  · intro hattended token binding hbinding
    rw [hbindings] at hbinding
    split at hbinding
    · cases hbinding
    · next hunexpired =>
      rw [hyoung, hwaited]
      refine (hattended h token (hremains.mpr ⟨binding, hbinding⟩)).imp id fun hwaits => ?_
      obtain ⟨peer, hpeer⟩ := Option.isSome_iff_exists.mp hwaits
      refine waited_iff.mpr ⟨peer, hpeer, ?_⟩
      by_contra hexpired
      exact hunexpired (TunnelState.mem_expiredTokens.mpr
        ⟨peer, hpeer, Bool.eq_true_of_not_eq_false hexpired⟩)

/-! ### A token that nobody uses -/

/-- A token is registered, and 31 seconds later a cleanup runs. -/
def unused : List TunnelService.Label :=
  [.registerPending "t" (.v4 1) (.v4 2) "p", .registerBinding "t", .elapse (secs 31), .cleanup]

/-- The binding of a token that nobody connects with is there after every cleanup. -/
theorem not_always_tidy :
    ¬ ∀ s s' : Timed, machine.Reachable s → s.service.cleanup = .removeUpnp →
        s.step .cleanup = some s' → s'.Tidy := by
  intro h
  have hrun : ∃ s, machine.exec start unused = some s ∧ s.service.cleanup = .removeUpnp ∧
      ∃ s', s.step .cleanup = some s' ∧
        s'.service.tunnel.tokenBindings.get? "t" = some ⟨.v4 1, .v4 2⟩ ∧
          s'.young "t" = false ∧ s'.waited "t" = false :=
    ⟨_, rfl, rfl, _, rfl, rfl, rfl, rfl⟩
  obtain ⟨s, hexec, hlast, s', hstep, hbinding, hyoung, hwaited⟩ := hrun
  have htidy := h s s' (Machine.reachable_of_exec hexec) hlast hstep "t" _ hbinding
  simp [hyoung, hwaited] at htidy

/-- A party waits with a token and times out without its handler, a second token is registered
late, and a cleanup drops the party and its token. -/
def attendedRun : List TunnelService.Label :=
  [.registerPending "t" (.v4 1) (.v4 2) "p", .registerBinding "t",
    .request 1 true (.v4 1) (some "t") (some "host"), .upgrade 1 true, .block 1, .block 1, .block 1,
    .elapse (secs 20), .registerPending "u" (.v4 3) (.v4 4) "q", .registerBinding "u",
    .elapse (secs 11), .cleanup, .cleanup]

/-- The old token goes, the young one stays. -/
theorem tidy_of_attendedRun :
    ∃ s s' : Timed, (machine.restrict attended).exec start attendedRun = some s ∧
      s.step .cleanup = some s' ∧ s'.Tidy ∧
        s'.service.tunnel.tokenBindings.get? "t" = none ∧
          s'.service.tunnel.tokenBindings.get? "u" = some ⟨.v4 3, .v4 4⟩ ∧
            s'.young "u" = true := by
  have hexec : ∃ s, (machine.restrict attended).exec start attendedRun = some s ∧
      s.service.cleanup = .removeUpnp ∧ ∃ s', s.step .cleanup = some s' ∧
        s'.service.tunnel.tokenBindings.get? "t" = none ∧
          s'.service.tunnel.tokenBindings.get? "u" = some ⟨.v4 3, .v4 4⟩ ∧
            s'.young "u" = true :=
    ⟨_, by rfl, by rfl, _, by rfl, by rfl, by rfl, by rfl⟩
  obtain ⟨s, hexec, hlast, s', hstep, hbindings⟩ := hexec
  exact ⟨s, s', hexec, hstep,
    tidy_of_cleanup (Machine.reachable_of_exec hexec) hlast hstep, hbindings⟩

end Timed

end War3BattleTool.Server

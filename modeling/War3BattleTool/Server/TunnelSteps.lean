import War3BattleTool.Server.TunnelService

set_option autoImplicit false

/-!
# What a step of the tunnel service does

`TunnelService.step` is a program; `Step` lists its branches, each with the guards
that lead to it and the state it leaves.  Most branches change the locals of one
connection and nothing else: these are the `OwnStep`s.
-/

namespace War3BattleTool.Server

open War3BattleTool.Foundation

namespace TunnelService

/-- The connection whose handler takes a step. -/
def Label.conn : Label → Option ConnId
  | .request c _ _ _ _ | .upgrade c _ | .block c | .notified c | .timeout c | .recv c | .sent c _
  | .frame c _ | .idle c => some c
  | _ => none

/-- What the handler of `c` does by itself, from its locals `t`. -/
inductive OwnStep (s : TunnelService) (c : ConnId) (t : TunnelTask) :
    Label → TunnelTask → Prop
  /-- the upgrade completes, or fails -/
  | upgraded (ok : Bool) (hpc : t.pc = .upgrading) :
      OwnStep s c t (.upgrade c ok) { t with pc := if ok then .checkBinding else .upgradeFailed }
  /-- the token is not bound to the address of the role -/
  | rejected (hpc : t.pc = .checkBinding)
      (hforeign : ∀ binding, s.tunnel.tokenBindings.get? t.token = some binding →
        TunnelState.verifyIp binding t.role t.clientIp = false) :
      OwnStep s c t (.block c) ((t.send .close).finish .rejected)
  /-- the token is bound to it -/
  | verified (hpc : t.pc = .checkBinding) {binding : TokenBinding}
      (hbinding : s.tunnel.tokenBindings.get? t.token = some binding)
      (hverify : TunnelState.verifyIp binding t.role t.clientIp = true) :
      OwnStep s c t (.block c) { t with pc := .lookupWaiting, myTx := true }
  /-- nobody waits under the token -/
  | alone (hpc : t.pc = .lookupWaiting) (hnone : s.tunnel.waiting.get? t.token = none) :
      OwnStep s c t (.block c) { t with pc := .registerWaiting, notify := .pending }
  /-- the peer's sender arrives -/
  | notified {deadline : Instant} (hpc : t.pc = .awaitPeer deadline) {tx : ConnId}
      (hnotify : t.notify = .sent tx) :
      OwnStep s c t (.notified c)
        { t with pc := .relaying (.start tx s.now), myTx := false, notify := .gone }
  /-- nobody will ever send one -/
  | forsaken {deadline : Instant} (hpc : t.pc = .awaitPeer deadline)
      (hnotify : t.notify = .closed) : OwnStep s c t (.notified c) (t.finish .unpaired)
  | timedOut {deadline : Instant} (hpc : t.pc = .awaitPeer deadline) (hdue : deadline ≤ s.now) :
      OwnStep s c t (.timeout c) { t with pc := .unregisterWaiting, notify := .gone }
  /-- a message is taken out of the inbox -/
  | takes {r : Relay} (hpc : t.pc = .relaying r) (hidle : r.sending = none) {m : Message}
      {rest : List Message} (hinbox : t.inbox = m :: rest) :
      OwnStep s c t (.recv c) { t with inbox := rest, pc := .relaying { r with sending := some m } }
  /-- the inbox is empty, and nobody can put anything there -/
  | drained {r : Relay} (hpc : t.pc = .relaying r) (hidle : r.sending = none)
      (hinbox : t.inbox = []) (hlive : s.liveSenders c = []) :
      OwnStep s c t (.recv c) ((t.send .close).finish .relayed)
  | sent {r : Relay} (hpc : t.pc = .relaying r) {m : Message} (hsending : r.sending = some m) :
      OwnStep s c t (.sent c true)
        { t.send m with
          pc := .relaying { r with sending := none, idleDeadline := s.now + tunnelIdleTimeout } }
  | unsent {r : Relay} (hpc : t.pc = .relaying r) {m : Message} (hsending : r.sending = some m) :
      OwnStep s c t (.sent c false) (t.finish .relayed)
  /-- a frame goes over the byte rate -/
  | limited {r : Relay} (hpc : t.pc = .relaying r) (hidle : r.sending = none) {data : Bytes}
      {window : RateWindow} (hcount : r.window.count s.now data.length = (window, false)) :
      OwnStep s c t (.frame c (.message (.binary data)))
        (t.record { r with window := window } data .rateLimited)
  /-- a frame finds the peer's inbox full, or its receiver gone -/
  | overflows {r : Relay} (hpc : t.pc = .relaying r) (hidle : r.sending = none) {data : Bytes}
      {window : RateWindow} (hcount : r.window.count s.now data.length = (window, true))
      (hfull : ∀ p, s.tasks.get? r.peerTx = some p → p.receiverOpen = true →
        relayChannelSize ≤ p.inbox.length) :
      OwnStep s c t (.frame c (.message (.binary data)))
        (t.record { r with window := window, idleDeadline := s.now + tunnelIdleTimeout } data
          .inboxFull)
  | pinged {r : Relay} (hpc : t.pc = .relaying r) (hidle : r.sending = none) (data : Bytes) :
      OwnStep s c t (.frame c (.message (.ping data))) (t.send (.pong data))
  /-- the client closes the connection, or it breaks -/
  | hungUp {r : Relay} (hpc : t.pc = .relaying r) (hidle : r.sending = none) {item : StreamItem}
      (hitem : item = .message .close ∨ item = .error ∨ item = .ended) :
      OwnStep s c t (.frame c item) (t.finish .relayed)
  | idled {r : Relay} (hpc : t.pc = .relaying r) (hidle : r.sending = none)
      (hdue : r.idleDeadline ≤ s.now) :
      OwnStep s c t (.idle c) ((t.send .close).finish .relayed)

/-- What a step does. -/
inductive Step (s : TunnelService) : Label → TunnelService → Prop
  | elapse (d : Duration) : Step s (.elapse d) { s with now := s.now + d }
  | registerPending {token : String} (hostIp joinerIp : IpAddr) (joinerPlayerId : String)
      (hnew : token ∉ s.issued) :
      Step s (.registerPending token hostIp joinerIp joinerPlayerId)
        ({ s with
          registering := s.registering.insert token ⟨hostIp, joinerIp⟩
          issued := token :: s.issued }.setTunnel
            (s.tunnel.registerTokenPending s.now token hostIp joinerPlayerId))
  | registerBinding {token : String} {binding : TokenBinding}
      (hbinding : s.registering.get? token = some binding) :
      Step s (.registerBinding token)
        ({ s with registering := s.registering.remove token }.setTunnel
          (s.tunnel.registerTokenBinding token binding.hostIp binding.joinerIp))
  | lookupUpnp {token : String} {claimedHostIp : IpAddr} {pending : Table String UPnPPending}
      (hpending : (s.lookupUpnp token claimedHostIp).1 =
        s.setTunnel { s.tunnel with upnpPending := pending }) :
      Step s (.lookupUpnp token claimedHostIp)
        (s.setTunnel { s.tunnel with upnpPending := pending })
  /-- the request is turned away -/
  | denied {c : ConnId} (hnew : s.tasks.get? c = none) {originOk : Bool} {clientIp : IpAddr}
      {token role : Option String} {conns : Table IpAddr Nat} {rejection : Rejection}
      (herror : tunnelHandler s.tunnel originOk clientIp token role =
        ({ s.tunnel with connectionsPerIp := conns }, .error rejection)) :
      Step s (.request c originOk clientIp token role)
        (s.setTunnel { s.tunnel with connectionsPerIp := conns })
  | admitted {c : ConnId} (hnew : s.tasks.get? c = none) {originOk : Bool} {clientIp : IpAddr}
      {tokenParam roleParam : Option String} {conns : Table IpAddr Nat} {token role : String}
      (hok : tunnelHandler s.tunnel originOk clientIp tokenParam roleParam =
        ({ s.tunnel with connectionsPerIp := conns }, .ok (token, role))) :
      Step s (.request c originOk clientIp tokenParam roleParam)
        ({ s with tasks := s.tasks.insert c (.admitted clientIp token role) }.setTunnel
          { s.tunnel with connectionsPerIp := conns })
  /-- one connection changes its locals -/
  | own {c : ConnId} {t t' : TunnelTask} {l : Label} (ht : s.tasks.get? c = some t)
      (h : OwnStep s c t l t') : Step s l (s.setTask c t')
  /-- somebody waits under the token, and is taken out of the map -/
  | found {c : ConnId} {t : TunnelTask} (ht : s.tasks.get? c = some t)
      (hpc : t.pc = .lookupWaiting) {peer : WaitingPeer}
      (hpeer : s.tunnel.waiting.get? t.token = some peer) :
      Step s (.block c)
        ((s.setTunnel (s.tunnel.removeWaiting t.token)).setTask c { t with pc := .unbind peer })
  /-- the peer that was taken out still waits -/
  | joins {c : ConnId} {t : TunnelTask} (ht : s.tasks.get? c = some t) {peer : WaitingPeer}
      (hpc : t.pc = .unbind peer) {waiter : TunnelTask}
      (hwaiter : s.tasks.get? peer.notify = some waiter) (hnotify : waiter.notify = .pending) :
      Step s (.block c)
        ((s.setTunnel (s.tunnel.removeBinding t.token)).handOver c t peer waiter)
  /-- it does not -/
  | misses {c : ConnId} {t : TunnelTask} (ht : s.tasks.get? c = some t) {peer : WaitingPeer}
      (hpc : t.pc = .unbind peer)
      (hgone : ∀ waiter, s.tasks.get? peer.notify = some waiter → waiter.notify ≠ .pending) :
      Step s (.block c)
        ((s.setTunnel (s.tunnel.removeBinding t.token)).setTask c
          ((t.send .close).finish .unpaired))
  | waits {c : ConnId} {t : TunnelTask} (ht : s.tasks.get? c = some t)
      (hpc : t.pc = .registerWaiting) : Step s (.block c) (s.registerWaiting c t)
  | stopsWaiting {c : ConnId} {t : TunnelTask} (ht : s.tasks.get? c = some t)
      (hpc : t.pc = .unregisterWaiting) : Step s (.block c) (s.unregisterWaiting c t)
  | releases {c : ConnId} {t : TunnelTask} (ht : s.tasks.get? c = some t) {exit : Exit}
      (hpc : t.pc = .returned exit) : Step s (.block c) (s.releaseSlot c t exit)
  /-- a frame is queued for the peer -/
  | forwards {c : ConnId} {t : TunnelTask} (ht : s.tasks.get? c = some t) {r : Relay}
      (hpc : t.pc = .relaying r) (hidle : r.sending = none) {data : Bytes} {window : RateWindow}
      (hcount : r.window.count s.now data.length = (window, true)) {p : TunnelTask}
      (hp : s.tasks.get? r.peerTx = some p) (hopen : p.receiverOpen = true)
      (hroom : p.inbox.length < relayChannelSize) :
      Step s (.frame c (.message (.binary data)))
        ((s.setTask r.peerTx { p with inbox := p.inbox ++ [.binary data] }).setTask c
          (t.record { r with window := window, idleDeadline := s.now + tunnelIdleTimeout } data
            .forwarded))
  /-- a text or a pong is none of `relay`'s business -/
  | ignores {c : ConnId} {t : TunnelTask} (ht : s.tasks.get? c = some t) {r : Relay}
      (hpc : t.pc = .relaying r) (hidle : r.sending = none) {m : Message}
      (hm : (∃ text, m = .text text) ∨ ∃ data, m = .pong data) :
      Step s (.frame c (.message m)) s
  | cleanup : Step s .cleanup s.cleanupStep

section Inversion

variable {s s' : TunnelService} {c : ConnId} {t t' : TunnelTask}

theorem OwnStep.conn {l : Label} (h : OwnStep s c t l t') : l.conn = some c := by
  cases h with
  | _ => rfl

theorem Step.of_checkBinding (ht : s.tasks.get? c = some t) (hpc : t.pc = .checkBinding) :
    Step s (.block c) (s.checkBinding c t) := by
  unfold checkBinding
  split
  · next hnone =>
    exact .own ht (.rejected hpc fun binding h =>
      absurd (h.symm.trans hnone) (Option.some_ne_none binding))
  · next binding hbinding =>
    split
    · next hverify =>
      refine .own ht (.rejected hpc fun binding' h => ?_)
      obtain rfl := Option.some.inj (hbinding.symm.trans h)
      simpa using hverify
    · next hverify => exact .own ht (.verified hpc hbinding (by simpa using hverify))

theorem Step.of_lookupWaiting (ht : s.tasks.get? c = some t) (hpc : t.pc = .lookupWaiting) :
    Step s (.block c) (s.lookupWaiting c t) := by
  unfold lookupWaiting
  split
  · next hpeer => exact .found ht hpc hpeer
  · next hnone => exact .own ht (.alone hpc hnone)

theorem Step.of_unbind (ht : s.tasks.get? c = some t) {peer : WaitingPeer}
    (hpc : t.pc = .unbind peer) : Step s (.block c) (s.unbind c t peer) := by
  simp only [unbind, tasks_setTunnel]
  split
  · next waiter hwaiter =>
    split
    · next hnotify => exact .joins ht hpc hwaiter hnotify
    · next hnotify =>
      refine .misses ht hpc fun waiter' hwaiter' => ?_
      obtain rfl := Option.some.inj (hwaiter.symm.trans hwaiter')
      exact hnotify
  · next hnone =>
    exact .misses ht hpc fun waiter h =>
      absurd (h.symm.trans hnone) (Option.some_ne_none waiter)

theorem Step.of_block (ht : s.tasks.get? c = some t) (h : s.block c t = some s') :
    Step s (.block c) s' := by
  unfold block at h
  split at h
  · next hpc =>
    cases h
    exact .of_checkBinding ht hpc
  · next hpc =>
    cases h
    exact .of_lookupWaiting ht hpc
  · next hpc =>
    cases h
    exact .of_unbind ht hpc
  · next hpc =>
    cases h
    exact .waits ht hpc
  · next hpc =>
    cases h
    exact .stopsWaiting ht hpc
  · next hpc =>
    cases h
    exact .releases ht hpc
  · cases h

theorem Step.of_notified (ht : s.tasks.get? c = some t) {deadline : Instant}
    (hpc : t.pc = .awaitPeer deadline) (h : s.notified c t = some s') :
    Step s (.notified c) s' := by
  unfold notified at h
  split at h
  · next hnotify =>
    cases h
    exact .own ht (.notified hpc hnotify)
  · next hnotify =>
    cases h
    exact .own ht (.forsaken hpc hnotify)
  · cases h

theorem Step.of_recv (ht : s.tasks.get? c = some t) {r : Relay} (hpc : t.pc = .relaying r)
    (hidle : r.sending = none) (h : s.recv c t r = some s') : Step s (.recv c) s' := by
  unfold recv at h
  split at h
  · next hinbox =>
    cases h
    exact .own ht (.takes hpc hidle hinbox)
  · next hinbox =>
    split at h
    · next hlive =>
      cases h
      exact .own ht (.drained hpc hidle hinbox hlive)
    · cases h

theorem Step.of_sent (ht : s.tasks.get? c = some t) {r : Relay} (hpc : t.pc = .relaying r)
    {m : Message} (hsending : r.sending = some m) (ok : Bool) :
    Step s (.sent c ok) (s.sent c t r m ok) := by
  cases ok with
  | true => exact .own ht (.sent hpc hsending)
  | false => exact .own ht (.unsent hpc hsending)

/-- A message that does not fit is not queued. -/
theorem trySend_eq (peer : ConnId) (m : Message) :
    (∃ p, s.tasks.get? peer = some p ∧ p.receiverOpen = true ∧
        p.inbox.length < relayChannelSize ∧
        s.trySend peer m = (s.setTask peer { p with inbox := p.inbox ++ [m] }, true)) ∨
      (∀ p, s.tasks.get? peer = some p → p.receiverOpen = true →
        relayChannelSize ≤ p.inbox.length) ∧ s.trySend peer m = (s, false) := by
  unfold trySend
  split
  · next p hp =>
    split
    · next hroom =>
      simp only [Bool.and_eq_true, decide_eq_true_eq] at hroom
      exact .inl ⟨p, hp, hroom.1, hroom.2, rfl⟩
    · next hfull =>
      refine .inr ⟨fun p' hp' hopen => ?_, rfl⟩
      obtain rfl := Option.some.inj (hp.symm.trans hp')
      simpa [hopen] using hfull
  · next hnone =>
    exact .inr ⟨fun p hp => absurd (hp.symm.trans hnone) (Option.some_ne_none p), rfl⟩

theorem Step.of_binaryFrame (ht : s.tasks.get? c = some t) {r : Relay}
    (hpc : t.pc = .relaying r) (hidle : r.sending = none) (data : Bytes) :
    Step s (.frame c (.message (.binary data))) (s.binaryFrame c t r data) := by
  unfold binaryFrame
  split
  · next hcount => exact .own ht (.limited hpc hidle hcount)
  · next hcount =>
    obtain ⟨p, hp, hopen, hroom, hsend⟩ | ⟨hfull, hsend⟩ :=
      trySend_eq (s := s) r.peerTx (.binary data)
    · rw [hsend]
      exact .forwards ht hpc hidle hcount hp hopen hroom
    · rw [hsend]
      exact .own ht (.overflows hpc hidle hcount hfull)

theorem Step.of_frame (ht : s.tasks.get? c = some t) {r : Relay} (hpc : t.pc = .relaying r)
    (hidle : r.sending = none) (item : StreamItem) :
    Step s (.frame c item) (s.frame c t r item) := by
  cases item with
  | message m =>
      cases m with
      | binary data => exact .of_binaryFrame ht hpc hidle data
      | close => exact .own ht (.hungUp hpc hidle (.inl rfl))
      | ping data => exact .own ht (.pinged hpc hidle data)
      | text text => exact .ignores ht hpc hidle (.inl ⟨text, rfl⟩)
      | pong data => exact .ignores ht hpc hidle (.inr ⟨data, rfl⟩)
  | error => exact .own ht (.hungUp hpc hidle (.inr (.inl rfl)))
  | ended => exact .own ht (.hungUp hpc hidle (.inr (.inr rfl)))

theorem Step.of_request {originOk : Bool} {clientIp : IpAddr} {token role : Option String}
    (h : s.request c originOk clientIp token role = some s') :
    Step s (.request c originOk clientIp token role) s' := by
  obtain ⟨conns, hconns⟩ := tunnelHandler_frame s.tunnel originOk clientIp token role
  unfold request at h
  split at h
  · cases h
  · next hnew =>
    split at h
    · next tunnel token' role' hok =>
      cases h
      obtain rfl : tunnel = _ := (congrArg Prod.fst hok).symm.trans hconns
      exact .admitted hnew hok
    · next tunnel rejection herror =>
      cases h
      obtain rfl : tunnel = _ := (congrArg Prod.fst herror).symm.trans hconns
      exact .denied hnew herror

theorem Step.of_registerPending {token : String} {hostIp joinerIp : IpAddr}
    {joinerPlayerId : String}
    (h : s.registerPending token hostIp joinerIp joinerPlayerId = some s') :
    Step s (.registerPending token hostIp joinerIp joinerPlayerId) s' := by
  unfold TunnelService.registerPending at h
  split at h
  · cases h
  · next hnew =>
    cases h
    exact .registerPending hostIp joinerIp joinerPlayerId hnew

theorem Step.of_lookupUpnp (token : String) (claimedHostIp : IpAddr) :
    Step s (.lookupUpnp token claimedHostIp) (s.lookupUpnp token claimedHostIp).1 := by
  obtain ⟨pending, hframe⟩ := s.tunnel.lookupUpnpPending_frame token claimedHostIp
  have hpending : (s.lookupUpnp token claimedHostIp).1 =
      s.setTunnel { s.tunnel with upnpPending := pending } := congrArg s.setTunnel hframe
  rw [hpending]
  exact .lookupUpnp hpending

/-- Every step is one of them. -/
theorem Step.of_step {l : Label} (h : s.step l = some s') : Step s l s' := by
  cases l with
  | elapse d =>
      cases h
      exact .elapse d
  | registerPending token hostIp joinerIp joinerPlayerId => exact .of_registerPending h
  | registerBinding token =>
      obtain ⟨binding, hbinding, rfl⟩ := Option.map_eq_some_iff.mp h
      exact .registerBinding hbinding
  | lookupUpnp token claimedHostIp =>
      cases h
      exact .of_lookupUpnp token claimedHostIp
  | request c originOk clientIp token role => exact .of_request h
  | upgrade c ok =>
      simp only [step] at h
      split at h
      · next ht =>
        split at h
        · next hpc =>
          cases h
          exact .own ht (.upgraded ok hpc)
        · cases h
      · cases h
  | block c =>
      obtain ⟨t, ht, hblock⟩ := Option.bind_eq_some_iff.mp h
      exact .of_block ht hblock
  | notified c =>
      simp only [step] at h
      split at h
      · next ht =>
        split at h
        · next hpc => exact .of_notified ht hpc h
        · cases h
      · cases h
  | timeout c =>
      simp only [step] at h
      split at h
      · next ht =>
        split at h
        · next hpc =>
          split at h
          · next hdue =>
            cases h
            exact .own ht (.timedOut hpc hdue)
          · cases h
        · cases h
      · cases h
  | recv c =>
      obtain ⟨t, r, ht, hpc, hidle, hrecv⟩ := whenSelecting_eq_some h
      exact .of_recv ht hpc hidle hrecv
  | sent c ok =>
      simp only [step] at h
      split at h
      · next ht =>
        split at h
        · next hpc =>
          obtain ⟨m, hsending, rfl⟩ := Option.map_eq_some_iff.mp h
          exact .of_sent ht hpc hsending ok
        · cases h
      · cases h
  | frame c item =>
      obtain ⟨t, r, ht, hpc, hidle, hframe⟩ := whenSelecting_eq_some h
      cases hframe
      exact .of_frame ht hpc hidle item
  | idle c =>
      obtain ⟨t, r, ht, hpc, hidle, hdue⟩ := whenSelecting_eq_some h
      split at hdue
      · next hexpired =>
        cases hdue
        exact .own ht (.idled hpc hidle hexpired)
      · cases hdue
  | cleanup =>
      cases h
      exact .cleanup

/-- A token that is drawn is new. -/
theorem registerPending_of_step {token joinerPlayerId : String} {hostIp joinerIp : IpAddr}
    (h : s.step (.registerPending token hostIp joinerIp joinerPlayerId) = some s') :
    token ∉ s.issued ∧ s' =
      { s with
        registering := s.registering.insert token ⟨hostIp, joinerIp⟩
        issued := token :: s.issued }.setTunnel
          (s.tunnel.registerTokenPending s.now token hostIp joinerPlayerId) := by
  cases Step.of_step h with
  | registerPending _ _ _ hnew => exact ⟨hnew, rfl⟩
  | own _ hown => cases hown

end Inversion

end TunnelService

end War3BattleTool.Server

import War3BattleTool.Server.Rates
import War3BattleTool.Server.RelayStream

set_option autoImplicit false

/-!
# The byte limit of a relay

`relay` counts the bytes of every binary frame against a window of one second, and offers the
frame to the peer if the window carries it.  A frame over the limit is dropped, but counts.  The
window is a fixed-window limiter whose items are the frames, so the bytes offered within any
span of `T` seconds are at most `⌈T⌉ + 1` times the limit, and a client that keeps to the limit
loses no frame to it.
-/

namespace War3BattleTool.Server

open War3BattleTool.Foundation

/-- A binary frame that arrives from a client. -/
structure Arrival where
  time : Instant
  data : Bytes
  deriving DecidableEq

/-- The limit of bytes: every frame weighs its length. -/
def byteLimiter : Limiter Arrival Instant where
  width := secs 1
  limit := rateLimitBytesPerSec
  time := (·.time)
  weight := (·.data.length)

namespace RateWindow

/-- The window as the limiter knows it. -/
def window (w : RateWindow) : FixedWindow Instant := ⟨w.bytesThisSecond, w.rateWindowStart⟩

/-- The first half of `count`: a window is opened once a second has passed. -/
def opened (w : RateWindow) (now : Instant) : RateWindow :=
  if secs 1 ≤ elapsed now w.rateWindowStart then ⟨0, now⟩ else w

theorem window_opened (w : RateWindow) (now : Instant) :
    (w.opened now).window = byteLimiter.renew w.window now := by
  unfold opened
  by_cases hpassed : w.rateWindowStart + secs 1 ≤ now
  · rw [if_pos ((second_le_elapsed _ _).mpr hpassed), Limiter.renew_of_le hpassed]
    rfl
  · rw [if_neg (mt (second_le_elapsed _ _).mp hpassed), Limiter.renew_of_lt (lt_of_not_ge hpassed)]

/-- The second half: the frame is counted. -/
def add (w : RateWindow) (len : Nat) : RateWindow × Bool :=
  (⟨w.bytesThisSecond + len, w.rateWindowStart⟩, w.bytesThisSecond + len ≤ rateLimitBytesPerSec)

theorem count_eq (w : RateWindow) (now : Instant) (len : Nat) :
    w.count now len = (w.opened now).add len := rfl

/-- Counting a frame is offering it to the limiter. -/
theorem window_count (w : RateWindow) (now : Instant) (data : Bytes) :
    (w.count now data.length).1.window = byteLimiter.offer w.window ⟨now, data⟩ ∧
      (w.count now data.length).2 = byteLimiter.admits w.window ⟨now, data⟩ := by
  have htime : byteLimiter.time ⟨now, data⟩ = now := rfl
  have hoffer : byteLimiter.offer w.window ⟨now, data⟩ =
      ((w.opened now).add data.length).1.window := by
    rw [Limiter.offer, htime, ← window_opened]
    rfl
  rw [count_eq, Limiter.admits, hoffer]
  exact ⟨rfl, rfl⟩

end RateWindow

/-! ## A connection between two frames -/

/-- The frames and the window stay as they are; a relay that begins has an empty window. -/
structure Still (now : Instant) (t t' : TunnelTask) : Prop where
  frames : t'.frames = t.frames
  window : ∀ r', t'.pc = .relaying r' → (∃ r, t.pc = .relaying r ∧ r.window = r'.window) ∨
    t.frames = [] ∧ r'.window.window = ⟨0, now⟩

namespace Still

variable {now : Instant} {t t' : TunnelTask}

theorem refl (t : TunnelTask) : Still now t t := ⟨rfl, fun r hpc => .inl ⟨r, hpc, rfl⟩⟩

/-- The connection does not relay. -/
theorem of_apart (hframes : t'.frames = t.frames) (hpc : ∀ r, t'.pc ≠ .relaying r) :
    Still now t t' :=
  ⟨hframes, fun r hr => absurd hr (hpc r)⟩

/-- The relay goes on. -/
theorem of_relaying {r r' : Relay} (hframes : t'.frames = t.frames) (hpc : t.pc = .relaying r)
    (hpc' : t'.pc = .relaying r') (hwindow : r'.window = r.window) : Still now t t' := by
  refine ⟨hframes, fun r₁ hr₁ => .inl ⟨r, hpc, ?_⟩⟩
  rw [hpc'] at hr₁
  cases hr₁
  exact hwindow.symm

theorem of_pc (hframes : t'.frames = t.frames) (hpc : t'.pc = t.pc) : Still now t t' :=
  ⟨hframes, fun r hr => .inl ⟨r, hpc ▸ hr, rfl⟩⟩

theorem finish (t : TunnelTask) (exit : Exit) : Still now t (t.finish exit) :=
  .of_apart rfl fun _ => Pc.noConfusion

theorem close (t : TunnelTask) (exit : Exit) : Still now t ((t.send .close).finish exit) :=
  .of_apart rfl fun _ => Pc.noConfusion

theorem dropNotify (t : TunnelTask) : Still now t t.dropNotify := by
  unfold TunnelTask.dropNotify
  split
  · exact .of_pc rfl rfl
  · exact .refl t

/-- The relay begins. -/
theorem begin {peerTx : ConnId} (hsilent : t.Silent) (hframes : t'.frames = t.frames)
    (hpc : t'.pc = .relaying (.start peerTx now)) : Still now t t' := by
  refine ⟨hframes, fun r hr => .inr ⟨hsilent.1, ?_⟩⟩
  rw [hpc] at hr
  cases hr
  rfl

theorem trans {t'' : TunnelTask} (h : Still now t t') (h' : Still now t' t'') :
    Still now t t'' := by
  refine ⟨h'.frames.trans h.frames, fun r'' hr'' => ?_⟩
  obtain ⟨r', hr', hwindow⟩ | ⟨hframes, hwindow⟩ := h'.window r'' hr''
  · rw [← hwindow]
    exact h.window r' hr'
  · exact .inr ⟨h.frames.symm.trans hframes, hwindow⟩

end Still

namespace TunnelService

/-- Between two frames of `c`. -/
structure Quiet (c : ConnId) (s s' : TunnelService) : Prop where
  now : s.now ≤ s'.now
  kept : ∀ {t}, s.tasks.get? c = some t → ∃ t', s'.tasks.get? c = some t' ∧ Still s.now t t'
  absent : s.tasks.get? c = none → s'.tasks.get? c = none

section Steps

variable {s s₁ s' : TunnelService} {c c₀ : ConnId} {t t' : TunnelTask}

theorem Quiet.of_get? (hnow : s.now ≤ s'.now) (hget : s'.tasks.get? c = s.tasks.get? c) :
    Quiet c s s' where
  now := hnow
  kept := fun {t} ht => ⟨t, hget.trans ht, .refl t⟩
  absent := hget.trans

theorem Quiet.trans (h : Quiet c s s₁) (h' : Quiet c s₁ s') (hnow : s₁.now = s.now) :
    Quiet c s s' where
  now := h.now.trans h'.now
  kept := fun ht => by
    obtain ⟨t₁, ht₁, hstill⟩ := h.kept ht
    obtain ⟨t', ht', hstill'⟩ := h'.kept ht₁
    exact ⟨t', ht', hstill.trans (hnow ▸ hstill')⟩
  absent := fun hnone => h'.absent (h.absent hnone)

theorem quiet_setTask (ht : s.tasks.get? c₀ = some t) (hstill : Still s.now t t') :
    Quiet c s (s.setTask c₀ t') := by
  refine ⟨Nat.le_refl _, fun {u} hu => ?_, fun hnone => ?_⟩
  · rw [get?_setTask]
    split
    · next heq =>
      subst heq
      obtain rfl := Option.some.inj (ht.symm.trans hu)
      exact ⟨t', by rw [hu, Option.map_some], hstill⟩
    · exact ⟨u, hu, .refl u⟩
  · rw [get?_setTask, hnone, Option.map_none, ite_self]

/-- The senders of some connections are dropped. -/
theorem quiet_dropPeers (htasks : s₁.tasks = s.tasks) (hnow : s₁.now = s.now)
    (peers : List WaitingPeer) : Quiet c s (s₁.dropPeers peers) := by
  have hget : (s₁.dropPeers peers).tasks.get? c = (s.tasks.get? c).map fun t =>
      if peers.any (·.notify = c) then t.dropNotify else t := by
    rw [← htasks]
    exact Table.get?_mapValues ..
  refine ⟨hnow.ge, fun {t} ht => ?_, fun hnone => by rw [hget, hnone, Option.map_none]⟩
  rw [hget, ht, Option.map_some]
  split
  · exact ⟨t.dropNotify, rfl, .dropNotify t⟩
  · exact ⟨t, rfl, .refl t⟩

/-- A connection goes on, once whoever waits under its token is thrown out. -/
theorem quiet_evict_setTask (ht : s.tasks.get? c₀ = some t) (tunnel : TunnelState)
    (peers : List WaitingPeer) (hframes : t'.frames = t.frames) (hpc : ∀ r, t'.pc ≠ .relaying r) :
    Quiet c s (((s.setTunnel tunnel).dropPeers peers).setTask c₀ t') := by
  have hdrop : ∀ c, Quiet c s ((s.setTunnel tunnel).dropPeers peers) := fun c =>
    quiet_dropPeers (by rfl) (by rfl) peers
  obtain ⟨t₁, ht₁, hstill⟩ := (hdrop c₀).kept ht
  exact (hdrop c).trans (quiet_setTask ht₁ (.of_apart (hframes.trans hstill.frames.symm) hpc)) rfl

theorem quiet_setTunnel_setTask (ht : s.tasks.get? c₀ = some t) (tunnel : TunnelState)
    (hstill : Still s.now t t') : Quiet c s ((s.setTunnel tunnel).setTask c₀ t') := by
  have htunnel : Quiet c s (s.setTunnel tunnel) := .of_get? (Nat.le_refl _) rfl
  have htask : Quiet c (s.setTunnel tunnel) ((s.setTunnel tunnel).setTask c₀ t') :=
    quiet_setTask ht hstill
  exact htunnel.trans htask rfl

/-- The second arriver begins to relay; the waiting peer only finds a sender in its channel. -/
theorem quiet_handOver (hs : s.Consistent) (ht : s.tasks.get? c₀ = some t) {peer : WaitingPeer}
    (hpc : t.pc = .unbind peer) {waiter : TunnelTask}
    (hwaiter : s.tasks.get? peer.notify = some waiter) (hnotify : waiter.notify = .pending)
    (tunnel : TunnelState) : Quiet c s ((s.setTunnel tunnel).handOver c₀ t peer waiter) := by
  have hwf := hs.tasks ht
  simp only [TunnelTask.WellFormed, hpc] at hwf
  obtain ⟨habsent, _, _, hsilent, _⟩ := hwf
  have hne : c₀ ≠ peer.notify := by
    rintro rfl
    obtain rfl := Option.some.inj (ht.symm.trans hwaiter)
    rw [habsent] at hnotify
    cases hnotify
  let paired : TunnelService :=
    { s.setTunnel tunnel with pairs := s.pairs ++ [Meeting.mk t.token peer.notify c₀] }
  let chosen : TunnelTask := { waiter with notify := .sent c₀ }
  have hpaired : Quiet c s paired := .of_get? (Nat.le_refl _) rfl
  have hchosen : Quiet c paired (paired.setTask peer.notify chosen) :=
    quiet_setTask hwaiter (.of_pc rfl rfl)
  have htask : (paired.setTask peer.notify chosen).tasks.get? c₀ = some t := by
    rw [get?_setTask, if_neg hne]
    exact ht
  have hengaged : Quiet c (paired.setTask peer.notify chosen)
      ((paired.setTask peer.notify chosen).setTask c₀
        { t with pc := .relaying (.start peer.tx s.now) }) :=
    quiet_setTask htask (.begin hsilent rfl rfl)
  exact (hpaired.trans hchosen rfl).trans hengaged rfl

/-- A connection that is not `c` changes. -/
theorem quiet_setTask_of_ne (hne : c₀ ≠ c) : Quiet c s (s.setTask c₀ t') :=
  .of_get? (Nat.le_refl _) (by rw [get?_setTask, if_neg hne.symm])

/-- It forwards a message to its peer. -/
theorem quiet_forwards (hne : c₀ ≠ c) {peer : ConnId} {p : TunnelTask}
    (hp : s.tasks.get? peer = some p) (m : Message) :
    Quiet c s ((s.setTask peer { p with inbox := p.inbox ++ [m] }).setTask c₀ t') := by
  have hqueued : Quiet c s (s.setTask peer { p with inbox := p.inbox ++ [m] }) :=
    quiet_setTask hp (.of_pc rfl rfl)
  exact hqueued.trans (quiet_setTask_of_ne hne) rfl

/-- But for a binary frame a connection changes neither its frames nor its window. -/
theorem OwnStep.still {l : Label} (hwf : t.WellFormed) (h : OwnStep s c t l t')
    (hl : ∀ data, l ≠ .frame c (.message (.binary data))) : Still s.now t t' := by
  cases h with
  | upgraded ok => exact .of_apart rfl fun r => by cases ok <;> exact Pc.noConfusion
  | verified | alone | timedOut => exact .of_apart rfl fun _ => Pc.noConfusion
  | rejected | drained | idled => exact .close t _
  | notified hpc =>
      simp only [TunnelTask.WellFormed, hpc] at hwf
      exact .begin hwf.2.2.1 rfl rfl
  | forsaken | unsent | hungUp => exact .finish t _
  | takes hpc | sent hpc => exact .of_relaying rfl hpc rfl rfl
  | limited | overflows => exact absurd rfl (hl _)
  | pinged hpc => exact .of_relaying rfl hpc hpc rfl

theorem quiet_own {l : Label} (hs : s.Consistent) (ht : s.tasks.get? c₀ = some t)
    (h : OwnStep s c₀ t l t') (hl : ∀ data, l ≠ .frame c (.message (.binary data))) :
    Quiet c s (s.setTask c₀ t') := by
  by_cases heq : c₀ = c
  · subst heq
    exact quiet_setTask ht (h.still (hs.tasks ht) hl)
  · exact quiet_setTask_of_ne heq

theorem quiet_cleanupStep (s : TunnelService) : Quiet c s s.cleanupStep := by
  unfold cleanupStep
  split
  · exact quiet_dropPeers (by rfl) (by rfl) _
  · exact .of_get? (Nat.le_refl _) rfl
  · exact .of_get? (Nat.le_refl _) rfl

/-! ## The frames of a connection -/

/-- The frames `c` receives as they arrive, each with whether `relay` offers it to the peer. -/
def arrivals (c : ConnId) (s : TunnelService) : Label → List (Arrival × Bool)
  | .frame c₀ (.message (.binary data)) =>
      if c₀ = c then
        match s.tasks.get? c with
        | some t =>
            match t.pc with
            | .relaying r => [(⟨s.now, data⟩, (r.window.count s.now data.length).2)]
            | _ => []
        | none => []
      else []
  | _ => []

/-- What a step does to the frames of a connection: nothing, unless it is the connection's
request, or a binary frame of its own. -/
inductive Moves (c : ConnId) (s s' : TunnelService) : List (Arrival × Bool) → Prop
  | quiet (h : Quiet c s s') : Moves c s s' []
  | admitted (hnow : s'.now = s.now) (hnew : s.tasks.get? c = none) {clientIp : IpAddr}
      {token role : String} (ht : s'.tasks.get? c = some (.admitted clientIp token role)) :
      Moves c s s' []
  | frame {t : TunnelTask} {r r' : Relay} {verdict : Verdict} (ht : s.tasks.get? c = some t)
      (hpc : t.pc = .relaying r) (data : Bytes) (hnow : s'.now = s.now)
      (ht' : s'.tasks.get? c = some (t.record r' data verdict))
      (hverdict : decide (verdict ≠ .rateLimited) = (r.window.count s.now data.length).2)
      (hwindow : r'.window = (r.window.count s.now data.length).1) :
      Moves c s s' [(⟨s.now, data⟩, (r.window.count s.now data.length).2)]

/-- What a connection becomes when a binary frame of its own arrives. -/
theorem get?_of_frame {r : Relay} {data : Bytes} (ht : s.tasks.get? c = some t)
    (hpc : t.pc = .relaying r) (hstep : s.step (.frame c (.message (.binary data))) = some s') :
    s'.now = s.now ∧
    ∃ r' verdict, s'.tasks.get? c = some (t.record r' data verdict) ∧
      decide (verdict ≠ .rateLimited) = (r.window.count s.now data.length).2 ∧
      r'.window = (r.window.count s.now data.length).1 ∧ r'.sending = r.sending := by
  cases Step.of_step hstep with
  | own ht₁ h =>
      obtain rfl : c = _ := Option.some.inj h.conn
      obtain rfl := Option.some.inj (ht.symm.trans ht₁)
      cases h with
      | limited hpc₁ _ hcount | overflows hpc₁ _ hcount =>
          obtain rfl := Pc.relaying.inj (hpc.symm.trans hpc₁)
          exact ⟨rfl, _, _, get?_setTask_self ht, by rw [hcount]; rfl, by rw [hcount], rfl⟩
      | hungUp _ _ hitem => simp at hitem
  | @forwards _ _ ht₁ _ hpc₁ _ _ window hcount p hp =>
      obtain rfl := Option.some.inj (ht.symm.trans ht₁)
      obtain rfl := Pc.relaying.inj (hpc.symm.trans hpc₁)
      have hqueued : Quiet c s
          (s.setTask r.peerTx { p with inbox := p.inbox ++ [.binary data] }) :=
        quiet_setTask hp (.of_pc rfl rfl)
      obtain ⟨t', ht', _⟩ := hqueued.kept ht
      exact ⟨rfl, _, _, get?_setTask_self ht', by rw [hcount]; rfl, by rw [hcount], rfl⟩
  | ignores _ _ _ hm => simp at hm

theorem arrivals_eq_nil {l : Label} (hl : ∀ data, l ≠ .frame c (.message (.binary data))) :
    arrivals c s l = [] := by
  unfold arrivals
  split
  · next c₀ data =>
    split
    · next heq => exact absurd (heq ▸ rfl) (hl data)
    · rfl
  · rfl

theorem moves_admitted (hnow : s'.now = s.now) (hnew : s.tasks.get? c₀ = none) {ip : IpAddr}
    {token role : String} (htasks : s'.tasks = s.tasks.insert c₀ (.admitted ip token role)) :
    Moves c s s' [] := by
  have hget : s'.tasks.get? c =
      if c = c₀ then some (.admitted ip token role) else s.tasks.get? c := by
    rw [htasks, Table.get?_insert]
  by_cases heq : c = c₀
  · subst heq
    exact .admitted hnow hnew (hget.trans (if_pos rfl))
  · exact .quiet (.of_get? hnow.ge (hget.trans (if_neg heq)))

theorem moves_step (hs : s.Consistent) {l : Label} (hstep : s.step l = some s') :
    Moves c s s' (arrivals c s l) := by
  by_cases hframe : ∃ data, l = .frame c (.message (.binary data))
  · obtain ⟨data, rfl⟩ := hframe
    obtain ⟨t, r, ht, hpc, _⟩ := whenSelecting_eq_some hstep
    obtain ⟨hnow, r', verdict, ht', hverdict, hwindow, _⟩ := get?_of_frame ht hpc hstep
    simp only [arrivals, if_true, ht, hpc]
    exact .frame ht hpc data hnow ht' hverdict hwindow
  have hl : ∀ data, l ≠ .frame c (.message (.binary data)) := fun data heq => hframe ⟨data, heq⟩
  rw [arrivals_eq_nil hl]
  cases Step.of_step hstep with
  | elapse => exact .quiet (.of_get? (Nat.le_add_right _ _) rfl)
  | registerPending | registerBinding | lookupUpnp | denied | ignores =>
      exact .quiet (.of_get? (Nat.le_refl _) rfl)
  | admitted hnew => exact moves_admitted rfl hnew rfl
  | own ht hown => exact .quiet (quiet_own hs ht hown hl)
  | found ht | releases ht =>
      exact .quiet (quiet_setTunnel_setTask ht _ (.of_apart rfl fun _ => Pc.noConfusion))
  | joins ht hpc hwaiter hnotify => exact .quiet (quiet_handOver hs ht hpc hwaiter hnotify _)
  | misses ht => exact .quiet (quiet_setTunnel_setTask ht _ (.close _ _))
  | waits ht | stopsWaiting ht =>
      exact .quiet (quiet_evict_setTask ht _ _ rfl fun _ => Pc.noConfusion)
  | forwards _ _ _ _ hp =>
      refine .quiet (quiet_forwards ?_ hp _)
      rintro rfl
      exact hl _ rfl
  | cleanup => exact .quiet (quiet_cleanupStep s)

end Steps

end TunnelService

/-! ## The frames as the limiter sees them -/

/-- The frames of `t` are those of `events`, and `events` are the verdicts of a limiter whose
window, as long as the connection relays, is the window of the relay. -/
structure Metered (now : Instant) (t : TunnelTask) (events : List (Arrival × Bool)) : Prop where
  frames : t.frames.map (fun f => (f.data, decide (f.verdict ≠ .rateLimited))) =
    events.map fun e => (e.1.data, e.2)
  window : ∃ start, byteLimiter.Ordered ⟨0, start⟩ (events.map (·.1)) ∧
    (∀ time ∈ start :: events.map (·.1.time), time ≤ now) ∧
    events = byteLimiter.verdicts ⟨0, start⟩ (events.map (·.1)) ∧
    ∀ r, t.pc = .relaying r → r.window.window = byteLimiter.after ⟨0, start⟩ (events.map (·.1))

namespace Metered

variable {now now' : Instant} {t t' : TunnelTask} {events : List (Arrival × Bool)}

/-- Nothing has arrived. -/
theorem nil (hframes : t.frames = [])
    (hpc : ∀ r, t.pc = .relaying r → r.window.window = ⟨0, now⟩) : Metered now t [] := by
  refine ⟨by rw [hframes]; rfl, now, List.pairwise_singleton _ _, ?_, rfl, hpc⟩
  intro time htime
  exact (List.mem_singleton.mp htime).le

theorem mono (h : Metered now t events) (hnow : now ≤ now') : Metered now' t events := by
  obtain ⟨hframes, start, hordered, htimes, hwindow⟩ := h
  exact ⟨hframes, start, hordered, fun time htime => (htimes time htime).trans hnow, hwindow⟩

theorem still (h : Metered now t events) (hstill : Still now t t') : Metered now t' events := by
  by_cases hrelays : ∃ r, t'.pc = .relaying r
  · obtain ⟨r', hr'⟩ := hrelays
    obtain ⟨r, hr, hwindow⟩ | ⟨hframes, hwindow⟩ := hstill.window r' hr'
    · obtain ⟨hframes, start, hordered, htimes, hverdicts, hafter⟩ := h
      refine ⟨hstill.frames ▸ hframes, start, hordered, htimes, hverdicts, fun r₁ hr₁ => ?_⟩
      obtain rfl := Pc.relaying.inj (hr'.symm.trans hr₁)
      rw [← hwindow]
      exact hafter r hr
    · obtain rfl : events = [] := by
        have hnil := h.frames
        rw [hframes] at hnil
        exact List.map_eq_nil_iff.mp hnil.symm
      refine .nil (hstill.frames.trans hframes) fun r₁ hr₁ => ?_
      obtain rfl := Pc.relaying.inj (hr'.symm.trans hr₁)
      exact hwindow
  · obtain ⟨hframes, start, hordered, htimes, hverdicts, _⟩ := h
    exact ⟨hstill.frames ▸ hframes, start, hordered, htimes, hverdicts,
      fun r hr => absurd ⟨r, hr⟩ hrelays⟩

/-- A frame is counted. -/
theorem record (h : Metered now t events) {r r' : Relay} (hpc : t.pc = .relaying r)
    {data : Bytes} {verdict : Verdict}
    (hverdict : decide (verdict ≠ .rateLimited) = (r.window.count now data.length).2)
    (hwindow : r'.window = (r.window.count now data.length).1) :
    Metered now (t.record r' data verdict)
      (events ++ [(⟨now, data⟩, (r.window.count now data.length).2)]) := by
  obtain ⟨hframes, start, hordered, htimes, hverdicts, hafter⟩ := h
  obtain ⟨hoffer, hadmits⟩ := RateWindow.window_count r.window now data
  refine ⟨?_, start, ?_, ?_, ?_, ?_⟩
  · rw [TunnelTask.record, List.map_append, List.map_append, hframes, List.map_singleton,
      List.map_singleton, hverdict]
  · rw [List.map_append]
    refine hordered.append fun time htime => htimes time ?_
    rwa [List.map_map] at htime
  · intro time htime
    rw [List.map_append, ← List.cons_append, List.mem_append] at htime
    obtain htime | htime := htime
    · exact htimes time htime
    · exact (List.mem_singleton.mp htime).le
  · rw [List.map_append, List.map_singleton, Limiter.verdicts_append, ← hverdicts, ← hafter r hpc,
      hadmits]
  · intro r₁ hr₁
    obtain rfl := Pc.relaying.inj hr₁
    rw [hwindow, hoffer, hafter r hpc, List.map_append, List.map_singleton, Limiter.after_append]

end Metered

/-- The frames offered to the peer: all but those over the limit. -/
def TunnelTask.offered (t : TunnelTask) : List Bytes :=
  (t.frames.filter (·.verdict ≠ .rateLimited)).map (·.data)

/-- A frame that is forwarded was offered. -/
theorem TunnelTask.accepted_sublist_offered (t : TunnelTask) : t.accepted.Sublist t.offered := by
  refine List.Sublist.map _ (List.monotone_filter_right _ fun f hforwarded => ?_)
  simp only [decide_eq_true_eq] at hforwarded ⊢
  rw [hforwarded]
  exact Verdict.noConfusion

namespace TunnelService

variable {s s' : TunnelService} {c : ConnId} {t : TunnelTask}

/-- Every connection is metered along a run; one that was never admitted has received nothing. -/
def Metering (c : ConnId) (events : List (Arrival × Bool)) (s : TunnelService) : Prop :=
  (s.tasks.get? c = none → events = []) ∧
    ∀ {t}, s.tasks.get? c = some t → Metered s.now t events

theorem Metering.moves {events new : List (Arrival × Bool)} (h : Metering c events s)
    (hmoves : Moves c s s' new) : Metering c (events ++ new) s' := by
  obtain ⟨hnone, hsome⟩ := h
  cases hmoves with
  | quiet hquiet =>
      rw [List.append_nil]
      cases hget : s.tasks.get? c with
      | none =>
          have habsent := hquiet.absent hget
          refine ⟨fun _ => hnone hget, fun ht' => ?_⟩
          rw [habsent] at ht'
          cases ht'
      | some t =>
          obtain ⟨t', ht', hstill⟩ := hquiet.kept hget
          refine ⟨fun habsent => ?_, fun ht₁ => ?_⟩
          · rw [ht'] at habsent
            cases habsent
          · obtain rfl := Option.some.inj (ht'.symm.trans ht₁)
            exact ((hsome hget).still hstill).mono hquiet.now
  | admitted hnow hnew hadmitted =>
      rw [hnone hnew]
      refine ⟨fun _ => rfl, fun ht' => ?_⟩
      obtain rfl := Option.some.inj (hadmitted.symm.trans ht')
      exact .nil rfl fun _ => Pc.noConfusion
  | frame ht hpc data hsame hget hverdict hwindow =>
      refine ⟨fun habsent => ?_, fun ht' => ?_⟩
      · rw [hget] at habsent
        cases habsent
      · obtain rfl := Option.some.inj (hget.symm.trans ht')
        rw [hsame]
        exact (hsome ht).record hpc hverdict hwindow

theorem metering_of_trace {events : List (Arrival × Bool)}
    (h : machine.Trace (arrivals c) events s) : Metering c events s := by
  induction h with
  | init => exact ⟨fun _ => rfl, fun ht => by cases ht⟩
  | step htrace hstep ih =>
      exact ih.moves (moves_step (consistent_of_reachable htrace.reachable).1 hstep)

/-- Whatever frames a client sends, in order of time, they arrive in some run. -/
theorem exists_trace_of_ordered {events : List (Arrival × Bool)}
    (h : machine.Trace (arrivals c) events s) (ht : s.tasks.get? c = some t) {r : Relay}
    (hpc : t.pc = .relaying r) (hsending : r.sending = none) (later : List Arrival)
    (hordered : (s.now :: later.map (·.time)).Pairwise (· ≤ ·)) :
    ∃ new s', machine.Trace (arrivals c) (events ++ new) s' ∧ new.map (·.1) = later := by
  induction later generalizing events s t r with
  | nil => exact ⟨[], s, by rwa [List.append_nil], rfl⟩
  | cons x later ih =>
      obtain ⟨hnow, hrest⟩ := List.pairwise_cons.mp hordered
      let s₁ : TunnelService := { s with now := x.time }
      have helapse : machine.step s (.elapse (x.time - s.now)) = some s₁ := by
        have hsum : s.now + (x.time - s.now) = x.time :=
          Nat.add_sub_cancel' (hnow _ List.mem_cons_self)
        simp only [machine, step, hsum, s₁]
      have ht₁ : s₁.tasks.get? c = some t := ht
      have hframe : machine.step s₁ (.frame c (.message (.binary x.data))) =
          some (s₁.binaryFrame c t r x.data) := by
        simp only [machine, step, whenSelecting, ht₁, hpc, hsending, frame, if_true]
      obtain ⟨hsame, r', verdict, hget, _, _, hsending'⟩ := get?_of_frame ht₁ hpc hframe
      have htrace := (h.step helapse).step hframe
      obtain ⟨new, s', htrace', hnew⟩ := ih htrace hget rfl (hsending'.trans hsending) (by
        rw [hsame]
        exact hrest)
      refine ⟨(x, (r.window.count x.time x.data.length).2) :: new, s', ?_,
        by rw [List.map_cons, hnew]⟩
      simpa [arrivals, ht₁, hpc, s₁] using htrace'

end TunnelService

/-! ## What a connection may send to its peer -/

section Loads

variable {now : Instant} {t : TunnelTask} {events : List (Arrival × Bool)}

/-- The bytes of the events in `p`. -/
def bytesIn (p : Arrival × Bool → Bool) (events : List (Arrival × Bool)) : Nat :=
  ((events.filter p).map fun e => e.1.data.length).sum

theorem Metered.received (h : Metered now t events) :
    t.received = events.map (·.1.data) := by
  have hframes := congrArg (List.map (·.1)) h.frames
  rwa [List.map_map, List.map_map] at hframes

theorem Metered.offered (h : Metered now t events) :
    t.offered = (events.filter (·.2)).map (·.1.data) := by
  have hframes := congrArg (fun l => (l.filter (·.2)).map (·.1)) h.frames
  simp only [List.filter_map, List.map_map] at hframes
  exact hframes

/-- What arrives in `p`, offered or not, as the limiter counts it. -/
theorem load_map_fst (p : Instant → Bool) (events : List (Arrival × Bool)) :
    byteLimiter.load p (events.map (·.1)) = bytesIn (fun e => p e.1.time) events := by
  rw [Limiter.load, List.filter_map, List.map_map]
  rfl

/-- Within `T` seconds at most `⌈T⌉ + 1` times the limit is offered. -/
theorem Metered.bytesIn_le (h : Metered now t events) (a T : ℝ) :
    bytesIn (fun e => e.2 && inInterval a T e.1.time) events ≤
      rateLimitBytesPerSec * (⌈T⌉₊ + 1) := by
  obtain ⟨_, start, hordered, _, hverdicts, _⟩ := h
  have hspan : ∀ t t', inInterval a T t = true → inInterval a T t' = true →
      t' < t + ⌈T⌉₊ • byteLimiter.width := fun _ _ => lt_of_inInterval
  have hload := Limiter.load_passed_le (Nat.zero_le _) hordered hspan
  rw [Limiter.load_passed, ← hverdicts] at hload
  exact hload

/-- A client that keeps to the limit loses no frame to it. -/
theorem Metered.offered_of_conforming (h : Metered now t events)
    (hconforming : ∀ a : ℝ,
      bytesIn (fun e => inInterval a 1 e.1.time) events ≤ rateLimitBytesPerSec) :
    ∀ e ∈ events, e.2 = true := by
  obtain ⟨_, start, hordered, _, hverdicts, _⟩ := h
  rw [hverdicts]
  apply Limiter.verdicts_of_passed
  apply Limiter.passed_of_conforming (Nat.succ_pos _) hordered rfl
  intro start
  have hinterval : byteLimiter.inWindow start = inInterval (seconds start) 1 := by
    funext now
    rw [Bool.eq_iff_iff, Limiter.inWindow_eq_true, inInterval_seconds]
    rfl
  rw [load_map_fst, hinterval]
  exact hconforming (seconds start)

/-- The window of a relay has counted the frames that arrived since it began, those that were
dropped included. -/
theorem Metered.bytesThisSecond (h : Metered now t events) {r : Relay}
    (hpc : t.pc = .relaying r) : r.window.bytesThisSecond =
      bytesIn (fun e => decide (r.window.rateWindowStart ≤ e.1.time)) events := by
  obtain ⟨_, start, hordered, _, _, hafter⟩ := h
  have hcount := Limiter.count_after (Nat.succ_pos _) hordered rfl
  rw [← hafter r hpc, load_map_fst] at hcount
  exact hcount

end Loads

/-! ## Every run -/

namespace TunnelService

/-- The frames a connection received arrived one after the other; those offered to its peer are
some of them, in order and unchanged.  Of the frames that arrive within `T` seconds at most
`⌈T⌉ + 1` times the limit is offered, and if no second carries more than the limit, every frame is
offered.  The window of the relay counts every frame, dropped or not. -/
theorem offered_of_trace {c : ConnId} {events : List (Arrival × Bool)} {s : TunnelService}
    (h : machine.Trace (arrivals c) events s) {t : TunnelTask} (ht : s.tasks.get? c = some t) :
    t.received = events.map (·.1.data) ∧
      t.offered = (events.filter (·.2)).map (·.1.data) ∧
      t.offered.Sublist t.received ∧ t.accepted.Sublist t.offered ∧
      (∀ a T : ℝ, 0 < T → bytesIn (fun e => e.2 && inInterval a T e.1.time) events ≤
        rateLimitBytesPerSec * (⌈T⌉₊ + 1)) ∧
      ((∀ a : ℝ, bytesIn (fun e => inInterval a 1 e.1.time) events ≤ rateLimitBytesPerSec) →
        (∀ f ∈ t.frames, f.verdict ≠ .rateLimited) ∧ t.offered = t.received) ∧
      ∀ r, t.pc = .relaying r → r.window.bytesThisSecond =
        bytesIn (fun e => decide (r.window.rateWindowStart ≤ e.1.time)) events := by
  have hmetered := (metering_of_trace h).2 ht
  refine ⟨hmetered.received, hmetered.offered, List.filter_sublist.map _,
    t.accepted_sublist_offered, fun a T _ => hmetered.bytesIn_le a T, fun hconforming => ?_,
    fun r hpc => hmetered.bytesThisSecond hpc⟩
  have hall := hmetered.offered_of_conforming hconforming
  have hframes : ∀ f ∈ t.frames, f.verdict ≠ .rateLimited := by
    intro f hf
    have hmem : (f.data, decide (f.verdict ≠ .rateLimited)) ∈ events.map fun e => (e.1.data, e.2) :=
      hmetered.frames ▸ List.mem_map_of_mem hf
    obtain ⟨e, he, heq⟩ := List.mem_map.mp hmem
    exact of_decide_eq_true ((Prod.mk.inj heq).2.symm.trans (hall e he))
  refine ⟨hframes, ?_⟩
  have hfilter : t.frames.filter (·.verdict ≠ .rateLimited) = t.frames :=
    List.filter_eq_self.mpr fun f hf => decide_eq_true (hframes f hf)
  rw [TunnelTask.offered, hfilter, TunnelTask.received]

/-- The joiner sends two frames, the second after a while. -/
def twoFrames : List Label :=
  bothRelay ++ [.frame 2 (.message (.binary [7])), .elapse (secs 2),
    .frame 2 (.message (.binary [8, 9]))]

/-- Both are offered to the host. -/
theorem offered_of_trace_two : ∃ events s t, machine.Trace (arrivals 2) events s ∧
    s.tasks.get? 2 = some t ∧ events = [(⟨0, [7]⟩, true), (⟨secs 2, [8, 9]⟩, true)] ∧
    t.offered = [[7], [8, 9]] ∧
    ∀ a T : ℝ, 0 < T → bytesIn (fun e => e.2 && inInterval a T e.1.time) events ≤
      rateLimitBytesPerSec * (⌈T⌉₊ + 1) := by
  have hrun : (machine.exec machine.init twoFrames).any (fun s =>
      (s.tasks.get? 2).isSome) = true := by
    decide
  have hreport : machine.report (arrivals 2) machine.init twoFrames =
      [(⟨0, [7]⟩, true), (⟨secs 2, [8, 9]⟩, true)] := by
    decide
  obtain ⟨s, hexec, _, htask⟩ := Machine.exists_reachable_of_exec hrun
  obtain ⟨t, ht⟩ := Option.isSome_iff_exists.mp htask
  have htrace := Machine.trace_of_exec (f := arrivals 2) hexec
  obtain ⟨_, hoffered, _, _, hlimit, _⟩ := offered_of_trace htrace ht
  rw [hreport] at hoffered
  exact ⟨_, s, t, htrace, ht, hreport, hoffered, hlimit⟩

end TunnelService

end War3BattleTool.Server

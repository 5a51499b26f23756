import War3BattleTool.Server.TunnelRefinement

set_option autoImplicit false

/-!
# The byte stream through a tunnel

A binary frame of one party is counted against its byte rate, offered to the
inbox of its partner, taken out there and sent.  `relay` drops a frame that
exceeds the rate, and one that finds the inbox full or closed; whatever it
forwards arrives in order, without a gap and once.

`Flow src dst` is the invariant for one direction.  Every step of the service
`Keeps` it, but for the two that join a pair and forward a frame.
-/

namespace War3BattleTool.Server

open War3BattleTool.Foundation

namespace TunnelTask

/-- The message that was taken out of the inbox and is being sent. -/
def inHand (t : TunnelTask) : List Message :=
  match t.pc with
  | .relaying r => r.sending.toList
  | _ => []

/-- `handle_tunnel` has returned. -/
def hasReturned (t : TunnelTask) : Bool :=
  match t.pc with
  | .returned _ | .released _ => true
  | _ => false

/-- What was delivered to `dst`, is being sent to it and waits in its inbox are the
frames that `src` forwarded.  Once `dst` has returned, only what was delivered
counts. -/
def Flow (src dst : TunnelTask) : Prop :=
  if dst.hasReturned then dst.delivered <+: src.accepted
  else binaryPayloads (dst.wire ++ dst.inHand ++ dst.inbox) = src.accepted

/-- A change of a connection that neither forwards a frame nor loses one that was
forwarded to it. -/
structure Keeps (t t' : TunnelTask) : Prop where
  accepted : t'.accepted = t.accepted
  flow : ∀ src, Flow src t → Flow src t'

theorem Keeps.refl (t : TunnelTask) : Keeps t t := ⟨rfl, fun _ h => h⟩

section Flow

variable {src dst t t' : TunnelTask}

theorem flow_iff (hreturned : dst.hasReturned = false) : Flow src dst ↔
    binaryPayloads (dst.wire ++ dst.inHand ++ dst.inbox) = src.accepted := by
  simp [Flow, hreturned]

/-- What is delivered is a prefix of what was forwarded. -/
theorem Flow.isPrefix_accepted (h : Flow src dst) : dst.delivered <+: src.accepted := by
  unfold Flow at h
  split at h
  · exact h
  · rw [← h]
    simp only [binaryPayloads_append, List.append_assoc, delivered]
    exact List.prefix_append _ _

/-- The source matters only by what it forwarded. -/
theorem Flow.congr_src {src' : TunnelTask} (h : Flow src dst)
    (haccepted : src'.accepted = src.accepted) : Flow src' dst := by
  unfold Flow at h ⊢
  rwa [haccepted]

/-- A change that keeps what has been forwarded and what is on its way. -/
theorem Keeps.of_eq (haccepted : t'.accepted = t.accepted)
    (hreturned : t'.hasReturned = t.hasReturned)
    (hdelivered : binaryPayloads t'.wire = binaryPayloads t.wire)
    (hway : binaryPayloads (t'.inHand ++ t'.inbox) = binaryPayloads (t.inHand ++ t.inbox)) :
    Keeps t t' where
  accepted := haccepted
  flow := by
    intro src h
    unfold Flow at h ⊢
    rw [List.append_assoc, binaryPayloads_append] at h ⊢
    rwa [hreturned, delivered, hdelivered, hway]

theorem Keeps.trans {t'' : TunnelTask} (h : Keeps t t') (h' : Keeps t' t'') :
    Keeps t t'' where
  accepted := h'.accepted.trans h.accepted
  flow := fun src hflow => h'.flow src (h.flow src hflow)

/-- Sending a message that carries no payload. -/
theorem Keeps.send {m : Message} (h : binaryPayloads [m] = []) : Keeps t (t.send m) :=
  .of_eq rfl rfl (by simp [TunnelTask.send, h]) rfl

/-- A connection that leaves drops what is in its inbox. -/
theorem Keeps.finish (exit : Exit) : Keeps t (t.finish exit) where
  accepted := rfl
  flow := fun _ h => h.isPrefix_accepted

/-- A connection says goodbye and leaves. -/
theorem Keeps.close (exit : Exit) : Keeps t ((t.send .close).finish exit) :=
  (Keeps.send rfl).trans (.finish exit)

theorem Keeps.dropNotify : Keeps t t.dropNotify := by
  unfold TunnelTask.dropNotify
  split
  · exact .of_eq rfl rfl rfl rfl
  · exact .refl t

end Flow

end TunnelTask

namespace TunnelService

open TunnelTask (Flow Keeps)

/-- Both directions of every pair flow. -/
def Streams (s : TunnelService) : Prop :=
  ∀ m ∈ s.pairs, ∀ x y, m.Joins x y → ∀ src dst, s.tasks.get? x = some src →
    s.tasks.get? y = some dst → Flow src dst

section Streams

variable {s s' : TunnelService} {c : ConnId} {t t' : TunnelTask}

theorem exists_task_of_joins (hsound : s.board.Sound) {m : Meeting String ConnId}
    (hm : m ∈ s.pairs) {c' : ConnId} (hjoins : m.Joins c c') :
    ∃ t, s.tasks.get? c = some t := by
  obtain ⟨st, hst⟩ : ∃ st, s.board.standing c = some (m.key, st) := by
    obtain ⟨rfl, _⟩ | ⟨rfl, _⟩ := hjoins
    · exact (hsound.metFirst hm).imp fun _ h => h.1
    · exact (hsound.metSecond hm).imp fun _ h => h.1
  obtain ⟨t, ht, _⟩ := Option.map_eq_some_iff.mp hst
  exact ⟨t, ht⟩

/-- If every connection keeps its streams, the service does. -/
theorem Streams.keeps (hsound : s.board.Sound) (h : s.Streams) (hpairs : s'.pairs = s.pairs)
    (hkeeps : ∀ {c t t'}, s.tasks.get? c = some t → s'.tasks.get? c = some t' →
      Keeps t t') : s'.Streams := by
  intro m hm x y hjoins src' dst' hsrc' hdst'
  rw [hpairs] at hm
  obtain ⟨src, hsrc⟩ := exists_task_of_joins hsound hm hjoins
  obtain ⟨dst, hdst⟩ := exists_task_of_joins hsound hm hjoins.symm
  have hflow := h m hm x y hjoins src dst hsrc hdst
  exact ((hkeeps hdst hdst').flow _ hflow).congr_src (hkeeps hsrc hsrc').accepted

theorem keeps_setTask (ht : s.tasks.get? c = some t) (hkeeps : Keeps t t') {c' : ConnId}
    {t₁ t₂ : TunnelTask} (h₁ : s.tasks.get? c' = some t₁)
    (h₂ : (s.setTask c t').tasks.get? c' = some t₂) : Keeps t₁ t₂ := by
  rw [get?_setTask] at h₂
  split at h₂
  · next heq =>
    subst heq
    obtain rfl : t = t₁ := by simpa [ht] using h₁
    obtain ⟨_, _, rfl⟩ := Option.map_eq_some_iff.mp h₂
    exact hkeeps
  · obtain rfl : t₁ = t₂ := by simpa [h₁] using h₂
    exact .refl t₁

theorem Streams.setTask (hsound : s.board.Sound) (h : s.Streams)
    (ht : s.tasks.get? c = some t) (hkeeps : Keeps t t') : (s.setTask c t').Streams :=
  h.keeps hsound rfl (keeps_setTask ht hkeeps)

theorem keeps_dropPeers {peers : List WaitingPeer} {c' : ConnId} {t₁ t₂ : TunnelTask}
    (h₁ : s.tasks.get? c' = some t₁) (h₂ : (s.dropPeers peers).tasks.get? c' = some t₂) :
    Keeps t₁ t₂ := by
  simp only [dropPeers, Table.get?_mapValues, h₁, Option.map_some, Option.some.injEq] at h₂
  subst h₂
  split
  · exact .dropNotify
  · exact .refl t₁

/-- Whoever waits under the token of `c` is thrown out, and `c` changes. -/
theorem Streams.evict_setTask (hsound : s.board.Sound) (h : s.Streams)
    (ht : s.tasks.get? c = some t) (hkeeps : Keeps t t') (tunnel : TunnelState)
    (peers : List WaitingPeer) :
    (((s.setTunnel tunnel).dropPeers peers).setTask c t').Streams := by
  refine h.keeps hsound rfl ?_
  intro c' t₁ t₂ h₁ h₂
  rw [get?_setTask] at h₂
  split at h₂
  · next heq =>
    subst heq
    obtain rfl : t = t₁ := by simpa [ht] using h₁
    obtain ⟨_, _, rfl⟩ := Option.map_eq_some_iff.mp h₂
    exact hkeeps
  · exact keeps_dropPeers (s := s.setTunnel tunnel) h₁ h₂

/-- A step that leaves every connection alone. -/
theorem Streams.same (hsound : s.board.Sound) (h : s.Streams) (htasks : s'.tasks = s.tasks)
    (hpairs : s'.pairs = s.pairs) : s'.Streams := by
  refine h.keeps hsound hpairs ?_
  intro c t t' ht ht'
  obtain rfl : t = t' := by simpa [← htasks, ht'] using ht.symm
  exact .refl t

/-- A step of the handler that changes the maps and its own locals. -/
theorem Streams.setTunnel_setTask (hsound : s.board.Sound) (h : s.Streams)
    (ht : s.tasks.get? c = some t) (hkeeps : Keeps t t') (tunnel : TunnelState) :
    ((s.setTunnel tunnel).setTask c t').Streams :=
  h.keeps hsound rfl (keeps_setTask (s := s.setTunnel tunnel) ht hkeeps)

/-! ### Joining a pair -/

/-- A connection that has not relayed has neither sent nor received. -/
theorem flow_of_silent {src dst : TunnelTask} (hsrc : src.Silent) (hdst : dst.Silent)
    (hreturned : dst.hasReturned = false) (hhand : dst.inHand = [])
    (hinbox : dst.inbox = []) : Flow src dst := by
  simp [TunnelTask.Flow, hreturned, hdst.2, hhand, hinbox, TunnelTask.accepted, hsrc.1]

/-- A pending one-shot channel belongs to a connection that has not relayed. -/
theorem silent_of_pending (hwf : t.WellFormed) (hnotify : t.notify = .pending) :
    t.Silent ∧ t.hasReturned = false ∧ t.inHand = [] ∧ t.inbox = [] := by
  unfold TunnelTask.WellFormed at hwf
  cases hpc : t.pc <;>
    simp_all [TunnelTask.hasReturned, TunnelTask.inHand]

/-- Two connections that never relayed are joined. -/
theorem Streams.handOver (hs : s.Consistent) (hsound : s.board.Sound) (h : s.Streams)
    (ht : s.tasks.get? c = some t) {peer : WaitingPeer} (hpc : t.pc = .unbind peer)
    {waiter : TunnelTask} (hwaiter : s.tasks.get? peer.notify = some waiter)
    (hnotify : waiter.notify = .pending) (tunnel : TunnelState) :
    ((s.setTunnel tunnel).handOver c t peer waiter).Streams := by
  have hwf := hs.tasks ht
  simp only [TunnelTask.WellFormed, hpc] at hwf
  obtain ⟨habsent, _, hinbox, hsilent, _⟩ := hwf
  obtain ⟨hsilent', hreturned', hhand', hinbox'⟩ :=
    silent_of_pending (hs.tasks hwaiter) hnotify
  have hne : peer.notify ≠ c := by
    intro heq
    obtain rfl : t = waiter := by simpa [← heq, hwaiter] using ht.symm
    simp [habsent] at hnotify
  let chosen : TunnelTask := { waiter with notify := .sent c }
  let engaged : TunnelTask := { t with pc := .relaying (.start peer.tx s.now) }
  have hchosen : ((s.setTunnel tunnel).handOver c t peer waiter).tasks.get? peer.notify =
      some chosen := by
    simp [TunnelService.handOver, get?_setTask, hne, hwaiter, chosen]
  have hengaged : ((s.setTunnel tunnel).handOver c t peer waiter).tasks.get? c =
      some engaged := by
    simp [TunnelService.handOver, get?_setTask, hne.symm, ht, engaged, setTunnel]
  have hkeepsWaiter : Keeps waiter chosen := .of_eq rfl rfl rfl rfl
  have hkeeps : Keeps t engaged :=
    .of_eq rfl (by simp [TunnelTask.hasReturned, hpc, engaged]) rfl
      (by simp [TunnelTask.inHand, hpc, engaged, Relay.start])
  -- The pairs that were there before are not affected.
  have hold : ({ (s.setTunnel tunnel).handOver c t peer waiter with
      pairs := s.pairs } : TunnelService).Streams := by
    refine h.keeps hsound rfl ?_
    intro c' t₁ t₂ h₁ h₂
    by_cases hc' : c' = c
    · subst hc'
      obtain rfl : t = t₁ := by simpa [ht] using h₁
      obtain rfl : engaged = t₂ := by simpa [hengaged] using h₂
      exact hkeeps
    · by_cases hp : c' = peer.notify
      · subst hp
        obtain rfl : waiter = t₁ := by simpa [hwaiter] using h₁
        obtain rfl : chosen = t₂ := by simpa [hchosen] using h₂
        exact hkeepsWaiter
      · have hsame : ((s.setTunnel tunnel).handOver c t peer waiter).tasks.get? c' =
            s.tasks.get? c' := by
          simp [TunnelService.handOver, get?_setTask, hc', hp, setTunnel]
        obtain rfl : t₁ = t₂ := by
          have h₂' := hsame.symm.trans h₂
          simpa [h₁] using h₂'
        exact .refl t₁
  intro m hm x y hjoins src dst hsrc hdst
  have hpairs : ((s.setTunnel tunnel).handOver c t peer waiter).pairs =
      s.pairs ++ [⟨t.token, peer.notify, c⟩] := rfl
  rw [hpairs, List.mem_append, List.mem_singleton] at hm
  obtain hm | rfl := hm
  · exact hold m hm x y hjoins src dst hsrc hdst
  · obtain ⟨rfl, rfl⟩ | ⟨rfl, rfl⟩ := hjoins
    · obtain rfl : chosen = src := by simpa [hchosen] using hsrc
      obtain rfl : engaged = dst := by simpa [hengaged] using hdst
      exact flow_of_silent hsilent' hsilent rfl rfl hinbox
    · obtain rfl : engaged = src := by simpa [hengaged] using hsrc
      obtain rfl : chosen = dst := by simpa [hchosen] using hdst
      exact flow_of_silent hsilent hsilent' hreturned' hhand' hinbox'

/-! ### Forwarding a frame -/

/-- What a frame becomes does not matter to the stream towards its sender. -/
theorem flow_record {r r' : Relay} (hpc : t.pc = .relaying r)
    (hsending : r'.sending = r.sending) (data : Bytes) (verdict : Verdict)
    {src : TunnelTask} (h : Flow src t) : Flow src (t.record r' data verdict) := by
  have hreturned : t.hasReturned = false := by simp [TunnelTask.hasReturned, hpc]
  have hflow := (TunnelTask.flow_iff hreturned).mp h
  have hreturned' : (t.record r' data verdict).hasReturned = false := rfl
  refine (TunnelTask.flow_iff hreturned').mpr ?_
  simpa [TunnelTask.record, TunnelTask.inHand, hpc, hsending] using hflow

/-- A frame that is dropped leaves the streams as they are. -/
theorem keeps_dropped {r r' : Relay} (hpc : t.pc = .relaying r)
    (hsending : r'.sending = r.sending) (data : Bytes) {verdict : Verdict}
    (hdropped : verdict ≠ .forwarded) : Keeps t (t.record r' data verdict) where
  accepted := by simp [TunnelTask.accepted, TunnelTask.record, hdropped]
  flow := fun _ h => flow_record hpc hsending data verdict h

/-- A frame that is forwarded is the last that was accepted and the last in the
inbox of the partner. -/
theorem flow_forward {src dst : TunnelTask} (h : Flow src dst)
    (hreturned : dst.hasReturned = false) (data : Bytes) (r' : Relay) :
    Flow (src.record r' data .forwarded)
      { dst with inbox := dst.inbox ++ [.binary data] } := by
  have hflow := (TunnelTask.flow_iff hreturned).mp h
  have hreturned' :
      ({ dst with inbox := dst.inbox ++ [.binary data] } : TunnelTask).hasReturned = false :=
    hreturned
  refine (TunnelTask.flow_iff hreturned').mpr ?_
  calc binaryPayloads (dst.wire ++ dst.inHand ++ (dst.inbox ++ [.binary data]))
      = src.accepted ++ [data] := by
        rw [← List.append_assoc, binaryPayloads_append, hflow]
        rfl
    _ = (src.record r' data .forwarded).accepted := by
        simp [TunnelTask.accepted, TunnelTask.record]

theorem hasReturned_of_receiverOpen (hopen : t.receiverOpen = true) :
    t.hasReturned = false := by
  unfold TunnelTask.receiverOpen at hopen
  unfold TunnelTask.hasReturned
  cases hpc : t.pc <;> simp_all

/-- The partner of a relaying connection is the one it forwards to. -/
theorem joins_of_relaying (hs : s.Consistent) (hsound : s.board.Sound)
    (ht : s.tasks.get? c = some t) {r : Relay} (hpc : t.pc = .relaying r) :
    ∃ m ∈ s.pairs, m.Joins c r.peerTx := by
  obtain ⟨hm, _⟩ | ⟨hm, _⟩ := peer_of_relaying hsound hs ht hpc
  · exact ⟨_, hm, .inl ⟨rfl, rfl⟩⟩
  · exact ⟨_, hm, .inr ⟨rfl, rfl⟩⟩

/-- A frame of `c` goes into the inbox of its partner. -/
theorem Streams.forward (hs : s.Consistent) (hsound : s.board.Sound) (h : s.Streams)
    (ht : s.tasks.get? c = some t) {r r' : Relay} (hpc : t.pc = .relaying r)
    (hsending : r'.sending = r.sending) {p : TunnelTask}
    (hp : s.tasks.get? r.peerTx = some p) (hopen : p.receiverOpen = true) (data : Bytes) :
    ((s.setTask r.peerTx { p with inbox := p.inbox ++ [.binary data] }).setTask c
      (t.record r' data .forwarded)).Streams := by
  obtain ⟨m, hm, hjoins⟩ := joins_of_relaying hs hsound ht hpc
  have hne : r.peerTx ≠ c := by
    intro heq
    obtain ⟨hfirst, hsecond⟩ | ⟨hsecond, hfirst⟩ := hjoins
    · exact hsound.first_ne_second hm hm (by rw [← hfirst, ← hsecond, heq])
    · exact hsound.first_ne_second hm hm (by rw [← hfirst, ← hsecond, heq])
  intro m' hm' x y hjoins' src dst hsrc hdst
  simp only [get?_setTask] at hsrc hdst
  by_cases hx : x = c
  · -- The stream of the frame.
    subst hx
    obtain rfl := hsound.meeting_unique hm' hm hjoins' hjoins
    obtain rfl := hjoins'.unique hjoins
    simp only [if_true, hne.symm, if_false, ht, Option.map_some, Option.some.injEq] at hsrc
    simp only [if_true, hne, if_false, hp, Option.map_some, Option.some.injEq] at hdst
    subst hsrc hdst
    exact flow_forward (h _ hm _ _ hjoins t p ht hp) (hasReturned_of_receiverOpen hopen)
      data _
  · by_cases hy : y = c
    · -- The stream towards its sender.
      subst hy
      obtain rfl := hsound.meeting_unique hm' hm hjoins'.symm hjoins
      obtain rfl := hjoins'.symm.unique hjoins
      simp only [if_true, hne.symm, if_false, ht, Option.map_some, Option.some.injEq] at hdst
      simp only [if_true, hne, if_false, hp, Option.map_some, Option.some.injEq] at hsrc
      subst hsrc hdst
      exact flow_record hpc hsending data _ (h _ hm _ _ hjoins.symm p t hp ht)
    · -- Another pair: its parties are neither the sender nor its partner.
      have hx' : x ≠ r.peerTx := by
        rintro rfl
        obtain rfl := hsound.meeting_unique hm' hm hjoins' hjoins.symm
        exact hy (hjoins'.unique hjoins.symm)
      have hy' : y ≠ r.peerTx := by
        rintro rfl
        obtain rfl := hsound.meeting_unique hm' hm hjoins'.symm hjoins.symm
        exact hx (hjoins'.symm.unique hjoins.symm)
      simp only [hx, hx', if_false] at hsrc
      simp only [hy, hy', if_false] at hdst
      exact h m' hm' x y hjoins' src dst hsrc hdst

/-! ### The other steps -/

/-- The handler reaches another `.await` before `relay`. -/
theorem keeps_pc {pc : Pc} {myTx : Bool} {notify : Notify}
    (hbefore : t.hasReturned = false ∧ t.inHand = [])
    (hafter : ({ t with pc := pc } : TunnelTask).hasReturned = false ∧
      ({ t with pc := pc } : TunnelTask).inHand = []) :
    Keeps t { t with pc := pc, myTx := myTx, notify := notify } :=
  .of_eq rfl (hafter.1.trans hbefore.1.symm) rfl
    (congrArg (binaryPayloads <| · ++ t.inbox) (hafter.2.trans hbefore.2.symm))

/-- A handler that goes on before `relay`, or ends, keeps its streams, and so does a `relay`
that is done with a message. -/
theorem OwnStep.keeps {l : Label} (h : OwnStep s c t l t') : Keeps t t' := by
  cases h with
  | upgraded ok hpc =>
      refine .of_eq rfl ?_ rfl ?_
      · cases ok <;> simp [TunnelTask.hasReturned, hpc]
      · cases ok <;> simp [TunnelTask.inHand, hpc]
  | verified hpc | alone hpc | notified hpc | timedOut hpc =>
      refine keeps_pc ?_ ⟨rfl, rfl⟩
      simp [TunnelTask.hasReturned, TunnelTask.inHand, hpc]
  | rejected | drained | idled => exact .close _
  | forsaken | unsent | hungUp => exact .finish _
  | takes hpc hidle hinbox =>
      refine .of_eq rfl ?_ rfl ?_
      · simp [TunnelTask.hasReturned, hpc]
      · simp [TunnelTask.inHand, hpc, hidle, hinbox]
  | sent hpc hsending =>
      refine ⟨rfl, fun src hflow => ?_⟩
      have hreturned : t.hasReturned = false := by simp [TunnelTask.hasReturned, hpc]
      have hway := (TunnelTask.flow_iff hreturned).mp hflow
      refine (TunnelTask.flow_iff (by rfl)).mpr ?_
      simpa [TunnelTask.inHand, TunnelTask.send, hpc, hsending] using hway
  | limited hpc | overflows hpc => exact keeps_dropped hpc (by rfl) _ (by simp)
  | pinged => exact .send rfl

/-- A connection that is admitted is in no pair. -/
theorem Streams.admitted (hsound : s.board.Sound) (h : s.Streams) (hnew : s.tasks.get? c = none)
    (hpairs : s'.pairs = s.pairs) (htasks : s'.tasks = s.tasks.insert c t) : s'.Streams := by
  refine h.keeps hsound hpairs fun {c' t₁ t₂} h₁ h₂ => ?_
  have hne : c' ≠ c := by
    rintro rfl
    simp [hnew] at h₁
  simp only [htasks, Table.get?_insert, hne, if_false, h₁, Option.some.injEq] at h₂
  exact h₂ ▸ .refl t₁

theorem streams_cleanupStep (hsound : s.board.Sound) (h : s.Streams) :
    s.cleanupStep.Streams := by
  unfold cleanupStep
  split
  · exact h.keeps hsound rfl fun h₁ h₂ => keeps_dropPeers (s := s.setTunnel _) h₁ h₂
  · exact h.same hsound rfl rfl
  · exact h.same hsound rfl rfl

theorem streams_step (hs : s.Consistent) (hsound : s.board.Sound) (h : s.Streams)
    {l : Label} (hstep : s.step l = some s') : s'.Streams := by
  cases Step.of_step hstep with
  | elapse | registerPending | registerBinding | lookupUpnp | denied =>
      exact h.same hsound rfl rfl
  | ignores => exact h
  | admitted hnew => exact h.admitted hsound hnew rfl rfl
  | own ht hown => exact h.setTask hsound ht hown.keeps
  | found ht hpc =>
      refine h.setTunnel_setTask hsound ht (keeps_pc ?_ ⟨rfl, rfl⟩) _
      simp [TunnelTask.hasReturned, TunnelTask.inHand, hpc]
  | joins ht hpc hwaiter hnotify => exact h.handOver hs hsound ht hpc hwaiter hnotify _
  | misses ht => exact h.setTunnel_setTask hsound ht (.close _) _
  | waits ht hpc =>
      refine h.evict_setTask hsound ht (keeps_pc ?_ ⟨rfl, rfl⟩) _ _
      simp [TunnelTask.hasReturned, TunnelTask.inHand, hpc]
  | stopsWaiting ht => exact h.evict_setTask hsound ht (.close _) _ _
  | @releases c t ht exit hpc =>
      have hkeeps : Keeps t { t with pc := .released exit } :=
        .of_eq rfl (by simp [TunnelTask.hasReturned, hpc]) rfl
          (by simp [TunnelTask.inHand, hpc])
      exact h.setTunnel_setTask hsound ht hkeeps _
  | forwards ht hpc _ _ hp hopen => exact h.forward hs hsound ht hpc (by rfl) hp hopen _
  | cleanup => exact streams_cleanupStep hsound h

end Streams

/-- In every reachable state both directions of every pair flow. -/
theorem streams_of_reachable {s : TunnelService} (h : machine.Reachable s) : s.Streams := by
  induction h with
  | init =>
      intro m hm
      cases hm
  | step hreach hstep ih =>
      obtain ⟨hs, hsound⟩ := consistent_of_reachable hreach
      exact streams_step hs hsound ih hstep

/-! ## What is delivered -/

/-- The frames that are forwarded are some of those received, in order. -/
theorem accepted_sublist_received (t : TunnelTask) :
    List.Sublist t.accepted t.received :=
  List.filter_sublist.map _

/-- A binary frame is dropped when it exceeds the byte rate, and otherwise forwarded
when the inbox of the partner is open and has room. -/
theorem verdict_of_frame {s : TunnelService} {c : ConnId} {t p : TunnelTask} {r : Relay}
    (ht : s.tasks.get? c = some t) (hpc : t.pc = .relaying r) (hidle : r.sending = none)
    (hp : s.tasks.get? r.peerTx = some p) (data : Bytes) :
    ∃ s' t' verdict, s.step (.frame c (.message (.binary data))) = some s' ∧
      s'.tasks.get? c = some t' ∧ t'.frames = t.frames ++ [⟨data, verdict⟩] ∧
      (verdict = .rateLimited ↔ (r.window.count s.now data.length).2 = false) ∧
      (verdict = .forwarded ↔ (r.window.count s.now data.length).2 = true ∧
        p.receiverOpen = true ∧ p.inbox.length < relayChannelSize) := by
  obtain ⟨s', hstep⟩ : ∃ s', s.step (.frame c (.message (.binary data))) = some s' :=
    ⟨s.binaryFrame c t r data, by simp [step, whenSelecting, ht, hpc, hidle, frame]⟩
  refine ⟨s', ?_⟩
  cases Step.of_step hstep with
  | own ht₁ hown =>
      obtain rfl : c = _ := Option.some.inj hown.conn
      obtain rfl := Option.some.inj (ht.symm.trans ht₁)
      cases hown with
      | limited hpc₁ _ hcount =>
          obtain rfl := Pc.relaying.inj (hpc.symm.trans hpc₁)
          refine ⟨_, .rateLimited, hstep, get?_setTask_self ht, rfl, ?_⟩
          simp [hcount]
      | overflows hpc₁ _ hcount hfull =>
          obtain rfl := Pc.relaying.inj (hpc.symm.trans hpc₁)
          refine ⟨_, .inboxFull, hstep, get?_setTask_self ht, rfl, ?_⟩
          simpa [hcount] using hfull p hp
      | hungUp _ _ hitem => simp at hitem
  | @forwards _ _ ht₁ _ hpc₁ _ _ _ hcount p₁ hp₁ hopen hroom =>
      obtain rfl := Option.some.inj (ht.symm.trans ht₁)
      obtain rfl := Pc.relaying.inj (hpc.symm.trans hpc₁)
      obtain rfl := Option.some.inj (hp.symm.trans hp₁)
      obtain ⟨t', ht'⟩ : ∃ t', (s.setTask r.peerTx
          { p with inbox := p.inbox ++ [.binary data] }).tasks.get? c = some t' := by
        rw [get?_setTask]
        split
        · exact ⟨_, by rw [ht]; rfl⟩
        · exact ⟨t, ht⟩
      refine ⟨_, .forwarded, hstep, get?_setTask_self ht', rfl, ?_⟩
      simp [hcount, hopen, hroom]
  | ignores _ _ _ hm => simp at hm

/-- What a party is sent is a prefix of what was forwarded for it; what is forwarded is
what was received less the frames that were dropped; and a frame is dropped when it
exceeds the byte rate of its sender or finds the inbox of the partner full or closed,
and in no other case. -/
theorem delivered_prefix_accepted {s : TunnelService} (h : machine.Reachable s)
    {m : Meeting String ConnId} (hm : m ∈ s.pairs) {x y : ConnId} (hjoins : m.Joins x y)
    {src dst : TunnelTask} (hsrc : s.tasks.get? x = some src)
    (hdst : s.tasks.get? y = some dst) :
    dst.delivered <+: src.accepted ∧ List.Sublist src.accepted src.received ∧
      ((∀ f ∈ src.frames, f.verdict = .forwarded) → dst.delivered <+: src.received) ∧
      ∀ r data, src.pc = .relaying r → r.sending = none →
        ∃ s' src' verdict, machine.step s (.frame x (.message (.binary data))) = some s' ∧
          s'.tasks.get? x = some src' ∧ src'.frames = src.frames ++ [⟨data, verdict⟩] ∧
          (verdict = .rateLimited ↔ (r.window.count s.now data.length).2 = false) ∧
          (verdict = .forwarded ↔ (r.window.count s.now data.length).2 = true ∧
            dst.receiverOpen = true ∧ dst.inbox.length < relayChannelSize) := by
  obtain ⟨hs, hsound⟩ := consistent_of_reachable h
  have hdelivered : dst.delivered <+: src.accepted :=
    (streams_of_reachable h m hm x y hjoins src dst hsrc hdst).isPrefix_accepted
  refine ⟨hdelivered, accepted_sublist_received src, ?_, ?_⟩
  · intro hforwarded
    have hall : src.accepted = src.received := by
      unfold TunnelTask.accepted TunnelTask.received
      rw [List.filter_eq_self.mpr (by simpa using hforwarded)]
    exact hall ▸ hdelivered
  · intro r data hpc hidle
    obtain ⟨m', hm', hjoins'⟩ := joins_of_relaying hs hsound hsrc hpc
    obtain rfl := hsound.meeting_unique hm' hm hjoins' hjoins
    obtain rfl := hjoins'.unique hjoins
    exact verdict_of_frame hsrc hpc hidle hdst data

/-- The pair of `bothRelay`, with the tasks of joiner `2` and host `1`. -/
theorem exists_bothRelay (more : List Label) (test : TunnelTask → TunnelTask → Bool)
    (h : (machine.exec machine.init (bothRelay ++ more)).any (fun s =>
      decide (⟨"t", 1, 2⟩ ∈ s.pairs) &&
        match s.tasks.get? 2, s.tasks.get? 1 with
        | some src, some dst => test src dst
        | _, _ => false) = true) :
    ∃ s src dst, machine.Reachable s ∧ (⟨"t", 1, 2⟩ : Meeting String ConnId) ∈ s.pairs ∧
      s.tasks.get? 2 = some src ∧ s.tasks.get? 1 = some dst ∧ test src dst = true := by
  obtain ⟨s, _, hreach, htest⟩ := Machine.exists_reachable_of_exec h
  simp only [Bool.and_eq_true, decide_eq_true_eq] at htest
  obtain ⟨hpair, htest⟩ := htest
  split at htest
  · next src dst hsrc hdst => exact ⟨s, src, dst, hreach, hpair, hsrc, hdst, htest⟩
  · cases htest

/-- The joiner fills the inbox of the host, a further frame is dropped, and after one
was taken out the next is queued behind the gap. -/
def burst : List Label :=
  List.replicate 64 (.frame 2 (.message (.binary []))) ++
    [.frame 2 (.message (.binary [1])), .recv 1, .sent 1 true,
      .frame 2 (.message (.binary [2]))] ++
    (List.replicate 64 [.recv 1, .sent 1 true]).flatten

set_option maxRecDepth 100000 in
/-- A burst is delivered but for the frame that was dropped in it. -/
theorem delivered_prefix_accepted_burst : ∃ s src dst, machine.Reachable s ∧
    s.tasks.get? 2 = some src ∧ s.tasks.get? 1 = some dst ∧
    src.received = List.replicate 64 [] ++ [[1], [2]] ∧
    dst.delivered = List.replicate 64 [] ++ [[2]] ∧ dst.delivered <+: src.accepted := by
  have hrun : (machine.exec machine.init (bothRelay ++ burst)).any (fun s =>
      decide (⟨"t", 1, 2⟩ ∈ s.pairs) &&
        match s.tasks.get? 2, s.tasks.get? 1 with
        | some src, some dst =>
            decide (src.received = List.replicate 64 [] ++ [[1], [2]] ∧
              dst.delivered = List.replicate 64 [] ++ [[2]])
        | _, _ => false) = true := by
    decide +kernel
  obtain ⟨s, src, dst, hreach, hm, hsrc, hdst, htest⟩ :=
    exists_bothRelay burst (fun src dst => decide (src.received = List.replicate 64 [] ++
      [[1], [2]] ∧ dst.delivered = List.replicate 64 [] ++ [[2]])) hrun
  obtain ⟨hreceived, hdelivered⟩ := of_decide_eq_true htest
  have hresult := delivered_prefix_accepted hreach hm (.inr ⟨rfl, rfl⟩) hsrc hdst
  exact ⟨s, src, dst, hreach, hsrc, hdst, hreceived, hdelivered, hresult.1⟩

set_option maxRecDepth 100000 in
/-- A burst leaves a gap in what is delivered. -/
theorem not_always_delivered_prefix_received :
    ¬ ∀ (s : TunnelService) (m : Meeting String ConnId) (x y : ConnId)
      (src dst : TunnelTask), machine.Reachable s → m ∈ s.pairs → m.Joins x y →
      s.tasks.get? x = some src → s.tasks.get? y = some dst →
      dst.delivered <+: src.received := by
  intro hclaim
  have hrun : (machine.exec machine.init (bothRelay ++ burst)).any (fun s =>
      decide (⟨"t", 1, 2⟩ ∈ s.pairs) &&
        match s.tasks.get? 2, s.tasks.get? 1 with
        | some src, some dst => !decide (dst.delivered <+: src.received)
        | _, _ => false) = true := by
    decide +kernel
  obtain ⟨s, src, dst, hreach, hm, hsrc, hdst, htest⟩ :=
    exists_bothRelay burst (fun src dst => !decide (dst.delivered <+: src.received)) hrun
  have hgap : ¬dst.delivered <+: src.received := by simpa using htest
  exact hgap (hclaim s _ 2 1 src dst hreach hm (.inr ⟨rfl, rfl⟩) hsrc hdst)

end TunnelService

end War3BattleTool.Server

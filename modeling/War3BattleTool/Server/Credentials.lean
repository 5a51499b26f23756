import War3BattleTool.Server.Badges
import War3BattleTool.Server.Handlers

set_option autoImplicit false

/-!
# Who may sit in a tunnel

A `JoinRoom` registers a fresh token with the addresses of its two parties.  A connection that
waits under a token or relays was admitted with a role and an address that the registration of
its token names (`onlyAuthorised_of_trace`), whatever became of the binding since.
-/

namespace War3BattleTool.Server

open War3BattleTool.Foundation War3BattleTool.Protocol

/-! ## The text `cleanup_expired` logs -/

/-- The first `n` bytes of a text, where they end at a char boundary; slicing panics
otherwise. -/
def byteSlice : List Char → Nat → Option (List Char)
  | _, 0 => some []
  | [], _ + 1 => none
  | ch :: rest, n + 1 =>
      if ch.utf8Size ≤ n + 1 then (byteSlice rest (n + 1 - ch.utf8Size)).map (ch :: ·) else none

/-- `&token[..min(8, token.len())]`. -/
def tokenPrefix (token : String) : Option (List Char) :=
  byteSlice token.toList (min 8 (token.toList.map (·.utf8Size)).sum)

/-- The tokens in the warnings of `cleanup_expired`; `none` when one of them panics. -/
def TunnelState.cleanupWarnings (s : TunnelState) (now : Instant) : Option (List (List Char)) :=
  (s.expiredTokens now).mapM tokenPrefix

/-- A character of a UUID in its hyphenated form, by its position. -/
def isUuidChar (position : Nat) (ch : Char) : Bool :=
  if position ∈ [8, 13, 18, 23] then ch = '-' else ch.isDigit || ('a' ≤ ch && ch ≤ 'f')

/-- The form of `Uuid::to_string`. -/
def isUuid (token : String) : Bool :=
  token.toList.length = 36 && token.toList.zipIdx.all fun e => isUuidChar e.2 e.1

theorem utf8Size_of_isUuidChar {position : Nat} {ch : Char}
    (h : isUuidChar position ch = true) : ch.utf8Size = 1 := by
  rw [Char.utf8Size_eq_one_iff, UInt32.le_iff_toNat_le]
  unfold isUuidChar at h
  split at h
  · obtain rfl : ch = '-' := by simpa using h
    decide
  · simp only [Bool.or_eq_true, Bool.and_eq_true, decide_eq_true_eq, Char.isDigit] at h
    rcases h with ⟨_, hle⟩ | ⟨_, hle⟩
    · have := UInt32.le_iff_toNat_le.mp hle
      simp at this ⊢
      omega
    · have := UInt32.le_iff_toNat_le.mp (Char.le_def.mp hle)
      simp at this ⊢
      omega

/-- In a text of one-byte characters every offset is a char boundary. -/
theorem exists_byteSlice {text : List Char} (h : ∀ ch ∈ text, ch.utf8Size = 1) {n : Nat}
    (hn : n ≤ text.length) : ∃ front, byteSlice text n = some front := by
  induction text generalizing n with
  | nil =>
      obtain rfl : n = 0 := by simpa using hn
      exact ⟨[], rfl⟩
  | cons ch rest ih =>
      cases n with
      | zero => exact ⟨[], rfl⟩
      | succ n =>
          have hsize := h ch List.mem_cons_self
          obtain ⟨front, hfront⟩ := ih (fun ch hch => h ch (List.mem_cons_of_mem _ hch))
            (Nat.le_of_succ_le_succ hn)
          exact ⟨ch :: front, by simp [byteSlice, hsize, hfront]⟩

/-- The prefix of a UUID is never cut inside a character. -/
theorem exists_tokenPrefix {token : String} (h : isUuid token = true) :
    ∃ front, tokenPrefix token = some front := by
  obtain ⟨hlength, hchars⟩ := Bool.and_eq_true_iff.mp h
  have hlength : token.toList.length = 36 := by simpa using hlength
  have hsize : ∀ ch ∈ token.toList, ch.utf8Size = 1 := by
    intro ch hch
    obtain ⟨i, hi, rfl⟩ := List.mem_iff_getElem.mp hch
    have hmem : (token.toList[i], i) ∈ token.toList.zipIdx := by
      simp [List.mem_zipIdx_iff_getElem?]
    have hchar : isUuidChar i token.toList[i] = true :=
      List.all_eq_true.mp hchars (token.toList[i], i) hmem
    exact utf8Size_of_isUuidChar hchar
  have hsum : (token.toList.map (·.utf8Size)).sum = 36 := by
    rw [List.map_congr_left (g := fun _ => 1) hsize]
    simp [hlength]
  rw [tokenPrefix, hsum]
  exact exists_byteSlice hsize (by omega)

/-- The warnings are written when every expired token is a UUID. -/
theorem TunnelState.isSome_cleanupWarnings {s : TunnelState} {now : Instant}
    (h : ∀ token ∈ s.expiredTokens now, isUuid token = true) :
    (s.cleanupWarnings now).isSome = true := by
  unfold cleanupWarnings
  generalize s.expiredTokens now = tokens at h
  induction tokens with
  | nil => rfl
  | cons token rest ih =>
      obtain ⟨front, hfront⟩ := exists_tokenPrefix (h token List.mem_cons_self)
      obtain ⟨fronts, hfronts⟩ := Option.isSome_iff_exists.mp
        (ih fun token' h' => h token' (List.mem_cons_of_mem _ h'))
      simp [List.mapM_cons, hfront, hfronts]

/-! ## Registrations -/

/-- What concerns the credentials of a token. -/
inductive TokenEvent where
  /-- a `JoinRoom` registers the token it generated -/
  | registered (token : String) (binding : TokenBinding)
  /-- a handler takes over a waiting peer of its own role -/
  | sameRole (token : String)
  deriving DecidableEq

namespace TunnelService

/-- The handler takes over the peer it holds, which still waits and has its role. -/
def takesOwnRole (s : TunnelService) (t : TunnelTask) : Bool :=
  match t.pc with
  | .unbind peer => (s.tasks.get? peer.notify).any fun w => w.notify = .pending && w.role = t.role
  | _ => false

/-- What a step reports. -/
def tokenEvents (s : TunnelService) : Label → List TokenEvent
  | .registerPending token hostIp joinerIp _ => [.registered token ⟨hostIp, joinerIp⟩]
  | .block c =>
      match s.tasks.get? c with
      | some t => if s.takesOwnRole t then [.sameRole t.token] else []
      | none => []
  | _ => []

variable {s s' : TunnelService} {c : ConnId} {t t' : TunnelTask}

/-- What a step does to the registrations: `fresh` is what it registers. -/
structure Registers (s s' : TunnelService) (fresh : List (String × TokenBinding)) : Prop where
  issued : s'.issued = fresh.map (·.1) ++ s.issued
  unused : ∀ r ∈ fresh, r.1 ∉ s.issued
  registering : ∀ {token binding}, s'.registering.get? token = some binding →
    s.registering.get? token = some binding ∨ (token, binding) ∈ fresh
  bindings : ∀ {token binding}, s'.tunnel.tokenBindings.get? token = some binding →
    s.tunnel.tokenBindings.get? token = some binding ∨
      s.registering.get? token = some binding

/-- A step that registers nothing, and at most removes bindings. -/
theorem Registers.drops (hissued : s'.issued = s.issued)
    (hregistering : s'.registering = s.registering)
    (hbindings : ∀ {token binding}, s'.tunnel.tokenBindings.get? token = some binding →
      s.tunnel.tokenBindings.get? token = some binding) : Registers s s' [] where
  issued := hissued
  unused := by simp
  registering := fun h => .inl (hregistering ▸ h)
  bindings := fun h => .inl (hbindings h)

/-- A step that leaves the registrations alone. -/
theorem Registers.same (hissued : s'.issued = s.issued)
    (hregistering : s'.registering = s.registering)
    (hbindings : s'.tunnel.tokenBindings = s.tunnel.tokenBindings) : Registers s s' [] :=
  .drops hissued hregistering fun h => hbindings ▸ h

/-- The token a step registers. -/
def registrations : Label → List (String × TokenBinding)
  | .registerPending token hostIp joinerIp _ => [(token, ⟨hostIp, joinerIp⟩)]
  | _ => []

theorem registers_registerPending {token : String} (hostIp joinerIp : IpAddr)
    (joinerPlayerId : String) (hnew : token ∉ s.issued) :
    Registers s
      ({ s with
        registering := s.registering.insert token ⟨hostIp, joinerIp⟩
        issued := token :: s.issued }.setTunnel
          (s.tunnel.registerTokenPending s.now token hostIp joinerPlayerId))
      [(token, ⟨hostIp, joinerIp⟩)] := by
  refine ⟨rfl, by simpa using hnew, fun {token' binding} h => ?_, fun h => .inl h⟩
  simp only [setTunnel, Table.get?_insert] at h
  split at h
  · next heq =>
    cases h
    exact .inr (by simp [heq])
  · exact .inl h

theorem registers_registerBinding {token : String} {binding : TokenBinding}
    (hbinding : s.registering.get? token = some binding) :
    Registers s
      ({ s with registering := s.registering.remove token }.setTunnel
        (s.tunnel.registerTokenBinding token binding.hostIp binding.joinerIp)) [] := by
  refine ⟨rfl, nofun, fun h => .inl (Table.get?_of_remove h), fun {token' binding'} h => ?_⟩
  simp only [setTunnel, TunnelState.registerTokenBinding, Table.get?_insert] at h
  split at h
  · next heq =>
    cases h
    exact .inr (heq ▸ hbinding)
  · exact .inl h

theorem registers_cleanup : Registers s s.cleanupStep [] := by
  unfold cleanupStep
  split
  · exact .same rfl rfl rfl
  · refine .drops rfl rfl fun h => ?_
    simp only [setTunnel, TunnelState.removeBindings, Table.get?_retain,
      Option.filter_eq_some_iff] at h
    exact h.1
  · exact .same rfl rfl rfl

theorem OwnStep.registrations {l : Label} (h : OwnStep s c t l t') :
    TunnelService.registrations l = [] := by
  cases h with
  | _ => rfl

/-- What every step does to the registrations. -/
theorem registers_step {l : Label} (h : s.step l = some s') :
    Registers s s' (registrations l) := by
  cases Step.of_step h with
  | registerPending hostIp joinerIp id hnew => exact registers_registerPending _ _ _ hnew
  | registerBinding hbinding => exact registers_registerBinding hbinding
  | own _ hown =>
      rw [hown.registrations]
      exact .same rfl rfl rfl
  | elapse | lookupUpnp | denied | admitted | found | waits | stopsWaiting | releases | forwards
  | ignores => exact .same rfl rfl rfl
  | joins | misses => exact .drops rfl rfl Table.get?_of_remove
  | cleanup => exact registers_cleanup

/-- What the events of a run say about its tokens and about the connections that passed the
token check. -/
structure Credited (events : List TokenEvent) (s : TunnelService) : Prop where
  issued : ∀ {token binding}, .registered token binding ∈ events → token ∈ s.issued
  once : ∀ {token binding binding'}, .registered token binding ∈ events →
    .registered token binding' ∈ events → binding = binding'
  registering : ∀ {token binding}, s.registering.get? token = some binding →
    .registered token binding ∈ events
  bindings : ∀ {token binding}, s.tunnel.tokenBindings.get? token = some binding →
    .registered token binding ∈ events
  verified : ∀ {c b}, s.badge c = some b → b.verified = true →
    ∃ binding, .registered b.token binding ∈ events ∧
      TunnelState.verifyIp binding b.role b.clientIp = true

theorem registered_mem_tokenEvents {l : Label} {token : String} {binding : TokenBinding} :
    .registered token binding ∈ s.tokenEvents l ↔ (token, binding) ∈ registrations l := by
  cases l with
  | registerPending => simp [tokenEvents, registrations]
  | block c =>
      simp only [tokenEvents, registrations, List.not_mem_nil, iff_false]
      split
      · split <;> simp
      · simp
  | _ => simp [tokenEvents, registrations]

/-- A connection that has passed the token check passed it before the step, or passes it in
the step. -/
theorem verified_of_step {l : Label} {b : Badge} (h : s.step l = some s')
    (hb : s'.badge c = some b) (hverified : b.verified = true) :
    (∃ b₀, s.badge c = some b₀ ∧ b₀.verified = true ∧ b₀.token = b.token ∧
        b₀.role = b.role ∧ b₀.clientIp = b.clientIp) ∨
      ∃ binding, s.tunnel.tokenBindings.get? b.token = some binding ∧
        TunnelState.verifyIp binding b.role b.clientIp = true := by
  cases handles_step h with
  | keeps hbadge | refuses hbadge =>
      exact .inl ⟨b, hbadge ▸ hb, hverified, rfl, rfl, rfl⟩
  | @admits c' _ ip token role _ _ hbadge =>
      rw [hbadge, Function.update_apply] at hb
      split at hb
      · cases hb
        cases hverified
      · exact .inl ⟨b, hb, hverified, rfl, rfl, rfl⟩
  | @loses c' b' hb' _ _ hbadge =>
      rw [hbadge, Function.update_apply] at hb
      split at hb
      · next heq =>
        cases hb
        exact .inl ⟨b', heq ▸ hb', hverified, rfl, rfl, rfl⟩
      · exact .inl ⟨b, hb, hverified, rfl, rfl, rfl⟩
  | @verifies c' b' binding hb' hbinding hverify hbadge =>
      rw [hbadge, Function.update_apply] at hb
      split at hb
      · cases hb
        exact .inr ⟨binding, hbinding, hverify⟩
      · exact .inl ⟨b, hb, hverified, rfl, rfl, rfl⟩
  | @releases c' b' hb' _ _ hbadge =>
      rw [hbadge, Function.update_apply] at hb
      split at hb
      · next heq =>
        cases hb
        exact .inl ⟨b', heq ▸ hb', hverified, rfl, rfl, rfl⟩
      · exact .inl ⟨b, hb, hverified, rfl, rfl, rfl⟩

/-- What a connection was admitted with stays. -/
theorem exists_badge_step {l : Label} {b : Badge} (h : s.step l = some s')
    (hb : s.badge c = some b) :
    ∃ b', s'.badge c = some b' ∧ b'.token = b.token ∧ b'.role = b.role ∧
      b'.clientIp = b.clientIp := by
  cases handles_step h with
  | keeps hbadge | refuses hbadge => exact ⟨b, hbadge ▸ hb, rfl, rfl, rfl⟩
  | @admits c' _ ip token role hfresh _ hbadge =>
      have hne : c ≠ c' := by
        rintro rfl
        simp [hfresh] at hb
      exact ⟨b, by rw [hbadge, Function.update_of_ne hne, hb], rfl, rfl, rfl⟩
  | @loses c' b' hb' _ _ hbadge | @verifies c' b' _ hb' _ _ hbadge
  | @releases c' b' hb' _ _ hbadge =>
      rw [hbadge, Function.update_apply]
      split
      · next heq =>
        obtain rfl : b' = b := by simpa [← heq, hb] using hb'.symm
        exact ⟨_, rfl, rfl, rfl, rfl⟩
      · exact ⟨b, hb, rfl, rfl, rfl⟩

theorem Credited.step {events : List TokenEvent} {l : Label} (hc : Credited events s)
    (h : s.step l = some s') : Credited (events ++ s.tokenEvents l) s' := by
  have hregisters := registers_step h
  have hnew : ∀ {token binding}, .registered token binding ∈ events ++ s.tokenEvents l ↔
      .registered token binding ∈ events ∨ (token, binding) ∈ registrations l := by
    intro token binding
    rw [List.mem_append, registered_mem_tokenEvents]
  refine ⟨?_, ?_, ?_, ?_, ?_⟩
  · intro token binding hmem
    rw [hregisters.issued, List.mem_append]
    rcases hnew.mp hmem with hold | hfresh
    · exact .inr (hc.issued hold)
    · exact .inl (List.mem_map_of_mem hfresh)
  · intro token binding binding' hmem hmem'
    rcases hnew.mp hmem with hold | hfresh
    · rcases hnew.mp hmem' with hold' | hfresh'
      · exact hc.once hold hold'
      · exact absurd (hc.issued hold) (hregisters.unused _ hfresh')
    · rcases hnew.mp hmem' with hold' | hfresh'
      · exact absurd (hc.issued hold') (hregisters.unused _ hfresh)
      · cases l <;> simp_all [registrations]
  · intro token binding hreg
    rcases hregisters.registering hreg with hold | hfresh
    · exact hnew.mpr (.inl (hc.registering hold))
    · exact hnew.mpr (.inr hfresh)
  · intro token binding hb
    rcases hregisters.bindings hb with hold | hpending
    · exact hnew.mpr (.inl (hc.bindings hold))
    · exact hnew.mpr (.inl (hc.registering hpending))
  · intro c b hb hverified
    rcases verified_of_step h hb hverified with ⟨b₀, hb₀, hverified₀, htoken, hrole, hip⟩ |
      ⟨binding, hbinding, hverify⟩
    · obtain ⟨binding, hmem, hverify⟩ := hc.verified hb₀ hverified₀
      rw [htoken] at hmem
      rw [hrole, hip] at hverify
      exact ⟨binding, hnew.mpr (.inl hmem), hverify⟩
    · exact ⟨binding, hnew.mpr (.inl (hc.bindings hbinding)), hverify⟩

theorem credited_of_trace {events : List TokenEvent}
    (htrace : machine.Trace tokenEvents events s) : Credited events s := by
  refine htrace.invariant (I := Credited) ?_ fun events s l s' _ hc h => hc.step h
  constructor <;> simp [machine, start, TunnelState.new, badge]

/-! ## Who waits and who relays -/

/-- The connection was admitted for the token, with a role and an address that its
registration names. -/
def Authorised (events : List TokenEvent) (s : TunnelService) (token : String) (c : ConnId) :
    Prop :=
  ∃ t binding, s.tasks.get? c = some t ∧ t.token = token ∧
    .registered token binding ∈ events ∧
    (t.role = "host" ∧ t.clientIp = binding.hostIp ∨
      t.role = "join" ∧ t.clientIp = binding.joinerIp)

/-- Only authorised connections sit in a tunnel. -/
structure OnlyAuthorised (events : List TokenEvent) (s : TunnelService) : Prop where
  /-- one `JoinRoom` generated the token -/
  once : ∀ {token binding binding'}, .registered token binding ∈ events →
    .registered token binding' ∈ events → binding = binding'
  waiting : ∀ {token peer}, s.tunnel.waiting.get? token = some peer →
    Authorised events s token peer.tx
  relaying : ∀ {c t r}, s.tasks.get? c = some t → t.pc = .relaying r →
    Authorised events s t.token c ∧ Authorised events s t.token r.peerTx
  paired : ∀ {m : Meeting String ConnId}, m ∈ s.pairs →
    Authorised events s m.key m.first ∧ Authorised events s m.key m.second
  keys : ∀ {token peer}, s.tunnel.waiting.get? token = some peer → isUuid token = true
  /-- no slice of a token panics in `cleanup_expired` -/
  cleanup : ∀ now, (s.tunnel.cleanupWarnings now).isSome = true

theorem verified_of_standing (hentering : t.standing ≠ .entering)
    (hrefused : t.standing ≠ .refused) : t.verified = true := by
  cases hpc : t.pc with
  | upgrading | upgradeFailed | checkBinding =>
      simp [TunnelTask.standing, hpc] at hentering
  | returned exit | released exit =>
      cases exit <;> simp_all [TunnelTask.standing, TunnelTask.verified]
  | _ => simp [TunnelTask.verified, hpc]

theorem verifyIp_iff {binding : TokenBinding} {role : String} {ip : IpAddr} :
    TunnelState.verifyIp binding role ip = true ↔
      role = "host" ∧ ip = binding.hostIp ∨ role = "join" ∧ ip = binding.joinerIp := by
  unfold TunnelState.verifyIp
  split
  · next hhost => simp [hhost, eq_comm]
  · next hhost =>
    split
    · next hjoin => simp [hjoin, eq_comm]
    · next hjoin => simp [hhost, hjoin]

/-- A connection that stands at the board past the entrance is authorised for its key. -/
theorem authorised_of_standing {events : List TokenEvent} (hc : Credited events s)
    {token : String} {st : Standing ConnId} (hst : s.board.standing c = some (token, st))
    (hentering : st ≠ .entering) (hrefused : st ≠ .refused) : Authorised events s token c := by
  obtain ⟨t, ht, heq⟩ : ∃ t, s.tasks.get? c = some t ∧ (t.token, t.standing) = (token, st) := by
    simpa [board] using hst
  obtain ⟨htoken, hstanding⟩ := Prod.mk.inj heq
  subst htoken hstanding
  have hverified : t.badge.verified = true := verified_of_standing hentering hrefused
  obtain ⟨binding, hmem, hverify⟩ := hc.verified (badge_of_get? ht) hverified
  exact ⟨t, binding, ht, rfl, hmem, verifyIp_iff.mp hverify⟩

/-- Both parties of a meeting are authorised for its key. -/
theorem authorised_of_mem_pairs {events : List TokenEvent} (hc : Credited events s)
    (hsound : s.board.Sound) {m : Meeting String ConnId} (hm : m ∈ s.pairs) :
    Authorised events s m.key m.first ∧ Authorised events s m.key m.second := by
  obtain ⟨st, hst, hfirst⟩ := hsound.metFirst hm
  obtain ⟨st', hst', hsecond⟩ := hsound.metSecond hm
  refine ⟨authorised_of_standing hc hst ?_ ?_, authorised_of_standing hc hst' ?_ ?_⟩
  · rintro rfl
    cases hfirst
  · rintro rfl
    cases hfirst
  · rintro rfl
    cases hsecond
  · rintro rfl
    cases hsecond

theorem authorised_of_waiting {events : List TokenEvent} (hc : Credited events s)
    (hsound : s.board.Sound) (hs : s.Consistent) {token : String} {peer : WaitingPeer}
    (hpeer : s.tunnel.waiting.get? token = some peer) : Authorised events s token peer.tx := by
  have hnotice : s.board.notice token = some peer.notify := by simp [board, hpeer]
  obtain ⟨st, hst, hposts⟩ := hsound.posted hnotice
  rw [hs.waiting hpeer]
  refine authorised_of_standing hc hst ?_ ?_
  · rintro rfl
    cases hposts
  · rintro rfl
    cases hposts

theorem onlyAuthorised {events : List TokenEvent} (htrace : machine.Trace tokenEvents events s)
    (huuid : ∀ token binding, .registered token binding ∈ events → isUuid token = true) :
    OnlyAuthorised events s := by
  obtain ⟨hs, hsound⟩ := consistent_of_reachable htrace.reachable
  have hc := credited_of_trace htrace
  have hkeys : ∀ {token peer}, s.tunnel.waiting.get? token = some peer →
      isUuid token = true := by
    intro token peer hpeer
    obtain ⟨_, binding, _, _, hmem, _⟩ := authorised_of_waiting hc hsound hs hpeer
    exact huuid token binding hmem
  refine ⟨hc.once, authorised_of_waiting hc hsound hs, ?_, authorised_of_mem_pairs hc hsound,
    hkeys, ?_⟩
  · intro c t r ht hpc
    rcases peer_of_relaying hsound hs ht hpc with ⟨hm, _⟩ | ⟨hm, _⟩
    · exact authorised_of_mem_pairs hc hsound hm
    · exact (authorised_of_mem_pairs hc hsound hm).symm
  · intro now
    refine TunnelState.isSome_cleanupWarnings fun token htoken => ?_
    obtain ⟨peer, hpeer, _⟩ := TunnelState.mem_expiredTokens.mp htoken
    exact hkeys hpeer

end TunnelService

namespace Lobby

/-- What a step of the server reports: the token a `JoinRoom` generates, with the addresses of
the two parties, and the take-over of a waiting peer. -/
def tokenEvents (s : Lobby) : Label → List TokenEvent
  | .block c fresh =>
      match s.sockets.get? c with
      | some (.running h) =>
          match h.pc with
          | .joinRegisterPending ticket => [.registered fresh ⟨ticket.hostIp, h.clientIp⟩]
          | _ => []
      | _ => []
  | .tunnel (.block c) => s.tunnel.tokenEvents (.block c)
  | _ => []

theorem tokenEvents_eq (s : Lobby) (l : Label) (s' : Lobby) (hstep : s.step l = some s') :
    s.tokenEvents l = s.reportTunnel TunnelService.tokenEvents l := by
  cases l with
  | block c fresh =>
      simp only [tokenEvents, reportTunnel, tunnelLabel]
      cases s.sockets.get? c with
      | none => rfl
      | some x =>
          cases x with
          | upgrading | upgradeFailed => rfl
          | running h =>
              cases hpc : h.pc <;> simp [blockTunnelLabel, hpc, TunnelService.tokenEvents]
  | tunnel l =>
      cases l with
      | registerPending => simp [step, isTunnelStep] at hstep
      | _ => rfl
  | cleanup =>
      simp only [tokenEvents, reportTunnel, tunnelLabel]
      cases s.cleanup <;> rfl
  | _ => rfl

/-- Only authorised connections sit in a tunnel, in every run of the server. -/
theorem onlyAuthorised_of_trace {events : List TokenEvent} {s : Lobby}
    (htrace : machine.Trace tokenEvents events s)
    (huuid : ∀ token binding, .registered token binding ∈ events → isUuid token = true) :
    s.tunnel.OnlyAuthorised events :=
  TunnelService.onlyAuthorised (trace_tunnel tokenEvents_eq htrace) huuid

/-- A host and a joiner of one address get the token, and two connections of these roles
present it: the second finds the first. -/
def tunnelRun (token role role' : String) : List Label :=
  registers 1 "a" ++ createsRoom 1 "r" ++ registers 2 "b" ++ reservesSlot 2 "r" ++
    joinsRoom 2 token ++
    [.tunnel (.request 1 true (.v4 0x08080808) (some token) (some role)),
      .tunnel (.upgrade 1 true), .tunnel (.block 1), .tunnel (.block 1), .tunnel (.block 1),
      .tunnel (.request 2 true (.v4 0x08080808) (some token) (some role')),
      .tunnel (.upgrade 2 true), .tunnel (.block 2), .tunnel (.block 2), .tunnel (.block 2)]

/-- A host waits under a UUID and its joiner finds it; both are authorised. -/
theorem onlyAuthorised_paired : ∃ s, machine.Reachable s ∧ s.tunnel.pairs ≠ [] ∧
    s.tunnel.OnlyAuthorised
      [.registered "12345678-9abc-4def-8123-456789abcdef" ⟨.v4 0x08080808, .v4 0x08080808⟩] := by
  let run := tunnelRun "12345678-9abc-4def-8123-456789abcdef" "host" "join"
  have hrun : (machine.exec machine.init run).any (fun s => !s.tunnel.pairs.isEmpty) = true := by
    decide
  have hreport : machine.report tokenEvents machine.init run =
      [.registered "12345678-9abc-4def-8123-456789abcdef" ⟨.v4 0x08080808, .v4 0x08080808⟩] := by
    decide
  obtain ⟨s, hexec, hreach, hpaired⟩ := Machine.exists_reachable_of_exec hrun
  have htrace := Machine.trace_of_exec (f := tokenEvents) hexec
  rw [hreport] at htrace
  refine ⟨s, hreach, by simpa using hpaired, onlyAuthorised_of_trace htrace ?_⟩
  intro token binding hmem
  obtain ⟨rfl, _⟩ : token = "12345678-9abc-4def-8123-456789abcdef" ∧ _ := by
    simpa using hmem
  decide

end Lobby

end War3BattleTool.Server

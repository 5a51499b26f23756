import War3BattleTool.System.Link

set_option autoImplicit false

/-!
# Whom a joiner's tunnel dials

A message that brings an address does not say which join it is about, so a tunnel can be given
the address of another host, or of a guest of its own player.  When messages are sent and read in
order (`orderly`), every tunnel is given its own (`own_of_reachable`).
-/

namespace War3BattleTool.System

open War3BattleTool.Foundation War3BattleTool.Protocol War3BattleTool.Server
open War3BattleTool.Client

namespace Link

variable {s s' : Link}

/-! ## What is on the way -/

/-- What waits at the client is the front of the wire, the wire is read in order, and the notes
are right about the client. -/
structure Sound (s : Link) : Prop where
  waiting : s.waiting.map (·.message) <+: s.wire.map (·.message)
  along : slots.Along s.heard.Fits s.wire s.notes.toSlots
  traced : Traced s.client.dialler s.notes

theorem sound_start (config : AppConfig) : Sound (start config) where
  waiting := List.prefix_rfl
  along := Heard.fits_start _
  traced := ⟨nofun, fun _ _ => nofun, .nil⟩

theorem Sound.advance {token : Option String} {lobby : Lobby}
    (htoken : ∀ p ∈ s.parcels lobby token, ∀ peerAddr, p.message = .stunInfo peerAddr →
      p.token.isSome = true)
    (hadmits : s.heard.admitsAll (s.parcels lobby token) = true) (h : Sound s) :
    Sound (s.advance token lobby) where
  waiting := by
    refine h.waiting.trans ?_
    rw [Link.advance, List.map_append]
    exact List.prefix_append _ _
  along := h.along.append fun _ hfits => Heard.along_of_admitsAll htoken hadmits hfits
  traced := h.traced

/-- The front of the wire stays, and nothing more is expected of the queue. -/
theorem Sound.cut {n : Nat} (hn : (s.waiting.map (·.message)) <+: (s.wire.take n).map (·.message))
    (h : Sound s) : Sound { s with wire := s.wire.take n, heard := .start } where
  waiting := hn
  along := by
    have halong := h.along
    rw [← List.take_append_drop n s.wire] at halong
    exact halong.left Heard.fits_start
  traced := h.traced

/-- The client keeps its letters, or loses those on its session. -/
theorem waiting_of_keepsLetters {client : Process} (hkeeps : Process.KeepsLetters s.client client) :
    { s with client := client }.waiting <+: s.waiting := by
  simp only [waiting, hkeeps.unread]
  rcases hkeeps.network with hend | ⟨_, hsame⟩
  · rw [NetworkTask.arrived_eq_nil hend, List.append_nil]
    exact List.prefix_append _ _
  · exact (List.prefix_append_right_inj _).mpr (hsame ▸ List.prefix_rfl)

theorem Sound.keeps {client : Process} (hkeeps : Process.KeepsLetters s.client client)
    (hdialler : client.dialler = s.client.dialler) (h : Sound s) :
    Sound { s with client := client } where
  waiting := ((waiting_of_keepsLetters hkeeps).map _).trans h.waiting
  along := h.along
  traced := by
    rw [hdialler]
    exact h.traced

/-! ## Steps of the server -/

theorem mem_parcels {lobby : Lobby} {token : Option String} {p : Parcel}
    (hp : p ∈ s.parcels lobby token) : p.token = token ∧ ∃ c,
      p.message ∈ (accepted lobby.outboxes c).drop (accepted s.lobby.outboxes c).length := by
  unfold parcels at hp
  split at hp
  next c _ =>
    obtain ⟨m, hm, rfl⟩ := List.mem_map.mp hp
    exact ⟨rfl, c, hm⟩
  next => cases hp

/-- Only the block that registers a token, and sends nothing yet, has a `StunInfo` to send. -/
theorem stunInfo_not_mem {l : Lobby.Label} {lobby : Lobby} {token : Option String}
    (hstep : s.lobby.step l = some lobby)
    (hquiet : ∀ c fresh h ticket token, l = .block c fresh → s.lobby.handler c = some h →
      h.pc ≠ .joinRegisterBinding ticket token) {p : Parcel} (hp : p ∈ s.parcels lobby token)
    (peerAddr : IpAddr) : p.message ≠ .stunInfo peerAddr := by
  obtain ⟨-, c, hm⟩ := mem_parcels hp
  intro hstun
  rw [hstun] at hm
  cases Lobby.tells_of_step hstep with
  | nothing hnews =>
      rcases hnews c with hempty | ⟨new, hnew, hnone⟩
      · rw [hempty, List.drop_nil] at hm
        cases hm
      · rw [hnew, List.drop_left] at hm
        cases hnone _ hm
  | @parties c' fresh token h ticket hc hpc houtboxes =>
      exact hquiet c' fresh h ticket token rfl (Lobby.handler_eq_some.mpr hc) hpc
  | joiner hc hpc houtboxes =>
      rw [houtboxes, accepted_mail, List.drop_left] at hm
      have hletter := mem_addressed.mp (List.mem_of_mem_take hm)
      obtain ⟨_, _, heq⟩ := Option.map_eq_some_iff.mp (Option.mem_toList.mp hletter)
      cases heq

/-- The messages that the step has put on the wire were in order. -/
theorem admits_advance {token : Option String} {lobby : Lobby}
    (h : s.heard.admitsAll ((s.advance token lobby).wire.drop s.wire.length) = true) :
    s.heard.admitsAll (s.parcels lobby token) = true := by
  rwa [advance, List.drop_left] at h

/-- A step of the server that registers no token. -/
theorem Sound.advance_step {l : Lobby.Label} {lobby : Lobby} {token : Option String}
    (hstep : s.lobby.step l = some lobby)
    (hquiet : ∀ c fresh h ticket token, l = .block c fresh → s.lobby.handler c = some h →
      h.pc ≠ .joinRegisterBinding ticket token)
    (hadmits : s.heard.admitsAll ((s.advance token lobby).wire.drop s.wire.length) = true)
    (h : Sound s) : Sound (s.advance token lobby) :=
  h.advance (fun _ hp peerAddr hstun => absurd hstun (stunInfo_not_mem hstep hquiet hp peerAddr))
    (admits_advance hadmits)

theorem Sound.block {c : SocketId} {fresh : String} (hstep : s.block c fresh = some s')
    (hadmits : s.heard.admitsAll (s'.wire.drop s.wire.length) = true) (h : Sound s) : Sound s' := by
  obtain ⟨handler, hhandler, hstep⟩ := Option.bind_eq_some_iff.mp hstep
  obtain ⟨lobby, hlobby, heq⟩ := Option.map_eq_some_iff.mp hstep
  have hquiet : (∀ ticket token, handler.pc ≠ .joinRegisterBinding ticket token) →
      ∀ c' fresh' h' ticket token, Lobby.Label.block c fresh = .block c' fresh' →
        s.lobby.handler c' = some h' → h'.pc ≠ .joinRegisterBinding ticket token := by
    intro hpc c' fresh' h' ticket token hlabel hhandler'
    cases hlabel
    cases hhandler.symm.trans hhandler'
    exact hpc ticket token
  split at heq
  next => exact heq ▸ ⟨h.waiting, h.along, h.traced⟩
  next hpc =>
    subst heq
    have hsound := h.advance_step hlobby (hquiet (by rw [hpc]; exact nofun)) hadmits
    exact ⟨hsound.waiting, hsound.along, hsound.traced⟩
  next hpc =>
    subst heq
    exact h.advance_step hlobby (hquiet (by rw [hpc]; exact nofun)) hadmits
  next hother _ _ =>
    subst heq
    exact h.advance_step hlobby (hquiet hother) hadmits

theorem Sound.send {c : SocketId} (hstep : s.send c = some s')
    (hadmits : s.heard.admitsAll (s'.wire.drop s.wire.length) = true) (h : Sound s) : Sound s' := by
  unfold Link.send at hstep
  split at hstep
  next post rest _ =>
    cases hstep
    have hsound : Sound (s.advance (some post.token) (s.lobby.trySend post.tx post.message)) :=
      h.advance (fun p hp _ _ => by rw [(mem_parcels hp).1]; rfl) (admits_advance hadmits)
    exact ⟨hsound.waiting, hsound.along, hsound.traced⟩
  next => cases hstep

theorem Sound.sendFails (c : SocketId) (lobby : Lobby) (h : Sound s) :
    Sound (s.sendFails c lobby) := by
  unfold Link.sendFails
  split
  · have hcut := h.cut (n := max s.waiting.length (s.wire.length - s.queued c)) ?_
    · exact ⟨hcut.waiting, hcut.along, hcut.traced⟩
    · rw [List.map_take, List.prefix_take_iff]
      refine ⟨h.waiting, ?_⟩
      rw [List.length_map]
      exact Nat.le_max_left _ _
  · exact ⟨h.waiting, h.along, h.traced⟩

theorem Sound.server {l : Lobby.Label} (hstep : s.server l = some s')
    (hadmits : s.heard.admitsAll (s'.wire.drop s.wire.length) = true) (h : Sound s) : Sound s' := by
  have hadvance : ∀ {l : Lobby.Label}, (s.lobby.step l).map (s.advance none) = some s' →
      (∀ c fresh, l ≠ .block c fresh) → Sound s' := by
    intro l hstep hl
    obtain ⟨lobby, hlobby, rfl⟩ := Option.map_eq_some_iff.mp hstep
    exact h.advance_step hlobby (fun c fresh _ _ _ hblock => absurd hblock (hl c fresh)) hadmits
  unfold Link.server at hstep
  split at hstep
  · split at hstep
    · exact h.block hstep hadmits
    · cases hstep
  · split at hstep
    · exact hadvance hstep fun _ _ => nofun
    · cases hstep
  · obtain ⟨lobby, _, rfl⟩ := Option.map_eq_some_iff.mp hstep
    exact h.sendFails _ lobby
  · split at hstep
    · cases hstep
    · exact hadvance hstep fun _ _ => nofun
  next hblock _ _ _ => exact hadvance hstep fun c fresh heq => hblock c fresh heq

/-! ## Steps between the server and the client -/

/-- Without a session, what the UI thread has is left. -/
theorem Sound.forget (client : Process) (conn : Option SocketId)
    (hunread : client.unread = s.client.unread) (harrived : client.network.arrived = [])
    (hdialler : client.dialler = s.client.dialler) (h : Sound s) :
    Sound { s with
      client := client
      conn := conn
      wire := s.wire.take client.unread.length
      heard := .start } where
  waiting := by
    rw [Link.waiting, harrived, List.append_nil, List.map_take, List.prefix_take_iff,
      List.length_map, hunread]
    refine ⟨List.IsPrefix.trans ?_ h.waiting, Nat.le_refl _⟩
    rw [Link.waiting, List.map_append]
    exact List.prefix_append _ _
  along := by
    have halong := h.along
    rw [← List.take_append_drop client.unread.length s.wire] at halong
    exact halong.left Heard.fits_start
  traced := by
    rw [hdialler]
    exact h.traced

theorem Sound.connect {c : SocketId} (hstep : s.connect c = some s') (h : Sound s) : Sound s' := by
  unfold Link.connect at hstep
  split at hstep
  · obtain ⟨client, hclient, rfl⟩ := Option.map_eq_some_iff.mp hstep
    simp only [Process.step, Process.connect] at hclient
    split at hclient <;> cases hclient
    let client : Process := { s.client with
      network := .session .start
      events := s.client.events ++ [.connected] }
    have hunread : client.unread = s.client.unread := by
      refine Process.unread_append (fun e he => ?_) rfl
      rw [List.mem_singleton.mp he]
      rfl
    have hforget := h.forget client (some c) hunread rfl rfl
    rwa [hunread] at hforget
  · cases hstep

/-- The first message that has left the queue joins those that wait. -/
theorem prefix_concat {α : Type} {xs ys : List α} {y : α} (h : xs <+: ys)
    (hy : ys[xs.length]? = some y) : xs ++ [y] <+: ys := by
  obtain ⟨rest, rfl⟩ := h
  rw [List.getElem?_append_right (Nat.le_refl _), Nat.sub_self] at hy
  obtain ⟨rest', rfl⟩ : ∃ rest', rest = y :: rest' := by
    cases rest with
    | nil => cases hy
    | cons a rest' =>
        cases hy
        exact ⟨rest', rfl⟩
  exact ⟨rest', by simp⟩

theorem Sound.arrive (hstep : s.arrive = some s') (h : Sound s) : Sound s' := by
  unfold Link.arrive at hstep
  split at hstep
  next c x hconn hx =>
    split at hstep
    · obtain ⟨p, hp, rfl⟩ := Option.map_eq_some_iff.mp hstep
      refine ⟨?_, h.along, h.traced⟩
      have hnext : (s.wire.map (·.message))[(s.waiting.map (·.message)).length]? =
          some p.message := by
        rw [List.length_map, List.getElem?_map, hp]
        rfl
      have hfront := prefix_concat h.waiting hnext
      rw [Link.waiting, hx, List.map_append] at hfront
      change List.map (·.message) (s.client.unread ++ (x.toClient ++ [_])) <+: _
      rwa [List.map_append, List.map_append, ← List.append_assoc]
    · cases hstep
  next => cases hstep

theorem Sound.upload {len : Nat} (hstep : s.upload len = some s')
    (hadmits : s.heard.admitsAll (s'.wire.drop s.wire.length) = true) (h : Sound s) : Sound s' := by
  obtain ⟨c, _, hstep⟩ := Option.bind_eq_some_iff.mp hstep
  obtain ⟨cmd, _, hstep⟩ := Option.bind_eq_some_iff.mp hstep
  obtain ⟨lobby, hlobby, hstep⟩ := Option.bind_eq_some_iff.mp hstep
  obtain ⟨client, hclient, rfl⟩ := Option.map_eq_some_iff.mp hstep
  obtain ⟨serving, hserve, hserved⟩ := Option.bind_eq_some_iff.mp hclient
  have hsound : Sound (s.advance none lobby) :=
    h.advance_step hlobby (fun _ _ _ _ _ => nofun) hadmits
  have hserves : Process.LetterStep s.client .serve serving :=
    Process.letterStep_of_step nofun (fun _ _ _ => nofun) hserve
  have hserved : Process.LetterStep serving .served client :=
    Process.letterStep_of_step nofun (fun _ _ _ => nofun) hserved
  cases hserves with
  | keeps hkeeps hdialler =>
      cases hserved with
      | keeps hkeeps' hdialler' =>
          exact Sound.keeps (s := { s.advance none lobby with client := serving }) hkeeps' hdialler'
            (hsound.keeps hkeeps hdialler)

/-! ## Steps of the client -/

theorem nextLetter_eq_some {client : Process} {letter : Letter} :
    nextLetter client = some letter ↔
      client.frame = .events ∧ ∃ rest, client.events = .serverMessage letter :: rest := by
  unfold nextLetter
  split
  next hframe hevents =>
    rw [hframe, hevents]
    simp
  next hother =>
    constructor
    · exact nofun
    · rintro ⟨hframe, rest, hevents⟩
      exact absurd hevents (hother letter rest hframe)

theorem Sound.goOn {client : Process} (h : Sound { s with client := client }) :
    Sound (s.goOn client) := by
  unfold Link.goOn
  split
  · exact h
  next hend =>
    have harrived := NetworkTask.arrived_eq_nil (Bool.eq_false_iff.mpr hend)
    exact Sound.forget (s := { s with client := client }) client none rfl harrived rfl h

/-- The app reads the first message on the wire. -/
theorem Sound.reads {letter : Letter} {rest : List NetEvent}
    (hevents : s.client.events = .serverMessage letter :: rest)
    (hmay : (∃ text, letter.message = .peerUPnPAddr text) →
      s.notes.started = true ∨ s.client.dialler.upnpAddrSender = none) (h : Sound s) :
    Sound { s.read letter with
      client := { s.client with events := rest }.handleServerMessage letter } := by
  have hunread : s.client.unread = letter :: rest.filterMap (·.letter?) := by
    rw [Process.unread, hevents]
    rfl
  have hwaiting := h.waiting
  rw [Link.waiting, hunread, List.cons_append, List.map_cons] at hwaiting
  obtain ⟨p, ps, hwire⟩ : ∃ p ps, s.wire = p :: ps := by
    cases hwire : s.wire with
    | nil =>
        rw [hwire] at hwaiting
        cases List.prefix_nil.mp hwaiting
    | cons p ps => exact ⟨p, ps, rfl⟩
  rw [hwire, List.map_cons, List.cons_prefix_cons] at hwaiting
  obtain ⟨hmessage, hwaiting⟩ := hwaiting
  have hread : s.read letter = { s with
      wire := ps
      notes := s.notes.handle s.client.dialler s.client.app.waitsForJoin p
        letter.externalAddr } := by
    rw [read, hwire]
  have halong := h.along
  rw [hwire] at halong
  rw [hread]
  refine ⟨?_, halong.2 _ moves_handle, ?_⟩
  · have hkeeps := Process.keepsLetters_handleServerMessage { s.client with events := rest } letter
    exact ((waiting_of_keepsLetters (s := { s with client := { s.client with events := rest } })
      hkeeps).map _).trans hwaiting
  · rw [Process.dialler_handleServerMessage, hmessage]
    exact Traced.handle halong.1 (by rwa [← hmessage]) h.traced

/-- A `Pong` is nothing to the app. -/
theorem quiet_of_isPong {p : Parcel} (hp : isPong p.message = true) : slots.Quiet p := by
  obtain ⟨m, token⟩ := p
  cases m with
  | pong ts => exact ⟨fun _ => trivial, fun _ _ => Iff.rfl⟩
  | _ => cases hp

/-- A `Pong` leaves the wire where the letters of the session begin. -/
theorem Sound.delivers {client : Process} {letter : Letter} {rest : List Letter}
    (harrived : s.client.network.arrived = letter :: rest) (hrest : client.network.arrived = rest)
    (hunread : client.unread =
      s.client.unread ++ if isPong letter.message then [] else [letter])
    (hdialler : client.dialler = s.client.dialler) (h : Sound s) :
    Sound { s.track .deliver with client := client } := by
  have hwaiting := h.waiting
  rw [Link.waiting, harrived, List.map_append, List.map_cons] at hwaiting
  have htraced : Traced client.dialler s.notes := hdialler ▸ h.traced
  cases hpong : isPong letter.message with
  | false =>
      have htrack : s.track .deliver = s := by simp [track, harrived, hpong]
      rw [htrack]
      refine ⟨?_, h.along, htraced⟩
      rw [hpong] at hunread
      simp only [Link.waiting, hunread, hrest]
      simpa using hwaiting
  | true =>
      obtain ⟨more, hmore⟩ := hwaiting
      rw [List.append_assoc, List.cons_append] at hmore
      obtain ⟨ws, vs, hwire, hws, hvs⟩ := List.map_eq_append_iff.mp hmore.symm
      obtain ⟨p, ps, rfl, hp, hps⟩ := List.map_eq_cons_iff.mp hvs
      have hlength : ws.length = s.client.unread.length := by
        rw [← List.length_map (·.message), hws, List.length_map]
      have herase : s.wire.eraseIdx s.client.unread.length = ws ++ ps := by
        rw [hwire, ← hlength, List.eraseIdx_append_of_length_le (Nat.le_refl _), Nat.sub_self]
        rfl
      have htrack : s.track .deliver = { s with wire := ws ++ ps } := by
        rw [← herase]
        simp [track, harrived, hpong]
      rw [htrack]
      have halong := h.along
      rw [hwire] at halong
      refine ⟨?_, halong.drop (quiet_of_isPong (hp ▸ hpong)), htraced⟩
      rw [hpong] at hunread
      rw [Link.waiting, hunread, hrest]
      exact ⟨more, by simp [hws, hps]⟩

theorem Sound.run {l : Process.Label} (hstep : s.run l = some s')
    (hmay : l = .poll → s.mayRead = true) (h : Sound s) : Sound s' := by
  unfold Link.run at hstep
  split at hstep
  next hlocal =>
    obtain ⟨client, hclient, rfl⟩ := Option.map_eq_some_iff.mp hstep
    have hconnect : l ≠ .connect true := by
      rintro rfl
      cases hlocal
    have hreply : ∀ m externalAddr own, l ≠ .reply m externalAddr own := by
      rintro m externalAddr own rfl
      cases hlocal
    apply Sound.goOn
    cases Process.letterStep_of_step hconnect hreply hclient with
    | @takes letter rest hframe hevents =>
        have hnext := nextLetter_eq_some.mpr ⟨hframe, rest, hevents⟩
        have htrack : s.track .poll = s.read letter := by rw [track, hnext]
        rw [htrack]
        refine h.reads hevents fun ⟨text, htext⟩ => ?_
        have hmay := hmay rfl
        obtain ⟨m, externalAddr, answers, processed⟩ := letter
        obtain rfl : m = .peerUPnPAddr text := htext
        rw [mayRead, hnext] at hmay
        simpa [Process.dialler] using hmay
    | delivers hsession harrived hrest hunread hdialler =>
        exact h.delivers harrived hrest hunread hdialler
    | keeps hkeeps hdialler hdeliver hpoll =>
        have htrack : s.track l = s := by
          unfold track
          split
          next =>
            split
            next letter hletter =>
              obtain ⟨hframe, rest, hevents⟩ := nextLetter_eq_some.mp hletter
              exact absurd hevents (hpoll rfl letter rest hframe)
            next => rfl
          next => exact absurd rfl hdeliver
          next => rfl
        rw [htrack]
        exact h.keeps hkeeps hdialler
  next => cases hstep

/-! ## Runs -/

theorem Sound.step {l : Label} (hstep : s.step l = some s') (horderly : s.orderly l = true)
    (h : Sound s) : Sound s' := by
  have hadmits : (∀ l', l ≠ .client l') →
      s.heard.admitsAll (s'.wire.drop s.wire.length) = true := by
    intro hl
    unfold orderly at horderly
    split at horderly
    next => exact absurd rfl (hl .poll)
    next =>
      rw [hstep] at horderly
      exact horderly
  cases l with
  | server l => exact h.server hstep (hadmits fun _ => nofun)
  | send c => exact h.send hstep (hadmits fun _ => nofun)
  | connect c => exact h.connect hstep
  | upload len => exact h.upload hstep (hadmits fun _ => nofun)
  | arrive => exact h.arrive hstep
  | client l =>
      refine h.run hstep ?_
      rintro rfl
      exact horderly

/-- In every run in which messages are sent and read in order, each joiner's tunnel is given
addresses that the server issued for its own join. -/
theorem own_of_reachable {config : AppConfig}
    (h : ((machine config).restrict fun s l => s.orderly l = true).Reachable s) : s.Own := by
  have hsound : Sound s := by
    apply Machine.Reachable.invariant (sound_start config) _ h
    intro s l s' _ hs hstep
    obtain ⟨horderly, hstep⟩ := Machine.restrict_step.mp hstep
    exact hs.step hstep horderly
  exact hsound.traced.issued

/-! ## Concrete runs -/

/-- The client is on connection 0: `n` messages go from the queue of that connection to the app. -/
def reads (n : Nat) : List Label :=
  (List.replicate n [.server (.sent 0 true), .arrive, .client .deliver, .client .poll]).flatten

/-- The handler of a connection runs `n` blocks. -/
def blocks (c : SocketId) (fresh : String) (n : Nat) : List Label :=
  List.replicate n (.server (.block c fresh))

/-- The client goes through a frame, and sends the command that is queued in it. -/
def clicks (i : Process.Input) : List Label :=
  (Process.framed i ++ [Process.Label.sendNext true]).map Label.client

/-- Another player registers at this address. -/
def registers (c : SocketId) (ip : IpAddr) (playerId : String) : List Label :=
  (.request c true ip :: (Lobby.registers c playerId).tail).map .server

/-- That player opens a room for two. -/
def opens (c : SocketId) (roomId : String) : List Label :=
  .server (.frame c (.text 90 (some (.createRoom "room" "map" 2 [1])) none)) :: blocks c roomId 5

/-- The client connects and registers. -/
def enters : List Label :=
  [.server (.request 0 true (.v4 0x01010101)), .server (.upgrade 0 (some "a")), .connect 0,
    .client .poll, .client (.sendNext true), .upload 60] ++ blocks 0 "" 3 ++ reads 4

/-- The client asks to join a room, and its handler draws the token. -/
def asks (room : RoomInfo) (token : String) : List Label :=
  clicks (.join room) ++ [.upload 40] ++ blocks 0 token 5

/-- The host on connection 1 says which address is mapped to it for a token. -/
def maps (token : String) : List Label :=
  .server (.frame 1 (.text 80 (some (.upnpMapped "8.8.8.8:6113" token)) (some (.v4 0x08080808)))) ::
    blocks 1 "" 2

/-- The client joins a room, and is told the address of its host. -/
def joins : List Label :=
  registers 1 (.v4 0x08080808) "b" ++ opens 1 "r" ++ enters ++ asks Process.foundRoom "t" ++
    List.replicate 4 (.send 0) ++ reads 2 ++ maps "t" ++ reads 1

/-- The tunnel of a joiner is given both addresses, and they are those of its join. -/
theorem own_joining : ∃ s : Link, s.client.dialler.tunnels =
      [⟨.joiner, "t", some (.v4 0x08080808), some ⟨.v4 0x08080808, 6113⟩⟩] ∧ s.Own := by
  have hrun : (((machine Process.somebody).restrict fun s l => s.orderly l = true).exec
      ((machine Process.somebody).restrict fun s l => s.orderly l = true).init joins).any
      (fun s => s.client.dialler.tunnels =
        [⟨.joiner, "t", some (.v4 0x08080808), some ⟨.v4 0x08080808, 6113⟩⟩]) = true := by decide
  obtain ⟨s, _, hreach, htest⟩ := Machine.exists_reachable_of_exec hrun
  exact ⟨s, of_decide_eq_true htest, own_of_reachable hreach⟩

/-- The client opens a room of its own. -/
def creates (roomId : String) : List Label :=
  List.map Label.client (Process.framed .openDialog) ++
    List.map Label.client (Process.framed (.create 2)) ++
    [.client (.captured 0 [1] (some ⟨"room", some "map"⟩)), .client .poll] ++ clicks .idle ++
    [.upload 90] ++ blocks 0 roomId 5 ++ reads 2

/-- The client has a room of its own, and joins another; the handler of a guest sends its
`StunInfo` between the client's `StunInfo` and its `JoinResult`. -/
def guestBetween : List Label :=
  registers 1 (.v4 0x08080808) "b" ++ opens 1 "r" ++ registers 2 (.v4 0x09090909) "c" ++ enters ++
    creates "q" ++ asks Process.foundRoom "t" ++
    [.server (.frame 2 (.text 40 (some (.joinRoom "q")) none))] ++ blocks 2 "u" 5 ++
    [.send 0, .send 2, .send 2, .send 0, .send 0] ++ reads 3

/-- The client joins one room and then another; the address of the first host comes late. -/
def lateAddr : List Label :=
  registers 1 (.v4 0x08080808) "b" ++ opens 1 "r" ++ registers 2 (.v4 0x09090909) "c" ++
    opens 2 "q" ++ enters ++ asks Process.foundRoom "t" ++ List.replicate 4 (.send 0) ++
    blocks 0 "" 2 ++ reads 4 ++ [.server (.elapse joinCooldown)] ++
    asks ⟨"q", "c", "room", "map", 2, 1, .v127⟩ "u" ++ List.replicate 4 (.send 0) ++ reads 2 ++
    maps "t" ++ reads 1

/-- What the tunnels are given in a concrete run. -/
theorem exists_given (labels : List Label) (tunnels : List Dials) (origins : List Origin)
    (hrun : ((machine Process.somebody).exec (machine Process.somebody).init labels).any
      (fun s => s.client.dialler.tunnels = tunnels && s.notes.origins = origins) = true) :
    ∃ s, (machine Process.somebody).Reachable s ∧ s.client.dialler.tunnels = tunnels ∧
      s.notes.origins = origins := by
  obtain ⟨s, _, hreach, htest⟩ := Machine.exists_reachable_of_exec hrun
  rw [Bool.and_eq_true, decide_eq_true_eq, decide_eq_true_eq] at htest
  exact ⟨s, hreach, htest⟩

/-- A joiner's tunnel is given the address of a guest of its own player; and one is given the
mapping of the host of an earlier join. -/
theorem not_always_own :
    (∃ s, (machine Process.somebody).Reachable s ∧
      s.client.dialler.tunnels = [⟨.joiner, "t", some (.v4 0x09090909), none⟩] ∧ ¬ s.Own) ∧
    ∃ s, (machine Process.somebody).Reachable s ∧
      s.client.dialler.tunnels = [⟨.joiner, "t", some (.v4 0x08080808), none⟩,
        ⟨.joiner, "u", some (.v4 0x09090909), some ⟨.v4 0x08080808, 6113⟩⟩] ∧ ¬ s.Own := by
  constructor
  · obtain ⟨s, hreach, htunnels, horigins⟩ :=
      exists_given guestBetween [⟨.joiner, "t", some (.v4 0x09090909), none⟩]
        [⟨some "u", none⟩] (by decide)
    refine ⟨s, hreach, htunnels, fun hown => ?_⟩
    rw [Own, htunnels, horigins] at hown
    cases hown with
    | cons hfirst _ => exact absurd (hfirst.peer rfl rfl) (by decide)
  · obtain ⟨s, hreach, htunnels, horigins⟩ :=
      exists_given lateAddr [⟨.joiner, "t", some (.v4 0x08080808), none⟩,
          ⟨.joiner, "u", some (.v4 0x09090909), some ⟨.v4 0x08080808, 6113⟩⟩]
        [⟨some "t", none⟩, ⟨some "u", some "t"⟩] (by decide)
    refine ⟨s, hreach, htunnels, fun hown => ?_⟩
    rw [Own, htunnels, horigins] at hown
    cases hown with
    | cons _ hrest =>
        cases hrest with
        | cons hsecond _ => exact absurd (hsecond.addr rfl rfl) (by decide)

end Link

end War3BattleTool.System

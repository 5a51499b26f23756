import War3BattleTool.Client.Dialling
import War3BattleTool.Protocol.AddrSafety
import War3BattleTool.Protocol.SocketAddrText
import War3BattleTool.Server.News
import War3BattleTool.Server.Requests

set_option autoImplicit false

/-!
# Which endpoints get through

The server forwards an external address that passes `isSafeExternalAddr`, and the joiner's
client dials one that passes it again.  Neither lets an address through that is reserved in
its own family.  The IPv6 form of a reserved IPv4 address passes both, and these are the only
addresses that do so (`airtight_iff`).
-/

namespace War3BattleTool.System

open War3BattleTool.Foundation War3BattleTool.Protocol War3BattleTool.Server
open War3BattleTool.Client

/-! ## What the server forwards -/

/-- The text reads as an address that passes the filter, one of `seen`. -/
def Passes (seen : IpAddr → Prop) (text : String) : Prop :=
  ∃ addr, parseSocketAddr text = some addr ∧ isSafeExternalAddr addr.ip = true ∧ seen addr.ip

/-- The address that the handler checked and is about to forward. -/
def forwarding : HandlerPc → Option String
  | .upnpLookup externalAddr _ | .upnpForward externalAddr _ => some externalAddr
  | _ => none

/-- The frame carries the address that its text denotes, one of `seen`. -/
def FrameSees (seen : IpAddr → Prop) : Lobby.Label → Prop
  | .frame _ (.text _ (some (.upnpMapped text _)) externalIp) =>
      externalIp = (parseSocketAddr text).map (·.ip) ∧ ∀ ip, externalIp = some ip → seen ip
  | _ => True

section Server

variable {s s' : Lobby} {c : SocketId} {h h' : Handler} {text : String}

/-- A block goes on with the address that the handler had, or with none. -/
theorem forwarding_block {fresh : String} (hc : s.sockets.get? c = some (.running h))
    (hstep : s.block c h fresh = some s') (hc' : s'.sockets.get? c = some (.running h'))
    (htext : forwarding h'.pc = some text) : forwarding h.pc = some text := by
  obtain ⟨k, hmoves, hleads⟩ := Lobby.leadsTo_block hc hstep
  obtain rfl := hmoves.eq_of_running hc'
  generalize h.pc = pc at hleads
  generalize h'.pc = pc' at hleads htext
  cases hleads with
  | upnpLookup => exact htext
  | _ => cases htext

/-- A message begins the forwarding of its address, which passes the filter. -/
theorem forwarding_begins {m : ClientMessage} {externalIp : Option IpAddr} {pc : HandlerPc}
    (hbegins : Lobby.Begins s h externalIp m pc) (htext : forwarding pc = some text) :
    (∃ token, m = .upnpMapped text token) ∧ externalIp.any isSafeExternalAddr = true := by
  cases hbegins with
  | @upnpMapped externalAddr tunnelToken hplayer hsafe =>
      cases htext
      exact ⟨⟨tunnelToken, rfl⟩, hsafe⟩
  | _ => cases htext

/-- A handler begins to forward an address that is in the frame, and passes the filter. -/
theorem forwarding_frame {item : Incoming} (hc : s.sockets.get? c = some (.running h))
    (hpc : h.pc = .receiving) (hc' : (s.frame c h item).sockets.get? c = some (.running h'))
    (htext : forwarding h'.pc = some text) : ∃ len token externalIp,
      item = .text len (some (.upnpMapped text token)) externalIp ∧
        externalIp.any isSafeExternalAddr = true := by
  -- The handler that the frame leaves is about to forward an address.
  have hnone : ∀ {k : Handler}, some (Socket.running k) = some (.running h') →
      forwarding k.pc ≠ none := by
    intro k hk hnone
    rw [Option.some.injEq, Socket.running.injEq] at hk
    rw [← hk, hnone] at htext
    cases htext
  have hreceiving : forwarding h.pc = none := by rw [hpc]; rfl
  have hcounted : forwarding (s.counted h).pc = none := hreceiving
  have hexit : forwarding h.exit.pc = none := by
    unfold Handler.exit
    dsimp only
    split <;> rfl
  have hput : ∀ k : Handler, (s.put c k).sockets.get? c = some (.running k) := fun k => by
    rw [Lobby.get?_put hc, Function.update_self]
  have hframed := Lobby.framed s c h item
  generalize s.frame c h item = s' at hframed hc'
  cases hframed with
  | left => exact absurd hexit (hnone ((hput h.exit).symm.trans hc'))
  | ignored | tooLong => exact absurd hreceiving (hnone (hc.symm.trans hc'))
  | refused text => exact absurd hcounted (hnone ((hput (s.counted h)).symm.trans hc'))
  | @passed len externalIp m =>
      have hdispatched := Lobby.dispatched (s.put c (s.counted h)) c (s.counted h) m externalIp
      generalize (s.put c (s.counted h)).dispatch c (s.counted h) m externalIp = s''
        at hdispatched hc'
      cases hdispatched with
      | begun hbegins =>
          have hmoved := Lobby.eq_of_put (hput (s.counted h)) hc' rfl
          subst hmoved
          obtain ⟨⟨token, hm⟩, hsafe⟩ := forwarding_begins hbegins htext
          exact ⟨len, token, externalIp, by rw [hm], hsafe⟩
      | _ => exact absurd hcounted (hnone ((hput (s.counted h)).symm.trans hc'))

/-- What the server forwards, or is about to, passes the filter. -/
structure Screened (seen : IpAddr → Prop) (s : Lobby) : Prop where
  handlers : ∀ c h text, s.sockets.get? c = some (.running h) → forwarding h.pc = some text →
    Passes seen text
  sent : ∀ c text, .peerUPnPAddr text ∈ accepted s.outboxes c → Passes seen text

variable {seen : IpAddr → Prop} {l : Lobby.Label}

/-- The filter looks at the address that the text denotes. -/
theorem passes_of_frame {len : Nat} {token : String} {externalIp : Option IpAddr}
    (hsees : FrameSees seen (.frame c (.text len (some (.upnpMapped text token)) externalIp)))
    (hsafe : externalIp.any isSafeExternalAddr = true) : Passes seen text := by
  obtain ⟨hparsed, hseen⟩ := hsees
  cases haddr : parseSocketAddr text with
  | none =>
      rw [hparsed, haddr] at hsafe
      cases hsafe
  | some addr =>
      rw [haddr, Option.map_some] at hparsed
      rw [hparsed, Option.any_some] at hsafe
      exact ⟨addr, haddr, hsafe, hseen _ hparsed⟩

theorem Screened.handlers_step (hs : Screened seen s) (hsees : FrameSees seen l)
    (hstep : s.step l = some s') (hc' : s'.sockets.get? c = some (.running h'))
    (htext : forwarding h'.pc = some text) : Passes seen text := by
  rcases Lobby.running_of_step hstep hc' with hown | hstart | hold
  · cases l with
    | frame c' item =>
        obtain rfl : c' = c := by simpa [Lobby.isOwn] using hown
        obtain ⟨h, hc, hframe⟩ := Lobby.whenRunning_eq_some hstep
        split at hframe
        · next hpc =>
          cases hframe
          obtain ⟨len, token, externalIp, rfl, hsafe⟩ := forwarding_frame hc hpc hc' htext
          exact passes_of_frame hsees hsafe
        · cases hframe
    | block c' fresh =>
        obtain rfl : c' = c := by simpa [Lobby.isOwn] using hown
        obtain ⟨h, hc, hblock⟩ := Lobby.whenRunning_eq_some hstep
        exact hs.handlers c' h text hc (forwarding_block hc hblock hc' htext)
    | drop c' =>
        obtain rfl : c' = c := by simpa [Lobby.isOwn] using hown
        obtain ⟨h, hc, hdrop⟩ := Lobby.whenRunning_eq_some hstep
        split at hdrop
        · cases hdrop
          have hexit := Lobby.eq_of_put hc hc' rfl
          subst hexit
          unfold Handler.exit at htext
          dsimp only at htext
          split at htext <;> cases htext
        · cases hdrop
    | _ => cases hown
  · obtain ⟨ip, playerId, rfl⟩ := hstart
    cases htext
  · exact hs.handlers c h' text hold htext

theorem Screened.step (hs : Screened seen s) (hsees : FrameSees seen l)
    (hstep : s.step l = some s') : Screened seen s' := by
  refine ⟨fun c h' text hc' htext => hs.handlers_step hsees hstep hc' htext, ?_⟩
  intro c text htext
  have hmailed : ∀ letters, s'.outboxes = mail s.outboxes letters →
      .peerUPnPAddr text ∈ accepted s.outboxes c ∨ (c, .peerUPnPAddr text) ∈ letters := by
    intro letters houtboxes
    rw [houtboxes, accepted_mail] at htext
    rcases List.mem_append.mp htext with hold | hnew
    · exact .inl hold
    · exact .inr (mem_addressed.mp (List.mem_of_mem_take hnew))
  cases Lobby.tells_of_step hstep with
  | nothing hquiet =>
      rcases hquiet c with hempty | ⟨new, hnew, hnone⟩
      · rw [hempty] at htext
        cases htext
      · rw [hnew] at htext
        rcases List.mem_append.mp htext with hold | hmem
        · exact hs.sent c text hold
        · cases hnone _ hmem
  | parties hc hpc houtboxes =>
      rcases hmailed _ houtboxes with hold | hnew
      · exact hs.sent c text hold
      · simp [Lobby.joinLetters] at hnew
  | @joiner c' fresh externalAddr joinerPlayerId h hc hpc houtboxes =>
      rcases hmailed _ houtboxes with hold | hnew
      · exact hs.sent c text hold
      · obtain ⟨p, _, hletter⟩ := Option.map_eq_some_iff.mp (Option.mem_toList.mp hnew)
        cases hletter
        exact hs.handlers c' h text hc (by rw [hpc]; rfl)

/-- In every run whose frames carry addresses of `seen`, what is forwarded passes the filter. -/
theorem screened_of_run {labels : List Lobby.Label} (hsees : ∀ l ∈ labels, FrameSees seen l)
    (hrun : Lobby.machine.exec Lobby.machine.init labels = some s) : Screened seen s := by
  refine Machine.exec_invariant (fun s l s' hl hs hstep => hs.step hl hstep) ?_ hsees hrun
  refine ⟨fun c h text hc => ?_, fun c text htext => ?_⟩
  · cases hc
  · cases htext

end Server

/-! ## What the client dials -/

/-- The letter carries the address that its text denotes, one of `seen`. -/
def LetterSees (seen : IpAddr → Prop) : Process.Label → Prop
  | .reply (.peerUPnPAddr text) externalAddr _ =>
      externalAddr = parseSocketAddr text ∧ ∀ addr, externalAddr = some addr → seen addr.ip
  | _ => True

/-- What the tunnels were sent passes the filter, and what is on the way is of `seen`. -/
structure Vetted (seen : IpAddr → Prop) (s : Process) : Prop where
  letters : ∀ letter text addr, .letter letter ∈ s.items → letter.message = .peerUPnPAddr text →
    letter.externalAddr = some addr → seen addr.ip
  tunnels : ∀ t ∈ s.dialler.tunnels, ∀ addr, t.upnpAddr = some addr →
    isSafeExternalAddr addr.ip = true ∧ seen addr.ip

section Client

variable {seen : IpAddr → Prop} {s s' : Process} {l : Process.Label}

theorem Vetted.step (hs : Vetted seen s) (hsees : LetterSees seen l) (hstep : s.step l = some s') :
    Vetted seen s' where
  letters := by
    intro letter text addr hletter hmessage haddr
    rcases Process.items_step hstep hletter with hold | hborn
    · exact hs.letters letter text addr hold hmessage haddr
    · cases hborn with
      | replies hx hmay =>
          dsimp only at hmessage haddr
          subst hmessage
          exact hsees.2 addr haddr
  tunnels := by
    rcases Process.dialler_step hstep with hsame | ⟨letter, rest, rfl, hframe, hevents, rfl⟩
    · rw [hsame]
      exact hs.tunnels
    · intro t ht addr haddr
      rw [Process.dialler_handleServerMessage] at ht
      rcases Dialler.upnpAddr_handle ht haddr with ⟨t', ht', haddr'⟩ | ⟨⟨text, hm⟩, hsome, hsafe⟩
      · exact hs.tunnels t' ht' addr haddr'
      · refine ⟨hsafe, hs.letters letter text addr ?_ hm hsome⟩
        exact Process.mem_items.mpr
          (.inr (.inr (.inr (.inr ⟨.serverMessage letter, by simp [hevents], rfl⟩))))

/-- In every run whose letters carry addresses of `seen`, what is dialled passes the filter. -/
theorem vetted_of_run {config : AppConfig} {labels : List Process.Label}
    (hsees : ∀ l ∈ labels, LetterSees seen l)
    (hrun : (Process.machine config).exec (Process.machine config).init labels = some s) :
    Vetted seen s := by
  refine Machine.exec_invariant (fun s l s' hl hs hstep => hs.step hl hstep) ?_ hsees hrun
  refine ⟨fun letter text addr hletter => ?_, fun t ht => ?_⟩
  · cases hletter
  · cases ht

end Client

/-! ## Airtightness -/

/-- The filter is not bypassed by the addresses of `seen`: it rejects both forms of an IPv4
address or none, and nothing that the server forwards or the client dials is reserved. -/
structure Airtight (seen : IpAddr → Prop) : Prop where
  forms : ∀ a, seen (.v6 (toIpv6Mapped a)) → isSafeExternalAddr (.v4 a) = false →
    isSafeExternalAddr (.v6 (toIpv6Mapped a)) = false
  forwarded : ∀ labels s, (∀ l ∈ labels, FrameSees seen l) →
    Lobby.machine.exec Lobby.machine.init labels = some s →
    ∀ c text addr, .peerUPnPAddr text ∈ accepted s.outboxes c →
      parseSocketAddr text = some addr → reachesReserved addr.ip = false
  dialled : ∀ config labels s, (∀ l ∈ labels, LetterSees seen l) →
    (Process.machine config).exec (Process.machine config).init labels = some s →
    ∀ t ∈ s.tunnels, ∀ addr, t.upnpAddr = some addr → reachesReserved addr.ip = false

/-- An accepted address of `seen` is not reserved when `seen` has no reserved one in the IPv6
form. -/
theorem unreserved_of_safe {seen : IpAddr → Prop} {ip : IpAddr}
    (hforms : ∀ a, seen (.v6 (toIpv6Mapped a)) → Subnet.rejects reservedV4 a = false)
    (hsafe : isSafeExternalAddr ip = true) (hseen : seen ip) : reachesReserved ip = false := by
  rw [Bool.eq_false_iff]
  intro hreaches
  obtain ⟨a, hreserved, rfl⟩ := (reachesReserved_of_safe hsafe).mp hreaches
  rw [hforms a hseen] at hreserved
  cases hreserved

/-- The filter is bypassed by the IPv6 forms of reserved addresses, and by no others. -/
theorem airtight_iff (seen : IpAddr → Prop) :
    Airtight seen ↔ ∀ a, seen (.v6 (toIpv6Mapped a)) → Subnet.rejects reservedV4 a = false := by
  constructor
  · intro hairtight a hseen
    rw [Bool.eq_false_iff]
    intro hreserved
    have hrejected : isSafeExternalAddr (.v4 a) = false := by
      rw [isSafeExternalAddr_v4, hreserved]
      rfl
    have hmapped := hairtight.forms a hseen hrejected
    rw [isSafeExternalAddr_mapped] at hmapped
    cases hmapped
  · intro hforms
    refine ⟨fun a hseen hrejected => ?_, ?_, ?_⟩
    · rw [isSafeExternalAddr_v4, hforms a hseen] at hrejected
      cases hrejected
    · intro labels s hsees hrun c text addr htext haddr
      obtain ⟨addr', haddr', hsafe, hseen⟩ := (screened_of_run hsees hrun).sent c text htext
      obtain rfl : addr' = addr := Option.some.inj (haddr'.symm.trans haddr)
      exact unreserved_of_safe hforms hsafe hseen
    · intro config labels s hsees hrun t ht addr haddr
      have ht' : t.dials ∈ s.dialler.tunnels := List.mem_map_of_mem ht
      obtain ⟨hsafe, hseen⟩ := (vetted_of_run hsees hrun).tunnels t.dials ht' addr haddr
      exact unreserved_of_safe hforms hsafe hseen

/-! ## A bypass -/

/-- The IPv6 form of the loopback address, and a port. -/
def mappedLoopback : String := "[::ffff:127.0.0.1]:6113"

/-- The address that it denotes. -/
def mappedLoopbackAddr : SocketAddr := ⟨.v6 (toIpv6Mapped 0x7f000001), 6113⟩

example : parseSocketAddr mappedLoopback = some mappedLoopbackAddr := by decide

/-- A host whose room was joined says that it is mapped to that address. -/
def mapsLoopback : List Lobby.Label :=
  Lobby.registers 0 "a" ++ Lobby.createsRoom 0 "r" ++ Lobby.registers 1 "b" ++
    Lobby.reservesSlot 1 "r" ++ Lobby.joinsRoom 1 "t" ++
    [.frame 0 (.text 80 (some (.upnpMapped mappedLoopback "t")) (some mappedLoopbackAddr.ip)),
      .block 0 "", .block 0 ""]

/-- A client joins a room, and is told that address. -/
def dialsLoopback : List Process.Label :=
  [.connect true, .reply (.roomUpdate [Process.foundRoom]) none false, .deliver, .poll, .poll] ++
    Process.framed (.join Process.foundRoom) ++
    [.sendNext true, .sendNext true, .serve, .served, .serve,
      .reply (.joinResult true (some "r") (some "t") (some [1])) none true, .deliver, .poll,
      .reply (.peerUPnPAddr mappedLoopback) (some mappedLoopbackAddr) false, .deliver, .poll]

/-- The server forwards the IPv6 form of the loopback address, and the client dials it. -/
theorem not_airtight : (∃ s, Lobby.machine.Reachable s ∧
      .peerUPnPAddr mappedLoopback ∈ accepted s.outboxes 1) ∧
    (∃ s, (Process.machine Process.somebody).Reachable s ∧
      s.tunnels.map (·.upnpAddr) = [some mappedLoopbackAddr]) ∧ ¬ Airtight fun _ => True := by
  refine ⟨?_, ?_, fun hairtight => ?_⟩
  · have hrun : (Lobby.machine.exec Lobby.machine.init mapsLoopback).any
        (fun s => .peerUPnPAddr mappedLoopback ∈ accepted s.outboxes 1) = true := by decide
    obtain ⟨s, _, hreach, htest⟩ := Machine.exists_reachable_of_exec hrun
    exact ⟨s, hreach, of_decide_eq_true htest⟩
  · have hrun : ((Process.machine Process.somebody).exec (Process.machine Process.somebody).init
        dialsLoopback).any (fun s => s.tunnels.map (·.upnpAddr) = [some mappedLoopbackAddr]) =
          true := by decide
    obtain ⟨s, _, hreach, htest⟩ := Machine.exists_reachable_of_exec hrun
    exact ⟨s, hreach, of_decide_eq_true htest⟩
  · have hmapped := hairtight.forms 0x7f000001 trivial (by decide)
    rw [isSafeExternalAddr_mapped] at hmapped
    cases hmapped

end War3BattleTool.System

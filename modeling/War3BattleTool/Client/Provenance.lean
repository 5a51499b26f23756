import Mathlib.Data.List.Forall2
import War3BattleTool.Client.Dialling
import War3BattleTool.Foundation.Feed

set_option autoImplicit false

/-!
# Whose addresses a tunnel was given

A `StunInfo` and a `PeerUPnPAddr` do not say which join they are about, and the app keeps what
they bring in slots that all its tunnels share.  `Notes` follows that the source leaves out: of
which join the address in the slot is, and those that the tunnels were given.  `slots` says
in which order messages may be read so that every tunnel is given its own (`Traced.handle`).
-/

namespace War3BattleTool.Client

open War3BattleTool.Foundation War3BattleTool.Protocol

/-- A message to a client, with the token of the join that it is about. -/
structure Parcel where
  message : ServerMessage
  token : Option String
  deriving DecidableEq

/-- The joins that the two addresses of a tunnel were issued for. -/
structure Origin where
  peer : Option String
  addr : Option String
  deriving DecidableEq

/-- The join of the address in the slot `peer_addr`, and the last join that the server confirmed
to the app. -/
structure Slots where
  slot : Option String
  last : Option String
  deriving DecidableEq

/-- What the slots and the tunnels of the app stand for, and whether the last join that the server
confirmed has started a tunnel. -/
structure Notes extends Slots where
  started : Bool
  origins : List Origin
  deriving DecidableEq

namespace Notes

/-- The app starts with empty slots. -/
def start : Notes where
  slot := none
  last := none
  started := true
  origins := []

/-- A tunnel is started, and takes the address in the slot. -/
def startTunnel (n : Notes) : Notes :=
  { n with
    slot := none
    origins := n.origins ++ [⟨n.slot, none⟩] }

/-- The server has confirmed a join. -/
def confirm (n : Notes) (token : String) (started : Bool) : Notes :=
  { n with
    last := some token
    started := started }

/-- An address goes to the tunnel that waits for one. -/
def sendAddr (n : Notes) (upnpAddrSender : Option TunnelId) (token : Option String) : Notes :=
  match upnpAddrSender with
  | some k => { n with origins := n.origins.modify k fun o => { o with addr := token } }
  | none => n

/-- A message of the server, beside `Dialler.handle`. -/
def handle (n : Notes) (d : Dialler) (waits : Bool) (p : Parcel)
    (externalAddr : Option SocketAddr) : Notes :=
  match p.message with
  | .stunInfo _ => { n with slot := p.token }
  | .playerJoined _ _ | .tunnelReady _ => n.startTunnel
  | .joinResult true _ (some token) (some _) =>
      if waits then n.startTunnel.confirm token true else n.confirm token false
  | .joinResult true _ (some token) none => n.confirm token false
  | .peerUPnPAddr _ =>
      match externalAddr.filter (isSafeExternalAddr ·.ip) with
      | some _ => n.sendAddr d.upnpAddrSender p.token
      | none => n
  | _ => n

end Notes

/-- What was issued for the tunnel of a joiner was issued for its join. -/
structure IssuedFor (t : Dials) (o : Origin) : Prop where
  peer : t.role = .joiner → t.peerAddr.isSome = true → o.peer = some t.token
  addr : t.role = .joiner → t.upnpAddr.isSome = true → o.addr = some t.token

/-! ## Reading in order -/

/-- What a message may do to the slots, and what it asks of them.  Whether a `JoinResult` takes
the address in the slot depends on the app. -/
def slots : Reader Slots Parcel where
  moves x p y :=
    match p.message with
    | .stunInfo _ => y = { x with slot := p.token }
    | .playerJoined _ _ | .tunnelReady _ => y = { x with slot := none }
    | .joinResult true _ (some token) _ =>
        (y.slot = x.slot ∨ y.slot = none) ∧ y.last = some token
    | _ => y = x
  meets x p :=
    match p.message with
    | .stunInfo _ => p.token.isSome = true
    | .joinResult true _ (some token) (some _) => x.slot = none ∨ x.slot = some token
    | .peerUPnPAddr _ => ∃ token, p.token = some token ∧ x.last = some token
    | _ => True

/-- The notes are right about the slots and the tunnels. -/
structure Traced (d : Dialler) (n : Notes) : Prop where
  slot : d.peerAddr.isSome = true → n.slot.isSome = true
  sender : n.started = true → ∀ k, d.upnpAddrSender = some k →
    ∃ t, d.tunnels[k]? = some t ∧ n.last = some t.token
  issued : List.Forall₂ IssuedFor d.tunnels n.origins

variable {d : Dialler} {n : Notes} {waits : Bool} {p : Parcel} {externalAddr : Option SocketAddr}

theorem moves_handle : slots.moves n.toSlots p (n.handle d waits p externalAddr).toSlots := by
  obtain ⟨m, tag⟩ := p
  cases m with
  | joinResult success room token gameinfo =>
      cases success with
      | false => exact rfl
      | true =>
          cases token with
          | none => exact rfl
          | some token =>
              cases gameinfo with
              | none => exact ⟨.inl rfl, rfl⟩
              | some gameinfo =>
                  cases waits with
                  | true => exact ⟨.inr rfl, rfl⟩
                  | false => exact ⟨.inl rfl, rfl⟩
  | peerUPnPAddr text =>
      simp only [slots, Notes.handle]
      split
      · unfold Notes.sendAddr
        split <;> rfl
      · rfl
  | _ => exact rfl

/-! ## Every tunnel is given its own -/

theorem forall₂_modify {α β : Type} {R : α → β → Prop} {f : α → α} {g : β → β} {xs : List α}
    {ys : List β} {k : Nat} (h : List.Forall₂ R xs ys)
    (hk : ∀ x y, xs[k]? = some x → R x y → R (f x) (g y)) :
    List.Forall₂ R (xs.modify k f) (ys.modify k g) := by
  induction h generalizing k with
  | nil => simp
  | @cons x y xs ys hxy hrest ih =>
      cases k with
      | zero => exact .cons (hk x y rfl hxy) hrest
      | succ k => exact .cons hxy (ih fun x' y' hx' => hk x' y' hx')

/-- A host's tunnel may be given anything. -/
theorem Traced.startHost {token : String} (h : Traced d n) :
    Traced (d.startTunnel .host token) n.startTunnel where
  slot := nofun
  sender := by
    intro hstarted k hk
    obtain ⟨t, ht, hlast⟩ := h.sender hstarted k hk
    exact ⟨t, List.getElem?_append_left (List.getElem?_eq_some_iff.mp ht).1 ▸ ht, hlast⟩
  issued := List.rel_append h.issued (.cons ⟨nofun, nofun⟩ .nil)

/-- A joiner's tunnel takes the address of its own join, or none. -/
theorem Traced.startJoiner {token : String} (hslot : n.slot = none ∨ n.slot = some token)
    (h : Traced d n) : Traced (d.startJoiner token) (n.startTunnel.confirm token true) where
  slot := nofun
  sender := by
    intro _ k hk
    cases hk
    exact ⟨_, List.getElem?_concat_length, rfl⟩
  issued := by
    refine List.rel_append h.issued (.cons ⟨fun _ hpeer => ?_, nofun⟩ .nil)
    refine hslot.resolve_left fun hnone => ?_
    have hsome := h.slot hpeer
    rw [hnone] at hsome
    cases hsome

/-- A confirmed join starts no tunnel. -/
theorem Traced.confirm {token : String} (h : Traced d n) :
    Traced d (n.confirm token false) where
  slot := h.slot
  sender := nofun
  issued := h.issued

/-- The tunnel that waits for an address is that of the join that the address is about. -/
theorem Traced.sendAddr {addr : SocketAddr} {token : String} (hlast : n.last = some token)
    (hwaits : n.started = true ∨ d.upnpAddrSender = none) (h : Traced d n) :
    Traced (d.sendAddr addr) (n.sendAddr d.upnpAddrSender (some token)) := by
  unfold Dialler.sendAddr Notes.sendAddr
  cases hk : d.upnpAddrSender with
  | none => exact h
  | some k =>
      rw [hk] at hwaits
      have hstarted : n.started = true := hwaits.resolve_right nofun
      obtain ⟨t, ht, hown⟩ := h.sender hstarted k hk
      refine ⟨h.slot, fun _ _ => nofun, forall₂_modify h.issued fun t' o ht' hold => ?_⟩
      obtain rfl : t = t' := Option.some.inj (ht.symm.trans ht')
      refine ⟨hold.peer, fun _ _ => ?_⟩
      rw [← hlast, hown]

/-- A message that is read in order gives every tunnel its own addresses; one with an address
finds that the last confirmed join has started its tunnel, or that no tunnel waits. -/
theorem Traced.handle (hmeets : slots.meets n.toSlots p)
    (hwaits : (∃ text, p.message = .peerUPnPAddr text) →
      n.started = true ∨ d.upnpAddrSender = none) (h : Traced d n) :
    Traced (d.handle waits p.message externalAddr) (n.handle d waits p externalAddr) := by
  obtain ⟨m, tag⟩ := p
  cases m with
  | stunInfo peerAddr => exact ⟨fun _ => hmeets, h.sender, h.issued⟩
  | playerJoined nickname token | tunnelReady token => exact h.startHost
  | joinResult success room token gameinfo =>
      cases success with
      | false => cases token <;> cases gameinfo <;> cases waits <;> exact h
      | true =>
          cases token with
          | none => exact h
          | some token =>
              cases gameinfo with
              | none => exact h.confirm
              | some gameinfo =>
                  cases waits with
                  | true => exact h.startJoiner hmeets
                  | false => exact h.confirm
  | peerUPnPAddr text =>
      obtain ⟨token, htoken, hlast⟩ := hmeets
      obtain rfl : tag = some token := htoken
      simp only [Dialler.handle, Notes.handle]
      cases externalAddr.filter (isSafeExternalAddr ·.ip) with
      | none => exact h
      | some addr => exact h.sendAddr hlast (hwaits ⟨text, rfl⟩)
  | _ => exact h

/-! ## Sending in order -/

/-- What the queue of a connection has taken: the join of the last `StunInfo`, none after a
message that makes the app start a host's tunnel, and the last join that was confirmed. -/
structure Heard where
  slot : Option (Option String)
  last : Option String

namespace Heard

/-- The queue has taken nothing. -/
def start : Heard := ⟨none, none⟩

/-- The queue takes a message. -/
def hear (x : Heard) (p : Parcel) : Heard :=
  match p.message with
  | .stunInfo _ => { x with slot := some p.token }
  | .playerJoined _ _ | .tunnelReady _ => { x with slot := some none }
  | .joinResult true _ (some token) _ => { x with last := some token }
  | _ => x

/-- The message is in order.  The result of a join follows the `StunInfo` of that join with no
other between them, and the address of a host follows the result of its join with no other
between them. -/
def admits (x : Heard) (p : Parcel) : Bool :=
  match p.message with
  | .joinResult true _ (some token) (some _) => x.slot = some none || x.slot = some (some token)
  | .peerUPnPAddr _ => p.token.isSome && x.last = p.token
  | _ => true

/-- The messages are in order, one after the other. -/
def admitsAll : Heard → List Parcel → Bool
  | _, [] => true
  | x, p :: rest => x.admits p && (x.hear p).admitsAll rest

/-- The slots of an app that has read all that the queue has taken. -/
structure Fits (x : Heard) (y : Slots) : Prop where
  slot : ∀ token, x.slot = some token → y.slot = none ∨ y.slot = token
  last : ∀ token, x.last = some token → y.last = some token

theorem fits_start (y : Slots) : start.Fits y := ⟨nofun, nofun⟩

variable {x : Heard} {y : Slots}

/-- A message that is sent in order is read in order. -/
theorem Fits.meets (htoken : ∀ peerAddr, p.message = .stunInfo peerAddr → p.token.isSome = true)
    (hadmits : x.admits p = true) (h : x.Fits y) : slots.meets y p := by
  obtain ⟨m, tag⟩ := p
  cases m with
  | stunInfo peerAddr => exact htoken peerAddr rfl
  | joinResult success room token gameinfo =>
      cases success <;> cases token <;> cases gameinfo <;> try exact trivial
      next token gameinfo =>
        simp only [admits, Bool.or_eq_true, decide_eq_true_eq] at hadmits
        rcases hadmits with hnone | hown
        · exact .inl ((h.slot none hnone).elim id id)
        · exact h.slot (some token) hown
  | peerUPnPAddr text =>
      simp only [admits, Bool.and_eq_true, decide_eq_true_eq] at hadmits
      obtain ⟨token, htag⟩ := Option.isSome_iff_exists.mp hadmits.1
      exact ⟨token, htag, h.last token (hadmits.2.trans htag)⟩
  | _ => exact trivial

/-- What the app makes of a message fits what the queue has heard. -/
theorem Fits.hear {z : Slots} (hmoves : slots.moves y p z) (h : x.Fits y) : (x.hear p).Fits z := by
  obtain ⟨m, tag⟩ := p
  cases m with
  | stunInfo peerAddr =>
      cases hmoves
      exact ⟨fun token htoken => .inr (Option.some.inj htoken), h.last⟩
  | playerJoined nickname token | tunnelReady token =>
      cases hmoves
      exact ⟨fun _ _ => .inl rfl, h.last⟩
  | joinResult success room token gameinfo =>
      cases success with
      | false =>
          cases hmoves
          exact h
      | true =>
          cases token with
          | none =>
              cases hmoves
              exact h
          | some token =>
              obtain ⟨hslot, hlast⟩ := hmoves
              refine ⟨fun token' htoken' => ?_, fun token' htoken' => hlast.trans htoken'⟩
              rcases hslot with hkept | htaken
              · rw [hkept]
                exact h.slot token' htoken'
              · exact .inl htaken
  | _ =>
      cases hmoves
      exact h

/-- Messages that are sent in order are read in order. -/
theorem along_of_admitsAll {ps : List Parcel}
    (htoken : ∀ p ∈ ps, ∀ peerAddr, p.message = .stunInfo peerAddr → p.token.isSome = true)
    (hadmits : x.admitsAll ps = true) (h : x.Fits y) :
    slots.Along (ps.foldl hear x).Fits ps y := by
  induction ps generalizing x y with
  | nil => exact h
  | cons p rest ih =>
      rw [admitsAll, Bool.and_eq_true] at hadmits
      refine ⟨h.meets (htoken p List.mem_cons_self) hadmits.1, fun z hz => ?_⟩
      exact ih (fun q hq => htoken q (List.mem_cons_of_mem p hq)) hadmits.2 (h.hear hz)

end Heard

end War3BattleTool.Client

import War3BattleTool.Client.Gameinfo
import War3BattleTool.Client.Operations
import War3BattleTool.Server.AppState

set_option autoImplicit false

/-!
# What the project's own clients send

The web viewer page registers under a nickname made from `uuid()`; the native client creates
a room with the names that it finds in a captured packet.  Both are held against
`ClientMessage::validate`, which is written for any client.
-/

namespace War3BattleTool.System

open War3BattleTool.Foundation War3BattleTool.Protocol War3BattleTool.Server
open War3BattleTool.Client

/-! ## The web viewer page (`web/join/index.html`) -/

/-- The version and the variant of a random UUID. -/
def stamped (i : Fin 16) (b : UInt8) : UInt8 :=
  if i = 6 then (b &&& 0x0F) ||| 0x40
  else if i = 8 then (b &&& 0x3F) ||| 0x80
  else b

/-- A byte in hexadecimal, behind a hyphen where a group of digits begins. -/
def uuidByte (i : Fin 16) (b : UInt8) : List Char :=
  (if i = 4 ∨ i = 6 ∨ i = 8 ∨ i = 10 then ['-'] else []) ++
    [Nat.digitChar (b.toNat / 16), Nat.digitChar (b.toNat % 16)]

/-- `crypto.randomUUID()`, from sixteen random bytes. -/
def randomUuid (bytes : Fin 16 → UInt8) : List Char :=
  (List.finRange 16).flatMap fun i => uuidByte i (stamped i (bytes i))

/-- `replace(/x/g, …)`: the `k`-th `x` becomes the `k`-th digit drawn. -/
def replaceX (draw : Nat → Fin 16) : Nat → List Char → List Char
  | _, [] => []
  | k, c :: rest =>
      if c = 'x' then Nat.digitChar (draw k) :: replaceX draw (k + 1) rest
      else c :: replaceX draw k rest

/-- What `uuid()` returns: with `crypto.randomUUID`, and without. -/
inductive ViewerId where
  | random (bytes : Fin 16 → UInt8)
  | fallback (draw : Nat → Fin 16)

/-- `uuid()`. -/
def ViewerId.text : ViewerId → List Char
  | .random bytes => randomUuid bytes
  | .fallback draw => replaceX draw 0 "xxxx-xxxx".toList

/-- The id was made without `crypto.randomUUID`. -/
def ViewerId.IsFallback : ViewerId → Prop
  | .random _ => False
  | .fallback _ => True

/-- The nickname of a viewer. -/
def viewerNickname (id : ViewerId) : String :=
  "__web-viewer-" ++ String.ofList id.text ++ "__"

/-- The `Register` that the page sends when it is connected. -/
def viewerRegister (id : ViewerId) : ClientMessage := .register (viewerNickname id) .v127 none

theorem randomUuid_length (bytes : Fin 16 → UInt8) : (randomUuid bytes).length = 36 := by
  have hlength : ∀ i, (uuidByte i (stamped i (bytes i))).length =
      (if i = 4 ∨ i = 6 ∨ i = 8 ∨ i = 10 then 1 else 0) + 2 := by
    intro i
    rw [uuidByte, List.length_append]
    split
    · rfl
    · rfl
  rw [randomUuid, List.length_flatMap]
  simp only [hlength]
  decide

theorem replaceX_length (draw : Nat → Fin 16) (k : Nat) (cs : List Char) :
    (replaceX draw k cs).length = cs.length := by
  induction cs generalizing k with
  | nil => rfl
  | cons c rest ih =>
      rw [replaceX]
      split
      · rw [List.length_cons, ih, List.length_cons]
      · rw [List.length_cons, ih, List.length_cons]

theorem viewerNickname_length (id : ViewerId) :
    (viewerNickname id).length = id.text.length + 15 := by
  have hends : "__web-viewer-".length = 13 ∧ "__".length = 2 := by decide
  rw [viewerNickname, String.length_append, String.length_append, hends.1, hends.2,
    String.length_ofList]
  omega

/-- The server takes every viewer for one. -/
theorem isWebViewerName_viewerNickname (id : ViewerId) :
    isWebViewerName (viewerNickname id) = true := by
  rw [isWebViewerName, List.isPrefixOf_iff_prefix, viewerNickname, String.append_assoc,
    String.toList_append]
  exact List.prefix_append _ _

theorem not_isBlank_viewerNickname (id : ViewerId) : isBlank (viewerNickname id) = false := by
  rw [isBlank, List.all_eq_false]
  refine ⟨'_', ?_, by decide⟩
  rw [viewerNickname, String.append_assoc, String.toList_append]
  exact List.mem_append_left _ (by decide)

/-- A nickname with a whole UUID is too long. -/
theorem viewerRegister_random (bytes : Fin 16 → UInt8) :
    (viewerRegister (.random bytes)).validate = .error "暱稱超過長度限制" := by
  have hlong : maxNicknameLen < (viewerNickname (.random bytes)).length := by
    rw [viewerNickname_length, ViewerId.text, randomUuid_length]
    decide
  rw [viewerRegister, ClientMessage.validate, firstError, decide_eq_true hlong]
  rfl

theorem viewerRegister_fallback (draw : Nat → Fin 16) :
    (viewerRegister (.fallback draw)).validate = .ok () := by
  have hshort : ¬ maxNicknameLen < (viewerNickname (.fallback draw)).length := by
    rw [viewerNickname_length, ViewerId.text, replaceX_length]
    decide
  rw [viewerRegister, ClientMessage.validate, firstError, decide_eq_false hshort, firstError,
    not_isBlank_viewerNickname]
  rfl

/-! ## The room of a captured packet -/

/-- A packet that `check_room` returns. -/
structure Packet where
  bytes : Bytes
  long : 16 < bytes.length
  short : bytes.length ≤ 1024

/-- A value of the slider for the number of players. -/
structure Slider where
  value : Nat
  low : 2 ≤ value
  high : value ≤ 12

/-- The `CreateRoom` for a packet. -/
def capturedRoom (p : Packet) (n : Slider) : ClientMessage :=
  .createRoom (((parseGameinfo p.bytes).map (·.gameName)).getD "")
    (((parseGameinfo p.bytes).bind (·.mapPath)).getD "") n.value p.bytes

/-- The bytes in front of the first zero from offset 20 on. -/
def nameBytes (p : Packet) : Bytes := (p.bytes.drop 20).takeWhile (· ≠ 0)

/-- The packet is a GAMEINFO with a name that is neither blank nor too long, and its map, if
there is one, has a name that is not too long. -/
structure Presentable (p : Packet) : Prop where
  length : 21 ≤ p.bytes.length
  kind : p.bytes[0]? = some 0xF7 ∧ p.bytes[1]? = some 0x30
  terminated : 0 ∈ p.bytes.drop 20
  named : isBlank (fromUtf8Lossy (nameBytes p)) = false
  short : (fromUtf8Lossy (nameBytes p)).length ≤ 64
  map : ∀ name, decodeStatString p.bytes (20 + (nameBytes p).length + 2) = some name →
    name.length ≤ 128

theorem validate_createRoom {roomName mapName : String} {maxPlayers : Nat} {gameinfo : Bytes} :
    (ClientMessage.createRoom roomName mapName maxPlayers gameinfo).validate = .ok () ↔
      roomName.length ≤ 64 ∧ isBlank roomName = false ∧ mapName.length ≤ 128 ∧
        (2 ≤ maxPlayers ∧ maxPlayers ≤ 12) ∧ gameinfo.length ≤ 1024 := by
  rw [ClientMessage.validate, firstError_eq_ok]
  simp only [List.mem_cons, List.not_mem_nil, or_false, forall_eq_or_imp, forall_eq,
    Bool.or_eq_false_iff, decide_eq_false_iff_not, Nat.not_lt]
  exact Iff.rfl

theorem capturedRoom_valid_iff (p : Packet) (n : Slider) :
    (capturedRoom p n).validate = .ok () ↔ Presentable p := by
  rw [capturedRoom, validate_createRoom]
  constructor
  · rintro ⟨hshort, hnamed, hmap, _, _⟩
    cases hparsed : parseGameinfo p.bytes with
    | none =>
        rw [hparsed] at hnamed
        cases hnamed
    | some fields =>
        rw [hparsed, Option.map_some, Option.getD_some] at hshort hnamed
        rw [hparsed, Option.bind_some] at hmap
        obtain ⟨hlength, hfirst, hsecond, hterminated, hgameName, hmapPath⟩ :=
          parseGameinfo_eq_some.mp hparsed
        rw [hgameName] at hshort hnamed
        refine ⟨hlength, ⟨hfirst, hsecond⟩, hterminated, hnamed, hshort, fun name hname => ?_⟩
        rw [hmapPath, ← nameBytes, hname, Option.getD_some] at hmap
        exact hmap
  · intro hpresentable
    have hparsed : parseGameinfo p.bytes = some ⟨fromUtf8Lossy (nameBytes p),
        decodeStatString p.bytes (20 + (nameBytes p).length + 2)⟩ :=
      parseGameinfo_eq_some.mpr ⟨hpresentable.length, hpresentable.kind.1, hpresentable.kind.2,
        hpresentable.terminated, rfl, rfl⟩
    rw [hparsed, Option.map_some, Option.getD_some, Option.bind_some]
    refine ⟨hpresentable.short, hpresentable.named, ?_, ⟨n.low, n.high⟩, p.short⟩
    cases hmap : decodeStatString p.bytes (20 + (nameBytes p).length + 2) with
    | none => exact (by decide : "".length ≤ 128)
    | some name => exact hpresentable.map name hmap

/-- The map of a packet of at most 183 bytes has a short name. -/
theorem map_of_length {p : Packet} (hlength : p.bytes.length ≤ 183) {name : String}
    (h : decodeStatString p.bytes (20 + (nameBytes p).length + 2) = some name) :
    name.length ≤ 128 := by
  have hle := decodeStatString_length_le h
  omega

/-- A room of the game is created under its own name when the packet is not longer than that. -/
theorem capturedRoom_named {p : Packet} {n : Slider} {header rest : Bytes} {name : String}
    (hbytes : p.bytes = header ++ utf8Bytes name ++ 0 :: rest) (hheader : header.length = 20)
    (hkind : header[0]? = some 0xF7 ∧ header[1]? = some 0x30)
    (hname : ∀ c ∈ name.toList, c.toNat ≠ 0) (hnamed : isBlank name = false)
    (hshort : name.length ≤ 64) (hlength : p.bytes.length ≤ 183) :
    (capturedRoom p n).validate = .ok () ∧
      ∃ map, capturedRoom p n = .createRoom name map n.value p.bytes := by
  have hread : (parseGameinfo p.bytes).map (·.gameName) = some name := by
    rw [hbytes]
    exact parseGameinfo_name hheader hkind.1 hkind.2 hname
  obtain ⟨fields, hparsed, hgameName⟩ := Option.map_eq_some_iff.mp hread
  obtain ⟨hlong, hfirst, hsecond, hterminated, hlossy, _⟩ := parseGameinfo_eq_some.mp hparsed
  rw [hgameName] at hlossy
  have hpresentable : Presentable p := by
    refine ⟨hlong, ⟨hfirst, hsecond⟩, hterminated, ?_, ?_,
      fun map hmap => map_of_length hlength hmap⟩
    · rw [nameBytes, ← hlossy]
      exact hnamed
    · rw [nameBytes, ← hlossy]
      exact hshort
  refine ⟨(capturedRoom_valid_iff p n).mpr hpresentable, fields.mapPath.getD "", ?_⟩
  rw [capturedRoom, hparsed, Option.map_some, Option.getD_some, Option.bind_some, hgameName]

/-! ## Both clients -/

/-- What the two clients send passes `validate`, and a viewer is known as one. -/
structure Accepted (id : ViewerId) (p : Packet) (n : Slider) : Prop where
  viewer : (viewerRegister id).validate = .ok ()
  known : isWebViewerName (viewerNickname id) = true
  room : (capturedRoom p n).validate = .ok ()

/-- A viewer is accepted when its browser has no `crypto.randomUUID`, a room when its packet
is presentable. -/
theorem accepted_iff (id : ViewerId) (p : Packet) (n : Slider) :
    Accepted id p n ↔ id.IsFallback ∧ Presentable p := by
  constructor
  · intro haccepted
    refine ⟨?_, (capturedRoom_valid_iff p n).mp haccepted.room⟩
    have hviewer := haccepted.viewer
    cases id with
    | random bytes =>
        rw [viewerRegister_random] at hviewer
        cases hviewer
    | fallback draw => trivial
  · rintro ⟨hfallback, hpresentable⟩
    refine ⟨?_, isWebViewerName_viewerNickname id, (capturedRoom_valid_iff p n).mpr hpresentable⟩
    cases id with
    | random bytes => cases hfallback
    | fallback draw => exact viewerRegister_fallback draw

/-- Seventeen zeros: long enough for `check_room`, and no GAMEINFO. -/
def zeros : Packet := ⟨List.replicate 17 0, by decide, by decide⟩

/-- Two players. -/
def fewest : Slider := ⟨2, by decide, by decide⟩

/-- A viewer with a UUID, and a room made from a reply that is no GAMEINFO. -/
theorem not_always_accepted :
    (viewerRegister (.random fun _ => 0)).validate = .error "暱稱超過長度限制" ∧
      (capturedRoom zeros fewest).validate = .error "房間名稱不能為空" ∧
      ∀ draw, ¬ Accepted (.random fun _ => 0) zeros fewest ∧
        ¬ Accepted (.fallback draw) zeros fewest := by
  have hroom : (capturedRoom zeros fewest).validate = .error "房間名稱不能為空" := by decide
  refine ⟨viewerRegister_random _, hroom, fun draw => ⟨fun haccepted => ?_, fun haccepted => ?_⟩⟩
  · have hviewer := haccepted.viewer
    rw [viewerRegister_random] at hviewer
    cases hviewer
  · have hvalid := haccepted.room
    rw [hroom] at hvalid
    cases hvalid

/-! ## Every room that the native client creates -/

/-- `check_room` fails, or returns a packet, and `parse_gameinfo` reads what it returned. -/
def Faithful : Process.Label → Prop
  | .captured _ gameinfo fields =>
      (gameinfo = [] ∨ 16 < gameinfo.length ∧ gameinfo.length ≤ 1024) ∧
        fields = parseGameinfo gameinfo
  | _ => True

/-- The message is the `CreateRoom` for a packet and a value of the slider. -/
def IsCaptured (m : ClientMessage) : Prop := ∃ p n, m = capturedRoom p n

/-- The captures that run have a value of the slider, and what they found came from a packet. -/
structure Captures (s : Process) : Prop where
  running : ∀ c ∈ s.captures, 2 ≤ c.maxPlayers ∧ c.maxPlayers ≤ 12
  found : ∀ op roomName mapName maxPlayers gameinfo,
    .gameinfoCaptured op roomName mapName maxPlayers gameinfo ∈ s.tunnelEvents →
      gameinfo = [] ∨ IsCaptured (.createRoom roomName mapName maxPlayers gameinfo)

theorem captures_init (config : AppConfig) : Captures (Process.machine config).init where
  running := fun c hc => by cases hc
  found := fun _ _ _ _ _ hmem => by cases hmem

variable {s s' : Process} {l : Process.Label}

/-- What a capture finds is the room of its packet. -/
theorem captures_captured {op : OpId} {gameinfo : Bytes} {fields : Option GameinfoFields}
    (hfaithful : Faithful (.captured op gameinfo fields)) (hs : Captures s)
    (h : s.captured op gameinfo fields = some s') : Captures s' := by
  obtain ⟨c, hc, rfl⟩ := Option.map_eq_some_iff.mp h
  obtain ⟨hpacket, rfl⟩ := hfaithful
  obtain ⟨hlow, hhigh⟩ := hs.running c (List.mem_of_find?_eq_some hc)
  refine ⟨fun c' hc' => hs.running c' (List.mem_of_mem_erase hc'), ?_⟩
  intro op' roomName mapName maxPlayers gameinfo' hmem
  rcases List.mem_append.mp hmem with hold | hnew
  · exact hs.found op' roomName mapName maxPlayers gameinfo' hold
  · cases List.mem_singleton.mp hnew
    rcases hpacket with hnil | ⟨hlong, hshort⟩
    · exact .inl hnil
    · exact .inr ⟨⟨gameinfo, hlong, hshort⟩, ⟨c.maxPlayers, hlow, hhigh⟩, rfl⟩

/-- The slider bounds what the dialog creates. -/
theorem slider_of_input {maxPlayers : Nat} (h : s.input (.create maxPlayers) = some s') :
    2 ≤ maxPlayers ∧ maxPlayers ≤ 12 := by
  unfold Process.input at h
  split at h
  · obtain ⟨next, hnext, _⟩ := Option.map_eq_some_iff.mp h
    simp only [Process.showFrame, Process.click] at hnext
    split at hnext
    · split at hnext
      next hslider =>
        rw [Bool.and_eq_true, Bool.and_eq_true, decide_eq_true_eq, decide_eq_true_eq] at hslider
        exact ⟨hslider.1.2, hslider.2⟩
      next => cases hnext
    · cases hnext
  · cases h

/-- No other step of the app puts a capture's result on the queue. -/
theorem found_of_local (hl : l.isRemote = false)
    (hother : ∀ op gameinfo fields, l ≠ .captured op gameinfo fields) (h : s.step l = some s')
    {op : OpId} {roomName mapName : String} {maxPlayers : Nat} {gameinfo : Bytes}
    (hmem : .gameinfoCaptured op roomName mapName maxPlayers gameinfo ∈ s'.tunnelEvents) :
    .gameinfoCaptured op roomName mapName maxPlayers gameinfo ∈ s.tunnelEvents := by
  rcases (Process.queues_of_local hl h).2 _ hmem with hold | hborn
  · exact hold
  · generalize hi : Item.captured op = i at hborn
    cases hborn i (by rw [← hi]; rfl) with
    | captured => exact absurd rfl (hother _ _ _)
    | _ => cases hi

theorem captures_step (hfaithful : Faithful l) (hs : Captures s) (h : s.step l = some s') :
    Captures s' := by
  cases hl : l.isRemote with
  | true =>
      have hui := Process.keepsUi_of_remote hl h
      constructor
      · rw [hui.captures]
        exact hs.running
      · rw [hui.tunnelEvents]
        exact hs.found
  | false =>
      by_cases hcaptured : ∃ op gameinfo fields, l = .captured op gameinfo fields
      · obtain ⟨op, gameinfo, fields, rfl⟩ := hcaptured
        exact captures_captured hfaithful hs h
      · constructor
        · intro c hc
          rcases (Process.sendsStep_of_local hl h).captures c hc with hold | hnew
          · exact hs.running c hold
          · unfold Process.capturesBegun at hnew
            split at hnew
            next maxPlayers =>
              rw [List.mem_singleton.mp hnew]
              exact slider_of_input h
            next => cases hnew
        · intro op roomName mapName maxPlayers gameinfo hmem
          refine hs.found op roomName mapName maxPlayers gameinfo (found_of_local hl ?_ h hmem)
          exact fun op' gameinfo' fields' heq => hcaptured ⟨op', gameinfo', fields', heq⟩

section

variable {c : Command} {roomName mapName : String} {maxPlayers : Nat} {gameinfo : Bytes}

/-- A `CreateRoom` is queued for a capture that has found something. -/
theorem found_of_queued (hc : c ∈ s.queued l)
    (hmessage : c.message = .createRoom roomName mapName maxPlayers gameinfo) :
    gameinfo ≠ [] ∧
      ∃ op, .gameinfoCaptured op roomName mapName maxPlayers gameinfo ∈ s.tunnelEvents := by
  have hpoll : l = .poll := by
    cases Process.queues_of_mem hc with
    | other _ _ hcreate => exact absurd hmessage (hcreate _ _ _ _)
    | joins => cases hmessage
    | creates => rfl
  rw [hpoll, Process.queued, Process.queuedByPoll] at hc
  split at hc
  · cases hevents : s.events with
    | nil =>
        rw [hevents] at hc
        cases hc
    | cons e rest =>
        rw [hevents, List.head?_cons, Option.map_some, Option.getD_some] at hc
        unfold Process.queuedByNet at hc
        split at hc
        · split at hc
          · rw [(Process.mem_sendable.mp hc).2] at hmessage
            cases hmessage
          · cases hc
        · cases hc
  · cases hmapped : s.upnpMapped with
    | nil =>
        rw [hmapped] at hc
        cases hc
    | cons x rest =>
        rw [hmapped, List.head?_cons, Option.map_some, Option.getD_some] at hc
        rw [(Process.mem_sendable.mp hc).2] at hmessage
        cases hmessage
  · cases htunnelEvents : s.tunnelEvents with
    | nil =>
        rw [htunnelEvents] at hc
        cases hc
    | cons p rest =>
        rw [htunnelEvents, List.head?_cons, Option.map_some, Option.getD_some] at hc
        cases p with
        | tunnel k event => cases hc
        | gameinfoCaptured op roomName' mapName' maxPlayers' gameinfo' =>
            rw [Process.queuedByPosted] at hc
            split at hc
            · cases hc
            next hgameinfo =>
              rw [(Process.mem_sendable.mp hc).2] at hmessage
              cases hmessage
              rw [List.isEmpty_iff] at hgameinfo
              exact ⟨hgameinfo, op, List.mem_cons_self⟩
  · cases hc

/-- In a run with faithful captures, every `CreateRoom` that the client queues for the server
is that of a captured packet, and passes `validate` if and only if that packet is presentable. -/
theorem created_of_exec {config : AppConfig} {labels : List Process.Label}
    (hfaithful : ∀ l ∈ labels, Faithful l)
    (hrun : (Process.machine config).exec (Process.machine config).init labels = some s)
    (hc : c ∈ s.queued l)
    (hmessage : c.message = .createRoom roomName mapName maxPlayers gameinfo) :
    ∃ p n, c.message = capturedRoom p n ∧
      (c.message.validate = .ok () ↔ Presentable p) := by
  have hs : Captures s := Machine.exec_invariant (M := Process.machine config) (I := Captures)
    (fun s l s' hok hs h => captures_step hok hs h) (captures_init config) hfaithful hrun
  obtain ⟨hgameinfo, op, hmem⟩ := found_of_queued hc hmessage
  obtain ⟨p, n, hroom⟩ :=
    (hs.found op roomName mapName maxPlayers gameinfo hmem).resolve_left hgameinfo
  rw [← hmessage] at hroom
  refine ⟨p, n, hroom, ?_⟩
  rw [hroom]
  exact capturedRoom_valid_iff p n

end

end War3BattleTool.System

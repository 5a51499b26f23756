import War3BattleTool.Protocol.MessageText
import War3BattleTool.Server.Requests

set_option autoImplicit false

/-!
# Messages and frames

`validate` bounds the fields of a message in characters and bytes; the receive loop bounds its
frame, in bytes of JSON.  A `CreateRoom` that passes the first check passes the second one just
when its fields, as they are written, take at most 4017 bytes (`admitted_iff`): a byte of the
GAMEINFO may take four.
-/

namespace War3BattleTool.Server

open War3BattleTool.Foundation War3BattleTool.Protocol

/-- The frame of the message is not too large, and a receive loop within its rate begins the
arm of the message. -/
structure Admitted (m : ClientMessage) : Prop where
  fits : m.text.utf8ByteSize ≤ maxMessageSize
  begins : ∀ (s : Lobby) (c : SocketId) (h : Handler) (externalIp : Option IpAddr)
    (hvalid : m.validate = .ok ()), (h.rateLimiter.allow s.now).2 = true →
    s.frame c h (.text m.text.utf8ByteSize (some m) externalIp) =
      let h' : Handler := { h with rateLimiter := (h.rateLimiter.allow s.now).1 }
      (s.put c h').dispatch c h' ⟨m, hvalid⟩ externalIp

/-- A frame that is too large is refused before anything else. -/
theorem refused_of_large {len : Nat} (hlarge : maxMessageSize < len) (s : Lobby) (c : SocketId)
    (h : Handler) (parsed : Option ClientMessage) (externalIp : Option IpAddr) :
    s.frame c h (.text len parsed externalIp) = s.error c "訊息過大" := by
  rw [Lobby.frame, Lobby.text, if_pos hlarge]

/-- A valid message in a frame that is not too large is admitted. -/
theorem admitted_of_fits {m : ClientMessage} (hfits : m.text.utf8ByteSize ≤ maxMessageSize) :
    Admitted m where
  fits := hfits
  begins := by
    intro s c h externalIp hvalid hallowed
    rw [Lobby.frame, Lobby.text, if_neg (Nat.not_lt.mpr hfits)]
    simp only [hallowed, Bool.not_true, Bool.false_eq_true, if_false,
      Lobby.check_eq_ok hvalid]

section CreateRoom

variable {roomName mapName : String} {maxPlayers : Nat} {gameinfo : Bytes}

/-- A `CreateRoom` is admitted just when its fields take at most 4017 bytes. -/
theorem admitted_iff :
    Admitted (.createRoom roomName mapName maxPlayers gameinfo) ↔
      createRoomFields roomName mapName maxPlayers gameinfo ≤ 4017 := by
  have hsize := utf8ByteSize_createRoom roomName mapName maxPlayers gameinfo
  have hlimit : maxMessageSize = 4096 := rfl
  constructor
  · intro hadmitted
    have hfits := hadmitted.fits
    omega
  · intro hfields
    apply admitted_of_fits
    omega

/-- The names of a valid `CreateRoom` leave room for 716 bytes of GAMEINFO, whatever they are. -/
theorem admitted_of_length
    (hvalid : (ClientMessage.createRoom roomName mapName maxPlayers gameinfo).validate = .ok ())
    (hlength : gameinfo.length ≤ 716) :
    Admitted (.createRoom roomName mapName maxPlayers gameinfo) := by
  have htests := firstError_eq_ok.mp hvalid
  simp only [List.mem_cons, List.not_mem_nil, or_false, forall_eq_or_imp, forall_eq,
    decide_eq_false_iff_not, Nat.not_lt] at htests
  obtain ⟨hroom, _, hmap, _, _⟩ := htests
  have hplayers := (maxPlayers_of_validate hvalid).2
  have hroomSize := Json.contentSize_le roomName
  have hmapSize := Json.contentSize_le mapName
  have hplayersSize : Json.digits maxPlayers ≤ 2 := Json.digits_le (by decide) (by omega)
  have hgameinfoSize := digits_bytes_le gameinfo
  rw [admitted_iff, createRoomFields]
  simp only [maxRoomNameLen, maxMapNameLen] at hroom hmap
  omega

end CreateRoom

/-- A GAMEINFO as long as `validate` allows, of bytes with three digits. -/
def longGameinfo : Bytes := List.replicate maxGameinfoLen 255

/-- `validate` accepts the message; the receive loop refuses its frame. -/
theorem not_always_admitted :
    (ClientMessage.createRoom "r" "m" 2 longGameinfo).validate = .ok () ∧
      ¬ Admitted (.createRoom "r" "m" 2 longGameinfo) ∧
      ∀ (s : Lobby) (c : SocketId) (h : Handler) (externalIp : Option IpAddr),
        s.frame c h (.text (ClientMessage.createRoom "r" "m" 2 longGameinfo).text.utf8ByteSize
          (some (.createRoom "r" "m" 2 longGameinfo)) externalIp) = s.error c "訊息過大" := by
  have hfields : createRoomFields "r" "m" 2 longGameinfo = 4098 := by
    have hdigits : Json.digits (255 : UInt8).toNat = 3 := by decide
    have hnames : Json.contentSize "r" = 1 ∧ Json.contentSize "m" = 1 ∧ Json.digits 2 = 1 := by
      decide
    obtain ⟨hroom, hmap, hplayers⟩ := hnames
    simp only [createRoomFields, longGameinfo, maxGameinfoLen, hroom, hmap, hplayers,
      List.map_replicate, hdigits, List.sum_replicate, List.length_replicate]
    rfl
  refine ⟨?_, ?_, fun s c h externalIp => ?_⟩
  · refine firstError_eq_ok.mpr ?_
    have hnames : ("r".length ≤ maxRoomNameLen ∧ isBlank "r" = false) ∧
        "m".length ≤ maxMapNameLen := by decide
    simp [longGameinfo, hnames]
  · rw [admitted_iff, hfields]
    omega
  · apply refused_of_large
    rw [utf8ByteSize_createRoom, hfields]
    decide

end War3BattleTool.Server

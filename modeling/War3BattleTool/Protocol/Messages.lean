import War3BattleTool.Foundation.Net

set_option autoImplicit false

/-!
# The lobby protocol (`protocol/src/messages.rs`)

The messages between a client and the lobby server, and `ClientMessage::validate`,
the check of the fields of a message.
-/

namespace War3BattleTool.Protocol

open War3BattleTool.Foundation

/-- `War3Version`: the supported versions of the game. -/
inductive War3Version where
  | v127
  | v129c
  deriving DecidableEq

/-- `MAX_NICKNAME_LEN`, in characters. -/
def maxNicknameLen : Nat := 32

/-- `MAX_ROOM_NAME_LEN`, in characters. -/
def maxRoomNameLen : Nat := 64

/-- `MAX_MAP_NAME_LEN`, in characters. -/
def maxMapNameLen : Nat := 128

/-- `MAX_GAMEINFO_LEN`, in bytes. -/
def maxGameinfoLen : Nat := 1024

/-- `MAX_EXTERNAL_ADDR_LEN`, in bytes. -/
def maxExternalAddrLen : Nat := 64

/-- The most bytes a `room_id` may have. -/
def maxRoomIdLen : Nat := 64

/-- From client to server.  `maxPlayers` is a `u8`, `ts` a `u64`. -/
inductive ClientMessage where
  | register (nickname : String) (war3Version : War3Version) (clientVersion : Option String)
  | heartbeat
  | createRoom (roomName mapName : String) (maxPlayers : Nat) (gameinfo : Bytes)
  | closeRoom
  | joinRoom (roomId : String)
  | ping (ts : Nat)
  | upnpMapped (externalAddr tunnelToken : String)
  deriving DecidableEq

/-- An entry of the player list. -/
structure PlayerInfo where
  playerId : String
  nickname : String
  war3Version : War3Version
  isHosting : Bool
  deriving DecidableEq

/-- An entry of the room list. -/
structure RoomInfo where
  roomId : String
  hostNickname : String
  roomName : String
  mapName : String
  maxPlayers : Nat
  currentPlayers : Nat
  war3Version : War3Version
  deriving DecidableEq

/-- From server to client.  The addresses of `stunInfo` and `yourObservedAddr` stand
for their text. -/
inductive ServerMessage where
  | welcome (playerId : String)
  | playerUpdate (players : List PlayerInfo)
  | roomUpdate (rooms : List RoomInfo)
  | joinResult (success : Bool) (roomId tunnelToken : Option String) (gameinfo : Option Bytes)
  | playerJoined (nickname tunnelToken : String)
  | tunnelReady (tunnelToken : String)
  | stunInfo (peerAddr : IpAddr)
  | pong (ts : Nat)
  | peerUPnPAddr (externalAddr : String)
  | yourObservedAddr (ip : IpAddr)
  | error (message : String)
  | unknown
  deriving DecidableEq

/-- `ServerMessage::join_failure`. -/
def ServerMessage.joinFailure : ServerMessage := .joinResult false none none none

/-- The characters that `str::trim` removes: Unicode `White_Space`. -/
def isWhiteSpace (c : Char) : Bool :=
  (0x09 ≤ c.val && c.val ≤ 0x0D) || c.val = 0x20 || c.val = 0x85 || c.val = 0xA0 ||
    c.val = 0x1680 || (0x2000 ≤ c.val && c.val ≤ 0x200A) || c.val = 0x2028 ||
    c.val = 0x2029 || c.val = 0x202F || c.val = 0x205F || c.val = 0x3000

/-- `s.trim().is_empty()`. -/
def isBlank (s : String) : Bool := s.toList.all isWhiteSpace

/-- The first failing test of a list of tests, each with the text of its error. -/
def firstError : List (Bool × String) → Except String Unit
  | [] => .ok ()
  | (failed, text) :: rest => if failed then .error text else firstError rest

theorem firstError_eq_ok {tests : List (Bool × String)} :
    firstError tests = .ok () ↔ ∀ test ∈ tests, test.1 = false := by
  induction tests with
  | nil => simp [firstError]
  | cons test rest ih =>
      obtain ⟨failed, text⟩ := test
      cases failed <;> simp [firstError, ih]

/-- `ClientMessage::validate`. -/
def ClientMessage.validate : ClientMessage → Except String Unit
  | .register nickname _ _ =>
      firstError [
        (maxNicknameLen < nickname.length, "暱稱超過長度限制"),
        (isBlank nickname, "暱稱不能為空")]
  | .createRoom roomName mapName maxPlayers gameinfo =>
      firstError [
        (maxRoomNameLen < roomName.length, "房間名稱超過長度限制"),
        (isBlank roomName, "房間名稱不能為空"),
        (maxMapNameLen < mapName.length, "地圖名稱超過長度限制"),
        (maxPlayers < 2 || 12 < maxPlayers, "玩家數量必須在 2-12 之間"),
        (maxGameinfoLen < gameinfo.length, "GAMEINFO 超過大小限制")]
  | .joinRoom roomId =>
      firstError [(maxRoomIdLen < roomId.utf8ByteSize, "room_id 超過長度限制")]
  | .upnpMapped externalAddr tunnelToken =>
      firstError [
        (maxExternalAddrLen < externalAddr.utf8ByteSize, "external_addr 超過長度限制"),
        (isBlank externalAddr, "external_addr 不能為空"),
        (isBlank tunnelToken, "tunnel_token 不能為空")]
  | .heartbeat | .closeRoom | .ping _ => .ok ()

/-- A message that passed `validate`. -/
structure ValidMessage where
  message : ClientMessage
  valid : message.validate = .ok ()

/-- `validate`, with the message it lets through. -/
def ClientMessage.check (m : ClientMessage) : Except String ValidMessage :=
  match h : m.validate with
  | .ok () => .ok ⟨m, h⟩
  | .error text => .error text

/-- A room that passed the check holds between two and twelve players. -/
theorem maxPlayers_of_validate {roomName mapName : String} {maxPlayers : Nat}
    {gameinfo : Bytes}
    (h : (ClientMessage.createRoom roomName mapName maxPlayers gameinfo).validate = .ok ()) :
    2 ≤ maxPlayers ∧ maxPlayers ≤ 12 := by
  have htest := firstError_eq_ok.mp h
    (maxPlayers < 2 || 12 < maxPlayers, "玩家數量必須在 2-12 之間") (by simp)
  simp only [Bool.or_eq_false_iff, decide_eq_false_iff_not] at htest
  omega

end War3BattleTool.Protocol

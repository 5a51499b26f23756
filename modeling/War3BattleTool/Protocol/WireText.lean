import War3BattleTool.Foundation.JsonCodes
import War3BattleTool.Protocol.AddrText
import War3BattleTool.Protocol.MessageText

set_option autoImplicit false

/-!
# The texts of the two protocols are unambiguous

The server writes its messages as the client does: the tag `type`, then the fields in the order
of their declaration.  No two messages of a client have the same text, and no two messages of the
server (`text_injective`): whatever a receiver makes of a text, the sender's message is in it,
names with quotation marks, braces or control characters included.
-/

namespace War3BattleTool.Protocol

open War3BattleTool.Foundation
open War3BattleTool.Foundation.Json (Delimited NeverBegins Ends)

/-! ## The messages of the server -/

/-- `true` or `false`. -/
def boolText (b : Bool) : List Char := if b then "true".toList else "false".toList

/-- The characters of a `PlayerInfo`. -/
def PlayerInfo.toJson (p : PlayerInfo) : List Char :=
  Json.object [
    Json.member "player_id" (Json.string p.playerId),
    Json.member "nickname" (Json.string p.nickname),
    Json.member "war3_version" (Json.string p.war3Version.text),
    Json.member "is_hosting" (boolText p.isHosting)]

/-- The characters of a `RoomInfo`. -/
def RoomInfo.toJson (r : RoomInfo) : List Char :=
  Json.object [
    Json.member "room_id" (Json.string r.roomId),
    Json.member "host_nickname" (Json.string r.hostNickname),
    Json.member "room_name" (Json.string r.roomName),
    Json.member "map_name" (Json.string r.mapName),
    Json.member "max_players" (Json.number r.maxPlayers),
    Json.member "current_players" (Json.number r.currentPlayers),
    Json.member "war3_version" (Json.string r.war3Version.text)]

/-- The tag of a message. -/
def ServerMessage.tag : ServerMessage → String
  | .welcome _ => "Welcome"
  | .playerUpdate _ => "PlayerUpdate"
  | .roomUpdate _ => "RoomUpdate"
  | .joinResult _ _ _ _ => "JoinResult"
  | .playerJoined _ _ => "PlayerJoined"
  | .tunnelReady _ => "TunnelReady"
  | .stunInfo _ => "StunInfo"
  | .pong _ => "Pong"
  | .peerUPnPAddr _ => "PeerUPnPAddr"
  | .yourObservedAddr _ => "YourObservedAddr"
  | .error _ => "Error"
  | .unknown => "Unknown"

/-- The members behind the tag. -/
def ServerMessage.fields : ServerMessage → List (List Char)
  | .welcome playerId => [Json.member "player_id" (Json.string playerId)]
  | .playerUpdate players =>
      [Json.member "players" (Json.array (players.map PlayerInfo.toJson))]
  | .roomUpdate rooms => [Json.member "rooms" (Json.array (rooms.map RoomInfo.toJson))]
  | .joinResult success roomId tunnelToken gameinfo => [
      Json.member "success" (boolText success),
      Json.member "room_id" (Json.optional Json.string roomId),
      Json.member "tunnel_token" (Json.optional Json.string tunnelToken),
      Json.member "gameinfo" (Json.optional byteArray gameinfo)]
  | .playerJoined nickname tunnelToken => [
      Json.member "nickname" (Json.string nickname),
      Json.member "tunnel_token" (Json.string tunnelToken)]
  | .tunnelReady tunnelToken => [Json.member "tunnel_token" (Json.string tunnelToken)]
  | .stunInfo peerAddr => [Json.member "peer_addr" (Json.string (ipText peerAddr))]
  | .pong ts => [Json.member "ts" (Json.number ts)]
  | .peerUPnPAddr externalAddr => [Json.member "external_addr" (Json.string externalAddr)]
  | .yourObservedAddr ip => [Json.member "ip" (Json.string (ipText ip))]
  | .error message => [Json.member "message" (Json.string message)]
  | .unknown => []

/-- The characters of a message. -/
def ServerMessage.toJson (m : ServerMessage) : List Char := taggedObject m.tag m.fields

/-- The text of a message. -/
def ServerMessage.text (m : ServerMessage) : String := String.ofList m.toJson

example : (ServerMessage.stunInfo (.v4 0x01020304)).text =
    "\x7b\"type\":\"StunInfo\",\"peer_addr\":\"1.2.3.4\"\x7d" := by decide

/-! ## Fields -/

theorem delimited_bool : Delimited boolText := by
  refine ⟨fun {b b' rest rest'} _ _ h => ?_⟩
  cases b <;> cases b' <;> simp_all [boolText]

theorem text_version_injective : Function.Injective War3Version.text := by
  intro v v' h
  cases v <;> cases v' <;> first | rfl | simp [War3Version.text] at h

theorem delimited_version : Delimited fun v : War3Version => Json.string v.text :=
  Json.delimited_string.comp text_version_injective

theorem ipText_injective : Function.Injective ipText := by
  intro ip ip' h
  have hparse := congrArg parseIpAddr h
  rw [parseIpAddr_ipText, parseIpAddr_ipText] at hparse
  exact Option.some.inj hparse

theorem delimited_ip : Delimited fun ip : IpAddr => Json.string (ipText ip) :=
  Json.delimited_string.comp ipText_injective

theorem delimited_byteArray : Delimited byteArray :=
  (Json.delimited_number.comp fun _ _ h => UInt8.toNat_inj.mp h).array
    fun byte => Json.neverBegins_number (by decide) byte.toNat

theorem delimited_optionalString : Delimited (Json.optional Json.string) :=
  Json.delimited_string.optional (Json.neverBegins_string (by decide))

theorem delimited_optionalBytes : Delimited (Json.optional byteArray) :=
  delimited_byteArray.optional (Json.neverBegins_array (by decide))

theorem delimited_player : Delimited PlayerInfo.toJson := by
  refine ⟨fun {p q rest rest'} _ _ h => ?_⟩
  obtain ⟨hid, h⟩ := Json.delimited_string.first h
  obtain ⟨hnickname, h⟩ := Json.delimited_string.next h
  obtain ⟨hversion, h⟩ := delimited_version.next h
  obtain ⟨hhosting, h⟩ := delimited_bool.next h
  have hrest := Json.rest_of_no_members h
  cases p
  cases q
  exact ⟨(PlayerInfo.mk.injEq ..).mpr ⟨hid, hnickname, hversion, hhosting⟩, hrest⟩

theorem delimited_room : Delimited RoomInfo.toJson := by
  refine ⟨fun {r q rest rest'} _ _ h => ?_⟩
  obtain ⟨hid, h⟩ := Json.delimited_string.first h
  obtain ⟨hhost, h⟩ := Json.delimited_string.next h
  obtain ⟨hroom, h⟩ := Json.delimited_string.next h
  obtain ⟨hmap, h⟩ := Json.delimited_string.next h
  obtain ⟨hmax, h⟩ := Json.delimited_number.next h
  obtain ⟨hcurrent, h⟩ := Json.delimited_number.next h
  obtain ⟨hversion, h⟩ := delimited_version.next h
  have hrest := Json.rest_of_no_members h
  cases r
  cases q
  exact ⟨(RoomInfo.mk.injEq ..).mpr ⟨hid, hhost, hroom, hmap, hmax, hcurrent, hversion⟩, hrest⟩

theorem delimited_players : Delimited fun players : List PlayerInfo =>
    Json.array (players.map PlayerInfo.toJson) :=
  delimited_player.array (Json.neverBegins_object (by decide))

theorem delimited_rooms : Delimited fun rooms : List RoomInfo =>
    Json.array (rooms.map RoomInfo.toJson) :=
  delimited_room.array (Json.neverBegins_object (by decide))

/-! ## Messages -/

/-- A message with a tag tells the tag, and then its fields. -/
theorem taggedObject_append_inj {tag tag' : String} {fields fields' : List (List Char)}
    {rest rest' : List Char}
    (h : taggedObject tag fields ++ rest = taggedObject tag' fields' ++ rest') :
    tag = tag' ∧ Json.others fields ++ Json.closingBrace :: rest =
      Json.others fields' ++ Json.closingBrace :: rest' :=
  Json.delimited_string.first h

theorem delimited_serverMessage : Delimited ServerMessage.toJson := by
  refine ⟨fun {m m' rest rest'} _ _ h => ?_⟩
  obtain ⟨htag, h⟩ := taggedObject_append_inj h
  cases m <;> cases m' <;> first | (simp [ServerMessage.tag] at htag; done) | clear htag
  case welcome =>
      obtain ⟨rfl, hend⟩ := Json.delimited_string.next h
      exact ⟨rfl, Json.rest_of_no_members hend⟩
  case playerUpdate =>
      obtain ⟨rfl, hend⟩ := delimited_players.next h
      exact ⟨rfl, Json.rest_of_no_members hend⟩
  case roomUpdate =>
      obtain ⟨rfl, hend⟩ := delimited_rooms.next h
      exact ⟨rfl, Json.rest_of_no_members hend⟩
  case joinResult =>
      obtain ⟨hsuccess, h⟩ := delimited_bool.next h
      obtain ⟨hroom, h⟩ := delimited_optionalString.next h
      obtain ⟨htoken, h⟩ := delimited_optionalString.next h
      obtain ⟨hgameinfo, h⟩ := delimited_optionalBytes.next h
      exact ⟨(ServerMessage.joinResult.injEq ..).mpr ⟨hsuccess, hroom, htoken, hgameinfo⟩,
        Json.rest_of_no_members h⟩
  case playerJoined =>
      obtain ⟨hnickname, h⟩ := Json.delimited_string.next h
      obtain ⟨htoken, h⟩ := Json.delimited_string.next h
      exact ⟨(ServerMessage.playerJoined.injEq ..).mpr ⟨hnickname, htoken⟩,
        Json.rest_of_no_members h⟩
  case tunnelReady =>
      obtain ⟨rfl, hend⟩ := Json.delimited_string.next h
      exact ⟨rfl, Json.rest_of_no_members hend⟩
  case stunInfo =>
      obtain ⟨rfl, hend⟩ := delimited_ip.next h
      exact ⟨rfl, Json.rest_of_no_members hend⟩
  case pong =>
      obtain ⟨rfl, hend⟩ := Json.delimited_number.next h
      exact ⟨rfl, Json.rest_of_no_members hend⟩
  case peerUPnPAddr =>
      obtain ⟨rfl, hend⟩ := Json.delimited_string.next h
      exact ⟨rfl, Json.rest_of_no_members hend⟩
  case yourObservedAddr =>
      obtain ⟨rfl, hend⟩ := delimited_ip.next h
      exact ⟨rfl, Json.rest_of_no_members hend⟩
  case error =>
      obtain ⟨rfl, hend⟩ := Json.delimited_string.next h
      exact ⟨rfl, Json.rest_of_no_members hend⟩
  case unknown => exact ⟨rfl, Json.rest_of_no_members h⟩

theorem delimited_clientMessage : Delimited ClientMessage.toJson := by
  refine ⟨fun {m m' rest rest'} _ _ h => ?_⟩
  obtain ⟨htag, h⟩ := taggedObject_append_inj h
  cases m <;> cases m' <;> first | (simp [ClientMessage.tag] at htag; done) | clear htag
  case register =>
      obtain ⟨hnickname, h⟩ := Json.delimited_string.next h
      obtain ⟨hversion, h⟩ := delimited_version.next h
      obtain ⟨hclient, h⟩ := delimited_optionalString.next h
      exact ⟨(ClientMessage.register.injEq ..).mpr ⟨hnickname, hversion, hclient⟩,
        Json.rest_of_no_members h⟩
  case heartbeat | closeRoom => exact ⟨rfl, Json.rest_of_no_members h⟩
  case createRoom =>
      obtain ⟨hroom, h⟩ := Json.delimited_string.next h
      obtain ⟨hmap, h⟩ := Json.delimited_string.next h
      obtain ⟨hplayers, h⟩ := Json.delimited_number.next h
      obtain ⟨hgameinfo, h⟩ := delimited_byteArray.next h
      exact ⟨(ClientMessage.createRoom.injEq ..).mpr ⟨hroom, hmap, hplayers, hgameinfo⟩,
        Json.rest_of_no_members h⟩
  case joinRoom =>
      obtain ⟨rfl, hend⟩ := Json.delimited_string.next h
      exact ⟨rfl, Json.rest_of_no_members hend⟩
  case ping =>
      obtain ⟨rfl, hend⟩ := Json.delimited_number.next h
      exact ⟨rfl, Json.rest_of_no_members hend⟩
  case upnpMapped =>
      obtain ⟨haddr, h⟩ := Json.delimited_string.next h
      obtain ⟨htoken, h⟩ := Json.delimited_string.next h
      exact ⟨(ClientMessage.upnpMapped.injEq ..).mpr ⟨haddr, htoken⟩,
        Json.rest_of_no_members h⟩

/-- No two messages of a client have the same text, and no two messages of the server. -/
theorem text_injective :
    Function.Injective ClientMessage.text ∧ Function.Injective ServerMessage.text := by
  constructor
  · intro m m' h
    exact delimited_clientMessage.injective (String.ofList_inj.mp h)
  · intro m m' h
    exact delimited_serverMessage.injective (String.ofList_inj.mp h)

end War3BattleTool.Protocol

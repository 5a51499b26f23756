import War3BattleTool.Foundation.JsonText
import War3BattleTool.Protocol.Messages

set_option autoImplicit false

/-!
# The text of a message (`serde_json::to_string`)

A client sends its messages as compact JSON objects: the tag `type`, then the fields in the
order of their declaration.  The bytes of the GAMEINFO are an array of decimal numbers.
-/

namespace War3BattleTool.Protocol

open War3BattleTool.Foundation

/-- The name of a version in a message. -/
def War3Version.text : War3Version → String
  | .v127 => "1.27"
  | .v129c => "1.29c"

/-- The object of a variant of a message. -/
def taggedObject (tag : String) (fields : List (List Char)) : List Char :=
  Json.object (Json.member "type" (Json.string tag) :: fields)

/-- The bytes of a `Vec<u8>`. -/
def byteArray (bytes : Bytes) : List Char :=
  Json.array (bytes.map fun byte => Json.number byte.toNat)

/-- The tag of a message. -/
def ClientMessage.tag : ClientMessage → String
  | .register _ _ _ => "Register"
  | .heartbeat => "Heartbeat"
  | .createRoom _ _ _ _ => "CreateRoom"
  | .closeRoom => "CloseRoom"
  | .joinRoom _ => "JoinRoom"
  | .ping _ => "Ping"
  | .upnpMapped _ _ => "UPnPMapped"

/-- The members behind the tag. -/
def ClientMessage.fields : ClientMessage → List (List Char)
  | .register nickname war3Version clientVersion => [
      Json.member "nickname" (Json.string nickname),
      Json.member "war3_version" (Json.string war3Version.text),
      Json.member "client_version" (Json.optional Json.string clientVersion)]
  | .heartbeat | .closeRoom => []
  | .createRoom roomName mapName maxPlayers gameinfo => [
      Json.member "room_name" (Json.string roomName),
      Json.member "map_name" (Json.string mapName),
      Json.member "max_players" (Json.number maxPlayers),
      Json.member "gameinfo" (byteArray gameinfo)]
  | .joinRoom roomId => [Json.member "room_id" (Json.string roomId)]
  | .ping ts => [Json.member "ts" (Json.number ts)]
  | .upnpMapped externalAddr tunnelToken => [
      Json.member "external_addr" (Json.string externalAddr),
      Json.member "tunnel_token" (Json.string tunnelToken)]

/-- The characters of a message. -/
def ClientMessage.toJson (m : ClientMessage) : List Char := taggedObject m.tag m.fields

/-- The text of a message. -/
def ClientMessage.text (m : ClientMessage) : String := String.ofList m.toJson

example : (ClientMessage.createRoom "r" "m" 2 [1, 255]).text.length = 87 := by decide

/-- The bytes of an array of numbers: their digits, the commas between them and the brackets. -/
theorem utf8Len_byteArray (bytes : Bytes) : String.utf8Len (byteArray bytes) =
    (bytes.map fun byte => Json.digits byte.toNat).sum + (bytes.length - 1) + 2 := by
  rw [byteArray, Json.utf8Len_array, List.map_map, List.length_map]
  congr 3
  exact List.map_congr_left fun byte _ => Json.utf8Len_number byte.toNat

/-- A byte has three digits at most. -/
theorem digits_bytes_le (bytes : Bytes) :
    (bytes.map fun byte => Json.digits byte.toNat).sum ≤ 3 * bytes.length := by
  have hbound : ∀ n ∈ bytes.map (fun byte => Json.digits byte.toNat), n ≤ 3 := by
    intro n hn
    obtain ⟨byte, _, rfl⟩ := List.mem_map.mp hn
    have hbyte := byte.toNat_lt
    exact Json.digits_le (by decide) (by omega)
  have hsum := List.sum_le_card_nsmul _ 3 hbound
  rwa [List.length_map, Nat.nsmul_eq_mul, Nat.mul_comm] at hsum

/-- The bytes that the fields of a `CreateRoom` take: the names as they are escaped, and the
digits of the numbers with the commas between the bytes. -/
def createRoomFields (roomName mapName : String) (maxPlayers : Nat) (gameinfo : Bytes) : Nat :=
  Json.contentSize roomName + Json.contentSize mapName + Json.digits maxPlayers +
    (gameinfo.map fun byte => Json.digits byte.toNat).sum + (gameinfo.length - 1)

/-- The punctuation and the keys of a `CreateRoom` take 79 bytes. -/
theorem utf8ByteSize_createRoom (roomName mapName : String) (maxPlayers : Nat)
    (gameinfo : Bytes) :
    (ClientMessage.createRoom roomName mapName maxPlayers gameinfo).text.utf8ByteSize =
      79 + createRoomFields roomName mapName maxPlayers gameinfo := by
  have htag : Json.contentSize "CreateRoom" = 10 := by decide
  have hkeys : Json.contentSize "type" = 4 ∧ Json.contentSize "room_name" = 9 ∧
      Json.contentSize "map_name" = 8 ∧ Json.contentSize "max_players" = 11 ∧
      Json.contentSize "gameinfo" = 8 := by decide
  obtain ⟨htype, hroom, hmap, hplayers, hgameinfo⟩ := hkeys
  rw [ClientMessage.text, String.utf8ByteSize_ofList, ClientMessage.toJson, taggedObject,
    Json.utf8Len_object, ClientMessage.tag, ClientMessage.fields]
  simp only [List.map_cons, List.map_nil, List.sum_cons, List.sum_nil, List.length_cons,
    List.length_nil, Json.utf8Len_member, Json.utf8Len_string, Json.utf8Len_number,
    utf8Len_byteArray, htag, htype, hroom, hmap, hplayers, hgameinfo, createRoomFields]
  omega

end War3BattleTool.Protocol

import War3BattleTool.Client.Gameinfo
import War3BattleTool.Foundation.Splits

set_option autoImplicit false

/-!
# The GAMEINFO format

What a game writes into the packet that `parse_gameinfo` reads: the name of the game, and its
settings, the path of the map and the name of its creator, all encoded without zeros.  Every
group of seven bytes is led by a mask; an odd byte stands as it is, an even one is raised by one.
The parser gets the name of the game and of the map back.
-/

namespace War3BattleTool.Client

open War3BattleTool.Foundation

/-! ## Bytes without zeros -/

/-- A byte as it stands in a group: odd. -/
def encodeByte (b : UInt8) : UInt8 := if b.toNat % 2 = 1 then b else b + 1

/-- The bits of a mask, from bit 1 on: one for every odd byte.  The bits beyond the bytes are
those of `spare`. -/
def maskBits (spare : Nat) : Bytes → Nat
  | [] => spare
  | b :: rest => 2 * maskBits spare rest + b.toNat % 2

/-- A group: the mask, whose bit 0 is set, and the bytes. -/
def encodeGroup (spare : Nat) (group : Bytes) : Bytes :=
  UInt8.ofNat (2 * maskBits spare group + 1) :: group.map encodeByte

/-- Groups of seven bytes, the last of which may be shorter. -/
def encodeStatString (spare : Nat) : Bytes → Bytes
  | [] => []
  | b :: rest =>
      encodeGroup spare ((b :: rest).take 7) ++ encodeStatString spare ((b :: rest).drop 7)
  termination_by bs => bs.length
  decreasing_by
    rw [List.length_drop, List.length_cons]
    omega

theorem toNat_encodeByte_mod (b : UInt8) : (encodeByte b).toNat % 2 = 1 := by
  unfold encodeByte
  split
  · assumption
  · next heven =>
    have hlt := b.toNat_lt
    rw [UInt8.toNat_add, UInt8.toNat_one]
    omega

theorem ne_zero_of_odd {b : UInt8} (h : b.toNat % 2 = 1) : b ≠ 0 := by
  rintro rfl
  cases h

/-- No encoded byte is zero, and no mask. -/
theorem ne_zero_of_mem_encodeGroup {spare : Nat} {group : Bytes} :
    ∀ b ∈ encodeGroup spare group, b ≠ 0 := by
  intro b hb
  apply ne_zero_of_odd
  obtain rfl | hb := List.mem_cons.mp hb
  · rw [UInt8.toNat_ofNat']
    omega
  · obtain ⟨source, _, rfl⟩ := List.mem_map.mp hb
    exact toNat_encodeByte_mod source

theorem ne_zero_of_mem_encodeStatString (spare : Nat) (bs : Bytes) :
    ∀ b ∈ encodeStatString spare bs, b ≠ 0 := by
  fun_induction encodeStatString spare bs with
  | case1 => exact fun b hb => absurd hb List.not_mem_nil
  | case2 first rest ih =>
      intro b hb
      obtain hb | hb := List.mem_append.mp hb
      · exact ne_zero_of_mem_encodeGroup b hb
      · exact ih b hb

/-! ## Decoding -/

/-- The bit of the mask tells how to get the byte back. -/
theorem decode_encodeByte (b : UInt8) :
    (if decide (b.toNat % 2 = 1) = true then encodeByte b else encodeByte b - 1) = b := by
  by_cases hodd : b.toNat % 2 = 1
  · simp [encodeByte, hodd]
  · simp [encodeByte, hodd]

theorem testBit_maskBits_zero (spare : Nat) (b : UInt8) (rest : Bytes) :
    (maskBits spare (b :: rest)).testBit 0 = decide (b.toNat % 2 = 1) := by
  have hmod : (2 * maskBits spare rest + b.toNat % 2) % 2 = b.toNat % 2 := by omega
  rw [Nat.testBit_zero, maskBits, hmod]

theorem testBit_maskBits_succ (spare : Nat) (b : UInt8) (rest : Bytes) (i : Nat) :
    (maskBits spare (b :: rest)).testBit (i + 1) = (maskBits spare rest).testBit i := by
  rw [Nat.testBit_succ, maskBits]
  congr 1
  omega

/-- The bytes of a group are read with the bits of its mask. -/
theorem decodeMasked_map {spare : Nat} {mask : UInt8} {bit : Nat} {group : Bytes} (rest : Bytes)
    (hfit : bit + group.length ≤ 8)
    (hmask : ∀ i, bit + i < 8 → mask.toNat.testBit (bit + i) = (maskBits spare group).testBit i) :
    decodeMasked mask bit (group.map encodeByte ++ rest) =
      group ++ decodeMasked mask (bit + group.length) rest := by
  induction group generalizing bit with
  | nil => rfl
  | cons b group ih =>
      rw [List.length_cons] at hfit
      have hbit : bit ≠ 8 := by omega
      have hfirst := hmask 0 (by omega)
      rw [testBit_maskBits_zero, Nat.add_zero] at hfirst
      have hshift : ∀ i, bit + 1 + i < 8 →
          mask.toNat.testBit (bit + 1 + i) = (maskBits spare group).testBit i := by
        intro i hi
        have hsucc := hmask (i + 1) (by omega)
        rwa [testBit_maskBits_succ, ← Nat.add_assoc, Nat.add_right_comm] at hsucc
      have hnext := ih (by omega) hshift
      rw [List.map_cons, List.cons_append, decodeMasked, if_neg hbit, hfirst, decode_encodeByte,
        hnext, List.length_cons, List.cons_append, Nat.add_assoc, Nat.add_comm 1]

/-- Bit 0 of a mask is set, and the others are those of the bytes. -/
theorem testBit_mask (spare : Nat) (group : Bytes) (i : Nat) (hi : 1 + i < 8) :
    (UInt8.ofNat (2 * maskBits spare group + 1)).toNat.testBit (1 + i) =
      (maskBits spare group).testBit i := by
  rw [UInt8.toNat_ofNat', Nat.testBit_mod_two_pow, decide_eq_true hi, Bool.true_and, Nat.add_comm 1,
    Nat.testBit_succ]
  congr 1
  omega

/-- A group is decoded, whatever mask came before. -/
theorem decodeMasked_encodeGroup (spare : Nat) {group : Bytes} (hgroup : group.length ≤ 7)
    (mask : UInt8) (rest : Bytes) : ∃ mask', decodeMasked mask 8 (encodeGroup spare group ++ rest) =
      group ++ decodeMasked mask' (1 + group.length) rest := by
  refine ⟨UInt8.ofNat (2 * maskBits spare group + 1), ?_⟩
  rw [encodeGroup, List.cons_append, decodeMasked, if_pos rfl]
  exact decodeMasked_map rest (by omega) (testBit_mask spare group)

/-- Decoding inverts encoding. -/
theorem decodeMasked_encodeStatString (spare : Nat) (bs : Bytes) (mask : UInt8) :
    decodeMasked mask 8 (encodeStatString spare bs) = bs := by
  fun_induction encodeStatString spare bs generalizing mask with
  | case1 => rfl
  | case2 first rest ih =>
      have htake : ((first :: rest).take 7).length ≤ 7 := List.length_take_le _ _
      obtain ⟨mask', hgroup⟩ := decodeMasked_encodeGroup spare htake mask
        (encodeStatString spare ((first :: rest).drop 7))
      rw [hgroup]
      by_cases hlong : 7 ≤ (first :: rest).length
      · -- A full group: the next byte is a mask.
        have hfull : 1 + ((first :: rest).take 7).length = 8 := by
          rw [List.length_take_of_le hlong]
        rw [hfull, ih, List.take_append_drop]
      · -- The last group: nothing is left.
        have hdrop : (first :: rest).drop 7 = [] := List.drop_eq_nil_of_le (by omega)
        have htake : (first :: rest).take 7 = first :: rest := List.take_of_length_le (by omega)
        rw [hdrop, htake, encodeStatString, decodeMasked, List.append_nil]

/-! ## The name of the map -/

theorem getLast?_splitOn_backslash (cs : List Char) :
    (cs.splitOn backslash).getLast? = some (afterBackslash cs) := by
  have hsep : (fun c => decide (c ≠ backslash)) = fun c => !(c == backslash) := by
    funext c
    exact decide_not
  rw [List.splitOn_eq_splitOnP, getLast?_splitOnP, afterLast, afterBackslash, hsep]

/-- A text that the pattern does not end is left as it is. -/
theorem trimStartMatches_reverse {pattern cs : List Char} (h : ¬ pattern <:+ cs) (n : Nat) :
    trimStartMatches pattern.reverse n cs.reverse = cs.reverse := by
  have hprefix : pattern.reverse.isPrefixOf cs.reverse = false := by
    rw [Bool.eq_false_iff, Ne, List.isPrefixOf_iff_prefix, List.reverse_prefix]
    exact h
  cases n with
  | zero => rfl
  | succ n => rw [trimStartMatches, hprefix, if_neg Bool.false_ne_true]

theorem trimEndMatches_eq_self {pattern : String} {cs : List Char}
    (h : ¬ pattern.toList <:+ cs) : trimEndMatches pattern cs = cs := by
  rw [trimEndMatches, trimStartMatches_reverse h, List.reverse_reverse]

/-- A pattern that ends the text once is trimmed once. -/
theorem trimEndMatches_append {pattern : String} {cs : List Char} (hpattern : pattern.toList ≠ [])
    (h : ¬ pattern.toList <:+ cs) : trimEndMatches pattern (cs ++ pattern.toList) = cs := by
  obtain ⟨n, hn⟩ : ∃ n, (cs ++ pattern.toList).length = n + 1 := by
    refine Nat.exists_eq_add_one.mpr (List.length_pos_iff.mpr fun hnil => hpattern ?_)
    exact (List.append_eq_nil_iff.mp hnil).2
  have hdrop : (pattern.toList.reverse ++ cs.reverse).drop pattern.toList.reverse.length =
      cs.reverse := List.drop_left
  rw [trimEndMatches, hn, List.reverse_append, trimStartMatches,
    if_pos (List.isPrefixOf_iff_prefix.mpr (List.prefix_append _ _)), hdrop,
    trimStartMatches_reverse h, List.reverse_reverse]

/-- Texts of one length that both end a text are the same. -/
theorem not_suffix_append {pattern ext cs : List Char} (hlength : pattern.length = ext.length)
    (hne : pattern ≠ ext) : ¬ pattern <:+ cs ++ ext := by
  intro hsuffix
  have hends := List.suffix_of_suffix_length_le hsuffix (List.suffix_append cs ext) hlength.le
  exact hne (hends.eq_of_length hlength)

/-- The name of a map is what its file is called, without its extension. -/
theorem mapName_of_last {path b ext : String} (hext : ext = ".w3x" ∨ ext = ".w3m")
    (hlast : (path.toList.splitOn backslash).getLast? = some (b ++ ext).toList)
    (hx : ¬ ".w3x".toList <:+ b.toList) (hm : ¬ ".w3m".toList <:+ b.toList) : mapName path = b := by
  have hfile : afterBackslash path.toList = b.toList ++ ext.toList := by
    rw [getLast?_splitOn_backslash] at hlast
    exact (Option.some.inj hlast).trans String.toList_append
  rw [mapName, hfile]
  obtain rfl | rfl := hext
  · rw [trimEndMatches_append (by decide) hx, trimEndMatches_eq_self hm, String.ofList_toList]
  · have hother : ¬ ".w3x".toList <:+ b.toList ++ ".w3m".toList :=
      not_suffix_append (by decide) (by decide)
    rw [trimEndMatches_eq_self hother, trimEndMatches_append (by decide) hm, String.ofList_toList]

/-! ## The packet -/

/-- What a game writes into its packet: a header, the name of the game, some byte, its settings,
the path of the map, the name of its creator, and more that is not read. -/
structure GameinfoPacket where
  header : Bytes
  gameName : String
  separator : UInt8
  settings : Bytes
  mapPath : String
  creator : Bytes
  spare : Nat
  trailer : Bytes
  length_header : header.length = 18
  length_settings : settings.length = 13
  gameName_ne_zero : ∀ c ∈ gameName.toList, c.toNat ≠ 0
  mapPath_ne_zero : ∀ c ∈ mapPath.toList, c.toNat ≠ 0

namespace GameinfoPacket

/-- The settings of the game, the path of the map and the name of its creator. -/
def plain (p : GameinfoPacket) : Bytes :=
  p.settings ++ (utf8Bytes p.mapPath ++ 0 :: (p.creator ++ [0]))

/-- The packet. -/
def bytes (p : GameinfoPacket) : Bytes :=
  [0xF7, 0x30] ++ p.header ++ utf8Bytes p.gameName ++
    0 :: p.separator :: (encodeStatString p.spare p.plain ++ 0 :: p.trailer)

end GameinfoPacket

/-- The encoded settings are read up to the zero that ends them, and decoded. -/
theorem decodeStatString_of_drop {data : Bytes} {start spare : Nat} {plain trailer : Bytes}
    (hdrop : data.drop start = encodeStatString spare plain ++ 0 :: trailer)
    (hplain : 14 ≤ plain.length) : decodeStatString data start =
      some (mapName (fromUtf8Lossy ((beforeZero (plain.drop 13)).getD (plain.drop 13)))) := by
  have hstart : ¬ data.length ≤ start := by
    intro hle
    rw [List.drop_eq_nil_of_le hle] at hdrop
    exact List.append_ne_nil_of_right_ne_nil _ (List.cons_ne_nil _ _) hdrop.symm
  have hdecoded := decodeMasked_encodeStatString spare plain 0
  have hencoded : encodeStatString spare plain ≠ [] := by
    intro hnil
    rw [hnil] at hdecoded
    rw [← hdecoded] at hplain
    cases hplain
  rw [decodeStatString, if_neg hstart, hdrop,
    beforeZero_append (ne_zero_of_mem_encodeStatString spare plain), Option.bind_some,
    if_neg hencoded]
  dsimp only
  rw [hdecoded, if_neg (Nat.not_lt.mpr hplain)]

/-- The parser inverts the format: it finds the name of the game, and the name of the map, which
is what the last part of its path is called without the extension. -/
theorem parseGameinfo_bytes (p : GameinfoPacket) {b ext : String}
    (hext : ext = ".w3x" ∨ ext = ".w3m")
    (hlast : (p.mapPath.toList.splitOn backslash).getLast? = some (b ++ ext).toList)
    (hx : ¬ ".w3x".toList <:+ b.toList) (hm : ¬ ".w3m".toList <:+ b.toList) :
    parseGameinfo p.bytes = some ⟨p.gameName, some b⟩ := by
  have hlength : ([0xF7, 0x30] ++ p.header).length = 20 := by
    rw [List.length_append, p.length_header]
    rfl
  have hdrop : p.bytes.drop (20 + (utf8Bytes p.gameName).length + 2) =
      encodeStatString p.spare p.plain ++ 0 :: p.trailer := by
    have hsplit : p.bytes =
        ([0xF7, 0x30] ++ p.header ++ utf8Bytes p.gameName ++ [0, p.separator]) ++
          (encodeStatString p.spare p.plain ++ 0 :: p.trailer) := by
      rw [GameinfoPacket.bytes, List.append_assoc _ [0, p.separator]]
      rfl
    rw [hsplit]
    apply List.drop_left'
    rw [List.length_append, List.length_append, hlength]
    rfl
  have hraw : p.plain.drop 13 = utf8Bytes p.mapPath ++ 0 :: (p.creator ++ [0]) := by
    rw [GameinfoPacket.plain, ← p.length_settings, List.drop_left]
  have hplain : 14 ≤ p.plain.length := by
    rw [GameinfoPacket.plain, List.length_append, List.length_append, List.length_cons,
      p.length_settings]
    omega
  have hmap : decodeStatString p.bytes (20 + (utf8Bytes p.gameName).length + 2) = some b := by
    rw [decodeStatString_of_drop hdrop hplain, hraw,
      beforeZero_append (ne_zero_of_mem_utf8Bytes p.mapPath_ne_zero), Option.getD_some,
      fromUtf8Lossy_utf8Bytes, mapName_of_last hext hlast hx hm]
  have hbytes : p.bytes = [0xF7, 0x30] ++ p.header ++ (utf8Bytes p.gameName ++
      0 :: p.separator :: (encodeStatString p.spare p.plain ++ 0 :: p.trailer)) := by
    rw [GameinfoPacket.bytes, List.append_assoc _ (utf8Bytes p.gameName)]
  rw [hbytes] at hmap ⊢
  rw [parseGameinfo_append hlength rfl rfl p.gameName_ne_zero, hmap]

/-- A game on a map in a folder. -/
def examplePacket : GameinfoPacket where
  header := List.replicate 18 7
  gameName := "Room"
  separator := 0
  settings := List.replicate 13 0
  mapPath := String.ofList ("Maps".toList ++ backslash :: "Isle.w3x".toList)
  creator := [65]
  spare := 0
  trailer := [1, 2]
  length_header := rfl
  length_settings := rfl
  gameName_ne_zero := by simp
  mapPath_ne_zero := by simp [backslash]

/-- The name of its map is read. -/
theorem parseGameinfo_bytes_example :
    parseGameinfo examplePacket.bytes = some ⟨"Room", some "Isle"⟩ :=
  parseGameinfo_bytes examplePacket (.inl rfl) (by decide) (by decide) (by decide)

end War3BattleTool.Client

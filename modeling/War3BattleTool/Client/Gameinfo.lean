import War3BattleTool.Client.Runtime
import War3BattleTool.Foundation.Utf8

set_option autoImplicit false

/-!
# The GAMEINFO packet (`protocol/src/war3.rs`)

`parse_gameinfo` takes the name of the room from a packet, and the name of the map from its
encoded settings.  It reads any bytes: what it does not find is missing from the result.
-/

namespace War3BattleTool.Client

open War3BattleTool.Foundation

/-! ## The encoded settings -/

/-- The two loops that decode the settings: `bit` is the bit of `mask` that says whether the
next byte is kept or lowered by one; after bit 7 comes another mask. -/
def decodeMasked : UInt8 → Nat → Bytes → Bytes
  | _, _, [] => []
  | mask, bit, b :: rest =>
      if bit = 8 then decodeMasked b 1 rest
      else
        (if mask.toNat.testBit bit then b else b - 1) :: decodeMasked mask (bit + 1) rest

/-- Seven bytes are decoded of eight. -/
theorem decodeMasked_length (mask : UInt8) (bit : Nat) (bs : Bytes) (hbit : 1 ≤ bit ∧ bit ≤ 8) :
    8 * (decodeMasked mask bit bs).length ≤ 7 * bs.length + (8 - bit) := by
  induction bs generalizing mask bit with
  | nil => exact Nat.zero_le _
  | cons b rest ih =>
      rw [decodeMasked, List.length_cons]
      split
      next heq =>
        have hrest := ih b 1 ⟨Nat.le_refl 1, by decide⟩
        omega
      next hne =>
        have hrest := ih mask (bit + 1) ⟨by omega, by omega⟩
        rw [List.length_cons]
        omega

/-! ## The name of the map -/

/-- A backslash. -/
def backslash : Char := Char.ofNat 0x5C

/-- `rsplit_once`: what follows the last backslash, or all there is. -/
def afterBackslash (cs : List Char) : List Char :=
  (cs.reverse.takeWhile (· ≠ backslash)).reverse

/-- `trim_start_matches`, `n` times at most. -/
def trimStartMatches (pattern : List Char) : Nat → List Char → List Char
  | 0, cs => cs
  | n + 1, cs =>
      if pattern.isPrefixOf cs then trimStartMatches pattern n (cs.drop pattern.length) else cs

/-- `trim_end_matches`. -/
def trimEndMatches (pattern : String) (cs : List Char) : List Char :=
  (trimStartMatches pattern.toList.reverse cs.length cs.reverse).reverse

/-- The name of a map, from its path. -/
def mapName (path : String) : String :=
  String.ofList (trimEndMatches ".w3m" (trimEndMatches ".w3x" (afterBackslash path.toList)))

theorem trimStartMatches_length_le (pattern : List Char) (n : Nat) (cs : List Char) :
    (trimStartMatches pattern n cs).length ≤ cs.length := by
  induction n generalizing cs with
  | zero => exact Nat.le_refl _
  | succ n ih =>
      rw [trimStartMatches]
      split
      · have hrest := ih (cs.drop pattern.length)
        rw [List.length_drop] at hrest
        omega
      · exact Nat.le_refl _

/-- As many steps as there are characters leave no match. -/
theorem not_isPrefixOf_trimStartMatches {pattern : List Char} (hpattern : pattern ≠ [])
    {n : Nat} {cs : List Char} (hn : cs.length ≤ n) :
    pattern.isPrefixOf (trimStartMatches pattern n cs) = false := by
  induction n generalizing cs with
  | zero =>
      have hnil : cs = [] := List.length_eq_zero_iff.mp (Nat.le_zero.mp hn)
      rw [trimStartMatches, hnil]
      cases pattern with
      | nil => exact absurd rfl hpattern
      | cons c pattern => rfl
  | succ n ih =>
      rw [trimStartMatches]
      split
      · apply ih
        have hpos := List.length_pos_iff.mpr hpattern
        rw [List.length_drop]
        omega
      next hmatch => exact Bool.eq_false_iff.mpr hmatch

theorem trimEndMatches_length_le (pattern : String) (cs : List Char) :
    (trimEndMatches pattern cs).length ≤ cs.length := by
  have hle := trimStartMatches_length_le pattern.toList.reverse cs.length cs.reverse
  rw [trimEndMatches, List.length_reverse]
  rwa [List.length_reverse] at hle

theorem mapName_length_le (path : String) : (mapName path).length ≤ path.length := by
  rw [mapName, String.length_ofList]
  calc (trimEndMatches ".w3m" (trimEndMatches ".w3x" (afterBackslash path.toList))).length
      ≤ (trimEndMatches ".w3x" (afterBackslash path.toList)).length := trimEndMatches_length_le _ _
    _ ≤ (afterBackslash path.toList).length := trimEndMatches_length_le _ _
    _ ≤ path.toList.reverse.length := by
        rw [afterBackslash, List.length_reverse]
        exact (List.takeWhile_sublist _).length_le
    _ = path.length := by rw [List.length_reverse, String.length_toList]

/-! ## The packet -/

/-- The part of some bytes in front of the first zero; `none` without a zero. -/
def beforeZero (bs : Bytes) : Option Bytes := (bs.findIdx? (· = 0)).map bs.take

theorem beforeZero_eq_some {bs xs : Bytes} :
    beforeZero bs = some xs ↔ 0 ∈ bs ∧ xs = bs.takeWhile (· ≠ 0) := by
  rw [beforeZero, Option.map_eq_some_iff]
  induction bs generalizing xs with
  | nil =>
      rw [List.findIdx?_nil]
      constructor
      · rintro ⟨_, hnone, _⟩
        cases hnone
      · rintro ⟨hmem, _⟩
        cases hmem
  | cons b rest ih =>
      rw [List.findIdx?_cons]
      by_cases hb : b = 0
      · simp only [hb, decide_true, if_true, Option.some.injEq, exists_eq_left', List.take_zero,
          List.mem_cons_self, true_and, List.takeWhile_cons, ne_eq, not_true_eq_false,
          decide_false, Bool.false_eq_true, if_false]
        exact eq_comm
      · simp only [hb, decide_false, Bool.false_eq_true, if_false, Option.map_eq_some_iff,
          List.mem_cons, Ne.symm hb, false_or, List.takeWhile_cons, ne_eq, not_false_eq_true,
          decide_true, if_true]
        constructor
        · rintro ⟨_, ⟨i, hi, rfl⟩, rfl⟩
          obtain ⟨hmem, htake⟩ := ih.mp ⟨i, hi, rfl⟩
          exact ⟨hmem, by rw [List.take_succ_cons, htake]⟩
        · rintro ⟨hmem, rfl⟩
          obtain ⟨i, hi, htake⟩ := ih.mpr ⟨hmem, rfl⟩
          exact ⟨i + 1, ⟨i, hi, rfl⟩, by rw [List.take_succ_cons, htake]⟩

/-- Bytes other than zero are read up to the zero that ends them. -/
theorem beforeZero_append {xs : Bytes} (h : ∀ b ∈ xs, b ≠ 0) (rest : Bytes) :
    beforeZero (xs ++ 0 :: rest) = some xs := by
  refine beforeZero_eq_some.mpr ⟨List.mem_append_right _ List.mem_cons_self, ?_⟩
  rw [List.takeWhile_append_of_pos fun b hb => decide_eq_true (h b hb),
    List.takeWhile_cons_of_neg (by decide), List.append_nil]

/-- A zero follows, and there is none before. -/
theorem exists_of_beforeZero {bs xs : Bytes} (h : beforeZero bs = some xs) :
    (∀ b ∈ xs, b ≠ 0) ∧ ∃ rest, bs = xs ++ 0 :: rest := by
  obtain ⟨ys, rest, rfl, hnot⟩ := List.eq_append_cons_of_mem (beforeZero_eq_some.mp h).1
  have hne : ∀ b ∈ ys, b ≠ 0 := fun b hb heq => hnot (heq ▸ hb)
  obtain rfl := Option.some.inj ((beforeZero_append hne rest).symm.trans h)
  exact ⟨hne, rest, rfl⟩

theorem beforeZero_length_le {bs xs : Bytes} (h : beforeZero bs = some xs) :
    xs.length ≤ bs.length := by
  rw [(beforeZero_eq_some.mp h).2]
  exact (List.takeWhile_sublist _).length_le

/-- `decode_stat_string`. -/
def decodeStatString (data : Bytes) (start : Nat) : Option String :=
  if data.length ≤ start then none
  else
    (beforeZero (data.drop start)).bind fun encoded =>
      if encoded = [] then none
      else
        let decoded := decodeMasked 0 8 encoded
        if decoded.length < 14 then none
        else
          let raw := decoded.drop 13
          some (mapName (fromUtf8Lossy ((beforeZero raw).getD raw)))

/-- `parse_gameinfo`. -/
def parseGameinfo (data : Bytes) : Option GameinfoFields :=
  if data.length < 21 ∨ data[0]? ≠ some 0xF7 ∨ data[1]? ≠ some 0x30 then none
  else
    (beforeZero (data.drop 20)).map fun name =>
      { gameName := fromUtf8Lossy name
        mapPath := decodeStatString data (20 + name.length + 2) }

/-- The encoded settings bound the name of the map. -/
theorem decodeStatString_length_le {data : Bytes} {start : Nat} {name : String}
    (h : decodeStatString data start = some name) :
    8 * (name.length + 13) ≤ 7 * (data.length - start) := by
  rw [decodeStatString] at h
  split at h
  · cases h
  · obtain ⟨encoded, hencoded, h⟩ := Option.bind_eq_some_iff.mp h
    have hsource := beforeZero_length_le hencoded
    rw [List.length_drop] at hsource
    have hdecoded := decodeMasked_length 0 8 encoded ⟨by decide, Nat.le_refl 8⟩
    split at h
    · cases h
    · dsimp only at h
      split at h
      · cases h
      next hlong =>
        obtain rfl := Option.some.inj h
        have hraw : ((beforeZero ((decodeMasked 0 8 encoded).drop 13)).getD
            ((decodeMasked 0 8 encoded).drop 13)).length ≤
              (decodeMasked 0 8 encoded).length - 13 := by
          rw [← List.length_drop]
          cases hzero : beforeZero ((decodeMasked 0 8 encoded).drop 13) with
          | none => exact Nat.le_refl _
          | some xs => exact beforeZero_length_le hzero
        have hname := (mapName_length_le _).trans (fromUtf8Lossy_length_le _) |>.trans hraw
        omega

theorem parseGameinfo_eq_some {data : Bytes} {fields : GameinfoFields} :
    parseGameinfo data = some fields ↔
      21 ≤ data.length ∧ data[0]? = some 0xF7 ∧ data[1]? = some 0x30 ∧ 0 ∈ data.drop 20 ∧
        fields.gameName = fromUtf8Lossy ((data.drop 20).takeWhile (· ≠ 0)) ∧
        fields.mapPath =
          decodeStatString data (20 + ((data.drop 20).takeWhile (· ≠ 0)).length + 2) := by
  rw [parseGameinfo]
  split
  next hbad =>
    constructor
    · intro h
      cases h
    · rintro ⟨hlength, hfirst, hsecond, _⟩
      rcases hbad with hshort | hne | hne
      · omega
      · exact absurd hfirst hne
      · exact absurd hsecond hne
  next hgood =>
    rw [not_or, not_or, not_not, not_not, Nat.not_lt] at hgood
    obtain ⟨hlength, hfirst, hsecond⟩ := hgood
    rw [Option.map_eq_some_iff]
    constructor
    · rintro ⟨name, hname, rfl⟩
      obtain ⟨hmem, rfl⟩ := beforeZero_eq_some.mp hname
      exact ⟨hlength, hfirst, hsecond, hmem, rfl, rfl⟩
    · rintro ⟨_, _, _, hmem, hgameName, hmapPath⟩
      refine ⟨_, beforeZero_eq_some.mpr ⟨hmem, rfl⟩, ?_⟩
      rw [← hgameName, ← hmapPath]

/-- A packet is read from its header on: the name of the game, and the encoded settings. -/
theorem parseGameinfo_append {header rest : Bytes} {name : String} (hlength : header.length = 20)
    (hfirst : header[0]? = some 0xF7) (hsecond : header[1]? = some 0x30)
    (hname : ∀ c ∈ name.toList, c.toNat ≠ 0) :
    parseGameinfo (header ++ (utf8Bytes name ++ 0 :: rest)) =
      some ⟨name, decodeStatString (header ++ (utf8Bytes name ++ 0 :: rest))
        (20 + (utf8Bytes name).length + 2)⟩ := by
  have hdrop : (header ++ (utf8Bytes name ++ 0 :: rest)).drop 20 = utf8Bytes name ++ 0 :: rest := by
    rw [← hlength, List.drop_left]
  have hbyte : ∀ {i : Nat} {b : UInt8}, header[i]? = some b →
      (header ++ (utf8Bytes name ++ 0 :: rest))[i]? = some b := by
    intro i b hb
    have hlt := (List.getElem?_eq_some_iff.mp hb).1
    rw [List.getElem?_append_left hlt, hb]
  have hlong : ¬ (header ++ (utf8Bytes name ++ 0 :: rest)).length < 21 := by
    rw [List.length_append, List.length_append, List.length_cons, hlength]
    omega
  have hgood : ¬ ((header ++ (utf8Bytes name ++ 0 :: rest)).length < 21 ∨
      (header ++ (utf8Bytes name ++ 0 :: rest))[0]? ≠ some 0xF7 ∨
        (header ++ (utf8Bytes name ++ 0 :: rest))[1]? ≠ some 0x30) := by
    rw [hbyte hfirst, hbyte hsecond]
    rintro (hshort | hne | hne)
    · exact hlong hshort
    · exact hne rfl
    · exact hne rfl
  rw [parseGameinfo, if_neg hgood, hdrop, beforeZero_append (ne_zero_of_mem_utf8Bytes hname),
    Option.map_some, fromUtf8Lossy_utf8Bytes]

/-- The name of a game is read back from its packet. -/
theorem parseGameinfo_name {header rest : Bytes} {name : String} (hlength : header.length = 20)
    (hfirst : header[0]? = some 0xF7) (hsecond : header[1]? = some 0x30)
    (hname : ∀ c ∈ name.toList, c.toNat ≠ 0) :
    (parseGameinfo (header ++ utf8Bytes name ++ 0 :: rest)).map (·.gameName) = some name := by
  rw [List.append_assoc, parseGameinfo_append hlength hfirst hsecond hname, Option.map_some]

end War3BattleTool.Client

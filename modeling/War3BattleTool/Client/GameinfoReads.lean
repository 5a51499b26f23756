import War3BattleTool.Client.Gameinfo
import War3BattleTool.Foundation.Checked

set_option autoImplicit false

/-!
# What the GAMEINFO parser reads

`parse_gameinfo` and `decode_stat_string` once more, operation by operation: every index, slice
and subtraction is checked, and the loop over the encoded settings runs on fuel.  On every packet
all checks succeed, and the loop reads each byte of the settings once, up to the zero that ends
them.
-/

namespace War3BattleTool.Client

open War3BattleTool.Foundation
open War3BattleTool.Foundation.Checked

/-! ## The functions -/

/-- What a byte of the settings is read as. -/
inductive ByteUse where
  | mask
  | data
  deriving DecidableEq

/-- The locals of the decoding loops, and the positions read so far. -/
structure Decoding where
  i : Nat
  decoded : Bytes
  reads : List (Nat × ByteUse)

namespace Checked

/-- A byte, as bit `bit` of the mask has it. -/
def plainByte (mask : UInt8) (bit : Nat) (b : UInt8) : Except Fault UInt8 :=
  if mask.toNat.testBit bit then .ok b else subByte b 1

/-- `for bit in 1..8`. -/
def dataBytes (encoded : Bytes) (mask : UInt8) : List Nat → Decoding → Except Fault Decoding
  | [], s => .ok s
  | bit :: bits, s =>
      if encoded.length ≤ s.i then .ok s
      else do
        let b ← index encoded s.i
        let plain ← plainByte mask bit b
        dataBytes encoded mask bits
          { i := s.i + 1, decoded := s.decoded ++ [plain], reads := s.reads ++ [(s.i, .data)] }

/-- The body of `while i < encoded.len()`. -/
def group (encoded : Bytes) (s : Decoding) : Except Fault Decoding := do
  let mask ← index encoded s.i
  dataBytes encoded mask [1, 2, 3, 4, 5, 6, 7]
    { s with i := s.i + 1, reads := s.reads ++ [(s.i, .mask)] }

/-- The decoding loops. -/
def decodeLoop (fuel : Nat) (encoded : Bytes) : Except Fault Decoding :=
  loop (fun s => decide (s.i < encoded.length)) (group encoded) fuel ⟨0, [], []⟩

/-- The encoded settings: what stands in front of the next zero. -/
def encodedSettings (data : Bytes) (start : Nat) : Except Fault (Option Bytes) :=
  if data.length ≤ start then .ok none
  else do
    let suffix ← sliceFrom data start
    match suffix.findIdx? (· = 0) with
    | none => .ok none
    | some statEnd => do
        let encoded ← slice data start (start + statEnd)
        if encoded.isEmpty then .ok none else .ok (some encoded)

/-- The name of the map, in the decoded settings. -/
def mapNameOf (decoded : Bytes) : Except Fault (Option String) :=
  if decoded.length < 14 then .ok none
  else do
    let suffix ← sliceFrom decoded 13
    let all ← sub decoded.length 13
    let raw ← slice decoded 13 (13 + (suffix.findIdx? (· = 0)).getD all)
    .ok (some (mapName (fromUtf8Lossy raw)))

/-- `decode_stat_string`. -/
def decodeStatString (fuel : Nat) (data : Bytes) (start : Nat) : Except Fault (Option String) := do
  match ← encodedSettings data start with
  | none => .ok none
  | some encoded => do
      let s ← decodeLoop fuel encoded
      mapNameOf s.decoded

/-- `parse_gameinfo`. -/
def parseGameinfo (fuel : Nat) (data : Bytes) : Except Fault (Option GameinfoFields) :=
  if data.length < 21 then .ok none
  else do
    let first ← index data 0
    if first ≠ 0xF7 then .ok none
    else do
      let second ← index data 1
      if second ≠ 0x30 then .ok none
      else do
        let suffix ← sliceFrom data 20
        match suffix.findIdx? (· = 0) with
        | none => .ok none
        | some nameEnd => do
            let name ← slice data 20 (20 + nameEnd)
            let mapPath ← decodeStatString fuel data (20 + nameEnd + 2)
            .ok (some ⟨fromUtf8Lossy name, mapPath⟩)

end Checked

/-! ## The decoding loops -/

/-- How the byte at a position is read: every eighth is a mask. -/
def readAs (k : Nat) : Nat × ByteUse := (k, if k % 8 = 0 then .mask else .data)

/-- The bytes up to `i` have been read, each once. -/
structure Decoding.ReadsUpTo (encoded : Bytes) (s : Decoding) : Prop where
  within : s.i ≤ encoded.length
  reads : s.reads = (List.range s.i).map readAs

section Loops

variable {encoded : Bytes} {s : Decoding}

theorem map_range_succ (i : Nat) :
    (List.range (i + 1)).map readAs = (List.range i).map readAs ++ [readAs i] := by
  rw [List.range_succ, List.map_append, List.map_singleton]

/-- One more byte is read. -/
theorem Decoding.ReadsUpTo.next (h : s.ReadsUpTo encoded) (hi : s.i < encoded.length)
    {use : ByteUse} (huse : readAs s.i = (s.i, use)) (decoded : Bytes) :
    Decoding.ReadsUpTo encoded ⟨s.i + 1, decoded, s.reads ++ [(s.i, use)]⟩ := by
  refine ⟨hi, ?_⟩
  rw [map_range_succ, huse, h.reads]

/-- Before a mask it does not matter which mask came last. -/
theorem decodeMasked_eight (mask : UInt8) (bs : Bytes) :
    decodeMasked mask 8 bs = decodeMasked 0 8 bs := by
  cases bs <;> rfl

/-- A byte that is not zero is lowered without a fault, as in `decodeMasked`. -/
theorem plainByte_ok {b : UInt8} (hb : b ≠ 0) (mask : UInt8) {bit : Nat} (hbit : bit ≠ 8) :
    ∃ plain, Checked.plainByte mask bit b = .ok plain ∧
      ∀ rest, decodeMasked mask bit (b :: rest) = plain :: decodeMasked mask (bit + 1) rest := by
  refine ⟨if mask.toNat.testBit bit then b else b - 1, ?_, fun rest => ?_⟩
  · rw [Checked.plainByte, subByte_one_ok hb]
    split <;> rfl
  · rw [decodeMasked, if_neg hbit]

/-- The loop over the bits reads on to the next mask, or to the end. -/
theorem dataBytes_ok (hencoded : ∀ b ∈ encoded, b ≠ 0) (mask : UInt8) {bit n : Nat}
    (hbit : 1 ≤ bit) (hbits : bit + n = 8) (hs : s.ReadsUpTo encoded) (hi : s.i % 8 = bit % 8) :
    ∃ s', Checked.dataBytes encoded mask (List.range' bit n) s = .ok s' ∧
      s'.ReadsUpTo encoded ∧ s.i ≤ s'.i ∧ (s'.i % 8 = 0 ∨ s'.i = encoded.length) ∧
      s'.decoded ++ decodeMasked 0 8 (encoded.drop s'.i) =
        s.decoded ++ decodeMasked mask bit (encoded.drop s.i) := by
  induction n generalizing bit s with
  | zero =>
      obtain rfl : bit = 8 := hbits
      exact ⟨s, rfl, hs, Nat.le_refl _, .inl hi, by rw [decodeMasked_eight mask]⟩
  | succ n ih =>
      rw [List.range'_succ, Checked.dataBytes]
      split
      · next hend =>
        have hdrop : encoded.drop s.i = [] := List.drop_eq_nil_of_le hend
        refine ⟨s, rfl, hs, Nat.le_refl _, .inr (Nat.le_antisymm hs.within hend), ?_⟩
        rw [hdrop, decodeMasked, decodeMasked]
      · next hmore =>
        have hlt : s.i < encoded.length := Nat.lt_of_not_le hmore
        have hindex : index encoded s.i = .ok encoded[s.i] :=
          index_eq_ok.mpr (List.getElem?_eq_getElem hlt)
        have hdrop : encoded.drop s.i = encoded[s.i] :: encoded.drop (s.i + 1) :=
          List.drop_eq_getElem_cons hlt
        obtain ⟨plain, hplain, hmasked⟩ :=
          plainByte_ok (hencoded _ (List.getElem_mem hlt)) mask (show bit ≠ 8 by omega)
        have huse : readAs s.i = (s.i, .data) := by
          rw [readAs, if_neg (by omega)]
        have hnext : (s.i + 1) % 8 = (bit + 1) % 8 := by omega
        obtain ⟨s', hrun, hs', hle, hstop, hdecoded⟩ :=
          ih (by omega) (by omega) (hs.next hlt huse (s.decoded ++ [plain])) hnext
        refine ⟨s', ?_, hs', Nat.le_of_succ_le hle, hstop, ?_⟩
        · rw [hindex, ok_bind, hplain, ok_bind]
          exact hrun
        · rw [hdecoded, hdrop, hmasked, List.append_assoc, List.singleton_append]

/-- The loops stand before a mask, or at the end. -/
structure Decoding.AtMask (encoded : Bytes) (s : Decoding) : Prop extends s.ReadsUpTo encoded where
  aligned : s.i % 8 = 0 ∨ s.i = encoded.length
  decoded : s.decoded ++ decodeMasked 0 8 (encoded.drop s.i) = decodeMasked 0 8 encoded

/-- A round of the outer loop reads a mask and what belongs to it. -/
theorem group_ok (hencoded : ∀ b ∈ encoded, b ≠ 0) (hs : s.AtMask encoded)
    (hlt : s.i < encoded.length) :
    ∃ s', Checked.group encoded s = .ok s' ∧ s'.AtMask encoded ∧ s.i < s'.i := by
  have hindex : index encoded s.i = .ok encoded[s.i] :=
    index_eq_ok.mpr (List.getElem?_eq_getElem hlt)
  have hdrop : encoded.drop s.i = encoded[s.i] :: encoded.drop (s.i + 1) :=
    List.drop_eq_getElem_cons hlt
  have hzero : s.i % 8 = 0 := hs.aligned.resolve_right (Nat.ne_of_lt hlt)
  have huse : readAs s.i = (s.i, .mask) := by
    rw [readAs, if_pos hzero]
  have hnext : (s.i + 1) % 8 = 1 % 8 := by omega
  obtain ⟨s', hrun, hs', hle, hstop, hdecoded⟩ := dataBytes_ok hencoded encoded[s.i]
    (Nat.le_refl 1) (show 1 + 7 = 8 from rfl) (hs.toReadsUpTo.next hlt huse s.decoded) hnext
  refine ⟨s', ?_, ⟨hs', hstop, ?_⟩, hle⟩
  · rw [Checked.group, hindex, ok_bind]
    exact hrun
  · rw [hdecoded, ← hs.decoded, hdrop, decodeMasked, if_pos rfl]

/-- The loops end without a fault, and have read every byte once. -/
theorem decodeLoop_ok (hencoded : ∀ b ∈ encoded, b ≠ 0) {fuel : Nat}
    (hfuel : encoded.length ≤ fuel) :
    Checked.decodeLoop fuel encoded = .ok
      ⟨encoded.length, decodeMasked 0 8 encoded, (List.range encoded.length).map readAs⟩ := by
  have hbody : ∀ s : Decoding, s.AtMask encoded → decide (s.i < encoded.length) = true →
      ∃ s', Checked.group encoded s = .ok s' ∧ s'.AtMask encoded ∧
        encoded.length - s'.i < encoded.length - s.i := by
    intro s hs hcond
    have hlt := of_decide_eq_true hcond
    obtain ⟨s', hrun, hs', hless⟩ := group_ok hencoded hs hlt
    exact ⟨s', hrun, hs', Nat.sub_lt_sub_left hlt hless⟩
  have hstart : Decoding.AtMask encoded ⟨0, [], []⟩ :=
    { within := Nat.zero_le _
      reads := rfl
      aligned := .inl rfl
      decoded := rfl }
  obtain ⟨⟨i, decoded, reads⟩, hrun, hs, hend⟩ := loop_ok hbody hstart hfuel
  have hall : i = encoded.length :=
    Nat.le_antisymm hs.within (Nat.le_of_not_lt (of_decide_eq_false hend))
  have hdecoded : decoded = decodeMasked 0 8 encoded := by
    have hrest := hs.decoded
    rwa [hall, List.drop_length, decodeMasked, List.append_nil] at hrest
  have hreads : reads = (List.range encoded.length).map readAs := hall ▸ hs.reads
  rw [Checked.decodeLoop, hrun, hall, hdecoded, hreads]

end Loops

/-! ## The packet -/

section Packet

variable {data : Bytes}

/-- What stands in front of the next zero is a slice of the packet. -/
theorem slice_beforeZero {start stop : Nat}
    (hstop : (data.drop start).findIdx? (· = 0) = some stop) :
    slice data start (start + stop) = .ok ((data.drop start).take stop) ∧
      beforeZero (data.drop start) = some ((data.drop start).take stop) := by
  have hlt : stop < (data.drop start).length := (List.findIdx?_eq_some_iff_getElem.mp hstop).1
  rw [List.length_drop] at hlt
  have hend : start + stop ≤ data.length := by omega
  have hslice := slice_ok (Nat.le_add_right start stop) hend
  rw [Nat.add_sub_cancel_left] at hslice
  exact ⟨hslice, by rw [beforeZero, hstop, Option.map_some]⟩

/-- The encoded settings are found without a fault; they are not empty. -/
theorem encodedSettings_ok (data : Bytes) (start : Nat) : Checked.encodedSettings data start = .ok
    (if data.length ≤ start then none
      else (beforeZero (data.drop start)).filter fun encoded => !encoded.isEmpty) := by
  rw [Checked.encodedSettings]
  split
  · rfl
  · next hstart =>
    rw [sliceFrom_ok (Nat.le_of_not_le hstart), ok_bind]
    cases hfind : (data.drop start).findIdx? (· = 0) with
    | none =>
        rw [beforeZero, hfind]
        rfl
    | some stop =>
        obtain ⟨hslice, hbefore⟩ := slice_beforeZero hfind
        dsimp only
        rw [hslice, ok_bind, hbefore, Option.filter_some]
        cases ((data.drop start).take stop).isEmpty <;> rfl

/-- The encoded settings stand in front of the zero that ends them, and contain none. -/
theorem encodedSettings_eq_some {start : Nat} {encoded : Bytes}
    (h : Checked.encodedSettings data start = .ok (some encoded)) :
    (∀ b ∈ encoded, b ≠ 0) ∧ ∃ rest, data.drop start = encoded ++ 0 :: rest := by
  rw [encodedSettings_ok, Except.ok.injEq] at h
  split at h
  · cases h
  · exact exists_of_beforeZero (Option.filter_eq_some_iff.mp h).1

/-- The name of the map is found without a fault. -/
theorem mapNameOf_ok (decoded : Bytes) : Checked.mapNameOf decoded = .ok
    (if decoded.length < 14 then none
      else some (mapName
        (fromUtf8Lossy ((beforeZero (decoded.drop 13)).getD (decoded.drop 13))))) := by
  unfold Checked.mapNameOf
  split
  · rfl
  · next hlong =>
    rw [sliceFrom_ok (by omega), ok_bind, sub_ok (by omega), ok_bind]
    cases hfind : (decoded.drop 13).findIdx? (· = 0) with
    | none =>
        have hend : 13 + (decoded.length - 13) ≤ decoded.length := by omega
        have hslice := slice_ok (Nat.le_add_right 13 (decoded.length - 13)) hend
        have hall : (decoded.drop 13).take (decoded.length - 13) = decoded.drop 13 :=
          List.take_of_length_le (by rw [List.length_drop])
        rw [Nat.add_sub_cancel_left, hall] at hslice
        rw [Option.getD_none, hslice, ok_bind, beforeZero, hfind]
        rfl
    | some stop =>
        obtain ⟨hslice, hbefore⟩ := slice_beforeZero hfind
        rw [Option.getD_some, hslice, ok_bind, hbefore, Option.getD_some]

/-- `decode_stat_string` runs without a fault. -/
theorem decodeStatString_ok (data : Bytes) (start : Nat) {fuel : Nat} (hfuel : data.length ≤ fuel) :
    Checked.decodeStatString fuel data start = .ok (decodeStatString data start) := by
  rw [Checked.decodeStatString, encodedSettings_ok, ok_bind, decodeStatString]
  by_cases hstart : data.length ≤ start
  · rw [if_pos hstart, if_pos hstart]
  rw [if_neg hstart, if_neg hstart]
  cases hbefore : beforeZero (data.drop start) with
  | none => rfl
  | some encoded =>
      have hlength := beforeZero_length_le hbefore
      rw [List.length_drop] at hlength
      have hrounds : encoded.length ≤ fuel := by omega
      have hloop := decodeLoop_ok (exists_of_beforeZero hbefore).1 hrounds
      cases encoded with
      | nil => rfl
      | cons b rest =>
          have hfull : (some (b :: rest)).filter (fun encoded => !encoded.isEmpty) =
              some (b :: rest) := rfl
          rw [hfull, Option.bind_some, if_neg (List.cons_ne_nil _ _)]
          dsimp only
          rw [hloop, ok_bind, mapNameOf_ok]

/-- `parse_gameinfo` runs without a fault. -/
theorem parseGameinfo_ok (data : Bytes) {fuel : Nat} (hfuel : data.length ≤ fuel) :
    Checked.parseGameinfo fuel data = .ok (parseGameinfo data) := by
  rw [Checked.parseGameinfo, parseGameinfo]
  by_cases hshort : data.length < 21
  · rw [if_pos hshort, if_pos (.inl hshort)]
  have hfirst : data[0]? = some data[0] := List.getElem?_eq_getElem (by omega)
  have hsecond : data[1]? = some data[1] := List.getElem?_eq_getElem (by omega)
  rw [if_neg hshort, index_eq_ok.mpr hfirst, ok_bind]
  by_cases hf7 : data[0] ≠ 0xF7
  · have hbad : data[0]? ≠ some 0xF7 := by
      rw [hfirst]
      exact fun heq => hf7 (Option.some.inj heq)
    rw [if_pos hf7, if_pos (.inr (.inl hbad))]
  rw [if_neg hf7, index_eq_ok.mpr hsecond, ok_bind]
  by_cases h30 : data[1] ≠ 0x30
  · have hbad : data[1]? ≠ some 0x30 := by
      rw [hsecond]
      exact fun heq => h30 (Option.some.inj heq)
    rw [if_pos h30, if_pos (.inr (.inr hbad))]
  have hgood : ¬ (data.length < 21 ∨ data[0]? ≠ some 0xF7 ∨ data[1]? ≠ some 0x30) := by
    rw [hfirst, hsecond, not_not.mp hf7, not_not.mp h30]
    rintro (h | h | h)
    · exact hshort h
    · exact h rfl
    · exact h rfl
  rw [if_neg h30, if_neg hgood, sliceFrom_ok (by omega), ok_bind]
  cases hfind : (data.drop 20).findIdx? (· = 0) with
  | none =>
      rw [beforeZero, hfind]
      rfl
  | some nameEnd =>
      obtain ⟨hslice, hbefore⟩ := slice_beforeZero hfind
      have hlength : ((data.drop 20).take nameEnd).length = nameEnd := by
        have hlt := (List.findIdx?_eq_some_iff_getElem.mp hfind).1
        exact List.length_take_of_le (Nat.le_of_lt hlt)
      dsimp only
      rw [hslice, ok_bind, decodeStatString_ok data _ hfuel, ok_bind, hbefore, Option.map_some,
        hlength]

end Packet

/-- The parser runs without a fault on every packet, and gives what it gives unchecked.  The loop
over the settings, which stand in front of a zero and contain none, ends having read each of their
bytes once, every eighth as a mask and the others as data. -/
theorem gameinfo_without_fault (data : Bytes) :
    (∀ fuel, data.length ≤ fuel → Checked.parseGameinfo fuel data = .ok (parseGameinfo data)) ∧
      ∀ start,
        (∀ fuel, data.length ≤ fuel →
          Checked.decodeStatString fuel data start = .ok (decodeStatString data start)) ∧
        ∀ encoded, Checked.encodedSettings data start = .ok (some encoded) →
          (∀ b ∈ encoded, b ≠ 0) ∧ (∃ rest, data.drop start = encoded ++ 0 :: rest) ∧
            ∀ fuel, encoded.length ≤ fuel → Checked.decodeLoop fuel encoded = .ok
              { i := encoded.length
                decoded := decodeMasked 0 8 encoded
                reads := (List.range encoded.length).map readAs } := by
  refine ⟨fun fuel hfuel => parseGameinfo_ok data hfuel, fun start =>
    ⟨fun fuel hfuel => decodeStatString_ok data start hfuel, fun encoded hencoded => ?_⟩⟩
  obtain ⟨hne, hrest⟩ := encodedSettings_eq_some hencoded
  exact ⟨hne, hrest, fun fuel hfuel => decodeLoop_ok hne hfuel⟩

/-- A zero among the settings would be a fault. -/
example : Checked.decodeLoop 1 [1, 0] = .error .underflow := rfl

end War3BattleTool.Client

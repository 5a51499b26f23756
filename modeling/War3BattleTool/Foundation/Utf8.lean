import Mathlib.Data.List.Basic
import War3BattleTool.Foundation.Net

set_option autoImplicit false

/-!
# UTF-8 texts

The bytes of a text, and the reading of any bytes as text: what is not UTF-8 becomes U+FFFD,
once for each maximal part of a character.  The reader runs one byte at a time; between bytes
it holds what has been read of a character.
-/

namespace War3BattleTool.Foundation

/-- The UTF-8 bytes of a text. -/
def utf8Bytes (s : String) : Bytes := s.toList.flatMap String.utf8EncodeChar

/-- `str::is_ascii`. -/
def IsAscii (s : String) : Prop := ∀ c ∈ s.toList, c.toNat < 128

theorem utf8EncodeChar_of_ascii {c : Char} (h : c.toNat < 128) :
    String.utf8EncodeChar c = [UInt8.ofNat c.toNat] := by
  have hle : c.val.toNat ≤ 0x7f := Nat.le_of_lt_succ h
  rw [String.utf8EncodeChar, if_pos hle]
  rfl

/-- Only the null character is encoded with a zero. -/
theorem zero_notMem_utf8EncodeChar {c : Char} (h : c.toNat ≠ 0) :
    0 ∉ String.utf8EncodeChar c := by
  have hne : ∀ n, n % 256 ≠ 0 → (0 : UInt8) ≠ UInt8.ofNat n := by
    intro n hn heq
    have htoNat := congrArg UInt8.toNat heq
    rw [UInt8.toNat_ofNat'] at htoNat
    exact hn htoNat.symm
  have hval : c.val.toNat ≠ 0 := h
  intro hmem
  rw [String.utf8EncodeChar] at hmem
  split_ifs at hmem with hone htwo hthree
  · exact hne _ (by omega) (List.mem_singleton.mp hmem)
  all_goals
    simp only [List.mem_cons, List.not_mem_nil, or_false] at hmem
  · rcases hmem with hfirst | hsecond
    · exact hne _ (by omega) hfirst
    · exact hne _ (by omega) hsecond
  · rcases hmem with hfirst | hsecond | hthird
    · exact hne _ (by omega) hfirst
    · exact hne _ (by omega) hsecond
    · exact hne _ (by omega) hthird
  · rcases hmem with hfirst | hsecond | hthird | hfourth
    · exact hne _ (by omega) hfirst
    · exact hne _ (by omega) hsecond
    · exact hne _ (by omega) hthird
    · exact hne _ (by omega) hfourth

theorem ne_zero_of_mem_utf8Bytes {s : String} (h : ∀ c ∈ s.toList, c.toNat ≠ 0) :
    ∀ b ∈ utf8Bytes s, b ≠ 0 := by
  rintro b hb rfl
  obtain ⟨c, hc, hmem⟩ := List.mem_flatMap.mp hb
  exact zero_notMem_utf8EncodeChar (h c hc) hmem

/-- The encoding of another character starts with a byte beyond ASCII. -/
theorem exists_mem_utf8EncodeChar {c : Char} (h : ¬ c.toNat < 128) :
    ∃ b ∈ String.utf8EncodeChar c, 128 ≤ b.toNat := by
  have hlarge : ¬ c.val.toNat ≤ 0x7f := fun hle => h (Nat.lt_succ_of_le hle)
  rw [String.utf8EncodeChar, if_neg hlarge]
  split
  · refine ⟨_, List.mem_cons_self, ?_⟩
    rw [UInt8.toNat_ofNat']
    omega
  · split
    · refine ⟨_, List.mem_cons_self, ?_⟩
      rw [UInt8.toNat_ofNat']
      omega
    · refine ⟨_, List.mem_cons_self, ?_⟩
      rw [UInt8.toNat_ofNat']
      omega

theorem ofNat_toNat_of_ascii {c : Char} (h : c.toNat < 128) :
    Char.ofNat (UInt8.ofNat c.toNat).toNat = c := by
  rw [UInt8.toNat_ofNat', Nat.mod_eq_of_lt (by omega), Char.ofNat_toNat]

/-! ## Reading bytes as text -/

/-- What has been read of a character: the bytes still owed, the least and the greatest value
of the next one, and the bits so far. -/
structure Unfinished where
  owed : Nat
  low : Nat
  high : Nat
  bits : Nat

/-- The first byte of a character of several bytes. -/
def leading (b : Nat) : Option Unfinished :=
  if 0xC2 ≤ b ∧ b ≤ 0xDF then some ⟨1, 0x80, 0xBF, b - 0xC0⟩
  else if b = 0xE0 then some ⟨2, 0xA0, 0xBF, 0⟩
  else if b = 0xED then some ⟨2, 0x80, 0x9F, 0xD⟩
  else if 0xE1 ≤ b ∧ b ≤ 0xEF then some ⟨2, 0x80, 0xBF, b - 0xE0⟩
  else if b = 0xF0 then some ⟨3, 0x90, 0xBF, 0⟩
  else if b = 0xF4 then some ⟨3, 0x80, 0x8F, 4⟩
  else if 0xF1 ≤ b ∧ b ≤ 0xF3 then some ⟨3, 0x80, 0xBF, b - 0xF0⟩
  else none

/-- U+FFFD. -/
def replacement : Char := Char.ofNat 0xFFFD

/-- A byte between two characters: what is read, and what it begins. -/
def readFirst (b : Nat) : List Char × Option Unfinished :=
  if b < 0x80 then ([Char.ofNat b], none)
  else
    match leading b with
    | some q => ([], some q)
    | none => ([replacement], none)

/-- The next byte.  One that does not continue the character is read again as a first one. -/
def readNext (b : Nat) : Option Unfinished → List Char × Option Unfinished
  | none => readFirst b
  | some q =>
      if q.low ≤ b ∧ b ≤ q.high then
        let bits := q.bits * 64 + b % 64
        if q.owed = 1 then ([Char.ofNat bits], none)
        else ([], some ⟨q.owed - 1, 0x80, 0xBF, bits⟩)
      else (replacement :: (readFirst b).1, (readFirst b).2)

/-- The text of the bytes that follow what has been read. -/
def readLossy : Option Unfinished → Bytes → List Char
  | none, [] => []
  | some _, [] => [replacement]
  | q, b :: rest => (readNext b.toNat q).1 ++ readLossy (readNext b.toNat q).2 rest

/-- `String::from_utf8_lossy`. -/
def fromUtf8Lossy (bs : Bytes) : String := String.ofList (readLossy none bs)

/-! ## A text has no more characters than bytes -/

/-- The character that is being read counts as one. -/
def pendingLength (q : Option Unfinished) : Nat := if q.isSome then 1 else 0

theorem readFirst_length (b : Nat) :
    (readFirst b).1.length + pendingLength (readFirst b).2 = 1 := by
  rw [readFirst]
  split
  · rfl
  · cases leading b with
    | some q => rfl
    | none => rfl

theorem readNext_length (b : Nat) (q : Option Unfinished) :
    (readNext b q).1.length + pendingLength (readNext b q).2 ≤ pendingLength q + 1 := by
  cases q with
  | none => exact Nat.le_of_eq (readFirst_length b)
  | some q =>
      rw [readNext]
      split
      · split
        · exact Nat.le_succ 1
        · exact Nat.le_succ 1
      · have hfirst := readFirst_length b
        change (readFirst b).1.length + 1 + pendingLength (readFirst b).2 ≤ 2
        omega

theorem readLossy_length_le (q : Option Unfinished) (bs : Bytes) :
    (readLossy q bs).length ≤ pendingLength q + bs.length := by
  induction bs generalizing q with
  | nil =>
      cases q with
      | none => exact Nat.le_refl 0
      | some q => exact Nat.le_refl 1
  | cons b rest ih =>
      have hnext := readNext_length b.toNat q
      have hrest := ih (readNext b.toNat q).2
      rw [readLossy, List.length_append, List.length_cons]
      omega

theorem fromUtf8Lossy_length_le (bs : Bytes) : (fromUtf8Lossy bs).length ≤ bs.length := by
  have hle := readLossy_length_le none bs
  rw [fromUtf8Lossy, String.length_ofList]
  exact hle.trans (Nat.le_of_eq (Nat.zero_add _))

/-! ## A text is read back from its bytes -/

theorem leading_two {b : Nat} (h : 0xC2 ≤ b ∧ b ≤ 0xDF) :
    leading b = some ⟨1, 0x80, 0xBF, b - 0xC0⟩ := by
  rw [leading, if_pos h]

/-- The second byte of three: neither an overlong encoding nor a surrogate. -/
theorem leading_three {b x : Nat} (hb : 0xE0 ≤ b ∧ b ≤ 0xEF) (hx : 0x80 ≤ x ∧ x ≤ 0xBF)
    (hlow : b = 0xE0 → 0xA0 ≤ x) (hhigh : b = 0xED → x ≤ 0x9F) :
    ∃ low high, leading b = some ⟨2, low, high, b - 0xE0⟩ ∧ low ≤ x ∧ x ≤ high := by
  rw [leading, if_neg (by omega)]
  split_ifs with he0 hed
  · exact ⟨0xA0, 0xBF, by rw [he0], hlow he0, hx.2⟩
  · exact ⟨0x80, 0x9F, by rw [hed], hx.1, hhigh hed⟩
  · exact ⟨0x80, 0xBF, rfl, hx.1, hx.2⟩
  all_goals omega

/-- The second byte of four: neither an overlong encoding nor beyond U+10FFFF. -/
theorem leading_four {b x : Nat} (hb : 0xF0 ≤ b ∧ b ≤ 0xF4) (hx : 0x80 ≤ x ∧ x ≤ 0xBF)
    (hlow : b = 0xF0 → 0x90 ≤ x) (hhigh : b = 0xF4 → x ≤ 0x8F) :
    ∃ low high, leading b = some ⟨3, low, high, b - 0xF0⟩ ∧ low ≤ x ∧ x ≤ high := by
  rw [leading, if_neg (by omega), if_neg (by omega), if_neg (by omega), if_neg (by omega)]
  split_ifs with hf0 hf4
  · exact ⟨0x90, 0xBF, by rw [hf0], hlow hf0, hx.2⟩
  · exact ⟨0x80, 0x8F, by rw [hf4], hx.1, hhigh hf4⟩
  · exact ⟨0x80, 0xBF, rfl, hx.1, hx.2⟩
  · omega

section

variable {b : UInt8} {owed low high bits : Nat} {rest : Bytes}

theorem readLossy_leading {q : Unfinished} (hlarge : 0x80 ≤ b.toNat)
    (h : leading b.toNat = some q) :
    readLossy none (b :: rest) = readLossy (some q) rest := by
  rw [readLossy, readNext, readFirst, if_neg (Nat.not_lt.mpr hlarge), h]
  rfl

theorem readLossy_more (hb : low ≤ b.toNat ∧ b.toNat ≤ high) (howed : owed ≠ 1) :
    readLossy (some ⟨owed, low, high, bits⟩) (b :: rest) =
      readLossy (some ⟨owed - 1, 0x80, 0xBF, bits * 64 + b.toNat % 64⟩) rest := by
  rw [readLossy, readNext, if_pos hb]
  simp only [if_neg howed, List.nil_append]

theorem readLossy_last (hb : low ≤ b.toNat ∧ b.toNat ≤ high) (howed : owed = 1) :
    readLossy (some ⟨owed, low, high, bits⟩) (b :: rest) =
      Char.ofNat (bits * 64 + b.toNat % 64) :: readLossy none rest := by
  rw [readLossy, readNext, if_pos hb]
  simp only [if_pos howed]
  rfl

end

theorem toNat_ofNat_byte {n : Nat} (h : n < 256) : (UInt8.ofNat n).toNat = n := by
  rw [UInt8.toNat_ofNat', Nat.mod_eq_of_lt (by omega)]

theorem readLossy_utf8EncodeChar (c : Char) (rest : Bytes) :
    readLossy none (String.utf8EncodeChar c ++ rest) = c :: readLossy none rest := by
  have hvalid : c.val.toNat < 0xD800 ∨ 0xDFFF < c.val.toNat ∧ c.val.toNat < 0x110000 := c.valid
  have hofNat : Char.ofNat c.val.toNat = c := Char.ofNat_toNat c
  generalize hv : c.val.toNat = v at hvalid hofNat
  rw [String.utf8EncodeChar]
  simp only [hv]
  split_ifs with hone htwo hthree
  · rw [List.cons_append, List.nil_append, readLossy, readNext, toNat_ofNat_byte (by omega),
      readFirst, if_pos (by omega), hofNat]
    rfl
  · have hfirst : (UInt8.ofNat (v / 64 % 32 + 192)).toNat = v / 64 + 192 := by
      rw [toNat_ofNat_byte (by omega)]
      omega
    have hsecond : (UInt8.ofNat (v % 64 + 128)).toNat = v % 64 + 128 :=
      toNat_ofNat_byte (by omega)
    rw [List.cons_append, List.cons_append, List.nil_append,
      readLossy_leading (by omega) (by rw [hfirst]; exact leading_two (by omega)),
      readLossy_last (by rw [hsecond]; exact ⟨by omega, by omega⟩) rfl, hsecond]
    have hbits : (v / 64 + 192 - 192) * 64 + (v % 64 + 128) % 64 = v := by omega
    rw [hbits, hofNat]
  · have hfirst : (UInt8.ofNat (v / 4096 % 16 + 224)).toNat = v / 4096 + 224 := by
      rw [toNat_ofNat_byte (by omega)]
      omega
    have hsecond : (UInt8.ofNat (v / 64 % 64 + 128)).toNat = v / 64 % 64 + 128 :=
      toNat_ofNat_byte (by omega)
    have hthird : (UInt8.ofNat (v % 64 + 128)).toNat = v % 64 + 128 :=
      toNat_ofNat_byte (by omega)
    obtain ⟨low, high, hleading, hlow, hhigh⟩ :=
      leading_three (b := v / 4096 + 224) (x := v / 64 % 64 + 128) ⟨by omega, by omega⟩
        ⟨by omega, by omega⟩ (by omega) (by omega)
    rw [List.cons_append, List.cons_append, List.cons_append, List.nil_append,
      readLossy_leading (by omega) (by rw [hfirst]; exact hleading),
      readLossy_more (by rw [hsecond]; exact ⟨hlow, hhigh⟩) (by decide), hsecond,
      readLossy_last (by rw [hthird]; exact ⟨by omega, by omega⟩) rfl, hthird]
    have hbits : ((v / 4096 + 224 - 224) * 64 + (v / 64 % 64 + 128) % 64) * 64 +
        (v % 64 + 128) % 64 = v := by omega
    rw [hbits, hofNat]
  · have hfirst : (UInt8.ofNat (v / 262144 % 8 + 240)).toNat = v / 262144 + 240 := by
      rw [toNat_ofNat_byte (by omega)]
      omega
    have hsecond : (UInt8.ofNat (v / 4096 % 64 + 128)).toNat = v / 4096 % 64 + 128 :=
      toNat_ofNat_byte (by omega)
    have hthird : (UInt8.ofNat (v / 64 % 64 + 128)).toNat = v / 64 % 64 + 128 :=
      toNat_ofNat_byte (by omega)
    have hfourth : (UInt8.ofNat (v % 64 + 128)).toNat = v % 64 + 128 :=
      toNat_ofNat_byte (by omega)
    obtain ⟨low, high, hleading, hlow, hhigh⟩ :=
      leading_four (b := v / 262144 + 240) (x := v / 4096 % 64 + 128) ⟨by omega, by omega⟩
        ⟨by omega, by omega⟩ (by omega) (by omega)
    rw [List.cons_append, List.cons_append, List.cons_append, List.cons_append, List.nil_append,
      readLossy_leading (by omega) (by rw [hfirst]; exact hleading),
      readLossy_more (by rw [hsecond]; exact ⟨hlow, hhigh⟩) (by decide), hsecond,
      readLossy_more (by rw [hthird]; exact ⟨by omega, by omega⟩) (by decide), hthird,
      readLossy_last (by rw [hfourth]; exact ⟨by omega, by omega⟩) rfl, hfourth]
    have hbits : (((v / 262144 + 240 - 240) * 64 + (v / 4096 % 64 + 128) % 64) * 64 +
        (v / 64 % 64 + 128) % 64) * 64 + (v % 64 + 128) % 64 = v := by omega
    rw [hbits, hofNat]

/-- The bytes of a text are read back as the text. -/
theorem fromUtf8Lossy_utf8Bytes (s : String) : fromUtf8Lossy (utf8Bytes s) = s := by
  have hread : ∀ cs : List Char, readLossy none (cs.flatMap String.utf8EncodeChar) = cs := by
    intro cs
    induction cs with
    | nil => rfl
    | cons c cs ih => rw [List.flatMap_cons, readLossy_utf8EncodeChar, ih]
  rw [fromUtf8Lossy, utf8Bytes, hread, String.ofList_toList]

end War3BattleTool.Foundation

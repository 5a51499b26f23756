import Mathlib.Algebra.GroupWithZero.Nat
import Mathlib.Algebra.Order.BigOperators.Group.List
import Mathlib.Data.String.Basic

set_option autoImplicit false

/-!
# Compact JSON text and its size

The text that a compact JSON writer produces (no blanks, characters escaped only where they
have to be), as lists of characters, and its size in bytes.  The size of a composite is the
size of its parts and of the punctuation between them, so the size of a whole message is a sum
over its fields.
-/

namespace War3BattleTool.Foundation.Json

/-- `"` -/
def quotationMark : Char := Char.ofNat 0x22

/-- `\` -/
def backslash : Char := Char.ofNat 0x5c

/-- The letter after the backslash, for the characters that have a short escape. -/
def shortEscape (c : Char) : Option Char :=
  match c.toNat with
  | 0x08 => some 'b'
  | 0x09 => some 't'
  | 0x0a => some 'n'
  | 0x0c => some 'f'
  | 0x0d => some 'r'
  | 0x22 => some quotationMark
  | 0x5c => some backslash
  | _ => none

/-- A character inside a string.  The control characters without a short escape get a long
one; every other character stands for itself. -/
def escape (c : Char) : List Char :=
  match shortEscape c with
  | some letter => [backslash, letter]
  | none =>
      if c.toNat < 0x20 then
        [backslash, 'u', '0', '0', (c.toNat / 16).digitChar, (c.toNat % 16).digitChar]
      else [c]

/-- A string. -/
def string (s : String) : List Char :=
  quotationMark :: (s.toList.flatMap escape ++ [quotationMark])

/-- A natural number. -/
def number (n : Nat) : List Char := Nat.toDigits 10 n

/-- `null`, or a value. -/
def optional {α : Type} (write : α → List Char) : Option α → List Char
  | none => "null".toList
  | some x => write x

/-- An array of values. -/
def array (items : List (List Char)) : List Char := '[' :: ([','].intercalate items ++ [']'])

/-- A member of an object. -/
def member (key : String) (value : List Char) : List Char := string key ++ ':' :: value

/-- An object. -/
def object (members : List (List Char)) : List Char :=
  Char.ofNat 0x7b :: ([','].intercalate members ++ [Char.ofNat 0x7d])

/-! ## Sizes -/

/-- The bytes that a character takes inside a string. -/
def escapedSize (c : Char) : Nat :=
  if (shortEscape c).isSome then 2 else if c.toNat < 0x20 then 6 else c.utf8Size

/-- The bytes that the characters of a string take. -/
def contentSize (s : String) : Nat := (s.toList.map escapedSize).sum

/-- The number of decimal digits. -/
def digits (n : Nat) : Nat := (Nat.toDigits 10 n).length

/-- The size of text without characters beyond ASCII is its length. -/
theorem utf8Len_of_ascii {cs : List Char} (h : ∀ c ∈ cs, c.toNat < 0x80) :
    String.utf8Len cs = cs.length := by
  induction cs with
  | nil => rfl
  | cons c cs ih =>
      have hc : c.utf8Size = 1 := by
        rw [Char.utf8Size_eq_one_iff, UInt32.le_iff_toNat_le]
        exact Nat.le_of_lt_succ (h c (List.mem_cons_self ..))
      rw [String.utf8Len_cons, hc, ih fun d hd => h d (List.mem_cons_of_mem c hd),
        List.length_cons]

theorem shortEscape_ascii {c letter : Char} (h : shortEscape c = some letter) :
    letter.toNat < 0x80 := by
  unfold shortEscape at h
  split at h <;> cases h <;> decide

theorem digitChar_ascii {n : Nat} (h : n < 16) : n.digitChar.toNat < 0x80 := by
  have hall : ∀ m < 16, m.digitChar.toNat < 0x80 := by decide
  exact hall n h

theorem utf8Len_escape (c : Char) : String.utf8Len (escape c) = escapedSize c := by
  unfold escape escapedSize
  cases hshort : shortEscape c with
  | some letter =>
      refine utf8Len_of_ascii fun d hd => ?_
      rcases List.mem_pair.mp hd with rfl | rfl
      · decide
      · exact shortEscape_ascii hshort
  | none =>
      simp only [Option.isSome_none, Bool.false_eq_true, if_false]
      split
      · next hcontrol =>
        refine utf8Len_of_ascii fun d hd => ?_
        simp only [List.mem_cons, List.not_mem_nil, or_false] at hd
        rcases hd with rfl | rfl | rfl | rfl | rfl | rfl
        · decide
        · decide
        · decide
        · decide
        · exact digitChar_ascii (by omega)
        · exact digitChar_ascii (by omega)
      · simp

theorem utf8Len_flatMap_escape (cs : List Char) :
    String.utf8Len (cs.flatMap escape) = (cs.map escapedSize).sum := by
  induction cs with
  | nil => rfl
  | cons c cs ih =>
      rw [List.flatMap_cons, String.utf8Len_append, utf8Len_escape, ih, List.map_cons,
        List.sum_cons]

/-- A string has two quotation marks around it. -/
theorem utf8Len_string (s : String) : String.utf8Len (string s) = contentSize s + 2 := by
  have hmark : quotationMark.utf8Size = 1 := by decide
  rw [string, String.utf8Len_cons, String.utf8Len_append, utf8Len_flatMap_escape,
    String.utf8Len_cons, String.utf8Len_nil, hmark, contentSize]

theorem utf8Len_number (n : Nat) : String.utf8Len (number n) = digits n := by
  refine utf8Len_of_ascii fun c hc => ?_
  have hdigit := Nat.isDigit_of_mem_toDigits (by decide) (by decide) hc
  rw [Char.isDigit_iff_toNat] at hdigit
  have hnine : '9'.toNat = 57 := rfl
  omega

/-- There is a comma between any two items. -/
theorem utf8Len_intercalate (items : List (List Char)) :
    String.utf8Len ([','].intercalate items) =
      (items.map String.utf8Len).sum + (items.length - 1) := by
  have hcomma : ','.utf8Size = 1 := by decide
  induction items with
  | nil => rfl
  | cons item rest ih =>
      cases rest with
      | nil => simp
      | cons next rest =>
          rw [List.intercalate_cons_cons, String.utf8Len_append, String.utf8Len_append,
            String.utf8Len_cons, String.utf8Len_nil, hcomma, ih]
          simp only [List.map_cons, List.sum_cons, List.length_cons]
          omega

theorem utf8Len_array (items : List (List Char)) : String.utf8Len (array items) =
    (items.map String.utf8Len).sum + (items.length - 1) + 2 := by
  have hopen : '['.utf8Size = 1 := by decide
  have hclose : ']'.utf8Size = 1 := by decide
  rw [array, String.utf8Len_cons, String.utf8Len_append, utf8Len_intercalate,
    String.utf8Len_cons, String.utf8Len_nil, hopen, hclose]

theorem utf8Len_member (key : String) (value : List Char) :
    String.utf8Len (member key value) = contentSize key + 3 + String.utf8Len value := by
  have hcolon : ':'.utf8Size = 1 := by decide
  rw [member, String.utf8Len_append, utf8Len_string, String.utf8Len_cons, hcolon]
  omega

theorem utf8Len_object (members : List (List Char)) : String.utf8Len (object members) =
    (members.map String.utf8Len).sum + (members.length - 1) + 2 := by
  have hopen : (Char.ofNat 0x7b).utf8Size = 1 := by decide
  have hclose : (Char.ofNat 0x7d).utf8Size = 1 := by decide
  rw [object, String.utf8Len_cons, String.utf8Len_append, utf8Len_intercalate,
    String.utf8Len_cons, String.utf8Len_nil, hopen, hclose]

/-! ## Bounds -/

theorem escapedSize_le (c : Char) : escapedSize c ≤ 6 := by
  unfold escapedSize
  have hsize : c.utf8Size ≤ 4 := c.utf8Size_le_four
  split
  · omega
  · split <;> omega

/-- The longest escape has six characters. -/
theorem contentSize_le (s : String) : contentSize s ≤ 6 * s.length := by
  have hbound : ∀ n ∈ s.toList.map escapedSize, n ≤ 6 := by
    intro n hn
    obtain ⟨c, _, rfl⟩ := List.mem_map.mp hn
    exact escapedSize_le c
  have hsum := List.sum_le_card_nsmul _ 6 hbound
  rwa [List.length_map, String.length_toList, Nat.nsmul_eq_mul, Nat.mul_comm] at hsum

theorem digits_le {n k : Nat} (hk : 0 < k) (h : n < 10 ^ k) : digits n ≤ k :=
  (Nat.length_toDigits_le_iff (by decide) hk).mpr h

end War3BattleTool.Foundation.Json

import Mathlib.Tactic.Common
import War3BattleTool.Foundation.JsonText
import War3BattleTool.Protocol.AddrSafety
import War3BattleTool.Protocol.Messages
import War3BattleTool.Protocol.SocketAddrText

set_option autoImplicit false

/-!
# Addresses written and read back (`Display` of the standard library)

The lobby protocol carries addresses as text: the server writes the address it observes, the
client writes the address that its router has mapped, and both read what the other wrote.  The
writers here are those of `core::net`; the readers are in `SocketAddrText`.  Whatever is written
is read back as it was, IPv6 addresses with their `::` and their IPv4 forms included
(`parseIpAddr_text`, `parseSocketAddr_text`).
-/

namespace War3BattleTool.Protocol

open War3BattleTool.Foundation

/-! ## Writers -/

/-- `Display` of `Ipv4Addr`. -/
def ipv4Text (a : BitVec 32) : List Char :=
  Nat.toDigits 10 (octet a 0) ++ '.' :: (Nat.toDigits 10 (octet a 1) ++
    '.' :: (Nat.toDigits 10 (octet a 2) ++ '.' :: Nat.toDigits 10 (octet a 3)))

/-- The `i`-th segment of an IPv6 address, from the left. -/
def segment (a : BitVec 128) (i : Nat) : Nat := a.toNat / 65536 ^ (7 - i) % 65536

/-- `Ipv6Addr::segments`. -/
def segments (a : BitVec 128) : List Nat := (List.range 8).map (segment a)

/-- `Ipv6Addr::to_ipv4_mapped`. -/
def toIpv4Mapped (a : BitVec 128) : Option (BitVec 32) :=
  if a.toNat / 2 ^ 32 = 0xffff then some (BitVec.ofNat 32 a.toNat) else none

/-- `Span` of `Ipv6Addr::fmt`: a run of zero segments. -/
structure Span where
  start : Nat
  len : Nat
  deriving DecidableEq

/-- The loop of `Ipv6Addr::fmt` over the segments from the `i`-th on. -/
def longestSpan : (i : Nat) → (longest current : Span) → List Nat → Span
  | _, longest, _, [] => longest
  | i, longest, current, segment :: rest =>
      if segment = 0 then
        let current := ⟨if current.len = 0 then i else current.start, current.len + 1⟩
        longestSpan (i + 1) (if longest.len < current.len then current else longest) current rest
      else longestSpan (i + 1) longest ⟨0, 0⟩ rest

/-- The segments of a chunk but the first, each with its colon. -/
def fmtTail (chunk : List Nat) : List Char :=
  chunk.flatMap fun segment => ':' :: Nat.toDigits 16 segment

/-- `fmt_subslice` of `Ipv6Addr::fmt`. -/
def fmtSubslice : List Nat → List Char
  | [] => []
  | first :: tail => Nat.toDigits 16 first ++ fmtTail tail

/-- `Display` of `Ipv6Addr`. -/
def ipv6Text (a : BitVec 128) : List Char :=
  match toIpv4Mapped a with
  | some v4 => "::ffff:".toList ++ ipv4Text v4
  | none =>
      let zeroes := longestSpan 0 ⟨0, 0⟩ ⟨0, 0⟩ (segments a)
      if 1 < zeroes.len then
        fmtSubslice ((segments a).take zeroes.start) ++ ':' :: ':' ::
          fmtSubslice ((segments a).drop (zeroes.start + zeroes.len))
      else fmtSubslice (segments a)

/-- The characters of an address. -/
def ipChars : IpAddr → List Char
  | .v4 a => ipv4Text a
  | .v6 a => ipv6Text a

/-- `Display` of `IpAddr`. -/
def ipText (ip : IpAddr) : String := String.ofList (ipChars ip)

/-- The characters of an address and a port; an IPv6 address stands in brackets. -/
def socketAddrChars (addr : SocketAddr) : List Char :=
  match addr.ip with
  | .v4 a => ipv4Text a ++ ':' :: Nat.toDigits 10 addr.port
  | .v6 a => '[' :: (ipv6Text a ++ ']' :: ':' :: Nat.toDigits 10 addr.port)

/-- `Display` of `SocketAddr`. -/
def socketAddrText (addr : SocketAddr) : String := String.ofList (socketAddrChars addr)

example : ipText (.v6 0x20010db8000000000000000000000001) = "2001:db8::1" := by decide

example : ipText (.v6 0xffff01020304) = "::ffff:1.2.3.4" := by decide

/-- `str::parse::<IpAddr>`. -/
def parseIpAddr (text : String) : Option IpAddr :=
  match ((readIpv4Addr text.toList).map fun (a, rest) => (IpAddr.v4 a, rest)).or
      ((readIpv6Addr text.toList).map fun (a, rest) => (IpAddr.v6 a, rest)) with
  | some (ip, []) => some ip
  | _ => none

/-! ## Digits -/

/-- The text ahead does not begin with a digit. -/
def NoDigit (radix : Nat) (rest : List Char) : Prop :=
  ∀ c ∈ rest.head?, toDigit radix c = none

theorem noDigit_nil (radix : Nat) : NoDigit radix [] := by simp [NoDigit]

theorem noDigit_cons {radix : Nat} {c : Char} {rest : List Char} (hc : toDigit radix c = none) :
    NoDigit radix (c :: rest) := by
  simpa [NoDigit] using hc

section Numbers

variable {radix : Nat} (hradix : radix = 10 ∨ radix = 16)
include hradix

theorem one_lt_radix : 1 < radix := by
  rcases hradix with rfl | rfl <;> decide

theorem toDigit_digitChar {d : Nat} (hd : d < radix) : toDigit radix d.digitChar = some d := by
  have hten : ∀ d < 10, toDigit 10 d.digitChar = some d := by decide
  have hsixteen : ∀ d < 16, toDigit 16 d.digitChar = some d := by decide
  rcases hradix with rfl | rfl
  · exact hten d hd
  · exact hsixteen d hd

/-- The digits of a number denote it. -/
theorem numberOf_toDigits (n : Nat) : numberOf radix (Nat.toDigits radix n) = n := by
  induction n using Nat.strongRecOn with
  | ind n ih =>
      rw [Nat.toDigits_eq_if (one_lt_radix hradix)]
      split
      next hn => simp [numberOf, toDigit_digitChar hradix hn]
      next hn =>
        have hlt : n / radix < n :=
          Nat.div_lt_self (by omega) (one_lt_radix hradix)
        have hlast := toDigit_digitChar hradix (Nat.mod_lt n (by omega : 0 < radix))
        have hinit := ih _ hlt
        simp only [numberOf] at hinit ⊢
        rw [List.foldl_append, hinit, List.foldl_cons, List.foldl_nil, hlast, Option.getD_some]
        exact Nat.div_add_mod n radix

theorem isSome_toDigit_of_mem {n : Nat} {c : Char} (hc : c ∈ Nat.toDigits radix n) :
    (toDigit radix c).isSome := by
  induction n using Nat.strongRecOn with
  | ind n ih =>
      rw [Nat.toDigits_eq_if (one_lt_radix hradix)] at hc
      split at hc
      next hn => simp [List.mem_singleton.mp hc, toDigit_digitChar hradix hn]
      next hn =>
        have hlt : n / radix < n := Nat.div_lt_self (by omega) (one_lt_radix hradix)
        rcases List.mem_append.mp hc with hinit | hlast
        · exact ih _ hlt hinit
        · rw [List.mem_singleton.mp hlast,
            toDigit_digitChar hradix (Nat.mod_lt n (by omega : 0 < radix))]
          rfl

/-- A positive number is written without a zero in front. -/
theorem head?_toDigits_ne {n : Nat} (hn : 0 < n) : (Nat.toDigits radix n).head? ≠ some '0' := by
  induction n using Nat.strongRecOn with
  | ind n ih =>
      rw [Nat.toDigits_eq_if (one_lt_radix hradix)]
      split
      next hlt =>
        have hdigits : ∀ d < 16, 0 < d → d.digitChar ≠ '0' := by decide
        simpa using hdigits n (by rcases hradix with rfl | rfl <;> omega) hn
      next hge =>
        have hlt : n / radix < n := Nat.div_lt_self hn (one_lt_radix hradix)
        have hpos : 0 < n / radix := Nat.div_pos (by omega) (by omega)
        rw [List.head?_append_of_ne_nil _ Nat.toDigits_ne_nil]
        exact ih _ hlt hpos

theorem takeWhile_toDigits (n : Nat) {rest : List Char} (hrest : NoDigit radix rest) :
    (Nat.toDigits radix n ++ rest).takeWhile (fun c => (toDigit radix c).isSome) =
      Nat.toDigits radix n := by
  rw [List.takeWhile_append_of_pos fun c hc => isSome_toDigit_of_mem hradix hc]
  cases rest with
  | nil => simp
  | cons c rest => simp [hrest c (by simp)]

/-- `read_number` reads a number that is followed by something else. -/
theorem readNumber_toDigits {n bound : Nat} {maxDigits : Option Nat} {allowZeroPrefix : Bool}
    {rest : List Char} (hn : n < bound)
    (hmax : ∀ most ∈ maxDigits, (Nat.toDigits radix n).length ≤ most)
    (hrest : NoDigit radix rest) :
    readNumber radix maxDigits allowZeroPrefix bound (Nat.toDigits radix n ++ rest) =
      some (n, rest) := by
  have htoo : ¬(Nat.toDigits radix n = [] ∨
      maxDigits.any (· < (Nat.toDigits radix n).length) = true) := by
    rintro (hnil | hlong)
    · exact Nat.toDigits_ne_nil hnil
    · obtain ⟨most, hmost, hlt⟩ := (Option.any_eq_true _ _).mp hlong
      have := hmax most hmost
      simp at hlt
      omega
  have hzero : ¬((!allowZeroPrefix && (Nat.toDigits radix n).head? = some '0' &&
      decide (1 < (Nat.toDigits radix n).length)) = true) := by
    intro hprefix
    simp only [Bool.and_eq_true, decide_eq_true_eq] at hprefix
    obtain ⟨⟨_, hhead⟩, hlong⟩ := hprefix
    rcases Nat.eq_zero_or_pos n with rfl | hpos
    · simp at hlong
    · exact head?_toDigits_ne hradix hpos hhead
  unfold readNumber
  simp only [takeWhile_toDigits hradix n hrest]
  rw [if_neg htoo, if_neg hzero, numberOf_toDigits hradix, if_pos hn, List.drop_left]

end Numbers

/-! ## IPv4 -/

theorem octet_lt (a : BitVec 32) (i : Nat) : octet a i < 256 := Nat.mod_lt _ (by decide)

theorem readOctet_toDigits {n : Nat} (hn : n < 256) {rest : List Char} (hrest : NoDigit 10 rest) :
    readOctet true (Nat.toDigits 10 n ++ rest) = some (n, rest) ∧
      readOctet false ('.' :: (Nat.toDigits 10 n ++ rest)) = some (n, rest) := by
  have hmax : ∀ most ∈ some 3, (Nat.toDigits 10 n).length ≤ most := by
    rintro _ ⟨⟩
    exact (Nat.length_toDigits_le_iff (by decide) (by decide)).mpr (by omega)
  have hread : readNumber 10 (some 3) false 256 (Nat.toDigits 10 n ++ rest) = some (n, rest) :=
    readNumber_toDigits (.inl rfl) hn hmax hrest
  simp [readOctet, readSeparator, readGivenChar, hread]

theorem noDigit_dot (rest : List Char) : NoDigit 10 ('.' :: rest) := noDigit_cons (by decide)

/-- The octets of an address are its bits. -/
theorem ofNat_octets (a : BitVec 32) : BitVec.ofNat 32
    (((octet a 0 * 256 + octet a 1) * 256 + octet a 2) * 256 + octet a 3) = a := by
  have hlt := a.isLt
  refine BitVec.eq_of_toNat_eq ?_
  rw [BitVec.toNat_ofNat]
  simp only [octet, Nat.reduceSub, Nat.reducePow] at hlt ⊢
  omega

theorem readIpv4Addr_ipv4Text (a : BitVec 32) {rest : List Char} (hrest : NoDigit 10 rest) :
    readIpv4Addr (ipv4Text a ++ rest) = some (a, rest) := by
  have h0 := fun rest => (readOctet_toDigits (octet_lt a 0) (noDigit_dot rest)).1
  have h1 := fun rest => (readOctet_toDigits (octet_lt a 1) (noDigit_dot rest)).2
  have h2 := fun rest => (readOctet_toDigits (octet_lt a 2) (noDigit_dot rest)).2
  have h3 := (readOctet_toDigits (octet_lt a 3) hrest).2
  simp only [ipv4Text, List.append_assoc, List.cons_append, readIpv4Addr, h0, h1, h2, h3,
    Option.bind_eq_bind, Option.bind_some, ofNat_octets]

/-- A number is read up to the first character that is no digit. -/
theorem rest_of_readNumber {radix n bound : Nat} {maxDigits : Option Nat} {allowZeroPrefix : Bool}
    {cs rest : List Char}
    (h : readNumber radix maxDigits allowZeroPrefix bound cs = some (n, rest)) :
    rest = cs.dropWhile fun c => (toDigit radix c).isSome := by
  have hparts := List.takeWhile_append_dropWhile
    (p := fun c => (toDigit radix c).isSome) (l := cs)
  simp only [readNumber] at h
  split at h
  · cases h
  · split at h
    · cases h
    · split at h <;> cases h
      calc _ = (cs.takeWhile (fun c => (toDigit radix c).isSome) ++
                cs.dropWhile fun c => (toDigit radix c).isSome).drop
              (cs.takeWhile fun c => (toDigit radix c).isSome).length := by rw [hparts]
        _ = _ := List.drop_left

/-- An IPv4 address has a dot after its first number. -/
theorem readIpv4Addr_eq_none {cs : List Char}
    (hdot : (cs.dropWhile fun c => (toDigit 10 c).isSome).head? ≠ some '.') :
    readIpv4Addr cs = none := by
  cases hfirst : readOctet true cs with
  | none => simp [readIpv4Addr, hfirst]
  | some first =>
      obtain ⟨n, rest⟩ := first
      have hrest := rest_of_readNumber hfirst
      have hsecond : readOctet false rest = none := by
        rw [← hrest] at hdot
        cases rest with
        | nil => rfl
        | cons c rest =>
            have hc : c ≠ '.' := by simpa using hdot
            simp [readOctet, readSeparator, readGivenChar, hc]
      simp [readIpv4Addr, hfirst, hsecond]

/-! ## Groups of an IPv6 address -/

theorem NoDigit.ten {rest : List Char} (h : NoDigit 16 rest) : NoDigit 10 rest := by
  intro c hc
  have hsixteen := h c hc
  simp only [toDigit, ite_eq_right_iff, reduceCtorEq, imp_false, not_lt] at hsixteen ⊢
  split_ifs at hsixteen ⊢ <;> omega

theorem readNumber_eq_none {radix bound : Nat} {maxDigits : Option Nat} {allowZeroPrefix : Bool}
    {cs : List Char} (h : NoDigit radix cs) :
    readNumber radix maxDigits allowZeroPrefix bound cs = none := by
  have hdigits : (cs.takeWhile fun c => (toDigit radix c).isSome) = [] := by
    cases cs with
    | nil => rfl
    | cons c cs => simp [h c (by simp)]
  simp [readNumber, hdigits]

theorem readIpv4Addr_eq_none_of_noDigit {cs : List Char} (h : NoDigit 10 cs) :
    readIpv4Addr cs = none := by
  have hfirst : readOctet true cs = none := readNumber_eq_none h
  simp [readIpv4Addr, hfirst]

/-- What stands behind the groups of an address: not a digit, not a dot, and not one group more. -/
structure EndsGroups (rest : List Char) : Prop where
  digit : NoDigit 16 rest
  dot : rest.head? ≠ some '.'
  group : ∀ next, rest = ':' :: next → NoDigit 16 next

theorem endsGroups_nil : EndsGroups [] := ⟨noDigit_nil 16, by simp, by simp⟩

theorem endsGroups_colons (rest : List Char) : EndsGroups (':' :: ':' :: rest) where
  digit := noDigit_cons (by decide)
  dot := by simp
  group := by
    rintro next ⟨⟩
    exact noDigit_cons (by decide)

theorem endsGroups_bracket (rest : List Char) : EndsGroups (']' :: rest) where
  digit := noDigit_cons (by decide)
  dot := by simp
  group := by simp

theorem fmtTail_follows (gs : List Nat) {rest : List Char} (hrest : EndsGroups rest) :
    NoDigit 16 (fmtTail gs ++ rest) ∧ (fmtTail gs ++ rest).head? ≠ some '.' := by
  cases gs with
  | nil => exact ⟨hrest.digit, hrest.dot⟩
  | cons g gs => exact ⟨noDigit_cons (by decide), by simp [fmtTail]⟩

/-- A group is no IPv4 address. -/
theorem readIpv4Addr_group (g : Nat) {rest : List Char} (hrest : NoDigit 16 rest)
    (hdot : rest.head? ≠ some '.') : readIpv4Addr (Nat.toDigits 16 g ++ rest) = none := by
  have hdigits : ∀ c ∈ Nat.toDigits 16 g, (toDigit 16 c).isSome := fun c hc =>
    isSome_toDigit_of_mem (.inr rfl) hc
  refine readIpv4Addr_eq_none ?_
  revert hdigits
  generalize Nat.toDigits 16 g = digits
  intro hdigits
  induction digits with
  | nil =>
      cases rest with
      | nil => simp
      | cons c rest => simpa [hrest.ten c (by simp)] using hdot
  | cons c cs ih =>
      rw [List.cons_append, List.dropWhile_cons]
      split
      · exact ih fun d hd => hdigits d (List.mem_cons_of_mem c hd)
      · have hc := hdigits c (List.mem_cons_self ..)
        rintro ⟨⟩
        revert hc
        decide

theorem readNumber_group {g : Nat} (hg : g < 65536) {rest : List Char} (hrest : NoDigit 16 rest) :
    readNumber 16 (some 4) true 65536 (Nat.toDigits 16 g ++ rest) = some (g, rest) := by
  refine readNumber_toDigits (.inr rfl) hg ?_ hrest
  rintro _ ⟨⟩
  exact (Nat.length_toDigits_le_iff (by decide) (by decide)).mpr (by omega)

theorem readGroups_fmtTail {gs : List Nat} (hgs : ∀ g ∈ gs, g < 65536) {rest : List Char}
    (hrest : EndsGroups rest) {left : Nat} (hleft : gs.length ≤ left) :
    readGroups left false (fmtTail gs ++ rest) = (gs, false, rest) := by
  induction gs generalizing left with
  | nil =>
      cases left with
      | zero => rfl
      | succ left =>
          have hgroup : ∀ {α : Type} {inner : List Char → Option (α × List Char)},
              (∀ {next}, NoDigit 16 next → inner next = none) →
              readSeparator ':' false inner rest = none := by
            intro α inner hinner
            cases rest with
            | nil => rfl
            | cons c rest =>
                by_cases hc : c = ':'
                · subst hc
                  simp [readSeparator, readGivenChar, hinner (hrest.group rest rfl)]
                · simp [readSeparator, readGivenChar, hc]
          have hv4 := hgroup fun h => readIpv4Addr_eq_none_of_noDigit h.ten
          have hnumber : readSeparator ':' false (readNumber 16 (some 4) true 65536) rest = none :=
            hgroup fun h => readNumber_eq_none h
          simp [fmtTail, readGroups, hv4, hnumber]
  | cons g gs ih =>
      obtain ⟨left, rfl⟩ : ∃ k, left = k + 1 := ⟨left - 1, by simp at hleft; omega⟩
      obtain ⟨hdigit, hdot⟩ := fmtTail_follows gs hrest
      have hv4 := readIpv4Addr_group g hdigit hdot
      have hnumber := readNumber_group (hgs g (List.mem_cons_self ..)) hdigit
      have htail := ih (fun g' hg' => hgs g' (List.mem_cons_of_mem g hg'))
        (Nat.le_of_succ_le_succ hleft)
      have htext : fmtTail (g :: gs) ++ rest =
          ':' :: (Nat.toDigits 16 g ++ (fmtTail gs ++ rest)) := by simp [fmtTail]
      simp [htext, readGroups, readSeparator, readGivenChar, hv4, hnumber, htail]

theorem readGroups_fmtSubslice {gs : List Nat} (hgs : ∀ g ∈ gs, g < 65536) {rest : List Char}
    (hrest : EndsGroups rest) {left : Nat} (hleft : gs.length ≤ left) :
    readGroups left true (fmtSubslice gs ++ rest) = (gs, false, rest) := by
  cases gs with
  | nil =>
      cases left with
      | zero => rfl
      | succ left =>
          have hv4 := readIpv4Addr_eq_none_of_noDigit hrest.digit.ten
          have hnumber : readNumber 16 (some 4) true 65536 rest = none :=
            readNumber_eq_none hrest.digit
          simp [fmtSubslice, readGroups, readSeparator, hv4, hnumber]
  | cons g gs =>
      obtain ⟨left, rfl⟩ : ∃ k, left = k + 1 := ⟨left - 1, by simp at hleft; omega⟩
      obtain ⟨hdigit, hdot⟩ := fmtTail_follows gs hrest
      have hv4 := readIpv4Addr_group g hdigit hdot
      have hnumber := readNumber_group (hgs g (List.mem_cons_self ..)) hdigit
      have htail := readGroups_fmtTail (fun g' hg' => hgs g' (List.mem_cons_of_mem g hg')) hrest
        (Nat.le_of_succ_le_succ hleft)
      simp [fmtSubslice, readGroups, readSeparator, hv4, hnumber, htail]

/-! ## The run of zeros -/

/-- All segments of the span are there, and zero. -/
def ZeroSpan (segments : List Nat) (s : Span) : Prop :=
  ∀ i, s.start ≤ i → i < s.start + s.len → segments[i]? = some 0

theorem zeroSpan_empty (segments : List Nat) : ZeroSpan segments ⟨0, 0⟩ :=
  fun _ _ h => absurd h (Nat.not_lt_zero _)

/-- The current span ends where the loop stands. -/
theorem zeroSpan_longestSpan {segments : List Nat} (rest done : List Nat) {longest current : Span}
    (hparts : segments = done ++ rest) (hlongest : ZeroSpan segments longest)
    (hcurrent : ZeroSpan segments current)
    (hends : current.len ≠ 0 → current.start + current.len = done.length) :
    ZeroSpan segments (longestSpan done.length longest current rest) := by
  induction rest generalizing done longest current with
  | nil => exact hlongest
  | cons segment rest ih =>
      have hparts' : segments = (done ++ [segment]) ++ rest := by simp [hparts]
      have hlength : (done ++ [segment]).length = done.length + 1 := by simp
      simp only [longestSpan]
      rw [← hlength]
      split
      next hzero =>
        have hnext : ZeroSpan segments
            ⟨if current.len = 0 then done.length else current.start, current.len + 1⟩ := by
          intro i hfrom hto
          have hi : i = done.length ∨ current.start ≤ i ∧ i < current.start + current.len := by
            dsimp only at hfrom hto
            split at hfrom <;> rename_i hempty <;> simp only [hempty, if_true, if_false] at hto
            · omega
            · have := hends hempty
              omega
          rcases hi with rfl | ⟨hfrom, hto⟩
          · simp [hparts, hzero]
          · exact hcurrent i hfrom hto
        refine ih _ hparts' ?_ hnext fun _ => ?_
        · split
          · exact hnext
          · exact hlongest
        · dsimp only
          split
          · omega
          · have := hends ‹_›
            omega
      · exact ih _ hparts' hlongest (zeroSpan_empty segments) fun h => absurd rfl h

/-- Around its zeros, a list is what stands before and behind them. -/
theorem ZeroSpan.split {segments : List Nat} {s : Span} (h : ZeroSpan segments s) :
    segments.take s.start ++ (List.replicate s.len 0 ++ segments.drop (s.start + s.len)) =
      segments := by
  have hzeros : (segments.drop s.start).take s.len = List.replicate s.len 0 := by
    refine List.ext_getElem? fun i => ?_
    rw [List.getElem?_take, List.getElem?_replicate]
    split
    next hi => rw [List.getElem?_drop, h _ (Nat.le_add_right ..) (by omega)]
    next => rfl
  rw [← hzeros, ← List.drop_drop, List.take_append_drop, List.take_append_drop]

theorem ZeroSpan.le_length {segments : List Nat} {s : Span} (h : ZeroSpan segments s)
    (hlen : 0 < s.len) : s.start + s.len ≤ segments.length := by
  have hlast := h (s.start + (s.len - 1)) (by omega) (by omega)
  have := (List.getElem?_eq_some_iff.mp hlast).1
  omega

/-! ## IPv6 -/

theorem length_segments (a : BitVec 128) : (segments a).length = 8 := by simp [segments]

theorem segments_lt {a : BitVec 128} {g : Nat} (hg : g ∈ segments a) : g < 65536 := by
  obtain ⟨i, _, rfl⟩ := List.mem_map.mp hg
  exact Nat.mod_lt _ (by decide)

/-- The segments of an address are its bits. -/
theorem ofSegments_segments (a : BitVec 128) : ofSegments (segments a) = a := by
  have hlt := a.isLt
  refine BitVec.eq_of_toNat_eq ?_
  rw [ofSegments, BitVec.toNat_ofNat]
  simp only [segments, segment, List.range_succ, List.range_zero, List.nil_append,
    List.cons_append, List.map_cons, List.map_nil, List.foldl_cons, List.foldl_nil,
    Nat.reduceSub, Nat.reducePow, Nat.mul_zero, Nat.zero_add] at hlt ⊢
  omega

theorem toIpv4Mapped_eq_some {a : BitVec 128} {v4 : BitVec 32} (h : toIpv4Mapped a = some v4) :
    a.toNat = 0xffff * 2 ^ 32 + v4.toNat := by
  unfold toIpv4Mapped at h
  split at h <;> cases h
  next hprefix =>
    rw [BitVec.toNat_ofNat, ← hprefix]
    exact (Nat.div_add_mod' _ _).symm

/-- An IPv4 address at the end takes the last two groups. -/
theorem readGroups_mapped (v4 : BitVec 32) {rest : List Char} (hrest : NoDigit 10 rest) :
    readGroups 7 true ("ffff:".toList ++ (ipv4Text v4 ++ rest)) =
      ([0xffff, v4.toNat / 65536, v4.toNat % 65536], true, rest) := by
  have htext : "ffff:".toList ++ (ipv4Text v4 ++ rest) =
      Nat.toDigits 16 0xffff ++ ':' :: (ipv4Text v4 ++ rest) := by
    simp [Nat.toDigits_eq_if]
  have hcolon : NoDigit 16 (':' :: (ipv4Text v4 ++ rest)) := noDigit_cons (by decide)
  have hfirst := readIpv4Addr_group 0xffff hcolon (by simp)
  have hnumber := readNumber_group (by decide : 0xffff < 65536) hcolon
  have hv4 := readIpv4Addr_ipv4Text v4 hrest
  rw [htext]
  simp [readGroups, readSeparator, readGivenChar, hfirst, hnumber, hv4]

theorem readIpv6Addr_ipv6Text (a : BitVec 128) {rest : List Char} (hrest : EndsGroups rest) :
    readIpv6Addr (ipv6Text a ++ rest) = some (a, rest) := by
  unfold ipv6Text
  split
  next v4 hmapped =>
    have htext : "::ffff:".toList ++ ipv4Text v4 ++ rest =
        fmtSubslice [] ++ ':' :: ':' :: ("ffff:".toList ++ (ipv4Text v4 ++ rest)) := rfl
    have hnone : ∀ g ∈ ([] : List Nat), g < 65536 := by simp
    have hhead := readGroups_fmtSubslice hnone
      (endsGroups_colons ("ffff:".toList ++ (ipv4Text v4 ++ rest))) (Nat.zero_le 8)
    have htail := readGroups_mapped v4 hrest.digit.ten
    have hbits : ofSegments [0, 0, 0, 0, 0, 0xffff, v4.toNat / 65536, v4.toNat % 65536] = a := by
      refine BitVec.eq_of_toNat_eq ?_
      rw [toIpv4Mapped_eq_some hmapped, ofSegments, BitVec.toNat_ofNat]
      have := v4.isLt
      simp
      omega
    rw [htext]
    simp only [readIpv6Addr, hhead, List.length_nil, if_neg (by decide : ¬(0 = 8)),
      Bool.false_eq_true, if_false, readGivenChar, if_true, Option.bind_eq_bind,
      Option.bind_some, Nat.zero_add, Nat.reduceSub, htail]
    exact congrArg (fun bits => some (bits, rest)) hbits
  next =>
    dsimp only
    have hzero : ZeroSpan (segments a) (longestSpan 0 ⟨0, 0⟩ ⟨0, 0⟩ (segments a)) :=
      zeroSpan_longestSpan (segments a) [] rfl (zeroSpan_empty _) (zeroSpan_empty _)
        fun h => absurd rfl h
    generalize longestSpan 0 ⟨0, 0⟩ ⟨0, 0⟩ (segments a) = zeroes at hzero ⊢
    split
    next hlong =>
      have hend := hzero.le_length (by omega)
      rw [length_segments] at hend
      have hbefore : ((segments a).take zeroes.start).length = zeroes.start := by
        simp [length_segments]
        omega
      have hbehind : ((segments a).drop (zeroes.start + zeroes.len)).length =
          8 - (zeroes.start + zeroes.len) := by simp [length_segments]
      have hhead := readGroups_fmtSubslice
        (fun g hg => segments_lt (List.mem_of_mem_take hg)) (endsGroups_colons
          (fmtSubslice ((segments a).drop (zeroes.start + zeroes.len)) ++ rest))
        (hbefore.trans_le (by omega : zeroes.start ≤ 8))
      have htail := readGroups_fmtSubslice
        (fun g hg => segments_lt (List.mem_of_mem_drop hg)) hrest
        (hbehind.trans_le (by omega : _ ≤ 8 - (zeroes.start + 1)))
      have hzeros : 8 - zeroes.start - (8 - (zeroes.start + zeroes.len)) = zeroes.len := by omega
      have hparts := hzero.split
      simp only [readIpv6Addr, List.append_assoc, List.cons_append, hhead, hbefore,
        if_neg (by omega : ¬zeroes.start = 8), Bool.false_eq_true, if_false, readGivenChar,
        if_true, Option.bind_eq_bind, Option.bind_some, htail, hbehind, hzeros, hparts,
        ofSegments_segments]
    next =>
      have hall := readGroups_fmtSubslice (fun g hg => segments_lt hg) hrest
        (length_segments a).le
      simp [readIpv6Addr, hall, length_segments, ofSegments_segments]

/-! ## Round trips -/

/-- An IPv6 address does not begin like an IPv4 address. -/
theorem readIpv4Addr_ipv6Text (a : BitVec 128) : readIpv4Addr (ipv6Text a) = none := by
  have hsubslice : ∀ {gs : List Nat} {rest : List Char}, EndsGroups rest →
      readIpv4Addr (fmtSubslice gs ++ rest) = none := by
    intro gs rest hrest
    cases gs with
    | nil => exact readIpv4Addr_eq_none_of_noDigit hrest.digit.ten
    | cons g gs =>
        obtain ⟨hdigit, hdot⟩ := fmtTail_follows gs hrest
        rw [fmtSubslice, List.append_assoc]
        exact readIpv4Addr_group g hdigit hdot
  unfold ipv6Text
  split
  · exact readIpv4Addr_eq_none_of_noDigit (noDigit_cons (by decide))
  · dsimp only
    split
    · exact hsubslice (endsGroups_colons _)
    · simpa using hsubslice endsGroups_nil

/-- What the server writes for an address is read as that address. -/
theorem parseIpAddr_ipText (ip : IpAddr) : parseIpAddr (ipText ip) = some ip := by
  cases ip with
  | v4 a =>
      have hread := readIpv4Addr_ipv4Text a (noDigit_nil 10)
      rw [List.append_nil] at hread
      simp [parseIpAddr, ipText, ipChars, hread]
  | v6 a =>
      have hread := readIpv6Addr_ipv6Text a endsGroups_nil
      rw [List.append_nil] at hread
      simp [parseIpAddr, ipText, ipChars, readIpv4Addr_ipv6Text, hread]

theorem readPort_toDigits {port : Nat} (hport : port < 65536) :
    readPort (':' :: Nat.toDigits 10 port) = some (port, []) := by
  have hmax : ∀ most ∈ (none : Option Nat), (Nat.toDigits 10 port).length ≤ most := by simp
  have hread : readNumber 10 none true 65536 (Nat.toDigits 10 port ++ []) = some (port, []) :=
    readNumber_toDigits (.inl rfl) hport hmax (noDigit_nil 10)
  rw [List.append_nil] at hread
  simp [readPort, readGivenChar, hread]

/-- What the client writes for an address and a port is read as that address and port. -/
theorem parseSocketAddr_socketAddrText {addr : SocketAddr} (hport : addr.port < 65536) :
    parseSocketAddr (socketAddrText addr) = some addr := by
  obtain ⟨ip, port⟩ := addr
  have hread := readPort_toDigits hport
  cases ip with
  | v4 a =>
      have hv4 := readIpv4Addr_ipv4Text a
        (noDigit_cons (by decide) : NoDigit 10 (':' :: Nat.toDigits 10 port))
      simp [parseSocketAddr, socketAddrText, socketAddrChars, readSocketAddrV4, hv4, hread]
  | v6 a =>
      have hv4 : readIpv4Addr ('[' :: (ipv6Text a ++ ']' :: ':' :: Nat.toDigits 10 port)) =
          none := readIpv4Addr_eq_none_of_noDigit (noDigit_cons (by decide))
      have hv6 := readIpv6Addr_ipv6Text a (endsGroups_bracket (':' :: Nat.toDigits 10 port))
      simp [parseSocketAddr, socketAddrText, socketAddrChars, readSocketAddrV4, hv4,
        readSocketAddrV6, readGivenChar, hv6, skipScopeId, hread]

/-! ## The text in a message -/

/-- The characters of an address: digits and its punctuation, with ASCII codes. -/
def IsAddrChar (c : Char) : Prop :=
  (toDigit 16 c).isSome ∨ c ∈ ['.', ':', '[', ']']

theorem IsAddrChar.ascii {c : Char} (h : IsAddrChar c) : c.toNat < 0x80 := by
  rcases h with hdigit | hmark
  · by_contra hlarge
    have hnine : '9'.toNat = 57 := rfl
    have hz : 'z'.toNat = 122 := rfl
    have hZ : 'Z'.toNat = 90 := rfl
    have hsmall : ¬c ≤ '9' ∧ ¬c ≤ 'z' ∧ ¬c ≤ 'Z' := by
      simp only [Char.le_def, UInt32.le_iff_toNat_le]
      exact ⟨fun h => by change c.toNat ≤ '9'.toNat at h; omega,
        fun h => by change c.toNat ≤ 'z'.toNat at h; omega,
        fun h => by change c.toNat ≤ 'Z'.toNat at h; omega⟩
    simp [toDigit, hsmall] at hdigit
  · simp only [List.mem_cons, List.not_mem_nil, or_false] at hmark
    rcases hmark with rfl | rfl | rfl | rfl <;> decide

/-- A text of at most `most` characters that may stand in an address. -/
structure AddrPart (most : Nat) (cs : List Char) : Prop where
  chars : ∀ c ∈ cs, IsAddrChar c
  length : cs.length ≤ most

namespace AddrPart

variable {most most' : Nat} {cs ds : List Char}

theorem mark {c : Char} (hc : c ∈ ['.', ':', '[', ']']) (h : AddrPart most cs) :
    AddrPart (most + 1) (c :: cs) where
  chars := by
    intro d hd
    rcases List.mem_cons.mp hd with rfl | hd
    · exact .inr hc
    · exact h.chars d hd
  length := Nat.succ_le_succ h.length

theorem append (h : AddrPart most cs) (h' : AddrPart most' ds) :
    AddrPart (most + most') (cs ++ ds) where
  chars := fun d hd => (List.mem_append.mp hd).elim (h.chars d) (h'.chars d)
  length := by
    have := h.length
    have := h'.length
    rw [List.length_append]
    omega

theorem mono (h : AddrPart most cs) (hmost : most ≤ most') : AddrPart most' cs :=
  ⟨h.chars, h.length.trans hmost⟩

theorem nil : AddrPart 0 [] := ⟨by simp, Nat.le_refl 0⟩

theorem decimal {n k : Nat} (hk : 0 < k) (hn : n < 10 ^ k) : AddrPart k (Nat.toDigits 10 n) where
  chars := by
    intro c hc
    have hten := isSome_toDigit_of_mem (.inl rfl) hc
    by_contra hnot
    have hsixteen : toDigit 16 c = none := by
      cases hdigit : toDigit 16 c with
      | none => rfl
      | some d => exact absurd (.inl (by simp [hdigit])) hnot
    have hnone := (noDigit_cons hsixteen : NoDigit 16 [c]).ten c (by simp)
    simp [hnone] at hten
  length := (Nat.length_toDigits_le_iff (by decide) hk).mpr hn

theorem group {g : Nat} (hg : g < 65536) : AddrPart 4 (Nat.toDigits 16 g) where
  chars := fun _ hc => .inl (isSome_toDigit_of_mem (.inr rfl) hc)
  length := (Nat.length_toDigits_le_iff (by decide) (by decide)).mpr (by omega)

theorem tail (gs : List Nat) (hgs : ∀ g ∈ gs, g < 65536) :
    AddrPart (5 * gs.length) (fmtTail gs) := by
  induction gs with
  | nil => exact nil
  | cons g gs ih =>
      have hhead := (group (hgs g (List.mem_cons_self ..))).mark (c := ':') (by simp)
      have hrest := ih fun g' hg' => hgs g' (List.mem_cons_of_mem g hg')
      exact (hhead.append hrest).mono (by rw [List.length_cons]; omega)

theorem subslice (gs : List Nat) (hgs : ∀ g ∈ gs, g < 65536) :
    AddrPart (5 * gs.length) (fmtSubslice gs) := by
  cases gs with
  | nil => exact nil
  | cons g gs =>
      have hhead := group (hgs g (List.mem_cons_self ..))
      have hrest := tail gs fun g' hg' => hgs g' (List.mem_cons_of_mem g hg')
      exact (hhead.append hrest).mono (by rw [List.length_cons]; omega)

theorem ipv4 (a : BitVec 32) : AddrPart 15 (ipv4Text a) := by
  have hoctet := fun i => decimal (k := 3) (by decide) ((octet_lt a i).trans (by decide))
  exact (hoctet 0).append (.mark (by simp) ((hoctet 1).append (.mark (by simp)
    ((hoctet 2).append (.mark (by simp) (hoctet 3))))))

theorem ipv6 (a : BitVec 128) : AddrPart 42 (ipv6Text a) := by
  unfold ipv6Text
  split
  next v4 _ =>
    have hffff : AddrPart 4 ['f', 'f', 'f', 'f'] := group (g := 0xffff) (by decide)
    have hmapped : AddrPart 7 [':', ':', 'f', 'f', 'f', 'f', ':'] :=
      .mark (by simp) (.mark (by simp) (hffff.append (.mark (by simp) nil)))
    exact (hmapped.append (ipv4 v4)).mono (by decide)
  next =>
    dsimp only
    split
    next =>
      generalize longestSpan 0 ⟨0, 0⟩ ⟨0, 0⟩ (segments a) = zeroes
      have hbefore := subslice ((segments a).take zeroes.start)
        fun g hg => segments_lt (List.mem_of_mem_take hg)
      have hbehind := subslice ((segments a).drop (zeroes.start + zeroes.len))
        fun g hg => segments_lt (List.mem_of_mem_drop hg)
      refine (hbefore.append (.mark (by simp) (.mark (by simp) hbehind))).mono ?_
      rw [List.length_take, List.length_drop, length_segments]
      omega
    next =>
      refine (subslice (segments a) fun g hg => segments_lt hg).mono ?_
      rw [length_segments]
      decide

theorem socketAddr {addr : SocketAddr} (hport : addr.port < 65536) :
    AddrPart 50 (socketAddrChars addr) := by
  have hdigits := decimal (k := 5) (by decide) (hport.trans (by decide))
  unfold socketAddrChars
  split
  next a _ => exact ((ipv4 a).append (.mark (by simp) hdigits)).mono (by decide)
  next a _ =>
    exact (AddrPart.mark (by simp) ((ipv6 a).append (.mark (by simp) (.mark (by simp)
      hdigits)))).mono (by decide)

end AddrPart

theorem contains_colon (addr : SocketAddr) : ':' ∈ socketAddrChars addr := by
  unfold socketAddrChars
  split <;> simp

/-- Addresses survive the trip as text: what the server writes for an IP address is read as that
address, and the mapped address that a host sends with a token passes `validate`, and is read as
that address by whoever parses it. -/
theorem addr_roundTrip : (∀ ip, parseIpAddr (ipText ip) = some ip) ∧
    ∀ addr tunnelToken, addr.port < 65536 → isBlank tunnelToken = false →
      (ClientMessage.upnpMapped (socketAddrText addr) tunnelToken).validate = .ok () ∧
        parseSocketAddr (socketAddrText addr) = some addr := by
  refine ⟨parseIpAddr_ipText, fun addr tunnelToken hport htoken => ⟨?_, ?_⟩⟩
  · have hpart := AddrPart.socketAddr hport
    have hsize : (socketAddrText addr).utf8ByteSize ≤ 50 := by
      rw [socketAddrText, String.utf8ByteSize_ofList,
        Json.utf8Len_of_ascii fun c hc => (hpart.chars c hc).ascii]
      exact hpart.length
    have hblank : isBlank (socketAddrText addr) = false := by
      rw [isBlank, socketAddrText, String.toList_ofList, List.all_eq_false]
      exact ⟨':', contains_colon addr, by decide⟩
    refine firstError_eq_ok.mpr ?_
    simp only [List.mem_cons, List.not_mem_nil, or_false, forall_eq_or_imp, forall_eq,
      decide_eq_false_iff_not, not_lt]
    exact ⟨hsize.trans (by decide), hblank, htoken⟩
  · exact parseSocketAddr_socketAddrText hport

theorem addr_roundTrip_mapped :
    (ClientMessage.upnpMapped (socketAddrText ⟨.v6 0x26001901000000000000000000000001, 19870⟩)
        "t").validate = .ok () ∧
      parseSocketAddr (socketAddrText ⟨.v6 0x26001901000000000000000000000001, 19870⟩) =
        some ⟨.v6 0x26001901000000000000000000000001, 19870⟩ :=
  addr_roundTrip.2 ⟨.v6 0x26001901000000000000000000000001, 19870⟩ "t" (by decide) (by decide)

end War3BattleTool.Protocol

import War3BattleTool.Foundation.Net

set_option autoImplicit false

/-!
# The text of an address (`str::parse::<SocketAddr>` of the standard library)

The reader of `core::net::parser`: each function takes a prefix of the characters and hands
the rest on, or fails and has taken nothing.  An address is accepted when nothing is left.
The scope id of an IPv6 address is read and dropped: nothing in this project looks at it.
-/

namespace War3BattleTool.Protocol

open War3BattleTool.Foundation

/-- `char::to_digit`. -/
def toDigit (radix : Nat) (c : Char) : Option Nat :=
  let digit :=
    if '0' ≤ c ∧ c ≤ '9' then c.toNat - '0'.toNat
    else if 'a' ≤ c ∧ c ≤ 'z' then c.toNat - 'a'.toNat + 10
    else if 'A' ≤ c ∧ c ≤ 'Z' then c.toNat - 'A'.toNat + 10
    else radix
  if digit < radix then some digit else none

/-- The number that a string of digits denotes. -/
def numberOf (radix : Nat) (digits : List Char) : Nat :=
  digits.foldl (fun value c => radix * value + (toDigit radix c).getD 0) 0

/-- `Parser::read_given_char`. -/
def readGivenChar (c : Char) : List Char → Option (List Char)
  | [] => none
  | d :: rest => if d = c then some rest else none

/-- `Parser::read_number`, for a type with `bound` values: as many digits as there are, not
more than `maxDigits`, and no zero in front unless it is allowed. -/
def readNumber (radix : Nat) (maxDigits : Option Nat) (allowZeroPrefix : Bool) (bound : Nat)
    (cs : List Char) : Option (Nat × List Char) :=
  let digits := cs.takeWhile fun c => (toDigit radix c).isSome
  if digits = [] ∨ maxDigits.any (· < digits.length) then none
  else if !allowZeroPrefix && digits.head? = some '0' && 1 < digits.length then none
  else if numberOf radix digits < bound then
    some (numberOf radix digits, cs.drop digits.length)
  else none

/-- `Parser::read_separator`: in front of every part but the first. -/
def readSeparator {α : Type} (sep : Char) (isFirst : Bool)
    (inner : List Char → Option (α × List Char)) (cs : List Char) : Option (α × List Char) :=
  if isFirst then inner cs else (readGivenChar sep cs).bind inner

/-- One of the four numbers of an IPv4 address. -/
def readOctet (isFirst : Bool) : List Char → Option (Nat × List Char) :=
  readSeparator '.' isFirst (readNumber 10 (some 3) false 256)

/-- `Parser::read_ipv4_addr`. -/
def readIpv4Addr (cs : List Char) : Option (BitVec 32 × List Char) := do
  let (a, cs) ← readOctet true cs
  let (b, cs) ← readOctet false cs
  let (c, cs) ← readOctet false cs
  let (d, cs) ← readOctet false cs
  some (BitVec.ofNat 32 (((a * 256 + b) * 256 + c) * 256 + d), cs)

/-- `read_groups` of `read_ipv6_addr`, with `left` groups to fill: the groups, whether the last
two of them were read as an IPv4 address, and the rest. -/
def readGroups : (left : Nat) → (isFirst : Bool) → List Char → List Nat × Bool × List Char
  | 0, _, cs => ([], false, cs)
  | left + 1, isFirst, cs =>
      -- an IPv4 address at the end takes two groups
      match if 1 ≤ left then readSeparator ':' isFirst readIpv4Addr cs else none with
      | some (v4, rest) => ([v4.toNat / 65536, v4.toNat % 65536], true, rest)
      | none =>
          match readSeparator ':' isFirst (readNumber 16 (some 4) true 65536) cs with
          | some (group, rest) =>
              let (groups, v4, rest) := readGroups left false rest
              (group :: groups, v4, rest)
          | none => ([], false, cs)

/-- The address with these eight segments. -/
def ofSegments (segments : List Nat) : BitVec 128 :=
  BitVec.ofNat 128 (segments.foldl (fun bits segment => 65536 * bits + segment) 0)

/-- `Parser::read_ipv6_addr`: eight groups, or fewer around a `::`. -/
def readIpv6Addr (cs : List Char) : Option (BitVec 128 × List Char) :=
  let (head, headV4, cs) := readGroups 8 true cs
  if head.length = 8 then some (ofSegments head, cs)
  else if headV4 then none
  else do
    let cs ← readGivenChar ':' cs
    let cs ← readGivenChar ':' cs
    let (tail, _, cs) := readGroups (8 - (head.length + 1)) true cs
    some (ofSegments (head ++ List.replicate (8 - head.length - tail.length) 0 ++ tail), cs)

/-- `Parser::read_port`. -/
def readPort (cs : List Char) : Option (Nat × List Char) :=
  (readGivenChar ':' cs).bind (readNumber 10 none true 65536)

/-- `Parser::read_scope_id`, and the rest when there is none. -/
def skipScopeId (cs : List Char) : List Char :=
  match (readGivenChar '%' cs).bind (readNumber 10 none true (2 ^ 32)) with
  | some (_, rest) => rest
  | none => cs

/-- `Parser::read_socket_addr_v4`. -/
def readSocketAddrV4 (cs : List Char) : Option (SocketAddr × List Char) := do
  let (ip, cs) ← readIpv4Addr cs
  let (port, cs) ← readPort cs
  some (⟨.v4 ip, port⟩, cs)

/-- `Parser::read_socket_addr_v6`. -/
def readSocketAddrV6 (cs : List Char) : Option (SocketAddr × List Char) := do
  let cs ← readGivenChar '[' cs
  let (ip, cs) ← readIpv6Addr cs
  let cs ← readGivenChar ']' (skipScopeId cs)
  let (port, cs) ← readPort cs
  some (⟨.v6 ip, port⟩, cs)

/-- `str::parse::<SocketAddr>`. -/
def parseSocketAddr (text : String) : Option SocketAddr :=
  match (readSocketAddrV4 text.toList).or (readSocketAddrV6 text.toList) with
  | some (addr, []) => some addr
  | _ => none

end War3BattleTool.Protocol

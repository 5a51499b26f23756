import Mathlib.Data.List.DropRight
import War3BattleTool.Foundation.Utf8
import War3BattleTool.Protocol.Messages

set_option autoImplicit false

/-!
# The origin allowlist (`server/src/main.rs`)

`parse_allowed_origin` reads an entry when the server starts, `validate_origin_against` an
`Origin` header against the parsed entries.  URLs are read by `Url::parse`, here a parameter
`parse` with the accessors of its result; two origins agree when their texts do, so the text
of an origin is shown to determine its scheme, host and port.
-/

namespace War3BattleTool.Server

open War3BattleTool.Foundation War3BattleTool.Protocol

/-! ## URLs -/

/-- The host of a URL as `Url::host_str` writes it: a domain, an IPv4 address, or an IPv6
address in brackets. -/
structure UrlHost where
  text : String
  bracketed : ':' ∈ text.toList → text.toList.getLast? = some ']'

/-- A parsed URL.  `writtenPort` is the port as it was written. -/
structure Url where
  scheme : String
  username : String
  password : Option String
  host : Option UrlHost
  writtenPort : Option UInt16
  path : String
  query : Option String
  fragment : Option String

/-- The default ports of the special schemes. -/
def knownDefaultPort (scheme : String) : Option UInt16 :=
  if scheme = "http" ∨ scheme = "ws" then some 80
  else if scheme = "https" ∨ scheme = "wss" then some 443
  else if scheme = "ftp" then some 21
  else none

namespace Url

/-- `Url::port`: the default port of the scheme counts as none. -/
def port (u : Url) : Option UInt16 :=
  if u.writtenPort = knownDefaultPort u.scheme then none else u.writtenPort

/-- `Url::port_or_known_default`. -/
def portOrKnownDefault (u : Url) : Option UInt16 := u.port.or (knownDefaultPort u.scheme)

/-- `matches!(url.scheme(), "http" | "https")`. -/
def Web (u : Url) : Prop := u.scheme = "http" ∨ u.scheme = "https"

/-- `url.path().is_empty() || url.path() == "/"`. -/
def Rootless (u : Url) : Prop := u.path = "" ∨ u.path = "/"

/-- `url.query().is_some() || url.fragment().is_some() || !url.username().is_empty()`. -/
def Decorated (u : Url) : Prop :=
  u.query.isSome = true ∨ u.fragment.isSome = true ∨ u.username ≠ ""

instance (u : Url) : Decidable u.Web := inferInstanceAs (Decidable (_ ∨ _))
instance (u : Url) : Decidable u.Rootless := inferInstanceAs (Decidable (_ ∨ _))
instance (u : Url) : Decidable u.Decorated := inferInstanceAs (Decidable (_ ∨ _ ∨ _))

/-- `url.host_str()`. -/
def hostStr (u : Url) : Option String := u.host.map (·.text)

end Url

/-- `format!("{scheme}://{host}:{p}")`, or without the port where there is none. -/
def originText (scheme host : String) : Option UInt16 → String
  | some p => scheme ++ "://" ++ host ++ ":" ++ p.toNat.repr
  | none => scheme ++ "://" ++ host

/-! ## The entries -/

/-- What is wrong with an entry: the entry, and what `Url::parse` says of it. -/
inductive EntryError where
  | unparsable (s e : String)
  | scheme (s : String)
  | path (s : String)
  | component (s : String)
  | noHost (s : String)
  deriving DecidableEq

/-- The text of an error; `debug` is the format `{:?}` of a string. -/
def EntryError.message (debug : String → String) : EntryError → String
  | unparsable s e => "無法解析 " ++ debug s ++ "：" ++ e
  | scheme s => "scheme 必須是 http/https：" ++ debug s
  | path s => "不可含 path：" ++ debug s
  | component s => "不可含 query/fragment/userinfo：" ++ debug s
  | noHost s => "無 host：" ++ debug s

section

variable (parse : String → Except String Url)

/-- `parse_allowed_origin`. -/
def parseAllowedOrigin (s : String) : Except EntryError String :=
  match parse s with
  | .error e => .error (.unparsable s e)
  | .ok url =>
      if ¬ url.Web then .error (.scheme s)
      else if ¬ url.Rootless then .error (.path s)
      else if url.Decorated then .error (.component s)
      else
        match url.hostStr with
        | none => .error (.noHost s)
        | some host => .ok (originText url.scheme host url.port)

/-- `str::trim`. -/
def trim (cs : List Char) : List Char :=
  ((cs.dropWhile isWhiteSpace).reverse.dropWhile isWhiteSpace).reverse

/-- The allowlist of a server whose environment does not set one. -/
def builtinOrigins : List String :=
  ["https://war3.kalthor.cc", "http://localhost", "https://localhost", "http://127.0.0.1",
    "http://[::1]"]

/-- The entries of a comma-separated list. -/
def entriesOf (raw : List Char) : List String :=
  (((raw.splitOn ',').map trim).filter fun piece => !piece.isEmpty).map String.ofList

/-- `load_allowed_origins`; `raw` is the value of `WAR3_ALLOWED_ORIGINS`. -/
def loadAllowedOrigins (raw : Option String) : Except EntryError (List String) :=
  match raw.map fun s => trim s.toList with
  | none | some [] => .ok builtinOrigins
  | some raw => (entriesOf raw).mapM (parseAllowedOrigin parse)

/-! ## The header -/

/-- A header value: any bytes but control characters other than the tab. -/
structure HeaderValue where
  bytes : Bytes
  valid : ∀ b ∈ bytes, (32 ≤ b ∧ b ≠ 127) ∨ b = 9

/-- `is_visible_ascii` of the `http` crate. -/
def isVisibleAscii (b : UInt8) : Bool := (32 ≤ b && b < 127) || b = 9

/-- `HeaderValue::to_str`: a value of visible ASCII characters only. -/
def HeaderValue.toStr (value : HeaderValue) : Option String :=
  if value.bytes.all isVisibleAscii then
    some (String.ofList (value.bytes.map fun b => Char.ofNat b.toNat))
  else none

/-- `str::eq_ignore_ascii_case`. -/
def eqIgnoreAsciiCase (a b : String) : Bool :=
  a.toList.map Char.toLower = b.toList.map Char.toLower

/-- The part of `validate_origin_against` after the header was read. -/
def validateOriginText (allowed : List String) (s : String) : Except String Unit :=
  match parse s with
  | .error _ => .error s
  | .ok url =>
      if ¬ url.Web then .error s
      else if ¬ url.Rootless then .error s
      else if url.Decorated then .error s
      else
        match url.hostStr with
        | none => .error s
        | some host =>
            let candidate := originText url.scheme host url.portOrKnownDefault
            let plain := originText url.scheme host none
            if allowed.any fun a => eqIgnoreAsciiCase a candidate || eqIgnoreAsciiCase a plain
            then .ok ()
            else .error s

/-- `validate_origin_against`; `headers` holds the values of the `Origin` header. -/
def validateOriginAgainst (headers : List HeaderValue) (allowed : List String) :
    Except String Unit :=
  match headers with
  | [] => .ok ()
  | _ :: _ :: _ => .error "multiple Origin headers"
  | [raw] =>
      match raw.toStr with
      | none => .error "non-UTF-8 Origin"
      | some s => validateOriginText parse allowed s

end

/-! ## The text of an origin determines its parts -/

theorem val_toLower {c : Char} (h : c.val ≥ 'A'.val ∧ c.val ≤ 'Z'.val) :
    c.toLower.val = c.val + 32 :=
  congrArg Char.val (dif_pos h)

theorem toLower_eq_self {c : Char} (h : ¬ (c.val ≥ 'A'.val ∧ c.val ≤ 'Z'.val)) : c.toLower = c :=
  dif_neg h

theorem toLower_eq_colon {c : Char} : c.toLower = ':' ↔ c = ':' := by
  constructor
  · intro hlower
    by_cases hupper : c.val ≥ 'A'.val ∧ c.val ≤ 'Z'.val
    · obtain ⟨hlow, hhigh⟩ := hupper
      have hval := val_toLower ⟨hlow, hhigh⟩
      rw [hlower, ← UInt32.toNat_inj, UInt32.toNat_add] at hval
      rw [ge_iff_le, UInt32.le_iff_toNat_le] at hlow
      rw [UInt32.le_iff_toNat_le] at hhigh
      change 65 ≤ c.val.toNat at hlow
      change c.val.toNat ≤ 90 at hhigh
      change 58 = (c.val.toNat + 32) % 2 ^ 32 at hval
      omega
    · exact (toLower_eq_self hupper).symm.trans hlower
  · rintro rfl
    rfl

/-- The characters of a text, up to ASCII case. -/
def folded (s : String) : List Char := s.toList.map Char.toLower

theorem eqIgnoreAsciiCase_iff {a b : String} :
    eqIgnoreAsciiCase a b = true ↔ folded a = folded b := by
  simp only [eqIgnoreAsciiCase, folded, decide_eq_true_eq]

/-- What follows the host. -/
def portText : Option UInt16 → List Char
  | some p => ':' :: Nat.toDigits 10 p.toNat
  | none => []

theorem colon_notMem_toDigits (n : Nat) : ':' ∉ Nat.toDigits 10 n := by
  intro hmem
  have hdigit := Nat.isDigit_of_mem_toDigits (by decide) (by decide) hmem
  cases hdigit

theorem toDigits_inj {m n : Nat} (h : Nat.toDigits 10 m = Nat.toDigits 10 n) : m = n := by
  rw [← Nat.ofDigitChars_ten_toDigits (n := m), h, Nat.ofDigitChars_ten_toDigits]

/-- A list is cut in two at the last occurrence of an element in one way only. -/
theorem append_cons_inj {α : Type} {a : α} {xs xs' ys ys' : List α} (hys : a ∉ ys)
    (hys' : a ∉ ys') (h : xs ++ a :: ys = xs' ++ a :: ys') : xs = xs' ∧ ys = ys' := by
  rcases List.append_eq_append_iff.mp h with ⟨zs, hxs, hrest⟩ | ⟨zs, hxs, hrest⟩
  · cases zs with
    | nil =>
        rw [List.append_nil] at hxs
        exact ⟨hxs.symm, (List.cons.inj hrest).2⟩
    | cons z zs =>
        rw [(List.cons.inj hrest).2] at hys
        exact absurd (List.mem_append_right zs List.mem_cons_self) hys
  · cases zs with
    | nil =>
        rw [List.append_nil] at hxs
        exact ⟨hxs, (List.cons.inj hrest).2.symm⟩
    | cons z zs =>
        rw [(List.cons.inj hrest).2] at hys'
        exact absurd (List.mem_append_right zs List.mem_cons_self) hys'

/-- A host with a colon ends with a bracket, a text with a port does not. -/
theorem folded_ne_append_portText (host : UrlHost) (rest : List Char) (p : UInt16) :
    folded host.text ≠ rest ++ portText (some p) := by
  intro heq
  have hcolon : ':' ∈ host.text.toList := by
    have hmem : ':' ∈ folded host.text := by
      rw [heq]
      exact List.mem_append_right rest List.mem_cons_self
    obtain ⟨c, hc, hlower⟩ := List.mem_map.mp hmem
    rwa [toLower_eq_colon.mp hlower] at hc
  have hlast : (folded host.text).getLast? = some ']' := by
    rw [folded, List.getLast?_map, host.bracketed hcolon]
    rfl
  have hend : ']' ∈ portText (some p) := by
    rw [heq, portText, List.getLast?_append_of_ne_nil _ (List.cons_ne_nil _ _)] at hlast
    exact List.mem_of_getLast? hlast
  rcases List.mem_cons.mp hend with hcases | hdigit
  · cases hcases
  · have hisDigit := Nat.isDigit_of_mem_toDigits (by decide) (by decide) hdigit
    cases hisDigit

theorem authority_inj {host host' : UrlHost} {port port' : Option UInt16}
    (h : folded host.text ++ portText port = folded host'.text ++ portText port') :
    folded host.text = folded host'.text ∧ port = port' := by
  cases port with
  | none =>
      cases port' with
      | none => exact ⟨List.append_cancel_right h, rfl⟩
      | some p' =>
          rw [portText.eq_2, List.append_nil] at h
          exact absurd h (folded_ne_append_portText host _ p')
  | some p =>
      cases port' with
      | none =>
          rw [portText.eq_2, List.append_nil] at h
          exact absurd h.symm (folded_ne_append_portText host' _ p)
      | some p' =>
          obtain ⟨hhost, hdigits⟩ :=
            append_cons_inj (colon_notMem_toDigits _) (colon_notMem_toDigits _) h
          rw [UInt16.toNat_inj.mp (toDigits_inj hdigits)]
          exact ⟨hhost, rfl⟩

theorem folded_append (a b : String) : folded (a ++ b) = folded a ++ folded b := by
  rw [folded, String.toList_append, List.map_append]
  rfl

theorem toLower_of_isDigit {c : Char} (h : c.isDigit = true) : c.toLower = c := by
  rw [Char.isDigit, Bool.and_eq_true, decide_eq_true_eq, decide_eq_true_eq] at h
  apply toLower_eq_self
  rintro ⟨hupper, _⟩
  have hle : 'A'.val ≤ '9'.val := UInt32.le_trans hupper h.2
  exact absurd hle (by decide)

theorem folded_repr (n : Nat) : folded n.repr = Nat.toDigits 10 n := by
  rw [folded, Nat.toList_repr]
  calc (Nat.toDigits 10 n).map Char.toLower = (Nat.toDigits 10 n).map id :=
        List.map_congr_left fun c hc =>
          toLower_of_isDigit (Nat.isDigit_of_mem_toDigits (by decide) (by decide) hc)
    _ = Nat.toDigits 10 n := List.map_id _

theorem folded_originText (scheme host : String) (port : Option UInt16) :
    folded (originText scheme host port) =
      folded scheme ++ [':', '/', '/'] ++ (folded host ++ portText port) := by
  have hslashes : folded "://" = [':', '/', '/'] := by decide
  cases port with
  | none =>
      rw [originText, folded_append, folded_append, hslashes, portText, List.append_nil]
  | some p =>
      have hcolon : folded ":" = [':'] := by decide
      rw [originText, folded_append, folded_append, folded_append, folded_append, hslashes,
        hcolon, folded_repr, portText, List.append_assoc, List.append_assoc]
      rfl

/-- Two origins of web schemes have one text, up to case, just when their parts agree. -/
theorem originText_agree {scheme scheme' : String} {host host' : UrlHost}
    {port port' : Option UInt16} (hscheme : scheme = "http" ∨ scheme = "https")
    (hscheme' : scheme' = "http" ∨ scheme' = "https") :
    eqIgnoreAsciiCase (originText scheme host.text port) (originText scheme' host'.text port') =
        true ↔
      scheme = scheme' ∧ eqIgnoreAsciiCase host.text host'.text = true ∧ port = port' := by
  have hhttp : folded "http" = ['h', 't', 't', 'p'] := by decide
  have hhttps : folded "https" = ['h', 't', 't', 'p', 's'] := by decide
  rw [eqIgnoreAsciiCase_iff, eqIgnoreAsciiCase_iff, folded_originText, folded_originText]
  constructor
  · intro h
    -- `http:` and `https` differ in their fifth character
    have hsame : scheme = scheme' := by
      rcases hscheme with rfl | rfl <;> rcases hscheme' with rfl | rfl
      · rfl
      · rw [hhttp, hhttps] at h
        cases h
      · rw [hhttp, hhttps] at h
        cases h
      · rfl
    rw [hsame] at h
    exact ⟨hsame, authority_inj (List.append_cancel_left h)⟩
  · rintro ⟨rfl, hhost, rfl⟩
    rw [hhost]

/-! ## Reading the header -/

theorem isVisibleAscii_of_lt {b : UInt8} (hvalid : (32 ≤ b ∧ b ≠ 127) ∨ b = 9)
    (hlt : b.toNat < 128) : isVisibleAscii b = true := by
  rcases hvalid with ⟨hprintable, hdelete⟩ | rfl
  · have hbelow : b < 127 := by
      rw [UInt8.lt_iff_toNat_lt]
      have hne : b.toNat ≠ 127 := fun heq => hdelete (UInt8.toNat_inj.mp heq)
      have hbound : (127 : UInt8).toNat = 127 := rfl
      omega
    rw [isVisibleAscii, decide_eq_true hprintable, decide_eq_true hbelow]
    rfl
  · rfl

theorem lt_of_isVisibleAscii {b : UInt8} (h : isVisibleAscii b = true) : b.toNat < 128 := by
  rw [isVisibleAscii, Bool.or_eq_true, Bool.and_eq_true] at h
  rcases h with ⟨_, hbelow⟩ | htab
  · have hlt := UInt8.lt_iff_toNat_lt.mp (of_decide_eq_true hbelow)
    exact Nat.lt_trans hlt (by decide)
  · rw [of_decide_eq_true htab]
    decide

theorem toStr_of_ascii {value : HeaderValue} {text : String}
    (hvalue : value.bytes = utf8Bytes text) (hascii : IsAscii text) :
    value.toStr = some text := by
  have hbytes : value.bytes = text.toList.map fun c => UInt8.ofNat c.toNat := by
    rw [hvalue, utf8Bytes, List.map_eq_flatMap]
    exact List.flatMap_congr fun c hc => utf8EncodeChar_of_ascii (hascii c hc)
  have hvisible : value.bytes.all isVisibleAscii = true := by
    rw [List.all_eq_true]
    intro b hb
    have hvalid := value.valid b hb
    rw [hbytes] at hb
    obtain ⟨c, hc, rfl⟩ := List.mem_map.mp hb
    exact isVisibleAscii_of_lt hvalid (by rw [UInt8.toNat_ofNat']; have := hascii c hc; omega)
  have hchars : (value.bytes.map fun b => Char.ofNat b.toNat) = text.toList := by
    rw [hbytes, List.map_map]
    calc (text.toList.map _) = text.toList.map id :=
          List.map_congr_left fun c hc => ofNat_toNat_of_ascii (hascii c hc)
      _ = text.toList := List.map_id _
  rw [HeaderValue.toStr, if_pos hvisible, hchars, String.ofList_toList]

theorem toStr_of_not_ascii {value : HeaderValue} {text : String}
    (hvalue : value.bytes = utf8Bytes text) (hascii : ¬ IsAscii text) :
    value.toStr = none := by
  rw [HeaderValue.toStr, if_neg]
  intro hvisible
  apply hascii
  intro c hc
  by_contra hlarge
  obtain ⟨b, hb, hle⟩ := exists_mem_utf8EncodeChar hlarge
  have hmem : b ∈ value.bytes := by
    rw [hvalue]
    exact List.mem_flatMap.mpr ⟨c, hc, hb⟩
  have hlt := lt_of_isVisibleAscii (List.all_eq_true.mp hvisible b hmem)
  omega

/-! ## What the code lets through -/

namespace Url

/-- The two URLs have one scheme and one host. -/
def SameSite (entry origin : Url) : Prop :=
  entry.scheme = origin.scheme ∧
    ∃ host host', entry.host = some host ∧ origin.host = some host' ∧
      eqIgnoreAsciiCase host.text host'.text = true

/-- The tests that an entry and an origin have to pass. -/
def Plain (u : Url) : Prop := u.Web ∧ u.Rootless ∧ ¬ u.Decorated

/-- The origin agrees with the text kept of an entry. -/
def Admits (entry origin : Url) : Prop :=
  entry.SameSite origin ∧ (entry.port = none ∨ entry.port = origin.portOrKnownDefault)

end Url

section

variable {parse : String → Except String Url}

theorem parseAllowedOrigin_eq_ok {s a : String} :
    parseAllowedOrigin parse s = .ok a ↔
      ∃ e host, parse s = .ok e ∧ e.Plain ∧ e.host = some host ∧
        a = originText e.scheme host.text e.port := by
  constructor
  · intro h
    rw [parseAllowedOrigin] at h
    split at h
    · cases h
    next e hparse =>
      split_ifs at h with hweb hrootless hdecorated
      cases hhost : e.host with
      | none =>
          rw [Url.hostStr, hhost] at h
          cases h
      | some host =>
          rw [Url.hostStr, hhost] at h
          exact ⟨e, host, hparse, ⟨hweb, hrootless, hdecorated⟩, hhost,
            (Except.ok.inj h).symm⟩
  · rintro ⟨e, host, hparse, ⟨hweb, hrootless, hdecorated⟩, hhost, rfl⟩
    rw [parseAllowedOrigin, hparse]
    simp only [hweb, hrootless, hdecorated, not_true_eq_false, if_false, Url.hostStr, hhost,
      Option.map_some]

theorem validateOriginText_eq_ok {allowed : List String} {s : String} :
    validateOriginText parse allowed s = .ok () ↔
      ∃ u host, parse s = .ok u ∧ u.Plain ∧ u.host = some host ∧ ∃ a ∈ allowed,
        eqIgnoreAsciiCase a (originText u.scheme host.text u.portOrKnownDefault) = true ∨
          eqIgnoreAsciiCase a (originText u.scheme host.text none) = true := by
  constructor
  · intro h
    rw [validateOriginText] at h
    split at h
    · cases h
    next u hparse =>
      split_ifs at h with hweb hrootless hdecorated
      cases hhost : u.host with
      | none =>
          rw [Url.hostStr, hhost] at h
          cases h
      | some host =>
          rw [Url.hostStr, hhost] at h
          simp only [Option.map_some] at h
          split_ifs at h with hany
          obtain ⟨a, ha, hagree⟩ := List.any_eq_true.mp hany
          exact ⟨u, host, hparse, ⟨hweb, hrootless, hdecorated⟩, hhost, a, ha,
            (Bool.or_eq_true ..).mp hagree⟩
  · rintro ⟨u, host, hparse, ⟨hweb, hrootless, hdecorated⟩, hhost, a, ha, hagree⟩
    have hany : (allowed.any fun a =>
        eqIgnoreAsciiCase a (originText u.scheme host.text u.portOrKnownDefault) ||
          eqIgnoreAsciiCase a (originText u.scheme host.text none)) = true :=
      List.any_eq_true.mpr ⟨a, ha, (Bool.or_eq_true ..).mpr hagree⟩
    rw [validateOriginText, hparse]
    simp only [hweb, hrootless, hdecorated, not_true_eq_false, if_false, Url.hostStr, hhost,
      Option.map_some, hany, if_true]

/-- What a successful `collect` holds. -/
theorem mem_of_mapM {α β ε : Type} {f : α → Except ε β} {xs : List α} {ys : List β}
    (h : xs.mapM f = .ok ys) :
    (∀ x ∈ xs, ∃ y ∈ ys, f x = .ok y) ∧ ∀ y ∈ ys, ∃ x ∈ xs, f x = .ok y := by
  induction xs generalizing ys with
  | nil =>
      cases h
      exact ⟨fun x hx => absurd hx List.not_mem_nil, fun y hy => absurd hy List.not_mem_nil⟩
  | cons x xs ih =>
      rw [List.mapM_cons] at h
      cases hx : f x with
      | error e =>
          rw [hx] at h
          cases h
      | ok y =>
          rw [hx] at h
          cases hxs : xs.mapM f with
          | error e =>
              rw [hxs] at h
              cases h
          | ok rest =>
              rw [hxs] at h
              cases h
              obtain ⟨hto, hfrom⟩ := ih hxs
              constructor
              · intro x' hx'
                rcases List.mem_cons.mp hx' with rfl | hrest
                · exact ⟨y, List.mem_cons_self, hx⟩
                · obtain ⟨y', hy', heq⟩ := hto x' hrest
                  exact ⟨y', List.mem_cons_of_mem y hy', heq⟩
              · intro y' hy'
                rcases List.mem_cons.mp hy' with rfl | hrest
                · exact ⟨x, List.mem_cons_self, hx⟩
                · obtain ⟨x', hx', heq⟩ := hfrom y' hrest
                  exact ⟨x', List.mem_cons_of_mem x hx', heq⟩

/-! ## The allowlist as it is loaded -/

/-- An origin as the allowlist keeps it: of a web scheme, and never with the default port. -/
structure KeptOrigin where
  scheme : String
  host : UrlHost
  port : Option UInt16
  web : scheme = "http" ∨ scheme = "https"
  proper : ∀ p ∈ port, knownDefaultPort scheme ≠ some p

def KeptOrigin.text (o : KeptOrigin) : String := originText o.scheme o.host.text o.port

theorem Url.port_proper (u : Url) : ∀ p ∈ u.port, knownDefaultPort u.scheme ≠ some p := by
  rintro p hport hdefault
  rw [Url.port] at hport
  split at hport
  · cases hport
  next hne => exact hne (hport.trans hdefault.symm)

theorem kept_of_parseAllowedOrigin {s a : String} (h : parseAllowedOrigin parse s = .ok a) :
    ∃ o : KeptOrigin, o.text = a := by
  obtain ⟨e, host, _, ⟨hweb, _, _⟩, _, rfl⟩ := parseAllowedOrigin_eq_ok.mp h
  exact ⟨⟨e.scheme, host, e.port, hweb, e.port_proper⟩, rfl⟩

theorem kept_of_builtinOrigins : ∀ a ∈ builtinOrigins, ∃ o : KeptOrigin, o.text = a := by
  have hkept : ∀ (scheme : String) (host : UrlHost), scheme = "http" ∨ scheme = "https" →
      ∃ o : KeptOrigin, o.text = originText scheme host.text none :=
    fun scheme host hweb => ⟨⟨scheme, host, none, hweb, fun p hp => by cases hp⟩, rfl⟩
  simp only [builtinOrigins, List.forall_mem_cons]
  refine ⟨?_, ?_, ?_, ?_, ?_, by simp⟩
  · exact hkept "https" ⟨"war3.kalthor.cc", by decide⟩ (.inr rfl)
  · exact hkept "http" ⟨"localhost", by decide⟩ (.inl rfl)
  · exact hkept "https" ⟨"localhost", by decide⟩ (.inr rfl)
  · exact hkept "http" ⟨"127.0.0.1", by decide⟩ (.inl rfl)
  · exact hkept "http" ⟨"[::1]", by decide⟩ (.inl rfl)

/-- Whatever the environment says, the server keeps nothing but origins. -/
theorem kept_of_loadAllowedOrigins {raw : Option String} {allowed : List String}
    (hload : loadAllowedOrigins parse raw = .ok allowed) :
    ∀ a ∈ allowed, ∃ o : KeptOrigin, o.text = a := by
  rw [loadAllowedOrigins] at hload
  split at hload
  · cases hload
    exact kept_of_builtinOrigins
  · cases hload
    exact kept_of_builtinOrigins
  · intro a ha
    obtain ⟨s, _, hparse⟩ := (mem_of_mapM hload).2 a ha
    exact kept_of_parseAllowedOrigin hparse

/-- The texts let in with a loaded allowlist: those of the origins that it keeps, at any port
where it keeps none. -/
theorem validateOriginText_of_load {raw : Option String} {allowed : List String} {s : String}
    (hload : loadAllowedOrigins parse raw = .ok allowed) :
    validateOriginText parse allowed s = .ok () ↔
      ∃ u host, parse s = .ok u ∧ u.Plain ∧ u.host = some host ∧
        ∃ o : KeptOrigin, o.text ∈ allowed ∧ o.scheme = u.scheme ∧
          eqIgnoreAsciiCase o.host.text host.text = true ∧
            (o.port = none ∨ o.port = u.portOrKnownDefault) := by
  rw [validateOriginText_eq_ok]
  constructor
  · rintro ⟨u, host, hparse, hplain, hhost, a, ha, hagree⟩
    obtain ⟨o, rfl⟩ := kept_of_loadAllowedOrigins hload a ha
    refine ⟨u, host, hparse, hplain, hhost, o, ha, ?_⟩
    rw [KeptOrigin.text, originText_agree o.web hplain.1, originText_agree o.web hplain.1] at hagree
    rcases hagree with ⟨hscheme, hhosts, hport⟩ | ⟨hscheme, hhosts, hport⟩
    · exact ⟨hscheme, hhosts, .inr hport⟩
    · exact ⟨hscheme, hhosts, .inl hport⟩
  · rintro ⟨u, host, hparse, hplain, hhost, o, ho, hscheme, hhosts, hport⟩
    refine ⟨u, host, hparse, hplain, hhost, o.text, ho, ?_⟩
    rw [KeptOrigin.text, originText_agree o.web hplain.1, originText_agree o.web hplain.1]
    exact hport.symm.imp (fun hsame => ⟨hscheme, hhosts, hsame⟩) fun hnone =>
      ⟨hscheme, hhosts, hnone⟩

/-- The entry that an error is about. -/
def EntryError.entry : EntryError → String
  | .unparsable s _ | .scheme s | .path s | .component s | .noHost s => s

theorem entry_of_parseAllowedOrigin {s : String} {e : EntryError}
    (h : parseAllowedOrigin parse s = .error e) : e.entry = s := by
  rw [parseAllowedOrigin] at h
  split at h
  · cases h
    rfl
  next url _ =>
    split_ifs at h
    · cases h
      rfl
    · cases hhost : url.hostStr with
      | none =>
          rw [hhost] at h
          cases h
          rfl
      | some host =>
          rw [hhost] at h
          cases h
    · cases h
      rfl
    · cases h
      rfl

/-- A `collect` that fails does so at one of the elements. -/
theorem mem_of_mapM_error {α β ε : Type} {f : α → Except ε β} {xs : List α} {e : ε}
    (h : xs.mapM f = .error e) : ∃ x ∈ xs, f x = .error e := by
  induction xs with
  | nil => cases h
  | cons x xs ih =>
      rw [List.mapM_cons] at h
      cases hx : f x with
      | error e' =>
          rw [hx] at h
          cases h
          exact ⟨x, List.mem_cons_self, hx⟩
      | ok y =>
          rw [hx] at h
          cases hxs : xs.mapM f with
          | error e' =>
              rw [hxs] at h
              cases h
              obtain ⟨x', hx', herror⟩ := ih hxs
              exact ⟨x', List.mem_cons_of_mem x hx', herror⟩
          | ok rest =>
              rw [hxs] at h
              cases h

theorem trim_trim (cs : List Char) : trim (trim cs) = trim cs := by
  have htrim : ∀ cs, trim cs = (cs.dropWhile isWhiteSpace).rdropWhile isWhiteSpace := fun _ => rfl
  have hfront : (trim cs).dropWhile isWhiteSpace = trim cs := by
    rw [List.dropWhile_eq_self_iff]
    intro hlen
    have hprefix : trim cs <+: cs.dropWhile isWhiteSpace := List.rdropWhile_prefix _ _
    rw [List.IsPrefix.getElem hprefix hlen]
    exact List.dropWhile_get_zero_not _ cs (Nat.lt_of_lt_of_le hlen hprefix.length_le)
  rw [htrim (trim cs), hfront, htrim cs, List.rdropWhile_idempotent]

/-- An entry is not empty, and there is no white space at its ends. -/
theorem trimmed_of_mem_entriesOf {raw : List Char} {s : String} (h : s ∈ entriesOf raw) :
    s.toList ≠ [] ∧ trim s.toList = s.toList := by
  obtain ⟨piece, hpiece, rfl⟩ := List.mem_map.mp h
  obtain ⟨hmem, hnonempty⟩ := List.mem_filter.mp hpiece
  obtain ⟨untrimmed, _, rfl⟩ := List.mem_map.mp hmem
  rw [String.toList_ofList]
  exact ⟨by simpa using hnonempty, trim_trim untrimmed⟩

/-- A server that does not start was given a list, and names one of its entries. -/
theorem entry_of_loadAllowedOrigins {raw : Option String} {e : EntryError}
    (h : loadAllowedOrigins parse raw = .error e) :
    ∃ value, raw = some value ∧ e.entry ∈ entriesOf (trim value.toList) := by
  cases raw with
  | none => cases h
  | some value =>
      refine ⟨value, rfl, ?_⟩
      rw [loadAllowedOrigins, Option.map_some] at h
      split at h
      · cases h
      · cases h
      next heq =>
        obtain ⟨s, hs, herror⟩ := mem_of_mapM_error h
        rw [entry_of_parseAllowedOrigin herror, Option.some.inj heq]
        exact hs

/-! ## What the documentation promises -/

variable (parse)

/-- The URL of an entry. -/
def Listed (entries : List String) (e : Url) : Prop := ∃ s ∈ entries, parse s = .ok e

/-- The entry, as it was written, covers the origin. -/
def Url.Serves (entry origin : Url) : Prop :=
  entry.SameSite origin ∧
    (entry.writtenPort = none ∨ entry.writtenPort = origin.portOrKnownDefault)

/-- Some entry covers the origin. -/
def Served (entries : List String) (u : Url) : Prop := ∃ e, Listed parse entries e ∧ e.Serves u

/-- A web origin: neither userinfo nor query, fragment or path. -/
structure Url.IsOrigin (u : Url) : Prop where
  web : u.Web
  path : u.path = "" ∨ u.path = "/"
  query : u.query = none
  fragment : u.fragment = none
  username : u.username = ""
  password : u.password = none

/-- The allowlist means what it documents: no entry has a userinfo, and the origins let
through are those that an entry covers. -/
structure Documented (entries allowed : List String) (value : HeaderValue) (text : String) :
    Prop where
  userinfo : ∀ e, Listed parse entries e → e.username = "" ∧ e.password = none
  verdict : validateOriginAgainst parse [value] allowed = .ok () ↔
    ∃ u, parse text = .ok u ∧ u.IsOrigin ∧ Served parse entries u

/-- No entry has a password; an origin that an entry covers is ASCII; one with the site and
port of an entry has no password; and beside an entry written with its default port, an
origin with another port is covered by another entry. -/
structure Usual (entries : List String) (text : String) : Prop where
  entryPassword : ∀ e, Listed parse entries e → e.password = none
  ascii : ∀ u, parse text = .ok u → u.IsOrigin → Served parse entries u → IsAscii text
  password : IsAscii text → ∀ u, parse text = .ok u → u.Plain →
    ∀ e, Listed parse entries e → e.Admits u → u.password = none
  defaultPort : IsAscii text → ∀ u, parse text = .ok u → u.IsOrigin →
    ∀ e, Listed parse entries e → e.SameSite u →
      e.writtenPort = knownDefaultPort e.scheme →
      u.portOrKnownDefault ≠ knownDefaultPort u.scheme → Served parse entries u

variable {parse}

theorem Url.isOrigin_iff {u : Url} : u.IsOrigin ↔ u.Plain ∧ u.password = none := by
  constructor
  · intro h
    refine ⟨⟨h.web, h.path, ?_⟩, h.password⟩
    rintro (hquery | hfragment | husername)
    · rw [h.query] at hquery
      cases hquery
    · rw [h.fragment] at hfragment
      cases hfragment
    · exact husername h.username
  · rintro ⟨⟨hweb, hpath, hdecorated⟩, hpassword⟩
    have hnot : ¬ u.query.isSome = true ∧ ¬ u.fragment.isSome = true ∧ ¬ u.username ≠ "" := by
      simpa only [Decorated, not_or] using hdecorated
    obtain ⟨hquery, hfragment, husername⟩ := hnot
    exact ⟨hweb, hpath, Option.not_isSome_iff_eq_none.mp hquery,
      Option.not_isSome_iff_eq_none.mp hfragment, not_not.mp husername, hpassword⟩

/-- An entry admits what it covers, and every port when it was written with its default. -/
theorem Url.admits_iff {e u : Url} :
    e.Admits u ↔
      e.Serves u ∨ e.SameSite u ∧ e.writtenPort = knownDefaultPort e.scheme := by
  constructor
  · rintro ⟨hsite, hport⟩
    by_cases hdefault : e.writtenPort = knownDefaultPort e.scheme
    · exact Or.inr ⟨hsite, hdefault⟩
    · rw [Url.port, if_neg hdefault] at hport
      exact Or.inl ⟨hsite, hport⟩
  · rintro (⟨hsite, hport⟩ | ⟨hsite, hdefault⟩)
    · refine ⟨hsite, ?_⟩
      rw [Url.port]
      split
      · exact Or.inl rfl
      · exact hport
    · refine ⟨hsite, Or.inl ?_⟩
      rw [Url.port, if_pos hdefault]

/-- The verdict on a text: one test of the origin, one against each entry. -/
theorem validateOriginText_iff {entries allowed : List String} {s : String}
    (hload : entries.mapM (parseAllowedOrigin parse) = .ok allowed) :
    validateOriginText parse allowed s = .ok () ↔
      ∃ u, parse s = .ok u ∧ u.Plain ∧ ∃ e, Listed parse entries e ∧ e.Admits u := by
  obtain ⟨hto, hfrom⟩ := mem_of_mapM hload
  rw [validateOriginText_eq_ok]
  constructor
  · rintro ⟨u, host', hparse, hplain, hhost', a, ha, hagree⟩
    obtain ⟨entry, hentry, haccepted⟩ := hfrom a ha
    obtain ⟨e, host, hparseEntry, hplainEntry, hhost, rfl⟩ :=
      parseAllowedOrigin_eq_ok.mp haccepted
    refine ⟨u, hparse, hplain, e, ⟨entry, hentry, hparseEntry⟩, ?_⟩
    rw [originText_agree hplainEntry.1 hplain.1, originText_agree hplainEntry.1 hplain.1] at hagree
    rcases hagree with ⟨hscheme, hhosts, hport⟩ | ⟨hscheme, hhosts, hport⟩
    · exact ⟨⟨hscheme, host, host', hhost, hhost', hhosts⟩, Or.inr hport⟩
    · exact ⟨⟨hscheme, host, host', hhost, hhost', hhosts⟩, Or.inl hport⟩
  · rintro ⟨u, hparse, hplain, e, ⟨entry, hentry, hparseEntry⟩,
      ⟨hscheme, host, host', hhost, hhost', hhosts⟩, hport⟩
    obtain ⟨a, ha, haccepted⟩ := hto entry hentry
    obtain ⟨e', hostEntry, hparse', hplainEntry, hhostEntry, htext⟩ :=
      parseAllowedOrigin_eq_ok.mp haccepted
    rw [hparseEntry] at hparse'
    cases hparse'
    rw [hhost] at hhostEntry
    cases hhostEntry
    refine ⟨u, host', hparse, hplain, hhost', a, ha, ?_⟩
    rw [htext, originText_agree hplainEntry.1 hplain.1, originText_agree hplainEntry.1 hplain.1]
    rcases hport with hnone | hsame
    · exact Or.inr ⟨hscheme, hhosts, hnone⟩
    · exact Or.inl ⟨hscheme, hhosts, hsame⟩

theorem validateOriginAgainst_of_ascii {allowed : List String} {value : HeaderValue}
    {text : String} (hvalue : value.bytes = utf8Bytes text) (hascii : IsAscii text) :
    validateOriginAgainst parse [value] allowed = validateOriginText parse allowed text := by
  rw [validateOriginAgainst, toStr_of_ascii hvalue hascii]

theorem ascii_of_validateOriginAgainst {allowed : List String} {value : HeaderValue}
    {text : String} (hvalue : value.bytes = utf8Bytes text)
    (h : validateOriginAgainst parse [value] allowed = .ok ()) : IsAscii text := by
  by_contra hascii
  rw [validateOriginAgainst, toStr_of_not_ascii hvalue hascii] at h
  cases h

theorem served_of_admits {entries : List String} {text : String}
    (husual : Usual parse entries text) (hascii : IsAscii text) {e u : Url}
    (hparse : parse text = .ok u) (horigin : u.IsOrigin) (hlisted : Listed parse entries e)
    (hadmits : e.Admits u) : Served parse entries u := by
  rcases Url.admits_iff.mp hadmits with hserves | ⟨hsite, hdefault⟩
  · exact ⟨e, hlisted, hserves⟩
  · by_cases hport : u.portOrKnownDefault = knownDefaultPort u.scheme
    · refine ⟨e, hlisted, hsite, Or.inr ?_⟩
      rw [hdefault, hport, hsite.1]
    · exact husual.defaultPort hascii u hparse horigin e hlisted hsite hdefault hport

/-- The allowlist means what it documents just for the usual entries and origins. -/
theorem documented_iff {entries allowed : List String} {value : HeaderValue} {text : String}
    (hload : entries.mapM (parseAllowedOrigin parse) = .ok allowed)
    (hvalue : value.bytes = utf8Bytes text) :
    Documented parse entries allowed value text ↔ Usual parse entries text := by
  constructor
  · intro hdocumented
    have hverdict := hdocumented.verdict
    have hserved : IsAscii text → ∀ u, parse text = .ok u → u.Plain →
        ∀ e, Listed parse entries e → e.Admits u → u.IsOrigin ∧ Served parse entries u := by
      intro hascii u hparse hplain e hlisted hadmits
      rw [validateOriginAgainst_of_ascii hvalue hascii] at hverdict
      obtain ⟨u', hparse', horigin, hserved⟩ := hverdict.mp <|
        (validateOriginText_iff hload).mpr ⟨u, hparse, hplain, e, hlisted, hadmits⟩
      rw [hparse] at hparse'
      cases hparse'
      exact ⟨horigin, hserved⟩
    constructor
    · exact fun e hlisted => (hdocumented.userinfo e hlisted).2
    · intro u hparse horigin hserved
      exact ascii_of_validateOriginAgainst hvalue (hverdict.mpr ⟨u, hparse, horigin, hserved⟩)
    · intro hascii u hparse hplain e hlisted hadmits
      exact (hserved hascii u hparse hplain e hlisted hadmits).1.password
    · intro hascii u hparse horigin e hlisted hsite hdefault _
      have hadmits := Url.admits_iff.mpr (Or.inr ⟨hsite, hdefault⟩)
      exact (hserved hascii u hparse (Url.isOrigin_iff.mp horigin).1 e hlisted hadmits).2
  · intro husual
    constructor
    · intro e hlisted
      refine ⟨?_, husual.entryPassword e hlisted⟩
      obtain ⟨entry, hentry, hparse⟩ := hlisted
      obtain ⟨a, _, haccepted⟩ := (mem_of_mapM hload).1 entry hentry
      obtain ⟨e', _, hparse', hplain, _⟩ := parseAllowedOrigin_eq_ok.mp haccepted
      rw [hparse] at hparse'
      cases hparse'
      by_contra husername
      exact hplain.2.2 (Or.inr (Or.inr husername))
    · constructor
      · intro hok
        have hascii := ascii_of_validateOriginAgainst hvalue hok
        rw [validateOriginAgainst_of_ascii hvalue hascii] at hok
        obtain ⟨u, hparse, hplain, e, hlisted, hadmits⟩ := (validateOriginText_iff hload).mp hok
        have horigin : u.IsOrigin := Url.isOrigin_iff.mpr
          ⟨hplain, husual.password hascii u hparse hplain e hlisted hadmits⟩
        exact ⟨u, hparse, horigin,
          served_of_admits husual hascii hparse horigin hlisted hadmits⟩
      · rintro ⟨u, hparse, horigin, hserved⟩
        have hascii := husual.ascii u hparse horigin hserved
        obtain ⟨e, hlisted, hserves⟩ := hserved
        rw [validateOriginAgainst_of_ascii hvalue hascii]
        exact (validateOriginText_iff hload).mpr ⟨u, hparse, (Url.isOrigin_iff.mp horigin).1, e,
          hlisted, Url.admits_iff.mpr (Or.inl hserves)⟩

end

/-! ## An entry with its default port, and an origin with a password -/

/-- `https://example.com` with a password and a port. -/
def exampleUrl (password : Option String) (port : Option UInt16) : Url where
  scheme := "https"
  username := ""
  password := password
  host := some ⟨"example.com", fun hcolon => absurd hcolon (by decide)⟩
  writtenPort := port
  path := "/"
  query := none
  fragment := none

/-- What `Url::parse` makes of a few texts. -/
def parseExample (s : String) : Except String Url :=
  if s = "https://example.com" then .ok (exampleUrl none none)
  else if s = "https://example.com:443" then .ok (exampleUrl none (some 443))
  else if s = "https://example.com:8443" then .ok (exampleUrl none (some 8443))
  else if s = "https://:pw@example.com" then .ok (exampleUrl (some "pw") none)
  else .error "relative URL without a base"

/-- A text of printable ASCII characters. -/
def isPrintable (s : String) : Bool := s.toList.all fun c => 32 ≤ c.toNat && c.toNat < 127

theorem isAscii_of_isPrintable {s : String} (h : isPrintable s = true) : IsAscii s := by
  intro c hc
  have hprintable := List.all_eq_true.mp h c hc
  rw [Bool.and_eq_true, decide_eq_true_eq, decide_eq_true_eq] at hprintable
  omega

/-- The header value of such a text. -/
def headerValue (s : String) (h : isPrintable s = true) : HeaderValue where
  bytes := utf8Bytes s
  valid := fun b hb => by
    obtain ⟨c, hc, hmem⟩ := List.mem_flatMap.mp hb
    have hprintable := List.all_eq_true.mp h c hc
    rw [Bool.and_eq_true, decide_eq_true_eq, decide_eq_true_eq] at hprintable
    rw [utf8EncodeChar_of_ascii (by omega), List.mem_singleton] at hmem
    have hvalue : b.toNat = c.toNat := by
      rw [hmem, UInt8.toNat_ofNat']
      omega
    left
    constructor
    · rw [UInt8.le_iff_toNat_le, hvalue]
      exact hprintable.1
    · rintro rfl
      have hdelete : (127 : UInt8).toNat = 127 := rfl
      omega

/-- The header `Origin: https://example.com:8443`. -/
def otherPort : HeaderValue := headerValue "https://example.com:8443" (by decide)

/-- The header `Origin: https://:pw@example.com`. -/
def withPassword : HeaderValue := headerValue "https://:pw@example.com" (by decide)

theorem listed_example {entry : String} {e e' : Url} (hparse : parseExample entry = .ok e)
    (hlisted : Listed parseExample [entry] e') : e' = e := by
  obtain ⟨s, hs, hparse'⟩ := hlisted
  rw [List.mem_singleton.mp hs, hparse] at hparse'
  exact (Except.ok.inj hparse').symm

/-- An entry without a port, and an origin at any port of its host. -/
theorem documented_of_portless :
    Documented parseExample ["https://example.com"] ["https://example.com"] otherPort
      "https://example.com:8443" := by
  have hentry : parseExample "https://example.com" = .ok (exampleUrl none none) := rfl
  have horigin : parseExample "https://example.com:8443" = .ok (exampleUrl none (some 8443)) := rfl
  have hserves : Served parseExample ["https://example.com"] (exampleUrl none (some 8443)) :=
    ⟨_, ⟨_, List.mem_singleton_self _, hentry⟩,
      ⟨rfl, _, _, rfl, rfl, by decide⟩, Or.inl rfl⟩
  refine (documented_iff (by decide) rfl).mpr ⟨?_, ?_, ?_, ?_⟩
  · intro e hlisted
    rw [listed_example hentry hlisted]
    rfl
  · intro _ _ _ _
    exact isAscii_of_isPrintable (by decide)
  · intro _ u hparse _ _ _ _
    rw [← Except.ok.inj (horigin.symm.trans hparse)]
    rfl
  · intro _ u hparse _ _ _ _ _ _
    rwa [← Except.ok.inj (horigin.symm.trans hparse)]

/-- The entry for port 443 lets port 8443 through, an entry or an origin with a password is
accepted. -/
theorem not_always_documented :
    (["https://example.com:443"].mapM (parseAllowedOrigin parseExample) =
        .ok ["https://example.com"] ∧
      ¬ Documented parseExample ["https://example.com:443"] ["https://example.com"] otherPort
        "https://example.com:8443") ∧
    (["https://:pw@example.com"].mapM (parseAllowedOrigin parseExample) =
        .ok ["https://example.com"] ∧
      ∀ value text, ¬ Documented parseExample ["https://:pw@example.com"]
        ["https://example.com"] value text) ∧
    (["https://example.com"].mapM (parseAllowedOrigin parseExample) =
        .ok ["https://example.com"] ∧
      ¬ Documented parseExample ["https://example.com"] ["https://example.com"] withPassword
        "https://:pw@example.com") := by
  refine ⟨⟨by decide, ?_⟩, ⟨by decide, ?_⟩, ⟨by decide, ?_⟩⟩
  · intro hdocumented
    obtain ⟨u, horigin, _, e, hlisted, _, hport⟩ := hdocumented.verdict.mp (by decide)
    rw [listed_example (e := exampleUrl none (some 443)) rfl hlisted] at hport
    have hu : u = exampleUrl none (some 8443) := (Except.ok.inj horigin).symm
    rw [hu] at hport
    rcases hport with hnone | hsame
    · cases hnone
    · exact absurd hsame (by decide)
  · intro value text hdocumented
    have hlisted : Listed parseExample ["https://:pw@example.com"] (exampleUrl (some "pw") none) :=
      ⟨_, List.mem_singleton_self _, rfl⟩
    cases (hdocumented.userinfo _ hlisted).2
  · intro hdocumented
    obtain ⟨u, horigin, hisOrigin, _⟩ := hdocumented.verdict.mp (by decide)
    have hu : u = exampleUrl (some "pw") none := (Except.ok.inj horigin).symm
    have hpassword := hisOrigin.password
    rw [hu] at hpassword
    cases hpassword

end War3BattleTool.Server

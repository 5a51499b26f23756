import Mathlib.Data.List.Basic
import War3BattleTool.Foundation.Splits

set_option autoImplicit false

/-!
# The base of the web viewer's links (`client/src/ui/lobby.rs`)

`web_viewer_base_url` turns the address of the server into the beginning of a link that players
pass on.  Of the address it keeps the scheme and the host with its port, and nothing else.
-/

namespace War3BattleTool.Client

open War3BattleTool.Foundation

/-! ## The function -/

/-- The address of the production server. -/
def productionUrl : String := "https://war3.kalthor.cc"

/-- The prefixes tried, one after the other, and the scheme each stands for. -/
def schemePrefixes : List (String × String) :=
  [("wss://", "https"), ("ws://", "http"), ("https://", "https"), ("http://", "http")]

/-- The scheme, and the rest of the address. -/
def splitScheme (serverUrl : String) : Option (String × List Char) :=
  schemePrefixes.findSome? fun (start, scheme) =>
    (serverUrl.toList.dropPrefix? start.toList).map fun rest => (scheme, rest)

/-- The host with its port: first the path goes, then query and fragment, then the userinfo. -/
def hostPort (rest : List Char) : List Char :=
  let beforePath := (rest.splitOn '/').head?.getD rest
  let authority := (beforePath.splitOnP fun c => c == '?' || c == '#').head?.getD beforePath
  (authority.splitOn '@').getLast?.getD authority

/-- `web_viewer_base_url`. -/
def webViewerBaseUrl (serverUrl : String) : String :=
  match splitScheme serverUrl with
  | none => productionUrl
  | some (scheme, rest) =>
      if hostPort rest = [] then productionUrl
      else scheme ++ "://" ++ String.ofList (hostPort rest)

/-! ## The parts of an address -/

/-- The schemes of an address. -/
inductive ServerScheme where
  | ws
  | wss
  | http
  | https
  deriving DecidableEq

namespace ServerScheme

def name : ServerScheme → String
  | ws => "ws"
  | wss => "wss"
  | http => "http"
  | https => "https"

/-- The scheme of the viewer. -/
def viewer : ServerScheme → String
  | ws | http => "http"
  | wss | https => "https"

end ServerScheme

/-- The characters that end the host. -/
def isDelimiter (c : Char) : Bool := c == '/' || (c == '?' || c == '#')

/-- The parts of an address.  Path, query and fragment may hold anything. -/
structure ServerUrl where
  scheme : ServerScheme
  userinfo : Option (List Char)
  host : List Char
  path : Option (List Char)
  query : Option (List Char)
  fragment : Option (List Char)
  userinfo_plain : ∀ u ∈ userinfo, ∀ c ∈ u, isDelimiter c = false
  host_ne_nil : host ≠ []
  host_plain : ∀ c ∈ host, isDelimiter c = false ∧ c ≠ '@'

namespace ServerUrl

/-- The userinfo with the `@` that ends it, and the host. -/
def authority (url : ServerUrl) : List Char :=
  match url.userinfo with
  | some u => u ++ '@' :: url.host
  | none => url.host

/-- A part with the character that begins it, if there is one. -/
def part (start : Char) (cs : Option (List Char)) : List Char := (cs.map (start :: ·)).getD []

/-- What follows the host. -/
def tail (url : ServerUrl) : List Char :=
  part '/' url.path ++ (part '?' url.query ++ part '#' url.fragment)

/-- The address. -/
def text (url : ServerUrl) : String :=
  String.ofList ((url.scheme.name ++ "://").toList ++ (url.authority ++ url.tail))

end ServerUrl

/-! ## What is kept -/

/-- Three splits, or one at every delimiter and one at the last `@`. -/
theorem hostPort_eq (rest : List Char) :
    hostPort rest = afterLast (· == '@') (beforeFirst isDelimiter rest) := by
  unfold hostPort
  simp only [List.splitOn_eq_splitOnP, head?_splitOnP, getLast?_splitOnP, Option.getD_some,
    beforeFirst_beforeFirst]
  rfl

/-- A start that differs is not dropped. -/
theorem dropPrefix?_eq_none {start other : List Char} (h : ¬ start <+: other)
    (h' : ¬ other <+: start) (rest : List Char) : (other ++ rest).dropPrefix? start = none := by
  cases hdrop : (other ++ rest).dropPrefix? start with
  | none => rfl
  | some left =>
      obtain ⟨start', hsplit, hstart⟩ := List.dropPrefix?_eq_some_iff.mp hdrop
      obtain rfl := eq_of_beq hstart
      obtain hle | hle := List.prefix_or_prefix_of_prefix (List.prefix_append other rest)
        ⟨left, hsplit.symm⟩
      · exact absurd hle h'
      · exact absurd hle h

theorem dropPrefix?_append (start rest : List Char) :
    (start ++ rest).dropPrefix? start = some rest :=
  List.dropPrefix?_eq_some_iff.mpr ⟨start, rfl, BEq.rfl⟩

/-- No prefix is the beginning of another one, so the right one is found. -/
theorem splitScheme_text (scheme : ServerScheme) (rest : List Char) :
    splitScheme (String.ofList ((scheme.name ++ "://").toList ++ rest)) =
      some (scheme.viewer, rest) := by
  have hother : ∀ {start other : String}, ¬ start.toList <+: other.toList →
      ¬ other.toList <+: start.toList → (other.toList ++ rest).dropPrefix? start.toList = none :=
    fun h h' => dropPrefix?_eq_none h h' rest
  unfold splitScheme schemePrefixes
  simp only [String.toList_ofList, List.findSome?_cons]
  cases scheme with
  | ws =>
      have hname : ServerScheme.ws.name ++ "://" = "ws://" := rfl
      rw [hname, hother (by decide) (by decide), dropPrefix?_append]
      rfl
  | wss =>
      have hname : ServerScheme.wss.name ++ "://" = "wss://" := rfl
      rw [hname, dropPrefix?_append]
      rfl
  | http =>
      have hname : ServerScheme.http.name ++ "://" = "http://" := rfl
      rw [hname, hother (by decide) (by decide), hother (by decide) (by decide),
        hother (by decide) (by decide), dropPrefix?_append]
      rfl
  | https =>
      have hname : ServerScheme.https.name ++ "://" = "https://" := rfl
      rw [hname, hother (by decide) (by decide), hother (by decide) (by decide), dropPrefix?_append]
      rfl

/-- The rest of an address begins with a delimiter. -/
theorem ServerUrl.tail_cases (url : ServerUrl) :
    url.tail = [] ∨ ∃ c rest, isDelimiter c = true ∧ url.tail = c :: rest := by
  unfold ServerUrl.tail
  cases url.path with
  | some path => exact .inr ⟨'/', _, rfl, rfl⟩
  | none =>
      cases url.query with
      | some query => exact .inr ⟨'?', _, rfl, rfl⟩
      | none =>
          cases url.fragment with
          | some fragment => exact .inr ⟨'#', _, rfl, rfl⟩
          | none => exact .inl rfl

theorem ServerUrl.authority_plain (url : ServerUrl) :
    ∀ c ∈ url.authority, isDelimiter c = false := by
  intro c hc
  unfold ServerUrl.authority at hc
  split at hc
  · next u hu =>
    obtain hc | hc := List.mem_append.mp hc
    · exact url.userinfo_plain u hu c hc
    · obtain rfl | hc := List.mem_cons.mp hc
      · rfl
      · exact (url.host_plain c hc).1
  · exact (url.host_plain c hc).1

/-- Of everything that follows the scheme, the host is kept. -/
theorem ServerUrl.hostPort_eq_host (url : ServerUrl) :
    hostPort (url.authority ++ url.tail) = url.host := by
  have hfirst : beforeFirst isDelimiter (url.authority ++ url.tail) = url.authority := by
    obtain htail | ⟨c, rest, hc, htail⟩ := url.tail_cases
    · rw [htail, List.append_nil]
      exact beforeFirst_eq_self url.authority_plain
    · rw [htail]
      exact beforeFirst_append url.authority_plain hc
  have hhost : ∀ c ∈ url.host, (c == '@') = false := fun c hc =>
    beq_eq_false_iff_ne.mpr (url.host_plain c hc).2
  rw [hostPort_eq, hfirst]
  unfold ServerUrl.authority
  split
  · exact afterLast_append hhost rfl
  · exact afterLast_eq_self hhost

/-- Scheme and host are kept. -/
theorem webViewerBaseUrl_text (url : ServerUrl) :
    webViewerBaseUrl url.text = url.scheme.viewer ++ "://" ++ String.ofList url.host := by
  unfold webViewerBaseUrl
  rw [ServerUrl.text, splitScheme_text]
  dsimp only
  rw [url.hostPort_eq_host, if_neg url.host_ne_nil]

/-! ## What comes out of any text -/

/-- A host is all that is ever kept. -/
theorem hostPort_plain (rest : List Char) :
    ∀ c ∈ hostPort rest, isDelimiter c = false ∧ c ≠ '@' := by
  intro c hc
  rw [hostPort_eq] at hc
  have hat := eq_false_of_mem_afterLast c hc
  exact ⟨eq_false_of_mem_beforeFirst c (mem_of_mem_afterLast hc), beq_eq_false_iff_ne.mp hat⟩

/-- A scheme and a host. -/
def bareUrl (scheme : ServerScheme) (host : List Char) (hne : host ≠ [])
    (hplain : ∀ c ∈ host, isDelimiter c = false ∧ c ≠ '@') : ServerUrl where
  scheme := scheme
  userinfo := none
  host := host
  path := none
  query := none
  fragment := none
  userinfo_plain := fun _ hu => by cases hu
  host_ne_nil := hne
  host_plain := hplain

theorem bareUrl_text (scheme : ServerScheme) {host : List Char} (hne : host ≠ [])
    (hplain : ∀ c ∈ host, isDelimiter c = false ∧ c ≠ '@') :
    (bareUrl scheme host hne hplain).text = scheme.name ++ "://" ++ String.ofList host := by
  have htail : (bareUrl scheme host hne hplain).authority ++ (bareUrl scheme host hne hplain).tail =
      host := List.append_nil host
  rw [ServerUrl.text, htail, String.ofList_append, String.ofList_toList]
  rfl

/-- Only two schemes come out. -/
theorem splitScheme_viewer {serverUrl viewer : String} {rest : List Char}
    (h : splitScheme serverUrl = some (viewer, rest)) :
    ∃ scheme : ServerScheme, scheme.name = viewer ∧ scheme.viewer = viewer := by
  obtain ⟨⟨start, viewer'⟩, hmem, hsome⟩ := List.exists_of_findSome?_eq_some h
  obtain ⟨_, _, heq⟩ := Option.map_eq_some_iff.mp hsome
  obtain rfl : viewer' = viewer := congrArg Prod.fst heq
  have hviewer : viewer' = "https" ∨ viewer' = "http" := by
    revert hmem
    simp only [schemePrefixes, List.mem_cons, Prod.mk.injEq, List.not_mem_nil, or_false]
    rintro (⟨_, h⟩ | ⟨_, h⟩ | ⟨_, h⟩ | ⟨_, h⟩)
    · exact .inl h
    · exact .inr h
    · exact .inl h
    · exact .inr h
  obtain rfl | rfl := hviewer
  · exact ⟨.https, rfl, rfl⟩
  · exact ⟨.http, rfl, rfl⟩

/-- What comes out is the address of a viewer: a scheme and a host. -/
theorem exists_bareUrl (serverUrl : String) : ∃ scheme host hne hplain,
    scheme.name = scheme.viewer ∧
      webViewerBaseUrl serverUrl = (bareUrl scheme host hne hplain).text := by
  have hproduction : ∃ scheme host hne hplain, scheme.name = scheme.viewer ∧
      productionUrl = (bareUrl scheme host hne hplain).text := by
    have hne : "war3.kalthor.cc".toList ≠ [] := by decide
    have hplain : ∀ c ∈ "war3.kalthor.cc".toList, isDelimiter c = false ∧ c ≠ '@' := by
      simp [isDelimiter]
    refine ⟨.https, _, hne, hplain, rfl, ?_⟩
    rw [bareUrl_text, String.ofList_toList]
    rfl
  unfold webViewerBaseUrl
  split
  · exact hproduction
  · next viewer rest hsplit =>
    split
    · exact hproduction
    · next hne =>
      obtain ⟨scheme, hname, hviewer⟩ := splitScheme_viewer hsplit
      refine ⟨scheme, hostPort rest, hne, hostPort_plain rest, hname.trans hviewer.symm, ?_⟩
      rw [bareUrl_text, hname]

/-- Of an address the scheme and the host are kept; and whatever the text, what comes out stays
the same when it is put in again, and is a scheme and a host without any delimiter. -/
theorem webViewerBaseUrl_spec :
    (∀ url : ServerUrl,
      webViewerBaseUrl url.text = url.scheme.viewer ++ "://" ++ String.ofList url.host) ∧
    ∀ x : String, webViewerBaseUrl (webViewerBaseUrl x) = webViewerBaseUrl x ∧
      ∃ (viewer : String) (authority : List Char), (viewer = "http" ∨ viewer = "https") ∧
        webViewerBaseUrl x = viewer ++ "://" ++ String.ofList authority ∧ authority ≠ [] ∧
        ∀ c ∈ authority, c ≠ '/' ∧ c ≠ '?' ∧ c ≠ '#' ∧ c ≠ '@' := by
  refine ⟨webViewerBaseUrl_text, fun x => ?_⟩
  obtain ⟨scheme, host, hne, hplain, hscheme, hx⟩ := exists_bareUrl x
  have htext := bareUrl_text scheme hne hplain
  refine ⟨?_, scheme.viewer, host, ?_, ?_, hne, fun c hc => ?_⟩
  · rw [hx, webViewerBaseUrl_text, htext, hscheme]
    rfl
  · cases scheme
    · exact .inl rfl
    · exact .inr rfl
    · exact .inl rfl
    · exact .inr rfl
  · rw [hx, htext, hscheme]
  · obtain ⟨hdelimiter, hat⟩ := hplain c hc
    simp only [isDelimiter, Bool.or_eq_false_iff, beq_eq_false_iff_ne] at hdelimiter
    exact ⟨hdelimiter.1, hdelimiter.2.1, hdelimiter.2.2, hat⟩

/-- Several `@`, and delimiters behind the host. -/
example : webViewerBaseUrl "wss://a@b@host:1/ws?x=/y@z#?" = "https://host:1" := by decide

end War3BattleTool.Client

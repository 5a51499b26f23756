import War3BattleTool.Server.AppState
import War3BattleTool.Server.TunnelState

set_option autoImplicit false

/-!
# Admission of a request (`server/src/main.rs`)

What the HTTP handlers decide before the WebSocket upgrade: the response of a
rejected request, or the parameters the upgraded connection runs with.
-/

namespace War3BattleTool.Server

open War3BattleTool.Foundation

/-- The status code and body of a rejected request. -/
structure Rejection where
  status : Nat
  body : String
  deriving DecidableEq

/-- `deny_origin`. -/
def denyOrigin : Rejection where
  status := 403
  body := "Origin not allowed. Set WAR3_ALLOWED_ORIGINS on server. See https://github.com/hottim900/war3-battle-tool/blob/master/docs/SELF-HOSTING.md"

/-- `ws_handler` up to the upgrade.  `originOk` is the verdict of
`validate_origin`. -/
def wsHandler (a : AppState) (originOk : Bool) (clientIp : IpAddr) :
    AppState × Except Rejection Unit :=
  if !originOk then (a, .error denyOrigin)
  else
    match a.tryAcquireConnection clientIp with
    | (a', true) => (a', .ok ())
    | (a', false) => (a', .error ⟨429, "Too many connections from this IP"⟩)

/-- `tunnel_handler` up to the upgrade.  `token` and `role` are the query
parameters. -/
def tunnelHandler (s : TunnelState) (originOk : Bool) (clientIp : IpAddr)
    (token role : Option String) :
    TunnelState × Except Rejection (String × String) :=
  if !originOk then (s, .error denyOrigin)
  else
    match token with
    | none => (s, .error ⟨400, "Missing token parameter"⟩)
    | some token =>
        if token = "" then (s, .error ⟨400, "Missing token parameter"⟩)
        else
          match role with
          | none => (s, .error ⟨400, "Invalid role parameter (host|join)"⟩)
          | some role =>
              if role = "host" ∨ role = "join" then
                match s.tryAcquireTunnelConnection clientIp with
                | (s', true) => (s', .ok (token, role))
                | (s', false) =>
                    (s', .error ⟨429, "Too many tunnel connections from this IP"⟩)
              else (s, .error ⟨400, "Invalid role parameter (host|join)"⟩)

/-- An admitted request carries the parameters it was made with, and its role is
one of the two the service knows. -/
theorem tunnelHandler_ok {s s' : TunnelState} {originOk : Bool} {ip : IpAddr}
    {tokenParam roleParam : Option String} {token role : String}
    (h : tunnelHandler s originOk ip tokenParam roleParam = (s', .ok (token, role))) :
    tokenParam = some token ∧ roleParam = some role ∧
      (role = "host" ∨ role = "join") := by
  unfold tunnelHandler at h
  split at h
  · simp at h
  · cases tokenParam with
    | none => simp at h
    | some t =>
        simp only at h
        split at h
        · simp at h
        · cases roleParam with
          | none => simp at h
          | some r =>
              simp only at h
              split at h
              · next hrole =>
                split at h
                · simp only [Prod.mk.injEq, Except.ok.injEq] at h
                  obtain ⟨_, rfl, rfl⟩ := h
                  exact ⟨rfl, rfl, hrole⟩
                · simp at h
              · simp at h

/-- Admission to the lobby touches the connection counters only. -/
theorem wsHandler_frame (a : AppState) (originOk : Bool) (ip : IpAddr) :
    ∃ conns, (wsHandler a originOk ip).1 = { a with connectionsPerIp := conns } := by
  have hacquire : ∃ conns, (a.tryAcquireConnection ip).1 =
      { a with connectionsPerIp := conns } := ⟨_, rfl⟩
  unfold wsHandler
  split
  · exact ⟨a.connectionsPerIp, rfl⟩
  · split
    · next h => rwa [h] at hacquire
    · next h => rwa [h] at hacquire

/-- Admission to a tunnel touches the connection counters only. -/
theorem tunnelHandler_frame (s : TunnelState) (originOk : Bool) (ip : IpAddr)
    (token role : Option String) :
    ∃ conns, (tunnelHandler s originOk ip token role).1 =
      { s with connectionsPerIp := conns } := by
  have hsame : ∃ conns, s = { s with connectionsPerIp := conns } :=
    ⟨s.connectionsPerIp, rfl⟩
  have hacquire : ∃ conns, (s.tryAcquireTunnelConnection ip).1 =
      { s with connectionsPerIp := conns } := ⟨_, rfl⟩
  unfold tunnelHandler
  repeat' split
  all_goals first
    | exact hsame
    | (next h => rw [h] at hacquire; exact hacquire)

end War3BattleTool.Server

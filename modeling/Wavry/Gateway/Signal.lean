import Mathlib
import Wavry.Lib.AssocMap

/-! The gateway's signalling presence map (`wavry-gateway` `signal.rs`,
`handle_socket`). Every WebSocket connection gets its own sender; a `Bind`
with a valid token stores that sender under the token's username in the
shared `ConnectionMap`, replacing the sender there (which only gets an error
message), and when the connection's loop ends its cleanup removes the entry
under its username, whichever sender the entry holds by then. Connections are
numbered in the order they open, so no two share a sender. -/
namespace Wavry.Gateway

/-- The shared map and each open connection's `authenticated_username`. -/
structure Signalling where
  /-- `ConnectionMap`: the sender stored under each username. -/
  connections : AssocMap String Nat
  /-- The open connections, each with the username it bound, if any. -/
  sockets : AssocMap Nat (Option String)
  /-- The number the next connection gets. -/
  nextConn : Nat

namespace Signalling

def init : Signalling := ⟨AssocMap.empty, AssocMap.empty, 0⟩

/-- A new WebSocket connection, not yet bound. -/
def connect (g : Signalling) : Signalling :=
  { g with sockets := g.sockets.insert g.nextConn none, nextConn := g.nextConn + 1 }

/-- The cleanup after `handle_socket`'s loop: a bound connection removes the
entry under its username. -/
def disconnect (g : Signalling) (conn : Nat) : Signalling :=
  let connections := match g.sockets.get conn with
    | some (some user) => g.connections.erase user
    | _ => g.connections
  { g with connections, sockets := g.sockets.erase conn }

/-- The `Bind` branch with a token that names `username`. An unbound
connection stores its sender under the username; a bound one answers
`Already bound` and leaves its loop. A closed connection receives nothing. -/
def bind (g : Signalling) (conn : Nat) (username : String) : Signalling :=
  match g.sockets.get conn with
  | some none =>
      { g with
        connections := g.connections.insert username conn
        sockets := g.sockets.insert conn (some username) }
  | some (some _) => g.disconnect conn
  | none => g

end Signalling

/-- What happens next on the gateway: a connection opens, a connection binds
with a valid token for a username, or a connection's loop ends. -/
inductive SignalEvent where
  | connect
  | bind (conn : Nat) (username : String)
  | close (conn : Nat)
  deriving DecidableEq, Repr

namespace Signalling

def step (g : Signalling) : SignalEvent → Signalling
  | .connect => g.connect
  | .bind conn username => g.bind conn username
  | .close conn => g.disconnect conn

def run (g : Signalling) (events : List SignalEvent) : Signalling := events.foldl step g

/-- An open connection bound to `user`. -/
def BoundTo (g : Signalling) (conn : Nat) (user : String) : Prop :=
  g.sockets.get conn = some (some user)

instance (g : Signalling) (conn : Nat) (user : String) : Decidable (g.BoundTo conn user) :=
  inferInstanceAs (Decidable (_ = _))

/-- What every state of the gateway satisfies: every connection number in
use is below the next one, and an entry of the map is the sender of an open
connection bound to that username. -/
structure Sound (g : Signalling) : Prop where
  fresh : ∀ conn, (g.sockets.get conn).isSome → conn < g.nextConn
  entry : ∀ user conn, g.connections.get user = some conn → g.BoundTo conn user

theorem sound_init : init.Sound :=
  ⟨fun conn h => by simp [init] at h, fun user conn h => by simp [init] at h⟩

section Sound

variable {g : Signalling}

/-- The cleanup removes the entry of the username the connection bound, and
only that one. -/
theorem get_connections_disconnect (g : Signalling) (conn : Nat) (user : String) :
    (g.disconnect conn).connections.get user =
      if g.BoundTo conn user then none else g.connections.get user := by
  by_cases hBound : g.BoundTo conn user
  · rw [if_pos hBound]
    unfold BoundTo at hBound
    simp [Signalling.disconnect, hBound]
  · rw [if_neg hBound]
    unfold BoundTo at hBound
    simp only [Signalling.disconnect]
    split
    · next bound hSocket =>
        have hNe : user ≠ bound := fun hEq => hBound (hEq ▸ hSocket)
        simp [hNe]
    · rfl

theorem get_sockets_disconnect (g : Signalling) (conn other : Nat) :
    (g.disconnect conn).sockets.get other = if other = conn then none else g.sockets.get other := by
  simp [Signalling.disconnect]

theorem Sound.connect (h : g.Sound) : g.connect.Sound := by
  refine ⟨fun conn hConn => ?_, fun user conn hEntry => ?_⟩
  · simp only [Signalling.connect, AssocMap.get_insert] at hConn ⊢
    split_ifs at hConn with hNew
    · omega
    · exact Nat.lt_succ_of_lt (h.fresh conn hConn)
  · have hBound := h.entry user conn hEntry
    have hLt := h.fresh conn (by rw [BoundTo] at hBound; simp [hBound])
    simp only [BoundTo, Signalling.connect, AssocMap.get_insert, if_neg (Nat.ne_of_lt hLt)]
    exact hBound

theorem Sound.disconnect (h : g.Sound) (conn : Nat) : (g.disconnect conn).Sound := by
  refine ⟨fun other hOther => ?_, fun user other hEntry => ?_⟩
  · rw [get_sockets_disconnect] at hOther
    by_cases hSame : other = conn
    · rw [if_pos hSame] at hOther
      cases hOther
    · rw [if_neg hSame] at hOther
      exact h.fresh other hOther
  · rw [get_connections_disconnect] at hEntry
    by_cases hClosing : g.BoundTo conn user
    · rw [if_pos hClosing] at hEntry
      cases hEntry
    · rw [if_neg hClosing] at hEntry
      have hOld := h.entry user other hEntry
      have hNe : other ≠ conn := by
        rintro rfl
        exact hClosing hOld
      rw [BoundTo, get_sockets_disconnect, if_neg hNe]
      exact hOld

theorem bind_of_unbound {conn : Nat} (hUnbound : g.sockets.get conn = some none)
    (username : String) :
    g.bind conn username =
      { g with
        connections := g.connections.insert username conn
        sockets := g.sockets.insert conn (some username) } := by
  simp [Signalling.bind, hUnbound]

theorem Sound.bind (h : g.Sound) (conn : Nat) (username : String) : (g.bind conn username).Sound := by
  cases hSocket : g.sockets.get conn with
  | none => simpa [Signalling.bind, hSocket] using h
  | some bound =>
      cases bound with
      | some _ => simpa [Signalling.bind, hSocket] using h.disconnect conn
      | none =>
          rw [bind_of_unbound hSocket]
          refine ⟨fun other hOther => ?_, fun user other hEntry => ?_⟩
          · rw [AssocMap.get_insert] at hOther
            by_cases hSame : other = conn
            · exact hSame ▸ h.fresh conn (by simp [hSocket])
            · rw [if_neg hSame] at hOther
              exact h.fresh other hOther
          · rw [AssocMap.get_insert] at hEntry
            by_cases hUser : user = username
            · rw [if_pos hUser, Option.some.injEq] at hEntry
              subst hEntry
              simp [BoundTo, hUser]
            · rw [if_neg hUser] at hEntry
              have hOld := h.entry user other hEntry
              have hNe : other ≠ conn := by
                rintro rfl
                rw [BoundTo, hSocket] at hOld
                cases hOld
              simp only [BoundTo, AssocMap.get_insert, if_neg hNe]
              exact hOld

theorem Sound.step (h : g.Sound) (e : SignalEvent) : (g.step e).Sound := by
  cases e with
  | connect => exact h.connect
  | bind conn username => exact h.bind conn username
  | close conn => exact h.disconnect conn

theorem Sound.run (h : g.Sound) (events : List SignalEvent) : (g.run events).Sound := by
  induction events generalizing g with
  | nil => exact h
  | cons e rest ih => exact ih (h.step e)

end Sound

/-- Whatever the connections do, an entry of the map is never stale: it is the
sender of an open connection bound to that username. -/
theorem entry_run_boundTo (events : List SignalEvent) {user : String} {conn : Nat}
    (h : (init.run events).connections.get user = some conn) : (init.run events).BoundTo conn user :=
  (sound_init.run events).entry user conn h

/-- The cleanup removes by username: when an older connection bound to the
same username closes after a newer one took the entry, the entry goes, and
the newer connection stays open and bound with no entry for its username. -/
theorem disconnect_drops_newer {g : Signalling} (h : g.Sound) {user : String} {old new : Nat}
    (hOld : g.BoundTo old user) (hNew : g.connections.get user = some new) (hNe : old ≠ new) :
    (g.disconnect old).connections.get user = none ∧ (g.disconnect old).BoundTo new user := by
  refine ⟨by rw [get_connections_disconnect, if_pos hOld], ?_⟩
  rw [BoundTo, get_sockets_disconnect, if_neg (Ne.symm hNe)]
  exact h.entry user new hNew

/-- Two connections bind `alice` and the first then closes: the second is
still open and bound, and the map has no entry for `alice`. -/
theorem disconnect_drops_newer_alice :
    let g := init.run [.connect, .connect, .bind 0 "alice", .bind 1 "alice"]
    g.Sound ∧ g.BoundTo 0 "alice" ∧ g.connections.get "alice" = some 1 ∧ (0 : Nat) ≠ 1 ∧
      ((g.disconnect 0).connections.get "alice" = none ∧ (g.disconnect 0).BoundTo 1 "alice") := by
  intro g
  have hSound : g.Sound := sound_init.run _
  have hOld : g.BoundTo 0 "alice" := by decide
  have hNew : g.connections.get "alice" = some 1 := by decide
  exact ⟨hSound, hOld, hNew, by decide, disconnect_drops_newer hSound hOld hNew (by decide)⟩

end Signalling

end Wavry.Gateway

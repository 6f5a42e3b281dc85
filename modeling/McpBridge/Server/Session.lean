import McpBridge.Lib.Bytes
import McpBridge.Lib.Map
/-!
# Sessions and rate limits (`core/session.cpp`, `core/rate_limiter.cpp`)

Times are readings of the steady clock, in nanoseconds. Both stores drop old
entries every five minutes, when a call happens to come by.
-/

open McpBridge.Lib

namespace McpBridge.Server

def minutes (n : Int) : Int := n * 60 * 1000000000

def hours (n : Int) : Int := minutes (60 * n)

/-- The comparison that takes the same time for all strings of one length. -/
def constantTimeEqual (a b : Str) : Bool :=
  a.length = b.length && (a.zip b).foldl (fun r p => r ||| (p.1 ^^^ p.2)) 0 = 0

theorem foldl_or_xor_eq_zero (l : List (UInt8 × UInt8)) (r : UInt8) :
    l.foldl (fun r p => r ||| (p.1 ^^^ p.2)) r = 0 ↔ r = 0 ∧ ∀ p ∈ l, p.1 = p.2 := by
  induction l generalizing r with
  | nil => simp
  | cons p l ih => simp [ih, UInt8.or_eq_zero_iff, and_assoc]

theorem constantTimeEqual_iff (a b : Str) : constantTimeEqual a b = true ↔ a = b := by
  simp only [constantTimeEqual, Bool.and_eq_true, decide_eq_true_eq, foldl_or_xor_eq_zero, true_and]
  induction a generalizing b with
  | nil => cases b <;> simp
  | cons x a ih =>
    cases b with
    | nil => simp
    | cons y b =>
      have h := ih b
      simp only [List.length_cons, Nat.add_right_cancel_iff, List.zip_cons_cons, List.forall_mem_cons, List.cons.injEq,
        ← h]
      exact and_left_comm

/-! ## Sessions -/

structure Session where
  id : Str
  bearerHash : Str
  userId : Str
  createdAt : Int
  lastSeen : Int
deriving DecidableEq

structure SessionStore where
  idleTtl : Int
  sessions : Map Str Session
  lastGc : Int

namespace SessionStore

def gcLocked (st : SessionStore) (now : Int) : SessionStore :=
  if now - st.lastGc < minutes 5 then st
  else { st with sessions := Map.keep (fun _ s => decide (now - s.lastSeen ≤ st.idleTtl)) st.sessions, lastGc := now }

/-- Opens a session; `id` is a new UUID. -/
def issue (st : SessionStore) (id bearerHash userId : Str) (now : Int) : Session × SessionStore :=
  let s : Session := ⟨id, bearerHash, userId, now, now⟩
  let st := st.gcLocked now
  (s, { st with sessions := st.sessions.insert id s })

/-- The session, iff it is there, has not idled out and is for this bearer. -/
def validate (st : SessionStore) (sessionId bearerHash : Str) (now : Int) : Option Session × SessionStore :=
  match st.sessions.lookup sessionId with
  | none => (none, st)
  | some s =>
    if st.idleTtl < now - s.lastSeen then (none, { st with sessions := st.sessions.erase sessionId })
    else if !constantTimeEqual s.bearerHash bearerHash then (none, st)
    else
      let s := { s with lastSeen := now }
      (some s, { st with sessions := st.sessions.insert sessionId s })

def invalidate (st : SessionStore) (sessionId : Str) : SessionStore :=
  { st with sessions := st.sessions.erase sessionId }

end SessionStore

/-! ## Rate limits -/

structure RateLimiter where
  maxRpm : Int
  requests : Map Str (List Int)
  lastGc : Int

/-- Whether one more request under `key` is allowed, and if so, notes it. -/
def RateLimiter.allow (rl : RateLimiter) (key : Str) (now : Int) : Bool × RateLimiter :=
  let window := now - minutes 1
  let timestamps := ((rl.requests.lookup key).getD []).filter fun t => !decide (t < window)
  let ok := decide ((timestamps.length : Int) < rl.maxRpm)
  let requests := rl.requests.insert key (if ok then timestamps ++ [now] else timestamps)
  if minutes 5 < now - rl.lastGc then
    let stale := now - minutes 5
    (ok, { rl with
      requests := Map.keep (fun _ ts => match ts.getLast? with
        | none => false
        | some t => !decide (t < stale)) requests
      lastGc := now })
  else (ok, { rl with requests })

end McpBridge.Server

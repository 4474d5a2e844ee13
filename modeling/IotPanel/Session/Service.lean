import IotPanel.Lib.Expiring
import IotPanel.Js.Value

/-!
# The session service

`SessionService` keeps two families of expiring keys in Redis:
`session:{sessionId}` holds the session data and `user:sessions:{userId}:{sessionId}`
marks the session as one of the user's. A method is modelled between two of its
awaits: a `Call` names the Redis command it is about to send and the locals it still
needs, and `Call.next` is what happens when Redis executes that command.
-/

namespace IotPanel.Session

open Text

/-- `ISessionData` -/
structure SessionData where
  userId : String
  username : String
  roles : List Json
  loginTime : ℕ
  lastActivity : ℕ
  ipAddress : String
  userAgent : String

/-- `CreateSessionDto` -/
structure CreateSessionDto where
  userId : String
  username : String
  roles : List Json
  ipAddress : String
  userAgent : String

/-- The values under the two families of keys: the JSON text of the session data, and the
text `true`. -/
inductive Record
  | data (d : SessionData)
  | tracked

def sessionKey (sessionId : String) : String := "session:" ++ sessionId

def trackingKey (userId sessionId : String) : String :=
  "user:sessions:" ++ (userId ++ (":" ++ sessionId))

/-- The pattern of the keys that track the sessions of `userId`. -/
def trackingPattern (userId : String) : String := "user:sessions:" ++ (userId ++ ":*")

/-- `key.split(':')[3]`; a missing part is interpolated as `undefined`. -/
def sessionIdOf (key : String) : String := (split key ':')[3]?.getD "undefined"

/-- Redis and its clock, in milliseconds. -/
structure Redis where
  store : Store String Record
  now : ℕ

namespace Redis

def tick (r : Redis) (d : ℕ) : Redis := { r with now := r.now + d }

def setex (r : Redis) (key : String) (v : Record) (ttlSeconds : ℕ) : Redis :=
  { r with store := r.store.setex r.now key v (1000 * ttlSeconds) }

def del (r : Redis) (key : String) : Redis := { r with store := r.store.del key }

@[simp] theorem setex_store (r : Redis) (k k' : String) (v : Record) (ttl : ℕ) :
    (r.setex k v ttl).store k' = if k' = k then some ⟨v, r.now + 1000 * ttl⟩ else r.store k' := rfl

@[simp] theorem del_store (r : Redis) (k k' : String) :
    (r.del k).store k' = if k' = k then none else r.store k' := rfl

/-- The session data that a read at time `t` finds under the session's key. Only session
data is written there. -/
def sessionAt (r : Redis) (t : ℕ) (sessionId : String) : Option SessionData :=
  match r.store.get t (sessionKey sessionId) with
  | some (.data d) => some d
  | _ => none

/-- `SessionService.getSession` -/
def getSession (r : Redis) (sessionId : String) : Option SessionData :=
  r.sessionAt r.now sessionId

theorem getSession_congr {r r' : Redis} {sessionId : String} (hnow : r'.now = r.now)
    (hstore : r'.store (sessionKey sessionId) = r.store (sessionKey sessionId)) :
    r'.getSession sessionId = r.getSession sessionId := by
  simp [getSession, sessionAt, Store.get, hnow, hstore]

/-- What is readable later was readable before, if its key has not been written. -/
theorem getSession_of_later {r r' : Redis} {sessionId : String} {d : SessionData}
    (hstore : r'.store (sessionKey sessionId) = r.store (sessionKey sessionId))
    (hnow : r.now ≤ r'.now) (h : r'.getSession sessionId = some d) :
    r.getSession sessionId = some d := by
  have hkept : r'.sessionAt r'.now sessionId = r.sessionAt r'.now sessionId := by
    simp [sessionAt, Store.get, hstore]
  rw [getSession, hkept, sessionAt] at h
  split at h
  · rename_i d' hget
    cases h
    rw [getSession, sessionAt, Store.get_of_le hnow hget]
  · cases h

/-- The keys readable at the present time. -/
def liveKeys (r : Redis) : Set String := {k | (r.store.get r.now k).isSome}

end Redis

/-- A reply to `SCAN`: the next cursor and a batch of keys. -/
structure Batch where
  nextCursor : String
  keys : List String

/-- A running call of the session service or of its guard, at one of its awaits. -/
inductive Call
  | createSetSession (sessionId : String) (data : SessionData)
  | createSetTracking (sessionId : String) (data : SessionData)
  | guardGet (sessionId : String)
  | extendGet (sessionId : String)
  | extendSetSession (sessionId : String) (data : SessionData)
  | extendSetTracking (sessionId : String) (data : SessionData)
  | destroyGet (sessionId : String)
  | destroyDelSession (sessionId : String) (data : SessionData)
  | destroyDelTracking (sessionId : String) (data : SessionData)
  | invalidateScan (userId cursor : String)
  | invalidateDelSession (userId key : String) (keys : List String) (nextCursor : String)
  | invalidateDelTracking (userId key : String) (keys : List String) (nextCursor : String)

/-- What a call returns. The guard and `extendSession` return the session or null. -/
inductive Result
  | sessionId (id : String)
  | session (d : Option SessionData)
  | done

/-- `SessionService.createSession` up to its first await, with the drawn id. -/
def createSession (sessionId : String) (dto : CreateSessionDto) (now : ℕ) : Call :=
  .createSetSession sessionId
    { userId := dto.userId, username := dto.username, roles := dto.roles, loginTime := now,
      lastActivity := now, ipAddress := dto.ipAddress, userAgent := dto.userAgent }

/-- `SessionAuthGuard.canActivate`: `getSession`, then `extendSession`. -/
def canActivate (sessionId : String) : Call := .guardGet sessionId

def extendSession (sessionId : String) : Call := .extendGet sessionId

def destroySession (sessionId : String) : Call := .destroyGet sessionId

def invalidateUserSessions (userId : String) : Call := .invalidateScan userId "0"

/-- The loop over the keys of a batch, and the test of the enclosing `do ... while`. -/
def nextKey (userId nextCursor : String) : List String → Call ⊕ Result
  | key :: keys => .inl (.invalidateDelSession userId key keys nextCursor)
  | [] => if nextCursor = "0" then .inr .done else .inl (.invalidateScan userId nextCursor)

/-- Redis executes the command the call waits for, and the call runs to its next await or
returns. `timeout` is `SESSION_TIMEOUT`; `reply` is only read by a call at a `SCAN`. -/
def Call.next (timeout : ℕ) (r : Redis) (reply : Batch) : Call → Redis × (Call ⊕ Result)
  | .createSetSession sid d =>
    (r.setex (sessionKey sid) (.data d) timeout, .inl (.createSetTracking sid d))
  | .createSetTracking sid d =>
    (r.setex (trackingKey d.userId sid) .tracked timeout, .inr (.sessionId sid))
  | .guardGet sid =>
    match r.getSession sid with
    | none => (r, .inr (.session none))
    | some _ => (r, .inl (.extendGet sid))
  | .extendGet sid =>
    match r.getSession sid with
    | none => (r, .inr (.session none))
    | some d => (r, .inl (.extendSetSession sid { d with lastActivity := r.now }))
  | .extendSetSession sid d =>
    (r.setex (sessionKey sid) (.data d) timeout, .inl (.extendSetTracking sid d))
  | .extendSetTracking sid d =>
    (r.setex (trackingKey d.userId sid) .tracked timeout, .inr (.session (some d)))
  | .destroyGet sid =>
    match r.getSession sid with
    | none => (r, .inr .done)
    | some d => (r, .inl (.destroyDelSession sid d))
  | .destroyDelSession sid d => (r.del (sessionKey sid), .inl (.destroyDelTracking sid d))
  | .destroyDelTracking sid d => (r.del (trackingKey d.userId sid), .inr .done)
  | .invalidateScan userId _ => (r, nextKey userId reply.nextCursor reply.keys)
  | .invalidateDelSession userId key keys nextCursor =>
    (r.del (sessionKey (sessionIdOf key)), .inl (.invalidateDelTracking userId key keys nextCursor))
  | .invalidateDelTracking userId key keys nextCursor =>
    (r.del key, nextKey userId nextCursor keys)

end IotPanel.Session

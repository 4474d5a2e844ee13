import IotPanel.Users.Signup

/-!
# The cookie of a session

A login and a signup end with `AuthService.createSession`: the session is stored for the time of
`SESSION_TIMEOUT`, and its id goes to the client in a cookie. The day on which cookies expire is
fixed when the server starts.
-/

namespace IotPanel.Users

open Program
open Session (Record Redis sessionKey trackingKey)

/-- A cookie with its options. Times are in milliseconds. -/
structure Cookie where
  name : String
  value : String
  httpOnly : Bool
  secure : Bool
  sameSite : String
  expires : ℕ
  path : String

structure CookieService where
  sessionCookieName : String
  nodeEnv : String
  expireDate : ℕ

namespace CookieService

def day : ℕ := 24 * 60 * 60 * 1000

/-- The service that is constructed at the time `now`. -/
def new (sessionCookieName nodeEnv : String) (now : ℕ) : CookieService :=
  { sessionCookieName := sessionCookieName, nodeEnv := nodeEnv, expireDate := now + day }

def setSessionCookie (cs : CookieService) (sessionId : String) : Cookie :=
  { name := cs.sessionCookieName, value := sessionId, httpOnly := true,
    secure := cs.nodeEnv == "production", sameSite := "strict", expires := cs.expireDate,
    path := "/" }

end CookieService

/-- A server: its stores, the cookies it has set, and how long each of the coming commands
waits. -/
structure Server where
  stores : Stores
  cookies : List Cookie
  waits : List ℕ

namespace Server

def execute (T : ℕ) (b : Bcrypt) (cs : CookieService) (c : SignupCommand) (s : Server) :
    Except Exception c.Reply × Server :=
  let stores := s.stores.tick (s.waits.headD 0)
  let o := stores.execute T b c
  let cookies := match c with
    | .setCookie sessionId => cs.setSessionCookie sessionId :: s.cookies
    | _ => s.cookies
  (o.1, { stores := o.2, cookies := cookies, waits := s.waits.tail })

end Server

/-- A login or a signup that has got as far as its session, and how long it waits before it
writes the session, before it tracks it and before it sets the cookie. -/
structure Entrance where
  user : User
  env : Env
  beforeSession : ℕ
  beforeTracking : ℕ
  beforeCookie : ℕ

/-- What an entrance has led to: the time at which the cookie was set, the session as it has been
stored, and the cookie. -/
structure Login where
  time : ℕ
  session : Entry Record
  cookie : Cookie

namespace Login

/-- As long as the session lives the cookie has not expired. -/
def Usable (l : Login) : Prop :=
  ∀ t, l.time ≤ t → t < l.session.expiresAt → t < l.cookie.expires

/-- How long the cookie lives from the login on. -/
def lifetime (l : Login) : ℤ := l.cookie.expires - l.time

/-- When the session is to expire, when the cookie was set, and when it is to expire. -/
def terms (l : Login) : ℕ × ℕ × ℕ := (l.session.expiresAt, l.time, l.cookie.expires)

end Login

namespace Server

/-- `AuthService.createSession` for the entrance. -/
def enter (T : ℕ) (b : Bcrypt) (cs : CookieService) (s : Server) (e : Entrance) :
    Server × Option Login :=
  match (Signing.createSession e.env e.user).exec (execute T b cs)
      { s with waits := [e.beforeSession, e.beforeTracking, e.beforeCookie] } with
  | (.ok _, s') =>
    (s', do
      let session ← s'.stores.redis.store (sessionKey e.env.sessionId)
      let cookie ← s'.cookies.head?
      return ⟨s'.stores.redis.now, session, cookie⟩)
  | (.error _, s') => (s', none)

def logins (T : ℕ) (b : Bcrypt) (cs : CookieService) : Server → List Entrance → List Login
  | _, [] => []
  | s, e :: es => (s.enter T b cs e).2.toList ++ logins T b cs (s.enter T b cs e).1 es

end Server

/-- When the entrances that begin at the time `now` write their sessions and set their cookies. -/
def times : ℕ → List Entrance → List (ℕ × ℕ)
  | _, [] => []
  | now, e :: es =>
    let written := now + e.beforeSession
    let time := written + e.beforeTracking + e.beforeCookie
    (written, time) :: times time es

/-! ### One entrance -/

namespace Server

variable {T : ℕ} {b : Bcrypt} {cs : CookieService} {s : Server} {e : Entrance}

/-- Redis refuses to store a session for no time. -/
theorem enter_zero : (s.enter 0 b cs e).2 = none := rfl

/-- What Redis holds after the session has been stored and tracked, at the time of the cookie. -/
def redisAfter (T : ℕ) (r : Redis) (e : Entrance) : Redis :=
  let stored := (r.tick e.beforeSession).setex (sessionKey e.env.sessionId)
    (.data (Signing.sessionData e.env (Signing.sessionDto e.env e.user))) T
  let tracked := (stored.tick e.beforeTracking).setex (trackingKey e.user.userId e.env.sessionId)
    .tracked T
  tracked.tick e.beforeCookie

theorem exec_createSession (hT : 0 < T) :
    (Signing.createSession e.env e.user).exec (execute T b cs)
        { s with waits := [e.beforeSession, e.beforeTracking, e.beforeCookie] } =
      (.ok (), { stores := ⟨s.stores.users, redisAfter T s.stores.redis e⟩,
                 cookies := cs.setSessionCookie e.env.sessionId :: s.cookies, waits := [] }) := by
  obtain ⟨T, rfl⟩ := Nat.exists_eq_add_one.mpr hT
  rfl

theorem session_redisAfter (r : Redis) :
    (redisAfter T r e).store (sessionKey e.env.sessionId) =
      some ⟨.data (Signing.sessionData e.env (Signing.sessionDto e.env e.user)),
        r.now + e.beforeSession + 1000 * T⟩ := by
  have hkey := Session.sessionKey_ne_trackingKey e.env.sessionId e.user.userId e.env.sessionId
  simp [redisAfter, Redis.tick, hkey]

theorem enter_pos (hT : 0 < T) (b : Bcrypt) (cs : CookieService)
    (s : Server) (e : Entrance) :
    ∃ s' l, s.enter T b cs e = (s', some l) ∧
      s'.stores.redis.now =
        s.stores.redis.now + e.beforeSession + e.beforeTracking + e.beforeCookie ∧
      l.time = s'.stores.redis.now ∧
      l.session.expiresAt = s.stores.redis.now + e.beforeSession + 1000 * T ∧
      l.cookie.expires = cs.expireDate := by
  unfold enter
  rw [exec_createSession hT]
  dsimp only
  rw [session_redisAfter]
  exact ⟨_, _, rfl, rfl, rfl, rfl, rfl⟩

/-! ### Runs -/

theorem logins_zero (s : Server) (es : List Entrance) : logins 0 b cs s es = [] := by
  induction es generalizing s with
  | nil => rfl
  | cons e es ih =>
    rw [logins, enter_zero, ih]
    rfl

/-- The logins of a run, as far as their times are concerned. -/
theorem terms_logins (hT : 0 < T) (s : Server) (es : List Entrance) :
    (logins T b cs s es).map Login.terms =
      (times s.stores.redis.now es).map fun p => (p.1 + 1000 * T, p.2, cs.expireDate) := by
  induction es generalizing s with
  | nil => rfl
  | cons e es ih =>
    obtain ⟨s', l, henter, hnow, htime, hsession, hcookie⟩ := enter_pos hT b cs s e
    rw [logins, henter, times, ← hnow]
    simp only [Option.toList_some, List.singleton_append, List.map_cons, ih, Login.terms, hsession,
      hcookie, htime]

/-- What holds of the logins of a run is what holds of the times of its entrances. -/
theorem forall_logins_iff (hT : 0 < T) (s : Server) (es : List Entrance)
    (P : ℕ × ℕ × ℕ → Prop) :
    (∀ l ∈ logins T b cs s es, P l.terms) ↔
      ∀ p ∈ times s.stores.redis.now es, P (p.1 + 1000 * T, p.2, cs.expireDate) := by
  have hmap : (∀ q ∈ (logins T b cs s es).map Login.terms, P q) ↔
      ∀ q ∈ (times s.stores.redis.now es).map
        (fun p => (p.1 + 1000 * T, p.2, cs.expireDate)), P q := by
    rw [terms_logins hT]
  simpa only [List.forall_mem_map] using hmap

end Server

namespace Login

/-- A cookie outlasts the session if it expires no earlier, or if the session has expired before
the cookie was set. -/
theorem usable_iff {l : Login} :
    l.Usable ↔ l.session.expiresAt ≤ l.cookie.expires ∨ l.session.expiresAt ≤ l.time := by
  unfold Usable
  constructor
  · intro h
    by_contra hnot
    -- the cookie is set while the session lives, and has expired at this moment
    have hlater := h (max l.time l.cookie.expires) (by omega) (by omega)
    omega
  · intro h t htime hlive
    omega

end Login

namespace Server

theorem lifetimes_iff (hT : 0 < T) (s : Server) (es : List Entrance) :
    (∀ l ∈ logins T b cs s es, ∀ l' ∈ logins T b cs s es, l.lifetime = l'.lifetime) ↔
      ∀ p ∈ times s.stores.redis.now es, ∀ q ∈ times s.stores.redis.now es, p.2 = q.2 := by
  refine (forall_logins_iff hT s es fun a =>
    ∀ l' ∈ logins T b cs s es, (a.2.2 : ℤ) - a.2.1 = l'.lifetime).trans ?_
  refine forall₂_congr fun p _ => ?_
  refine (forall_logins_iff hT s es fun a =>
    (cs.expireDate : ℤ) - p.2 = a.2.2 - a.2.1).trans ?_
  refine forall₂_congr fun q _ => ?_
  -- the cookies expire together, so that they live equally long if they are set together
  show (cs.expireDate : ℤ) - p.2 = cs.expireDate - q.2 ↔ p.2 = q.2
  omega

/-- The cookies of a run of logins outlast their sessions and live equally long if and only if
each session is to expire within a day of the start of the server, or before its cookie is set,
and all cookies are set at one time. -/
theorem usable_and_equal_iff (T : ℕ) (b : Bcrypt) (sessionCookieName nodeEnv : String)
    (start : Stores) (es : List Entrance) :
    let t₀ := start.redis.now
    let ls := logins T b (.new sessionCookieName nodeEnv t₀) ⟨start, [], []⟩ es
    ((∀ l ∈ ls, l.Usable) ∧ ∀ l ∈ ls, ∀ l' ∈ ls, l.lifetime = l'.lifetime) ↔
      T = 0 ∨
        (∀ p ∈ times t₀ es,
          p.1 + 1000 * T ≤ t₀ + CookieService.day ∨ p.1 + 1000 * T ≤ p.2) ∧
        ∀ p ∈ times t₀ es, ∀ q ∈ times t₀ es, p.2 = q.2 := by
  dsimp only
  obtain rfl | hT := Nat.eq_zero_or_pos T
  · simp [logins_zero]
  · have hne : T ≠ 0 := by omega
    simp only [Login.usable_iff, hne, false_or]
    refine and_congr ?_ (lifetimes_iff hT ⟨start, [], []⟩ es)
    exact forall_logins_iff hT ⟨start, [], []⟩ es fun a => a.1 ≤ a.2.2 ∨ a.1 ≤ a.2.1

/-- John enters after a time. -/
def johnEnters (wait : ℕ) : Entrance :=
  { user := { userId := "u", email := "john@wick.com", username := "John Wick", password := none,
              firstName := none, lastName := none, photoUrl := none, isActive := true,
              roles := [Role.viewer.json] },
    env := visit, beforeSession := wait, beforeTracking := 0, beforeCookie := 0 }

/-- A session of a day that begins a second after the start outlives its cookie. -/
theorem not_usable_and_equal :
    ¬ ∀ (T : ℕ) (b : Bcrypt) (sessionCookieName nodeEnv : String) (start : Stores)
        (es : List Entrance), T ≤ 24 * 60 * 60 →
      let ls := logins T b (.new sessionCookieName nodeEnv start.redis.now) ⟨start, [], []⟩ es
      (∀ l ∈ ls, l.Usable) ∧ ∀ l ∈ ls, ∀ l' ∈ ls, l.lifetime = l'.lifetime := by
  intro h
  let start : Stores := ⟨Collection.empty, ⟨Store.empty, 0⟩⟩
  have hall := (h 86400 markedText "sid" "production" start [johnEnters 1000] (by omega)).1
  have hbound := (forall_logins_iff (by omega) ⟨start, [], []⟩ [johnEnters 1000]
    fun a => a.1 ≤ a.2.2 ∨ a.1 ≤ a.2.1).mp fun l hl => Login.usable_iff.mp (hall l hl)
  have hfirst := hbound (1000, 1000) (List.mem_singleton.mpr rfl)
  simp [CookieService.new, CookieService.day, start] at hfirst

end Server

end IotPanel.Users

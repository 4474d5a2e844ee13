import IotPanel.Lib.Ledger
import IotPanel.Redis.Values

/-!
# The Redis service over whole runs

All users of the service share one server. What a call answers is determined by the calls before
it: a key holds what the last effective write to it has stored, until that has expired or the key
has been deleted.
-/

namespace IotPanel.Redis

namespace RedisService

/-- `SETEX` names itself in the error that it shares with `SET`. -/
def setexError : String → String
  | "ERR invalid expire time in 'set' command" => "ERR invalid expire time in 'setex' command"
  | e => e

/-- `setex`, for a number of seconds. The value is a text; other values, which the client turns into
texts of its own, are not in the model. -/
def setex (keys : Keys) (now : ℕ) (key value : String) (ttlSeconds : JsNumber) :
    Except String Keys :=
  (Prod.snd <$> keys.set now key value (some (.ex ttlSeconds)) false).mapError setexError

/-- `del`: how many keys have been deleted, and what the server holds then. -/
def del (keys : Keys) (now : ℕ) (key : String) : ℕ × Keys :=
  (if (keys.get now key).isSome then 1 else 0, fun k => if k = key then none else keys k)

end RedisService

/-- A call of a method of the service. -/
inductive Call
  | get (key : String)
  | set (key : String) (value : Json) (ttlSeconds : Option JsNumber)
  | setex (key value : String) (ttlSeconds : JsNumber)
  | setIfNotExists (key : String) (value : Json) (ttlMs : JsNumber)
  | del (key : String)

/-- What a call returns. -/
inductive Answer
  | value (v : Json)
  | done
  | created (b : Bool)
  | deleted (n : ℕ)

/-- The server, at a time. -/
structure Server where
  keys : Keys
  now : ℕ

namespace Server

def initial : Server := ⟨fun _ => none, 0⟩

/-- The answer with the new keys, or the error with the old ones. -/
def finish {α : Type} (s : Server) (answer : α → Answer) (keys : α → Keys) :
    Except String α → Except String Answer × Server
  | .ok a => (.ok (answer a), { s with keys := keys a })
  | .error e => (.error e, s)

def perform (json : JsonText) (s : Server) : Call → Except String Answer × Server
  | .get key => (.ok (.value (RedisService.get json s.keys s.now key)), s)
  | .set key value ttlSeconds =>
    s.finish (fun _ => .done) id (RedisService.set json s.keys s.now key value ttlSeconds)
  | .setex key value ttlSeconds =>
    s.finish (fun _ => .done) id (RedisService.setex s.keys s.now key value ttlSeconds)
  | .setIfNotExists key value ttlMs =>
    s.finish (fun r => .created r.1) Prod.snd
      (RedisService.setIfNotExists json s.keys s.now key value ttlMs)
  | .del key =>
    let r := RedisService.del s.keys s.now key
    (.ok (.deleted r.1), { s with keys := r.2 })

end Server

/-- Time passes, or the server executes a call. -/
inductive Event
  | elapsed (milliseconds : ℕ)
  | called (now : ℕ) (call : Call) (answer : Except String Answer)

inductive Step (json : JsonText) : Server → Event → Server → Prop
  | elapsed {s : Server} (milliseconds : ℕ) :
      Step json s (.elapsed milliseconds) { s with now := s.now + milliseconds }
  | called {s : Server} (call : Call) :
      Step json s (.called s.now call (s.perform json call).1) (s.perform json call).2

/-! ### What the calls before have left -/

namespace Event

/-- When an entry expires that an accepted call writes. -/
def expiresAt (now : ℕ) (expiry : Option Expiry) : Option ℕ :=
  expiry.bind fun e => (e.deadline now).toOption

def ttl (ttlSeconds : Option JsNumber) : Option Expiry :=
  if RedisService.truthy ttlSeconds then ttlSeconds.map Expiry.ex else none

/-- What a call has written: a key, and what it holds from then on. -/
def written (json : JsonText) : Event → Option (String × Option Stored)
  | called now (.set key value ttlSeconds) (.ok _) =>
    some (key, some ⟨RedisService.payload json value, expiresAt now (ttl ttlSeconds)⟩)
  | called now (.setex key value ttlSeconds) (.ok _) =>
    some (key, some ⟨value, expiresAt now (some (.ex ttlSeconds))⟩)
  | called now (.setIfNotExists key value ttlMs) (.ok (.created true)) =>
    some (key, some ⟨json.stringify value, expiresAt now (some (.px ttlMs))⟩)
  | called _ (.del key) (.ok _) => some (key, none)
  | _ => none

def writes (json : JsonText) (e : Event) (key : String) : Option (Option Stored) :=
  (e.written json).bind fun w => if key = w.1 then some w.2 else none

end Event

/-- The text that the calls of a trace leave under a key until a time. -/
def held (json : JsonText) (tr : List Event) (now : ℕ) (key : String) : Option String :=
  (lastWrite (Event.writes json) tr key).join.bind fun e =>
    if e.liveAt now then some e.value else none

/-- How `get` reads what it has found. -/
def decode (json : JsonText) : Option String → Json
  | none => .null
  | some raw => if raw = "" then .null else (json.parse raw).getD (.str raw)

/-- The answer of a call, as far as the calls before it are known. -/
def explained (json : JsonText) (tr : List Event) (now : ℕ) : Call → Except String Answer
  | .get key => .ok (.value (decode json (held json tr now key)))
  | .set _ _ ttlSeconds =>
    ((Event.ttl ttlSeconds).mapM (Expiry.deadline now)).map fun _ => .done
  | .setex _ _ ttlSeconds =>
    (((some (Expiry.ex ttlSeconds)).mapM (Expiry.deadline now)).mapError
      RedisService.setexError).map fun _ => .done
  | .setIfNotExists key _ ttlMs =>
    ((some (Expiry.px ttlMs)).mapM (Expiry.deadline now)).map fun _ =>
      .created (held json tr now key).isNone
  | .del key => .ok (.deleted (if (held json tr now key).isSome then 1 else 0))

variable {json : JsonText} {keys : Keys} {now : ℕ} {key value : String} {expiry : Option Expiry}
  {nx : Bool} {s t : Server} {tr later earlier : List Event} {call : Call}
  {answer : Except String Answer}

/-- A key with a new entry. -/
def Keys.put (keys : Keys) (key : String) (e : Option Stored) : Keys :=
  fun k => if k = key then e else keys k

theorem set_eq (keys : Keys) (now : ℕ) (key value : String) (expiry : Option Expiry) (nx : Bool) :
    keys.set now key value expiry nx = (expiry.mapM (Expiry.deadline now)).map fun expiresAt =>
      if nx && (keys.get now key).isSome then (false, keys)
      else (true, keys.put key (some ⟨value, expiresAt⟩)) := by
  unfold Keys.set
  cases expiry.mapM (Expiry.deadline now) with
  | error e => rfl
  | ok expiresAt =>
    show (if nx && (keys.get now key).isSome then _ else _) = Except.ok (if _ then _ else _)
    split <;> rfl

theorem expiresAt_eq {d : Option ℕ} (h : expiry.mapM (Expiry.deadline now) = .ok d) :
    Event.expiresAt now expiry = d := by
  cases expiry with
  | none =>
    cases h
    rfl
  | some e =>
    cases hd : e.deadline now with
    | error m =>
      simp [hd, Functor.map, Except.map] at h
    | ok n =>
      simp [hd, Functor.map, Except.map] at h
      simp [Event.expiresAt, hd, Except.toOption, ← h]

/-- The entry that an accepted call of `set` or `setex` writes. -/
theorem set_false (keys : Keys) (now : ℕ) (key value : String) (expiry : Option Expiry) :
    Prod.snd <$> keys.set now key value expiry false =
      (expiry.mapM (Expiry.deadline now)).map fun d => keys.put key (some ⟨value, d⟩) := by
  rw [set_eq]
  cases expiry.mapM (Expiry.deadline now) <;> rfl

theorem keys_put (keys : Keys) (key : String) (e : Option Stored) (k : String) :
    keys.put key e k = (if k = key then some e else none).getD (keys k) := by
  unfold Keys.put
  split <;> rfl

theorem keys_perform (s : Server) (call : Call) (k : String) :
    (s.perform json call).2.keys k =
      ((Event.called s.now call (s.perform json call).1).writes json k).getD (s.keys k) := by
  cases call with
  | get key => rfl
  | set key v ttlSeconds =>
    have hset := set_false s.keys s.now key (RedisService.payload json v) (Event.ttl ttlSeconds)
    change RedisService.set json s.keys s.now key v ttlSeconds = _ at hset
    simp only [Server.perform, hset]
    cases hd : (Event.ttl ttlSeconds).mapM (Expiry.deadline s.now) with
    | error e => rfl
    | ok d =>
      rw [← expiresAt_eq hd]
      exact keys_put ..
  | setex key value ttlSeconds =>
    have hset := set_false s.keys s.now key value (some (.ex ttlSeconds))
    simp only [Server.perform, RedisService.setex, hset]
    cases hd : (some (Expiry.ex ttlSeconds)).mapM (Expiry.deadline s.now) with
    | error e => rfl
    | ok d =>
      rw [← expiresAt_eq hd]
      exact keys_put ..
  | setIfNotExists key v ttlMs =>
    simp only [Server.perform, RedisService.setIfNotExists, set_eq, Bool.true_and]
    cases hd : (some (Expiry.px ttlMs)).mapM (Expiry.deadline s.now) with
    | error e => rfl
    | ok d =>
      cases hheld : (s.keys.get s.now key).isSome with
      | true =>
        -- the key is there, and stays as it is
        simp [Server.finish, Except.map, Event.writes, Event.written]
      | false =>
        rw [← expiresAt_eq hd]
        simp only [Server.finish, Except.map]
        exact keys_put ..
  | del key => exact keys_put ..

theorem writes_step (json : JsonText) : Writes (Step json) Server.keys (Event.writes json) := by
  intro s e t hstep k
  cases hstep with
  | elapsed ms => rfl
  | called call => exact keys_perform s call k

/-- A key holds what the calls of the run have left there. -/
theorem get_of_run (h : Run (Step json) .initial tr s) (now : ℕ) (key : String) :
    s.keys.get now key = held json tr now key := by
  have hcell := (writes_step json).cell_eq h key
  unfold Keys.get held
  rw [hcell]
  cases lastWrite (Event.writes json) tr key <;> rfl

theorem get_eq_decode (json : JsonText) (keys : Keys) (now : ℕ) (key : String) :
    RedisService.get json keys now key = decode json (keys.get now key) := by
  unfold RedisService.get decode
  cases keys.get now key <;> rfl

/-- The answer of a call is what the keys say, however they have come about. -/
theorem answer_perform (hheld : ∀ key, s.keys.get s.now key = held json tr s.now key)
    (call : Call) : (s.perform json call).1 = explained json tr s.now call := by
  cases call with
  | get key =>
    simp only [Server.perform, get_eq_decode, explained, ← hheld]
  | set key v ttlSeconds =>
    have hset := set_false s.keys s.now key (RedisService.payload json v) (Event.ttl ttlSeconds)
    change RedisService.set json s.keys s.now key v ttlSeconds = _ at hset
    simp only [Server.perform, hset, explained]
    cases (Event.ttl ttlSeconds).mapM (Expiry.deadline s.now) <;> rfl
  | setex key value ttlSeconds =>
    have hset := set_false s.keys s.now key value (some (.ex ttlSeconds))
    simp only [Server.perform, RedisService.setex, hset, explained]
    cases (some (Expiry.ex ttlSeconds)).mapM (Expiry.deadline s.now) <;> rfl
  | setIfNotExists key v ttlMs =>
    simp only [Server.perform, RedisService.setIfNotExists, set_eq, explained, ← hheld]
    cases (some (Expiry.px ttlMs)).mapM (Expiry.deadline s.now) with
    | error e => rfl
    | ok d => cases s.keys.get s.now key <;> simp [Server.finish, Except.map]
  | del key =>
    simp only [Server.perform, RedisService.del, explained, ← hheld]

/-- In every run each call answers what the calls before it explain. -/
theorem explained_of_run (json : JsonText) (later earlier : List Event) (now : ℕ) (call : Call)
    (answer : Except String Answer) (s : Server)
    (h : Run (Step json) .initial (later ++ .called now call answer :: earlier) s) :
    answer = explained json earlier now call := by
  obtain ⟨t, hcall⟩ := h.before
  cases hcall with
  | snoc hbefore hstep =>
    cases hstep with
    | called call => exact answer_perform (fun key => get_of_run hbefore _ key) call

/-- Two users take a lock for a second each. The second one has to try again. -/
def takingTurns : List Event :=
  [.called 1000 (.setIfNotExists "lock" (.bool true) (.finite 1000)) (.ok (.created true)),
    .elapsed 600,
    .called 400 (.setIfNotExists "lock" (.bool true) (.finite 1000)) (.ok (.created false)),
    .elapsed 400,
    .called 0 (.setIfNotExists "lock" (.bool true) (.finite 1000)) (.ok (.created true))]

theorem run_takingTurns : ∃ s, Run (Step literals) .initial takingTurns s :=
  ⟨_, .snoc (.snoc (.snoc (.snoc (.snoc .refl (.called _)) (.elapsed 400)) (.called _))
    (.elapsed 600)) (.called _)⟩

theorem explained_of_run_takingTurns :
    .ok (.created false) = explained literals (takingTurns.drop 3) 400
      (.setIfNotExists "lock" (.bool true) (.finite 1000)) := by
  obtain ⟨s, h⟩ := run_takingTurns
  exact explained_of_run literals (takingTurns.take 2) _ _ _ _ s h

/-! ### Locks -/

theorem deadline_ok {e : Expiry} {n : ℕ} (h : e.deadline now = .ok n) :
    ∃ ms, e.milliseconds? = some ms ∧ 0 < ms ∧ n = now + ms.toNat := by
  unfold Expiry.deadline at h
  cases hms : e.milliseconds? with
  | none =>
    rw [hms] at h
    cases h
  | some ms =>
    rw [hms] at h
    dsimp only at h
    split at h
    · cases h
    · cases h
      exact ⟨ms, rfl, by omega, rfl⟩

/-- A call that has created its key was allowed to, and finds nothing held there. -/
theorem created_explained {ttlMs : JsNumber} {v : Json}
    (h : .ok (.created true) = explained json tr now (.setIfNotExists key v ttlMs)) :
    held json tr now key = none ∧ ∃ n, (Expiry.px ttlMs).deadline now = .ok n := by
  cases hd : (Expiry.px ttlMs).deadline now with
  | error e =>
    simp [explained, hd, Functor.map, Except.map] at h
  | ok n =>
    simp [explained, hd, Functor.map, Except.map] at h
    exact ⟨h, n, rfl⟩

/-- Between two calls of `setIfNotExists` that have both created the same key, the first entry has
expired, if no other call has written the key. -/
theorem expired_of_created (json : JsonText) (later between earlier : List Event) (t₁ t₂ : ℕ)
    (key : String) (v₁ v₂ : Json) (ttl₁ ttl₂ : JsNumber) (s : Server)
    (h : Run (Step json) .initial
      (later ++ .called t₂ (.setIfNotExists key v₂ ttl₂) (.ok (.created true)) :: (between ++
        .called t₁ (.setIfNotExists key v₁ ttl₁) (.ok (.created true)) :: earlier)) s)
    (hkept : ∀ e ∈ between, e.writes json key = none) :
    ∃ ms, (Expiry.px ttl₁).milliseconds? = some ms ∧ 0 < ms ∧ t₁ + ms.toNat ≤ t₂ := by
  have hsecond := explained_of_run json _ _ _ _ _ s h
  have hfirst := explained_of_run json (later ++ _ :: between) earlier t₁
    (.setIfNotExists key v₁ ttl₁) (.ok (.created true)) s (by simpa using h)
  obtain ⟨-, n, hn⟩ := created_explained hfirst
  obtain ⟨ms, hms, hpos, rfl⟩ := deadline_ok hn
  refine ⟨ms, hms, hpos, ?_⟩
  -- the entry of the first call is what the second one finds, as long as it lives
  have hlast : lastWrite (Event.writes json) (between ++
      .called t₁ (.setIfNotExists key v₁ ttl₁) (.ok (.created true)) :: earlier) key =
        some (some ⟨json.stringify v₁, some (t₁ + ms.toNat)⟩) := by
    refine List.findSome?_eq_some_iff.mpr ⟨between, _, earlier, rfl, ?_, hkept⟩
    simp [Event.writes, Event.written, Event.expiresAt, hn, Except.toOption]
  have hnone := (created_explained hsecond).1
  unfold held at hnone
  rw [hlast] at hnone
  by_contra hearly
  have hlive : Stored.liveAt ⟨json.stringify v₁, some (t₁ + ms.toNat)⟩ t₂ := by
    rintro deadline ⟨⟩
    omega
  simp [hlive] at hnone

theorem expired_of_created_takingTurns :
    ∃ ms, (Expiry.px (.finite 1000)).milliseconds? = some ms ∧ 0 < ms ∧ 0 + ms.toNat ≤ 1000 := by
  obtain ⟨s, h⟩ := run_takingTurns
  have hkept : ∀ e ∈ (takingTurns.drop 1).take 3, e.writes literals "lock" = none := by
    simp [takingTurns, Event.writes, Event.written]
  exact expired_of_created literals [] ((takingTurns.drop 1).take 3) [] 0 1000 "lock" (.bool true)
    (.bool true) (.finite 1000) (.finite 1000) s h hkept

end IotPanel.Redis

import IotPanel.Js.Number

/-!
# Values of the Redis service

`set` stores a text as it is and any other value as JSON; `setIfNotExists` stores any value as
JSON. `get` reads what is stored as JSON if it can, and returns the text if it cannot.
-/

namespace IotPanel.Redis

/-- `JSON.stringify` and `JSON.parse`, which throws at what is no JSON. A text is written with
its quotes, so that no text is the JSON of itself. -/
structure JsonText where
  stringify : Json → String
  parse : String → Option Json
  parse_empty : parse "" = none
  parse_ne_self : ∀ s, parse s ≠ some (.str s)

/-- A stored text, and when it expires, if it does. -/
structure Stored where
  value : String
  expiresAt : Option ℕ

def Stored.liveAt (e : Stored) (t : ℕ) : Prop := ∀ deadline, e.expiresAt = some deadline → t < deadline

instance (e : Stored) (t : ℕ) : Decidable (e.liveAt t) :=
  match h : e.expiresAt with
  | none => isTrue fun _ hd => by rw [h] at hd; cases hd
  | some deadline =>
    decidable_of_iff (t < deadline) ⟨fun ht d hd => by rw [h] at hd; cases hd; exact ht,
      fun hl => hl deadline h⟩

/-- What a Redis server holds. -/
abbrev Keys := String → Option Stored

/-- `GET` at the time `t`. -/
def Keys.get (keys : Keys) (t : ℕ) (key : String) : Option String :=
  (keys key).bind fun e => if e.liveAt t then some e.value else none

/-- The options `EX` and `PX` of `SET`. -/
inductive Expiry
  | ex (seconds : JsNumber)
  | px (milliseconds : JsNumber)

namespace Expiry

def maxInteger : ℤ := 2 ^ 63 - 1

/-- The number of milliseconds, if it is an integer that the server can hold. -/
def milliseconds? : Expiry → Option ℤ
  | ex (.finite q) => if q.den = 1 ∧ q ≤ maxInteger then some (1000 * q.num) else none
  | px (.finite q) => if q.den = 1 ∧ q ≤ maxInteger then some q.num else none
  | _ => none

/-- When an entry expires that is written at the time `now`. -/
def deadline (now : ℕ) (e : Expiry) : Except String ℕ :=
  match e.milliseconds? with
  | none => .error "ERR value is not an integer or out of range"
  | some ms =>
    if ms ≤ 0 ∨ maxInteger - now < ms then .error "ERR invalid expire time in 'set' command"
    else .ok (now + ms.toNat)

end Expiry

/-- `SET`, with `NX` if `nx`: whether it has written, and what the server holds then. -/
def Keys.set (keys : Keys) (now : ℕ) (key value : String) (expiry : Option Expiry) (nx : Bool) :
    Except String (Bool × Keys) := do
  let expiresAt ← expiry.mapM (Expiry.deadline now)
  if nx && (keys.get now key).isSome then return (false, keys)
  return (true, fun k => if k = key then some ⟨value, expiresAt⟩ else keys k)

namespace RedisService

/-- A number as a condition. -/
def truthy : Option JsNumber → Bool
  | none | some .nan => false
  | some (.finite q) => q ≠ 0
  | _ => true

def get (json : JsonText) (keys : Keys) (t : ℕ) (key : String) : Json :=
  match keys.get t key with
  | none => .null
  | some raw => if raw = "" then .null else (json.parse raw).getD (.str raw)

/-- The text that `set` stores for a value. -/
def payload (json : JsonText) : Json → String
  | .str s => s
  | value => json.stringify value

def set (json : JsonText) (keys : Keys) (now : ℕ) (key : String) (value : Json)
    (ttlSeconds : Option JsNumber) : Except String Keys :=
  let expiry := if truthy ttlSeconds then ttlSeconds.map Expiry.ex else none
  Prod.snd <$> keys.set now key (payload json value) expiry false

def setIfNotExists (json : JsonText) (keys : Keys) (now : ℕ) (key : String) (value : Json)
    (ttlMs : JsNumber) : Except String (Bool × Keys) :=
  keys.set now key (json.stringify value) (some (.px ttlMs)) true

end RedisService

/-! ### Reading back -/

variable {json : JsonText} {keys keys' : Keys} {now t : ℕ} {key value : String} {v : Json}
  {expiry : Option Expiry} {nx : Bool}

/-- What was written is read until it expires. -/
theorem get_of_set (h : keys.set now key value expiry nx = .ok (true, keys'))
    (hlive : ∀ e, keys' key = some e → e.liveAt t) : keys'.get t key = some value := by
  unfold Keys.set at h
  cases hexpiry : expiry.mapM (Expiry.deadline now) with
  | error e =>
    rw [hexpiry] at h
    cases h
  | ok expiresAt =>
    rw [hexpiry] at h
    change (if nx && (keys.get now key).isSome then _ else _) = _ at h
    split at h
    · cases h
    · cases h
      have hkey : (if key = key then some ⟨value, expiresAt⟩ else keys key) =
          some (⟨value, expiresAt⟩ : Stored) := if_pos rfl
      have hlive' := hlive _ hkey
      simp [Keys.get, hlive']

/-- Without `NX` the value is written. -/
theorem set_of_snd (h : Prod.snd <$> keys.set now key value expiry false = .ok keys') :
    keys.set now key value expiry false = .ok (true, keys') := by
  unfold Keys.set at h ⊢
  cases hexpiry : expiry.mapM (Expiry.deadline now) with
  | error e =>
    rw [hexpiry] at h
    cases h
  | ok expiresAt =>
    rw [hexpiry] at h
    cases h
    rfl

/-- The value survives: it is no text, or a text that is not empty and is no JSON. -/
def Kept (json : JsonText) : Json → Prop
  | .str s => s ≠ "" ∧ json.parse s = none
  | _ => True

/-- A value that is stored as JSON is read back. -/
theorem get_of_stringify (hround : json.parse (json.stringify v) = some v)
    (hget : keys.get t key = some (json.stringify v)) : RedisService.get json keys t key = v := by
  have hne : json.stringify v ≠ "" := by
    intro hempty
    rw [hempty, json.parse_empty] at hround
    cases hround
  simp [RedisService.get, hget, hne, hround]

/-- A text that is stored as it is is read back if it is kept. -/
theorem get_of_text {s : String} (hget : keys.get t key = some s) :
    RedisService.get json keys t key = .str s ↔ Kept json (.str s) := by
  simp only [RedisService.get, hget, Kept]
  by_cases hempty : s = ""
  · simp [hempty]
  · rw [if_neg hempty]
    cases hparse : json.parse s with
    | none => simp [hempty]
    | some j =>
      have hne : j ≠ .str s := fun hj => json.parse_ne_self s (hj ▸ hparse)
      simp [hne]

theorem get_of_payload (hround : json.parse (json.stringify v) = some v)
    (hget : keys.get t key = some (RedisService.payload json v)) :
    RedisService.get json keys t key = v ↔ Kept json v := by
  cases v with
  | str s => exact get_of_text hget
  | _ => exact iff_of_true (get_of_stringify hround hget) trivial

/-- What `set` has stored is read back if and only if the value is kept, and what
`setIfNotExists` has stored is read back. -/
theorem get_set_iff (json : JsonText) (v : Json) (hround : json.parse (json.stringify v) = some v)
    (keys keys' : Keys) (now t : ℕ) (key : String)
    (hlive : ∀ e, keys' key = some e → e.liveAt t) :
    (∀ ttlSeconds, RedisService.set json keys now key v ttlSeconds = .ok keys' →
      (RedisService.get json keys' t key = v ↔ Kept json v)) ∧
      ∀ ttlMs, RedisService.setIfNotExists json keys now key v ttlMs = .ok (true, keys') →
        RedisService.get json keys' t key = v := by
  constructor
  · intro ttlSeconds hset
    exact get_of_payload hround (get_of_set (set_of_snd hset) hlive)
  · intro ttlMs hset
    exact get_of_stringify hround (get_of_set hset hlive)

/-- `JSON` for the literals, and for the text of one of them. -/
def literals : JsonText where
  stringify
    | .str s => "\"" ++ s ++ "\""
    | v => v.text
  parse
    | "null" => some .null
    | "true" => some (.bool true)
    | "false" => some (.bool false)
    | "\"true\"" => some (.str "true")
    | _ => none
  parse_empty := rfl
  parse_ne_self s := by
    split <;> simp

/-- A server that holds a value for ever. -/
def holding (key value : String) : Keys := fun k => if k = key then some ⟨value, none⟩ else none

theorem get_set_iff_flag :
    (∀ ttlSeconds, RedisService.set literals (fun _ => none) 0 "flag" (.bool true) ttlSeconds =
        .ok (holding "flag" "true") →
      (RedisService.get literals (holding "flag" "true") 5 "flag" = .bool true ↔
        Kept literals (.bool true))) ∧
      ∀ ttlMs, RedisService.setIfNotExists literals (fun _ => none) 0 "flag" (.bool true) ttlMs =
          .ok (true, holding "flag" "true") →
        RedisService.get literals (holding "flag" "true") 5 "flag" = .bool true := by
  refine get_set_iff literals (.bool true) rfl _ _ 0 5 "flag" ?_
  rintro e ⟨⟩ deadline ⟨⟩

/-- The text `true` is read back as a Boolean. -/
theorem not_get_set :
    ¬ ∀ (json : JsonText) (v : Json), json.parse (json.stringify v) = some v →
      ∀ (keys keys' : Keys) (now t : ℕ) (key : String) (ttlSeconds : Option JsNumber),
        RedisService.set json keys now key v ttlSeconds = .ok keys' →
        (∀ e, keys' key = some e → e.liveAt t) → RedisService.get json keys' t key = v := by
  intro h
  have hread := h literals (.str "true") rfl (fun _ => none) (holding "flag" "true") 0 5 "flag" none
    rfl (by rintro e ⟨⟩ deadline ⟨⟩)
  cases hread

end IotPanel.Redis

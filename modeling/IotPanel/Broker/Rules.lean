import IotPanel.Broker.Configuration

/-!
# The documented rules for a configuration

`MqttConfigDto` documents the type and the range of each setting. The tests of
`validateConfiguration` take a setting that counts as false for one that was left out, and leave
types to conversion. They agree with the documented rules except on values of certain kinds.
-/

namespace IotPanel.Broker

open JsVal

inductive Rule
  | host
  | port
  | protocol
  | keepalive
  | connectTimeout
  | reconnectPeriod
  deriving DecidableEq

def Given (v : JsVal) : Prop := v.isNullish = false

/-- A setting that may be left out, and is a number of at least `least` otherwise. -/
def AtLeast (least : ℚ) (v : JsVal) : Prop := Given v → ∃ q, v = some (.num q) ∧ least ≤ q

def protocols : List String := ["mqtt", "mqtts", "tcp", "ws", "wss"]

namespace Rule

def all : List Rule := [host, port, protocol, keepalive, connectTimeout, reconnectPeriod]

def text : Rule → String
  | host => "Host is required"
  | port => "Port must be between 1 and 65535"
  | protocol => "Protocol must be one of: mqtt, mqtts, tcp, ws, wss"
  | keepalive => "Keep alive must be at least 1 second"
  | connectTimeout => "Connection timeout must be at least 1000ms"
  | reconnectPeriod => "Reconnect period must be at least 1000ms"

/-- The setting keeps to what is documented. -/
def Met (config : Json) : Rule → Prop
  | host => ∃ s, config.get "host" = some (.str s) ∧ s ≠ ""
  | port => ∃ n : ℤ, config.get "port" = some (.num n) ∧ 1 ≤ n ∧ n ≤ 65535
  | protocol => Given (config.get "protocol") →
      ∃ p ∈ protocols, config.get "protocol" = some (.str p)
  | keepalive => AtLeast 1 (config.get "keepalive")
  | connectTimeout => AtLeast 1000 (config.get "connectTimeout")
  | reconnectPeriod => AtLeast 1000 (config.get "reconnectPeriod")

/-- The test that `validateConfiguration` makes for the rule succeeds. -/
def flagged (config : Json) : Rule → Bool
  | host => !(config.get "host").truthy
  | port => !(config.get "port").truthy || (config.get "port").toNumber.lt 1 ||
      (config.get "port").toNumber.gt 65535
  | protocol => (config.get "protocol").truthy && !isProtocol (config.get "protocol")
  | keepalive => tooSmall (config.get "keepalive") 1
  | connectTimeout => tooSmall (config.get "connectTimeout") 1000
  | reconnectPeriod => tooSmall (config.get "reconnectPeriod") 1000

end Rule

/-- The answer is the documented one: an error for each broken rule and for no other. -/
structure Conforms (config : Json) : Prop where
  accepts : Accepted config ↔ ∀ r, Rule.Met config r
  rejects : (∃ r, ¬ Rule.Met config r) → ∃ errors,
    validateConfiguration config = .ok (.invalid errors) ∧ errors.Nodup ∧
      ∀ text, text ∈ errors ↔ ∃ r, ¬ Rule.Met config r ∧ Rule.text r = text

/-! ### The kinds of values on which the tests go wrong -/

/-- A value that counts as true is a string. -/
def PlainHost (v : JsVal) : Prop := v.truthy = true → ∃ s, v = some (.str s)

/-- A number is no fraction within the range, and anything else is false or converts to a number
out of the range. -/
def PlainPort : JsVal → Prop
  | some (.num q) => 1 ≤ q → q ≤ 65535 → ∃ n : ℤ, q = n
  | v => v.truthy = true → v.toNumber.lt 1 = true ∨ v.toNumber.gt 65535 = true

/-- A value that is given counts as true. -/
def PlainProtocol (v : JsVal) : Prop := Given v → v.truthy = true

/-- A value that is given counts as true, and what is no number converts to one that is too
small. -/
def PlainPeriod (least : ℚ) : JsVal → Prop
  | some (.num q) => q ≠ 0
  | v => Given v → v.truthy = true ∧ v.toNumber.lt least = true

/-- No setting is of a kind that the tests take for another one. -/
structure Plain (config : Json) : Prop where
  host : PlainHost (config.get "host")
  port : PlainPort (config.get "port")
  protocol : PlainProtocol (config.get "protocol")
  keepalive : PlainPeriod 1 (config.get "keepalive")
  connectTimeout : PlainPeriod 1000 (config.get "connectTimeout")
  reconnectPeriod : PlainPeriod 1000 (config.get "reconnectPeriod")

/-! ### The tests and the rules -/

variable {config : Json} {v : JsVal} {least : ℚ}

theorem configurationErrors_eq (config : Json) :
    configurationErrors config = (Rule.all.filter (Rule.flagged config)).map Rule.text := by
  have hproblem : ∀ (r : Rule) (rs : List Rule),
      ((r :: rs).filter (Rule.flagged config)).map Rule.text =
        problem (Rule.flagged config r) r.text ++ (rs.filter (Rule.flagged config)).map Rule.text := by
    intro r rs
    by_cases h : Rule.flagged config r = true <;> simp [problem, h]
  simp only [Rule.all, hproblem, List.filter_nil, List.map_nil, List.append_nil]
  simp only [configurationErrors, Rule.flagged, Rule.text, List.append_assoc]

theorem Rule.text_injective {r r' : Rule} (h : r.text = r'.text) : r = r' := by
  cases r <;> cases r' <;> first | rfl | exact absurd h (by decide +kernel)

theorem Rule.mem_all (r : Rule) : r ∈ Rule.all := by cases r <;> decide

theorem mem_configurationErrors {r : Rule} :
    r.text ∈ configurationErrors config ↔ Rule.flagged config r = true := by
  rw [configurationErrors_eq, List.mem_map]
  constructor
  · rintro ⟨r', hr', htext⟩
    rw [← Rule.text_injective htext]
    exact (List.mem_filter.mp hr').2
  · intro hflagged
    exact ⟨r, List.mem_filter.mpr ⟨r.mem_all, hflagged⟩, rfl⟩

theorem configurationErrors_eq_nil :
    configurationErrors config = [] ↔ ∀ r, Rule.flagged config r = false := by
  rw [configurationErrors_eq, List.map_eq_nil_iff, List.filter_eq_nil_iff]
  simp [Rule.mem_all]

theorem nodup_configurationErrors (config : Json) : (configurationErrors config).Nodup := by
  rw [configurationErrors_eq]
  have hall : Rule.all.Nodup := by decide
  exact (hall.filter _).map fun _ _ h => Rule.text_injective h

/-- The answer is the documented one if each test is the negation of its rule. -/
theorem conforms_iff_flagged (fields : List (String × Json)) :
    Conforms (.obj fields) ↔
      ∀ r, Rule.flagged (.obj fields) r = true ↔ ¬ Rule.Met (.obj fields) r := by
  have haccepted : Accepted (.obj fields) ↔ ∀ r, Rule.flagged (.obj fields) r = false := by
    rw [accepted_iff, configurationErrors_eq_nil]
    simp
  constructor
  · rintro ⟨haccepts, hrejects⟩ r
    by_cases hall : ∀ r, Rule.Met (.obj fields) r
    · have hnone := haccepted.mp (haccepts.mpr hall) r
      simp [hnone, hall r]
    · -- the errors of the answer are those of the tests that succeed
      obtain ⟨errors, hanswer, -, herrors⟩ := hrejects (not_forall.mp hall)
      have heq : errors = configurationErrors (.obj fields) := by
        simp only [validateConfiguration, Except.ok.injEq] at hanswer
        split at hanswer
        · cases hanswer
        · cases hanswer
          rfl
      rw [← mem_configurationErrors, ← heq, herrors]
      constructor
      · rintro ⟨r', hr', htext⟩
        exact Rule.text_injective htext ▸ hr'
      · intro hr
        exact ⟨r, hr, rfl⟩
  · intro hflagged
    constructor
    · rw [haccepted]
      refine forall_congr' fun r => ?_
      rw [← Bool.not_eq_true, hflagged, not_not]
    · rintro ⟨r, hr⟩
      have hsome : configurationErrors (.obj fields) ≠ [] := by
        intro hnil
        have hfalse := configurationErrors_eq_nil.mp hnil r
        rw [(hflagged r).mpr hr] at hfalse
        cases hfalse
      refine ⟨configurationErrors (.obj fields), ?_, nodup_configurationErrors _, fun text => ?_⟩
      · simp [validateConfiguration, hsome]
      · rw [configurationErrors_eq, List.mem_map]
        refine exists_congr fun r' => and_congr_left fun _ => ?_
        rw [List.mem_filter, hflagged]
        exact and_iff_right r'.mem_all

theorem isProtocol_iff : isProtocol v = true ↔ ∃ p ∈ protocols, v = some (.str p) := by
  rw [isProtocol, List.any_eq_true]
  refine exists_congr fun p => and_congr_right fun _ => ?_
  cases v with
  | none => simp [strictEq]
  | some j => cases j <;> simp [strictEq]

/-! ### Where a test is the negation of its rule -/

theorem given_of_truthy (h : v.truthy = true) : Given v := by
  cases v with
  | none => cases h
  | some j => cases j <;> first | rfl | cases h

theorem plainHost_iff :
    ((!v.truthy) = true ↔ ¬ ∃ s, v = some (.str s) ∧ s ≠ "") ↔ PlainHost v := by
  cases v with
  | none => simp [PlainHost, truthy]
  | some j => cases j <;> simp [PlainHost, truthy]

theorem plainPort_iff :
    ((!v.truthy || v.toNumber.lt 1 || v.toNumber.gt 65535) = true ↔
      ¬ ∃ n : ℤ, v = some (.num n) ∧ 1 ≤ n ∧ n ≤ 65535) ↔ PlainPort v := by
  -- a port that is no number breaks its rule
  have hother : (∀ q, v ≠ some (.num q)) →
      (((!v.truthy || v.toNumber.lt 1 || v.toNumber.gt 65535) = true ↔
        ¬ ∃ n : ℤ, v = some (.num n) ∧ 1 ≤ n ∧ n ≤ 65535) ↔
          (v.truthy = true → v.toNumber.lt 1 = true ∨ v.toNumber.gt 65535 = true)) := by
    intro hno
    have hbroken : ¬ ∃ n : ℤ, v = some (.num n) ∧ 1 ≤ n ∧ n ≤ 65535 := by
      rintro ⟨n, hn, -⟩
      exact hno n hn
    cases ht : v.truthy <;> simp [hbroken]
  cases v with
  | none => exact hother fun _ hq => by cases hq
  | some j =>
    cases j with
    | num q =>
      have htest : ((!truthy (some (.num q)) || (toNumber (some (.num q))).lt 1 ||
          (toNumber (some (.num q))).gt 65535) = true) ↔ ¬ (1 ≤ q ∧ q ≤ 65535) := by
        simp only [truthy, toNumber, JsNumber.lt, JsNumber.gt, Bool.or_eq_true, decide_eq_true_eq,
          Bool.not_eq_true', bne_eq_false_iff_eq, not_and_or, not_le]
        constructor
        · rintro ((rfl | hlt) | hgt)
          · exact .inl one_pos
          · exact .inl hlt
          · exact .inr hgt
        · rintro (hlt | hgt)
          · exact .inl (.inr hlt)
          · exact .inr hgt
      rw [htest, not_iff_not]
      constructor
      · intro h hlow hhigh
        obtain ⟨n, hn, -⟩ := h.mp ⟨hlow, hhigh⟩
        cases hn
        exact ⟨n, rfl⟩
      · intro hplain
        constructor
        · rintro ⟨hlow, hhigh⟩
          obtain ⟨n, rfl⟩ := hplain hlow hhigh
          exact ⟨n, rfl, by exact_mod_cast hlow, by exact_mod_cast hhigh⟩
        · rintro ⟨n, hn, hlow, hhigh⟩
          cases hn
          exact ⟨by exact_mod_cast hlow, by exact_mod_cast hhigh⟩
    | null | bool | str | arr | obj => exact hother fun _ hq => by cases hq

theorem plainProtocol_iff :
    ((v.truthy && !isProtocol v) = true ↔
      ¬ (Given v → ∃ p ∈ protocols, v = some (.str p))) ↔ PlainProtocol v := by
  rw [Bool.and_eq_true, Bool.not_eq_true', ← Bool.not_eq_true, isProtocol_iff, Classical.not_imp]
  constructor
  · intro h hgiven
    by_cases hone : ∃ p ∈ protocols, v = some (.str p)
    · obtain ⟨p, hp, rfl⟩ := hone
      have htruthy : ∀ p ∈ protocols, truthy (some (.str p)) = true := by decide +kernel
      exact htruthy p hp
    · exact (h.mpr ⟨hgiven, hone⟩).1
  · intro hplain
    exact and_congr_left fun _ => ⟨given_of_truthy, hplain⟩

theorem plainPeriod_iff (hleast : 0 < least) :
    (tooSmall v least = true ↔ ¬ AtLeast least v) ↔ PlainPeriod least v := by
  rw [tooSmall, Bool.and_eq_true, AtLeast, Classical.not_imp]
  -- what is no number breaks the rule as soon as it is given
  have hother : (∀ q, v ≠ some (.num q)) →
      ((v.truthy = true ∧ v.toNumber.lt least = true ↔
        Given v ∧ ¬ ∃ q, v = some (.num q) ∧ least ≤ q) ↔
          (Given v → v.truthy = true ∧ v.toNumber.lt least = true)) := by
    intro hno
    have hbroken : ¬ ∃ q, v = some (.num q) ∧ least ≤ q := by
      rintro ⟨q, hq, -⟩
      exact hno q hq
    rw [and_iff_left hbroken]
    exact ⟨fun h => h.mpr, fun h => ⟨fun htest => given_of_truthy htest.1, h⟩⟩
  cases v with
  | none => exact hother fun _ hq => by cases hq
  | some j =>
    cases j with
    | num q =>
      have hgiven : Given (some (.num q)) := rfl
      have hrule : (∃ p, some (Json.num q) = some (.num p) ∧ least ≤ p) ↔ least ≤ q := by simp
      have htest : (truthy (some (.num q)) = true ∧
          (toNumber (some (.num q))).lt least = true) ↔ q ≠ 0 ∧ q < least := by
        simp [truthy, toNumber, JsNumber.lt]
      rw [htest, hrule, and_iff_right hgiven, not_le]
      constructor
      · rintro h rfl
        exact (h.mpr hleast).1 rfl
      · exact fun hq => and_iff_right hq
    | null | bool | str | arr | obj => exact hother fun _ hq => by cases hq

/-- The answer to a configuration is the documented one if and only if none of its settings is of
a kind that the tests mistake. -/
theorem conforms_iff_plain (fields : List (String × Json)) :
    Conforms (.obj fields) ↔ Plain (.obj fields) := by
  rw [conforms_iff_flagged]
  constructor
  · intro h
    exact
      { host := plainHost_iff.mp (h .host)
        port := plainPort_iff.mp (h .port)
        protocol := plainProtocol_iff.mp (h .protocol)
        keepalive := (plainPeriod_iff (by norm_num)).mp (h .keepalive)
        connectTimeout := (plainPeriod_iff (by norm_num)).mp (h .connectTimeout)
        reconnectPeriod := (plainPeriod_iff (by norm_num)).mp (h .reconnectPeriod) }
  · rintro h (_ | _ | _ | _ | _ | _)
    · exact plainHost_iff.mpr h.host
    · exact plainPort_iff.mpr h.port
    · exact plainProtocol_iff.mpr h.protocol
    · exact (plainPeriod_iff (by norm_num)).mpr h.keepalive
    · exact (plainPeriod_iff (by norm_num)).mpr h.connectTimeout
    · exact (plainPeriod_iff (by norm_num)).mpr h.reconnectPeriod

/-- An empty protocol and a keep-alive of zero seconds are accepted. -/
theorem not_conforms_of_falsy : ¬ ∀ fields : List (String × Json), Conforms (.obj fields) := by
  intro h
  have hflagged := (conforms_iff_flagged _).mp (h [("host", .str "localhost"), ("port", .num 1883),
    ("protocol", .str ""), ("keepalive", .num 0)])
  have hprotocol : PlainProtocol (some (.str "")) := plainProtocol_iff.mp (hflagged .protocol)
  exact absurd (hprotocol rfl) (by decide +kernel)

end IotPanel.Broker

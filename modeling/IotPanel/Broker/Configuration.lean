import IotPanel.Broker.Single
import IotPanel.Js.Number
import IotPanel.Responser.Validation

/-!
# Changing the configuration of the broker

A configuration is validated, tested and put into effect by three methods that read it on their
own. The last one only logs it.
-/

namespace IotPanel.Broker

open Responser JsVal

/-! ### Validation -/

inductive ConfigurationValidationResult
  | valid (message : String)
  | invalid (errors : List String)
  deriving DecidableEq

/-- A text among the errors where the test succeeds. -/
def problem (test : Bool) (text : String) : List String := if test then [text] else []

/-- A setting that may be left out, or be zero, and is too small otherwise. -/
def tooSmall (v : JsVal) (least : ℚ) : Bool := v.truthy && v.toNumber.lt least

def isProtocol (v : JsVal) : Bool :=
  ["mqtt", "mqtts", "tcp", "ws", "wss"].any fun p => v.strictEq (some (.str p))

def configurationErrors (config : Json) : List String :=
  let port := config.get "port"
  let protocol := config.get "protocol"
  problem (!(config.get "host").truthy) "Host is required" ++
  problem (!port.truthy || port.toNumber.lt 1 || port.toNumber.gt 65535)
    "Port must be between 1 and 65535" ++
  problem (protocol.truthy && !isProtocol protocol)
    "Protocol must be one of: mqtt, mqtts, tcp, ws, wss" ++
  problem (tooSmall (config.get "keepalive") 1) "Keep alive must be at least 1 second" ++
  problem (tooSmall (config.get "connectTimeout") 1000)
    "Connection timeout must be at least 1000ms" ++
  problem (tooSmall (config.get "reconnectPeriod") 1000)
    "Reconnect period must be at least 1000ms"

def validateConfiguration : Json → Except Exception ConfigurationValidationResult
  | .null => .error (.error "Cannot read properties of null (reading 'host')")
  | config =>
    let errors := configurationErrors config
    .ok (if errors = [] then .valid "Configuration is valid" else .invalid errors)

def Accepted (config : Json) : Prop :=
  validateConfiguration config = .ok (.valid "Configuration is valid")

theorem accepted_iff {config : Json} :
    Accepted config ↔ config ≠ .null ∧ configurationErrors config = [] := by
  unfold Accepted validateConfiguration
  split
  · simp
  · rename_i hnull
    have hne : config ≠ .null := hnull
    by_cases herrors : configurationErrors config = []
    · simp [herrors, hne]
    · simp [herrors]

/-! ### The test -/

/-- What the test opens its client with. -/
def testOptions (config : Json) : ConnectOptions where
  brokerUrl := interpolate ((config.get "protocol").orDefault (some (.str "mqtt"))) ++ "://" ++
    interpolate (config.get "host") ++ ":" ++ interpolate (config.get "port")
  username := config.get "username"
  password := config.get "password"

structure BrokerInfo where
  clientId : Option String
  protocol : JsVal
  host : JsVal
  port : JsVal

structure ConnectionTestResult where
  success : Bool
  message : String
  brokerInfo : BrokerInfo

/-- What happens first to the client of a test. -/
inductive TestEvent
  | connect (clientId : Option String)
  | error (message : String)
  | timeout (duration : ℕ)
  | notOpened (message : String)

def testConnection : Json → TestEvent → Except Exception ConnectionTestResult
  | .null, _ => .error (.error "Cannot read properties of null (reading 'protocol')")
  | config, .connect clientId => .ok
      { success := true
        message := "Successfully connected to MQTT broker"
        brokerInfo :=
          { clientId := clientId
            protocol := (config.get "protocol").orDefault (some (.str "mqtt"))
            host := config.get "host"
            port := config.get "port" } }
  | _, .error message => .error (.forbidden ("Connection test failed: " ++ message))
  | _, .timeout duration =>
    .error (.error ("Connection test timeout after " ++ toString duration ++ "ms"))
  | _, .notOpened message => .error (.error ("Connection test failed: " ++ message))

/-! ### The update -/

/-- Whether the calls that an update waits for succeed. -/
structure Outcome where
  topicsRead : Bool
  ended : Bool
  opened : Bool

namespace Service

def disconnect (o : Outcome) (s : Service) : Except Exception Unit × Service :=
  let cleared := { s with isConnectedState := false }
  if o.topicsRead then
    match s.mqtt with
    | none => (.error (.unauthorized "Failed to disconnect MQTT"), cleared)
    | some none => (.ok (), cleared)
    | some (some k) =>
      if o.ended then
        (.ok (), (cleared.modifyClient k fun c => { c with connected := false }).finishEnd k)
      else
        (.error (.unauthorized "Failed to disconnect MQTT"),
          cleared.modifyClient k fun c => { c with ending := false })
  else (.error (.unauthorized "Failed to disconnect MQTT"), s)

/-- The call of `initConnection`, with what it answers. -/
def openClient (env : Environment) (o : Outcome) (s : Service) : Except Exception Unit × Service :=
  (if o.opened then .ok () else .error (.unauthorized "Failed to connect to MQTT broker"),
    s.initConnection env o.opened)

/-- The configuration goes to the log and nowhere else. -/
def updateConfiguration (env : Environment) (o : Outcome) (_config : Json) (s : Service) :
    Except Exception Unit × Service :=
  if s.mqtt.isSome && s.isConnectedState then
    match s.disconnect o with
    | (.ok (), t) => t.openClient env o
    | (.error e, t) => (.error e, t)
  else s.openClient env o

/-- An update returns with a client that was opened as the test opens its own. -/
def Uses (env : Environment) (o : Outcome) (config : Json) (s : Service) : Prop :=
  (s.updateConfiguration env o config).1 = .ok () ∧
    (s.updateConfiguration env o config).2.client.map Client.options = some (testOptions config)

/-- The client that is held can be ended, if the update has to. -/
def CanEnd (o : Outcome) (s : Service) : Prop :=
  s.mqtt.isSome && s.isConnectedState →
    o.topicsRead = true ∧ (s.mqtt.join.isSome → o.ended = true)

variable {env : Environment} {o : Outcome} {config : Json} {s t : Service}

theorem client_initConnection : (s.initConnection env true).client = some (.create env.options) := by
  show (s.clients ++ [Client.create env.options])[s.clients.length]? = _
  rw [List.getElem?_append_right (Nat.le_refl _), Nat.sub_self]
  rfl

theorem openClient_iff :
    ((s.openClient env o).1 = .ok () ∧
      (s.openClient env o).2.client.map Client.options = some (testOptions config)) ↔
        o.opened = true ∧ env.options = testOptions config := by
  unfold openClient
  cases hopened : o.opened with
  | false =>
    constructor
    · rintro ⟨⟨⟩, -⟩
    · rintro ⟨⟨⟩, -⟩
  | true =>
    dsimp only
    rw [client_initConnection]
    simp [Client.create]

theorem disconnect_ok_iff (hmqtt : s.mqtt.isSome) :
    (s.disconnect o).1 = .ok () ↔ o.topicsRead = true ∧ (s.mqtt.join.isSome → o.ended = true) := by
  unfold disconnect
  obtain ⟨held, hheld⟩ := Option.isSome_iff_exists.mp hmqtt
  rw [hheld]
  cases o.topicsRead with
  | false => simp
  | true =>
    cases held with
    | none => simp
    | some k => cases o.ended <;> simp

/-- An update uses a configuration only if it is the one of the environment. -/
theorem uses_iff (env : Environment) (o : Outcome) (config : Json) (s : Service) :
    s.Uses env o config ↔
      env.options = testOptions config ∧ o.opened = true ∧ s.CanEnd o := by
  unfold Uses CanEnd updateConfiguration
  by_cases hactive : (s.mqtt.isSome && s.isConnectedState) = true
  · rw [if_pos hactive]
    have hdisconnect := disconnect_ok_iff (o := o) (Bool.and_eq_true_iff.mp hactive).1
    cases hanswer : s.disconnect o with
    | mk answer t =>
      rw [hanswer] at hdisconnect
      cases answer with
      | ok _ =>
        -- the old client has been ended
        have hend := hdisconnect.mp rfl
        show ((t.openClient env o).1 = .ok () ∧ _) ↔ _
        rw [openClient_iff]
        exact ⟨fun ⟨hopened, hoptions⟩ => ⟨hoptions, hopened, fun _ => hend⟩,
          fun ⟨hoptions, hopened, _⟩ => ⟨hopened, hoptions⟩⟩
      | error e =>
        constructor
        · rintro ⟨⟨⟩, -⟩
        · rintro ⟨-, -, hend⟩
          cases hdisconnect.mpr (hend hactive)
  · rw [if_neg hactive, openClient_iff]
    exact ⟨fun ⟨hopened, hoptions⟩ => ⟨hoptions, hopened, fun h => absurd h hactive⟩,
      fun ⟨hoptions, hopened, _⟩ => ⟨hopened, hoptions⟩⟩

/-- A service that is connected to the broker of its environment, and an accepted configuration of
another one. -/
theorem not_uses_of_other_broker :
    ¬ ∀ (env : Environment) (o : Outcome) (config : Json) (s : Service), Accepted config →
      o.opened = true → s.CanEnd o → s.Uses env o config := by
  intro h
  let env : Environment := ⟨"mqtt://localhost:1883", "panel", "secret"⟩
  let config : Json := .obj [("host", .str "broker.example"), ("port", .num 1883),
    ("username", .str "panel"), ("password", .str "secret")]
  let s : Service := ⟨[⟨env.options, true, false, false, true⟩], some (some 0), true, [], []⟩
  have haccepted : Accepted config := accepted_iff.mpr ⟨nofun, by decide +kernel⟩
  have huses := h env ⟨true, true, true⟩ config s haccepted rfl fun _ => ⟨rfl, fun _ => rfl⟩
  have hurl : env.mqttBrokerUrl = (testOptions config).brokerUrl :=
    congrArg ConnectOptions.brokerUrl (Option.some.inj huses.2)
  exact absurd hurl (by decide +kernel)

/-! ### The update among the events of the service -/

/-- The client that is held has not been ended. -/
def HeldLive (s : Service) : Prop :=
  ∀ k, s.mqtt = some (some k) → ∃ c, s.clients[k]? = some c ∧ c.ended = false

theorem HeldLive.same (h : s.HeldLive) (hsame : s.Same t) : t.HeldLive := by
  unfold HeldLive
  rw [hsame.mqtt, hsame.clients]
  exact h

theorem HeldLive.modify {k : ℕ} {f : Client → Client} {b : Bool} {calls : List Stage}
    (h : s.HeldLive) (hf : ∀ c, (f c).ended = c.ended) :
    HeldLive { s.modifyClient k f with isConnectedState := b, calls := calls } := by
  intro l hl
  obtain ⟨c, hc, hlive⟩ := h l hl
  show ∃ d, (s.modifyClient k f).clients[l]? = some d ∧ d.ended = false
  rw [getElem?_modifyClient, hc]
  split
  · exact ⟨f c, rfl, (hf c).trans hlive⟩
  · exact ⟨c, rfl, hlive⟩

theorem heldLive_initConnection (opened : Bool) : (s.initConnection env opened).HeldLive := by
  unfold initConnection
  cases opened with
  | false => rintro k ⟨⟩
  | true =>
    rintro k ⟨⟩
    refine ⟨.create env.options, ?_, rfl⟩
    show (s.clients ++ [_])[s.clients.length]? = _
    rw [List.getElem?_append_right (Nat.le_refl _), Nat.sub_self]
    rfl

theorem HeldLive.finishEnd {k : ℕ} (h : s.HeldLive) : (s.finishEnd k).HeldLive := by
  intro l hl
  have hmqtt : (if s.mqtt = some (some k) then some none else s.mqtt) = some (some l) := hl
  split at hmqtt
  · cases hmqtt
  · rename_i hother
    have hne : k ≠ l := by
      rintro rfl
      exact hother hmqtt
    obtain ⟨c, hc, hlive⟩ := h l hmqtt
    refine ⟨c, ?_, hlive⟩
    show (s.modifyClient k _).clients[l]? = _
    rw [getElem?_modifyClient, if_neg hne, hc]

theorem HeldLive.beginEnd {call : ℕ} {updates : Bool} (h : s.HeldLive) :
    (s.beginEnd call updates).HeldLive := by
  unfold Service.beginEnd
  dsimp only
  split
  · exact h
  · have hcleared : HeldLive { s with isConnectedState := false } := h
    exact hcleared.same same_goOn
  · refine h.modify ?_
    exact fun _ => rfl

theorem HeldLive.step {e : Event} (h : s.HeldLive) (hstep : Step env s e t) : t.HeldLive := by
  cases transition_of_step hstep with
  | same hsame => exact h.same hsame
  | opens opened => exact heldLive_initConnection opened
  | beginEnd => exact h.beginEnd
  | finishEnd => exact h.finishEnd.same same_goOn
  | failEnd =>
    refine h.modify ?_
    exact fun _ => rfl
  | connected | closed =>
    refine h.modify ?_
    exact fun _ => rfl
  | published => exact h

theorem heldLive_of_run {tr : List Event} (h : Run (Step env) .initial tr s) : s.HeldLive :=
  h.invariant (I := HeldLive) (by rintro k ⟨⟩) fun h hstep => h.step hstep

/-- A call has been made last and is at a stage. -/
def waiting (s : Service) (stage : Stage) : Service := { s with calls := s.calls ++ [stage] }

theorem getElem?_waiting {stage : Stage} :
    (s.waiting stage).calls[s.calls.length]? = some stage := by
  show (s.calls ++ [stage])[s.calls.length]? = _
  rw [List.getElem?_append_right (Nat.le_refl _), Nat.sub_self]
  rfl

theorem set_waiting {stage next : Stage} :
    { s.waiting stage with calls := (s.waiting stage).calls.set s.calls.length next } =
      s.waiting next := by
  show ({ s with calls := (s.calls ++ [stage]).set s.calls.length next } : Service) = _
  rw [List.set_append_right _ _ (Nat.le_refl _), Nat.sub_self]
  rfl

theorem finish_waiting {stage : Stage} : (s.waiting stage).finish s.calls.length = s := by
  show ({ s with calls := (s.calls ++ [stage]).eraseIdx s.calls.length } : Service) = _
  rw [List.eraseIdx_append_of_length_le (Nat.le_refl _), Nat.sub_self]
  show ({ s with calls := s.calls ++ [] } : Service) = s
  rw [List.append_nil]

/-- What is left of an update after its call of `disconnect`. -/
theorem run_resumed : Run (Step env) (s.waiting .opening) [.resumed s.calls.length o.opened]
    (s.openClient env o).2 := by
  refine .single ?_
  unfold Step happen
  dsimp only
  rw [getElem?_waiting, finish_waiting]
  rfl

theorem step_update (env : Environment) (opened : Bool)
    (hactive : (s.mqtt.isSome && s.isConnectedState) = true) :
    Step env s (.updateConfiguration opened) (s.waiting (.reading true)) := by
  show some (if (s.mqtt.isSome && s.isConnectedState) = true then s.waiting (.reading true)
    else s.initConnection env opened) = _
  rw [if_pos hactive]

theorem step_topicsRead (env : Environment) (s : Service) (ok : Bool) :
    Step env (s.waiting (.reading true)) (.topicsRead s.calls.length ok)
      (if ok then (s.waiting (.reading true)).beginEnd s.calls.length true else s) := by
  unfold Step happen
  dsimp only
  rw [getElem?_waiting, finish_waiting]

theorem step_endReturned (env : Environment) {k : ℕ} (ok : Bool)
    (hmay : ok = true → s.mayReturn k = true) :
    Step env (s.waiting (.ending k true)) (.endReturned s.calls.length ok)
      (if ok then (s.finishEnd k).waiting .opening
        else s.modifyClient k fun c => { c with ending := false }) := by
  unfold Step happen
  dsimp only
  rw [getElem?_waiting]
  cases ok with
  | false => exact congrArg some (finish_waiting (s := s.modifyClient k _))
  | true =>
    have hwaiting : (s.waiting (.ending k true)).mayReturn k = true := hmay rfl
    dsimp only
    rw [if_pos rfl, if_pos hwaiting, if_pos rfl]
    exact congrArg some (set_waiting (s := s.finishEnd k))

theorem modifyClient_modifyClient {k : ℕ} {f g : Client → Client} :
    (s.modifyClient k f).modifyClient k g = s.modifyClient k (g ∘ f) := by
  show ({ s with clients := (s.clients.modify k f).modify k g } : Service) = _
  rw [List.modify_modify_eq]
  rfl

/-- A call of `disconnect` that finds no client goes on at once. -/
theorem beginEnd_waiting_none (hheld : s.mqtt = some none) :
    (s.waiting (.reading true)).beginEnd s.calls.length true =
      { s with isConnectedState := false }.waiting .opening := by
  obtain ⟨clients, mqtt, flag, calls, emissions⟩ := s
  obtain rfl : mqtt = some none := hheld
  exact set_waiting (s := ⟨clients, some none, false, calls, emissions⟩)

theorem beginEnd_waiting {k : ℕ} (hheld : s.mqtt = some (some k)) :
    (s.waiting (.reading true)).beginEnd s.calls.length true =
      ({ s with isConnectedState := false }.modifyClient k fun c =>
        { c with ending := true }).waiting (.ending k true) := by
  obtain ⟨clients, mqtt, flag, calls, emissions⟩ := s
  obtain rfl : mqtt = some (some k) := hheld
  exact set_waiting (s := modifyClient k _ ⟨clients, some (some k), false, calls, emissions⟩)

/-- The connection of a client is closed while it is being ended. -/
theorem step_closed (env : Environment) {k : ℕ} (stage : Stage)
    (hheld : ∃ c, s.clients[k]? = some c ∧ c.ended = false) (hflag : s.isConnectedState = false) :
    Step env (s.waiting stage) (.closed k)
      ((s.modifyClient k fun c => { c with connected := false }).waiting stage) := by
  obtain ⟨c, hc, hlive⟩ := hheld
  have hwaiting : (s.waiting stage).clients[k]? = some c := hc
  unfold Step happen
  dsimp only
  rw [hwaiting]
  dsimp only
  rw [hlive, if_neg Bool.false_ne_true]
  show some ({ (s.modifyClient k fun c => { c with connected := false }).waiting stage with
    isConnectedState := s.isConnectedState && !c.listening } : Service) = _
  rw [hflag, Bool.false_and, ← hflag]
  rfl

theorem run_disconnect (env : Environment) (o : Outcome) (h : s.HeldLive) (hmqtt : s.mqtt.isSome) :
    ∃ tr, Run (Step env) (s.waiting (.reading true)) tr
      (match s.disconnect o with
        | (.ok _, t) => t.waiting .opening
        | (.error _, t) => t) := by
  have hread := Run.single (step_topicsRead env s o.topicsRead)
  obtain ⟨clients, mqtt, flag, calls, emissions⟩ := s
  unfold disconnect
  cases htopics : o.topicsRead with
  | false =>
    rw [htopics] at hread
    exact ⟨_, hread⟩
  | true =>
    rw [htopics, if_pos rfl] at hread
    obtain ⟨held, rfl⟩ := Option.isSome_iff_exists.mp hmqtt
    cases held with
    | none =>
      rw [beginEnd_waiting_none rfl] at hread
      exact ⟨_, hread⟩
    | some k =>
      rw [beginEnd_waiting rfl] at hread
      let ending : Service := modifyClient k (fun c => { c with ending := true })
        ⟨clients, some (some k), false, calls, emissions⟩
      cases hended : o.ended with
      | false =>
        -- the end fails, and the client goes on as before
        have hfail := Run.single (step_endReturned env (s := ending) (k := k) false nofun)
        rw [if_neg Bool.false_ne_true, modifyClient_modifyClient] at hfail
        exact ⟨_, hread.trans hfail⟩
      | true =>
        -- the connection closes first, so that the end may return
        have hlive : ∃ c, ending.clients[k]? = some c ∧ c.ended = false := by
          obtain ⟨c, hc, hended⟩ := h k rfl
          exact ⟨_, getElem?_modifyClient_self hc, hended⟩
        have hclosed := Run.single (step_closed env (.ending k true) hlive rfl)
        let closed : Service := ending.modifyClient k fun c => { c with connected := false }
        have hmay : closed.mayReturn k = true := by
          obtain ⟨c, hc, -⟩ := hlive
          unfold mayReturn
          rw [getElem?_modifyClient_self hc]
          rfl
        have hend := Run.single (step_endReturned env true fun _ => hmay)
        have hsame : closed.finishEnd k = finishEnd k (modifyClient k
            (fun c => { c with connected := false })
              ⟨clients, some (some k), false, calls, emissions⟩) := by
          unfold finishEnd
          simp only [closed, ending, modifyClient_modifyClient]
          rfl
        rw [if_pos rfl, hsame] at hend
        exact ⟨_, (hread.trans hclosed).trans hend⟩

/-- An update that nothing interrupts goes through events of the service. -/
theorem HeldLive.run_updateConfiguration (h : s.HeldLive) (env : Environment) (o : Outcome)
    (config : Json) : ∃ tr, Run (Step env) s tr (s.updateConfiguration env o config).2 := by
  unfold updateConfiguration
  by_cases hactive : (s.mqtt.isSome && s.isConnectedState) = true
  · rw [if_pos hactive]
    have hcall := Run.single (step_update env o.opened hactive)
    obtain ⟨tr, hdisconnect⟩ := run_disconnect env o h (Bool.and_eq_true_iff.mp hactive).1
    cases hanswer : s.disconnect o with
    | mk answer t =>
      rw [hanswer] at hdisconnect
      cases answer with
      | ok _ => exact ⟨_, (hcall.trans hdisconnect).trans run_resumed⟩
      | error e => exact ⟨_, hcall.trans hdisconnect⟩
  · rw [if_neg hactive]
    refine ⟨[.updateConfiguration o.opened], .single ?_⟩
    show some (if (s.mqtt.isSome && s.isConnectedState) = true then s.waiting (.reading true)
      else s.initConnection env o.opened) = _
    rw [if_neg hactive]
    rfl

/-- What an update leaves behind is a state that the service can reach. -/
theorem run_updateConfiguration {tr : List Event} (h : Run (Step env) .initial tr s) (o : Outcome)
    (config : Json) : ∃ tr', Run (Step env) .initial tr' (s.updateConfiguration env o config).2 := by
  obtain ⟨tr', hupdate⟩ := (heldLive_of_run h).run_updateConfiguration env o config
  exact ⟨tr' ++ tr, h.trans hupdate⟩

end Service

end IotPanel.Broker

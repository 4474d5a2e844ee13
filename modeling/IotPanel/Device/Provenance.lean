import IotPanel.Device.Assignment
import IotPanel.Device.Gateway
import IotPanel.Device.Services

/-!
# Who causes a request

A request to a device, and its entry in the cache, name a user. What a route publishes is in the
name of the user whose session the guards have accepted; what a message to the socket publishes
is in the name of whoever the message says.
-/

namespace IotPanel.Device

open Session (SessionData)
open Users (Role includes)
open Program

namespace Arrival

/-- The user that a request of this client names. -/
def userId (a : Arrival) : JsVal :=
  match a.entry with
  | .http _ => a.session.map fun d => .str d.userId
  | .socket (.discoveryBroadcast (some payload)) | .socket (.discoveryUnicast (some payload)) =>
    payload.get "userId"
  | .socket _ => none

/-- What arrives asks for a request to devices in the name of a user. -/
def isRequest (a : Arrival) : Bool :=
  match a.entry with
  | .http route =>
    match route with
    | .discoverDevicesBroadcast | .discoverDeviceUnicast _ | .getHardwareStatus _
    | .provisionDevice _ => true
    | _ => false
  | .socket message =>
    match message with
    | .discoveryBroadcast _ | .discoveryUnicast _ | .sensorProvision _ => true
    | _ => false

/-- The roles that the route to the same operation demands. -/
def roles (a : Arrival) : List Role :=
  match a.entry with
  | .http route => route.roles
  | .socket (.discoveryBroadcast _) => DeviceRoute.discoverDevicesBroadcast.roles
  | .socket (.discoveryUnicast _) => (DeviceRoute.discoverDeviceUnicast "").roles
  | .socket (.sensorProvision (some body)) => (DeviceRoute.provisionDevice body).roles
  | .socket _ => DeviceRoute.getUnassignedSensor.roles

/-- The client holds a live session of the user, with one of the roles. -/
def Holds (a : Arrival) (user : Json) : Prop :=
  ∃ d, a.session = some d ∧ user = .str d.userId ∧
    ∃ r ∈ a.roles, includes d.roles r.json = true

/-- Whoever is named, the client holds a session of him. -/
def Causes (a : Arrival) (userId : JsVal) : Prop := ∀ user, userId = some user → a.Holds user

/-- A request to devices, and an entry of a request, name nobody but the holder of a session. -/
def Provenance (a : Arrival) : Command → Prop
  | .publish _ _ payload => a.isRequest = true → a.Causes (payload.get "userId")
  | .cacheSetex _ value => a.Causes (value.get "userId")
  | _ => True

/-- A message to the socket names nobody but the holder of a session. -/
def Named (a : Arrival) : Prop :=
  match a.entry with
  | .http _ => True
  | .socket _ => a.Causes a.userId

/-- The guards let the client through; the socket has none. -/
def admitted (a : Arrival) : Bool :=
  match a.entry with
  | .http route => (guards route.roles a.cookie a.session).toBool
  | .socket _ => true

/-- The commands of a client that has been let through name the user of its arrival. -/
def protocol (a : Arrival) : Protocol Unit Command Command.Reply Exception where
  allowed _ c :=
    match c with
    | .publish _ _ payload => a.admitted = true ∧
        (a.isRequest = true → payload.get "userId" = a.userId)
    | .cacheSetex _ value => a.admitted = true ∧
        (value.get "userId" = none ∨ value.get "userId" = a.userId)
    | _ => True
  next _ _ _ := ()

end Arrival

section Programs

variable {cfg : Config} {a : Arrival}

theorem topical_arrival : Topical a.protocol () where
  findTopic _ := stays_perform trivial fun _ => rfl
  saveTopic _ := stays_perform trivial fun _ => rfl

theorem get_jsonObject_userId {dto : Json} : (pendingEntry dto).get "userId" = dto.get "userId" := by
  unfold pendingEntry
  cases dto.get "requestCode" <;> cases huser : dto.get "userId" <;>
    cases dto.get "requestId" <;> rfl

theorem stays_setCache_arrival {dto : Json} (hadmitted : a.admitted = true)
    (h : dto.get "userId" = none ∨ dto.get "userId" = a.userId) :
    (setCache dto).Stays a.protocol () := by
  refine stays_perform ⟨hadmitted, ?_⟩ fun _ => rfl
  rw [get_jsonObject_userId]
  exact h

theorem stays_publish_arrival {awaited : Bool} {topic : String} {payload : Json}
    (hadmitted : a.admitted = true) (h : a.isRequest = true → payload.get "userId" = a.userId) :
    (publish awaited topic payload).Stays a.protocol () :=
  stays_perform ⟨hadmitted, h⟩ fun _ => rfl

theorem stays_discoverOn {awaited : Bool} {compose : Mqtt.Topic → String}
    {payload : String → ℕ → Json} (hadmitted : a.admitted = true)
    (huser : ∀ requestId time, (payload requestId time).get "userId" = a.userId) :
    (discoverOn cfg awaited compose payload).Stays a.protocol () := by
  refine stays_bind (stays_getBroadcastTopic topical_arrival) fun b => ?_
  refine stays_bind (stays_perform trivial fun _ => rfl) fun requestId => ?_
  refine stays_bind (stays_perform trivial fun _ => rfl) fun timestamp => ?_
  refine stays_bind (stays_setCache_arrival hadmitted (.inr (huser _ _))) fun _ => ?_
  refine stays_bind (stays_storeTopic cfg topical_arrival _ _ _) fun topic => ?_
  refine stays_bind (stays_publish_arrival hadmitted fun _ => huser _ _) fun _ => ?_
  exact stays_perform trivial fun _ => rfl

theorem stays_broadcastFor (hadmitted : a.admitted = true) :
    (DeviceService.broadcastFor cfg a.userId).Stays a.protocol () := by
  rw [DeviceService.broadcastFor_eq]
  refine stays_discoverOn hadmitted fun requestId time => ?_
  cases a.userId <;> rfl

theorem stays_unicastFor {deviceId : JsVal} (hadmitted : a.admitted = true) :
    (DeviceService.unicastFor cfg a.userId deviceId).Stays a.protocol () := by
  rw [DeviceService.unicastFor_eq]
  refine stays_discoverOn hadmitted fun requestId time => ?_
  cases deviceId <;> cases a.userId <;> rfl

theorem stays_getHardwareStatus {userId deviceId : String} (hadmitted : a.admitted = true)
    (huser : a.userId = some (.str userId)) :
    (DeviceService.getHardwareStatus cfg userId deviceId).Stays a.protocol () := by
  refine stays_bind (stays_perform trivial fun _ => rfl) fun found => ?_
  cases found with
  | none => exact stays_throw
  | some device =>
    refine stays_tryCatch ?_ fun _ => stays_throw
    refine stays_bind (stays_perform trivial fun _ => rfl) fun requestId => ?_
    refine stays_bind (stays_perform trivial fun _ => rfl) fun timestamp => ?_
    obtain ⟨-, hname, -⟩ := hardwarePayload_ids device.deviceId userId requestId timestamp
    refine stays_bind (stays_createTopic cfg topical_arrival _ _) fun topic => ?_
    refine stays_bind (stays_setCache_arrival hadmitted (.inr (hname.trans huser.symm))) fun _ => ?_
    exact stays_publish_arrival hadmitted fun _ => hname.trans huser.symm

theorem stays_AssignDeviceFunction {userId : String} {dto : PublishSensorFunctionalityDto}
    (hadmitted : a.admitted = true) (huser : a.userId = some (.str userId)) :
    (DeviceService.AssignDeviceFunction userId dto).Stays a.protocol () := by
  unfold DeviceService.AssignDeviceFunction
  split
  · exact stays_throw
  refine stays_bind (stays_getDeviceTopicByUseCase topical_arrival _ _) fun topic => ?_
  refine stays_bind (stays_validateSensorTypes (fun _ => stays_perform trivial fun _ => rfl) _ _)
    fun _ => ?_
  refine stays_bind (stays_perform trivial fun _ => rfl) fun requestId => ?_
  obtain ⟨-, hname, -⟩ := assignPayload_ids dto userId requestId
  refine stays_bind (stays_setCache_arrival hadmitted (.inr (hname.trans huser.symm))) fun _ => ?_
  refine stays_bind (stays_perform trivial fun _ => rfl) fun _ => ?_
  exact stays_publish_arrival hadmitted fun _ => hname.trans huser.symm

/-- The entry of a telemetry request names nobody. -/
theorem stays_getDeviceTelemetry {telemetry : PublishTelemetryDto} (hadmitted : a.admitted = true)
    (hrequest : a.isRequest = false) :
    (DeviceService.getDeviceTelemetry telemetry).Stays a.protocol () := by
  unfold DeviceService.getDeviceTelemetry
  split
  · exact stays_throw
  refine stays_bind (stays_perform trivial fun _ => rfl) fun found => ?_
  cases found with
  | none => exact stays_throw
  | some device =>
    refine stays_bind (stays_getDeviceTopicByUseCase topical_arrival _ _) fun topic => ?_
    refine stays_bind (stays_setCache_arrival hadmitted (.inl rfl)) fun _ => ?_
    refine stays_publish_arrival hadmitted fun h => ?_
    rw [hrequest] at h
    cases h

theorem stays_setDeviceConfiguration {configData : SensorConfigDto} (hadmitted : a.admitted = true)
    (hrequest : a.isRequest = false) :
    (DeviceService.setDeviceConfiguration configData).Stays a.protocol () := by
  refine stays_bind (stays_perform trivial fun _ => rfl) fun found => ?_
  cases found with
  | none => exact stays_throw
  | some device =>
    refine stays_bind (stays_getDeviceTopicByUseCase topical_arrival _ _) fun topic => ?_
    refine stays_bind (stays_publish_arrival hadmitted fun h => ?_) fun _ =>
      stays_perform trivial fun _ => rfl
    rw [hrequest] at h
    cases h

/-- A list that is asked for, whatever is done with it. -/
theorem stays_listed {f : SensorFilter} {e : Exception} :
    (do
      let found ← findSensors f
      if found = [] then throw e
      return found : Prog (List Sensor)).Stays a.protocol () := by
  refine stays_bind (stays_perform trivial fun _ => rfl) fun found => ?_
  exact stays_ite (fun _ => stays_throw) fun _ => stays_pure

/-- A lookup that is followed by no command, or by an update of the sensor. -/
theorem stays_found {α : Type} {f : SensorQuery} {rest : Option Sensor → Prog α}
    (h : ∀ found, (rest found).Stays a.protocol ()) :
    (findSensor f >>= rest).Stays a.protocol () :=
  stays_bind (stays_perform trivial fun _ => rfl) h

/-- Every arrival that is let through is served under its protocol. -/
theorem stays_route {route : DeviceRoute} {userId : String} (hentry : a.entry = .http route)
    (hadmitted : a.admitted = true) (huser : a.userId = some (.str userId)) :
    (route.handler cfg userId).Stays a.protocol () := by
  obtain ⟨cookie, session, entry⟩ := a
  obtain rfl : entry = .http route := hentry
  cases route with
  | getAllSensors => exact stays_bind stays_listed fun _ => stays_pure
  | getSingleSensor id =>
    refine stays_bind (stays_found fun found => ?_) fun _ => stays_pure
    cases found with
    | some device => exact stays_pure
    | none => exact stays_throw
  | querySensors query =>
    exact stays_bind (stays_perform trivial fun _ => rfl) fun _ => stays_pure
  | discoverDevicesBroadcast =>
    -- The gateway's broadcast with the id of the session is the one of the service.
    show (DeviceService.discoverDevicesBroadcast cfg userId).Stays _ ()
    rw [← DeviceService.broadcastFor_str, ← huser]
    exact stays_broadcastFor hadmitted
  | discoverDeviceUnicast id =>
    show (DeviceService.discoverDeviceUnicast cfg userId id).Stays _ ()
    rw [← DeviceService.unicastFor_str, ← huser]
    exact stays_unicastFor hadmitted
  | getUnassignedSensor => exact stays_bind stays_listed fun _ => stays_pure
  | getHardwareStatus id => exact stays_getHardwareStatus hadmitted huser
  | provisionDevice body => exact stays_AssignDeviceFunction hadmitted huser
  | deleteSensor id =>
    refine stays_found fun found => ?_
    cases found with
    | some device => exact stays_perform trivial fun _ => rfl
    | none => exact stays_throw
  | getDeviceConfiguration id =>
    refine stays_bind (stays_found fun found => ?_) fun _ => stays_pure
    exact stays_ite (fun _ => stays_throw) fun _ => stays_pure
  | reconfigureDevice configData =>
    exact stays_setDeviceConfiguration hadmitted rfl
  | getHistory id | controlDevice id => exact stays_pure
  | getDeviceStatus id =>
    refine stays_found fun found => ?_
    cases found with
    | some device => exact stays_pure
    | none => exact stays_throw
  | getDeviceTelemetry telemetry => exact stays_getDeviceTelemetry hadmitted rfl

/-- Who is let through holds a session with one of the roles. -/
theorem guards_ok {roles : List Role} {cookie : Option String} {session : Option SessionData}
    {d : SessionData} (h : guards roles cookie session = .ok d) :
    session = some d ∧ ∃ r ∈ roles, includes d.roles r.json = true := by
  unfold guards at h
  split at h
  · cases h
  · cases h
  · cases h
  · split at h
    · cases h
    · split at h
      · rename_i hroles
        cases h
        exact ⟨rfl, List.any_eq_true.mp hroles⟩
      · cases h

theorem stays_message {message : SocketMessage} (hentry : a.entry = .socket message) :
    (message.handler cfg).Stays a.protocol () := by
  obtain ⟨cookie, session, entry⟩ := a
  obtain rfl : entry = .socket message := hentry
  have hadmitted : Arrival.admitted ⟨cookie, session, .socket message⟩ = true := rfl
  cases message with
  | discoveryBroadcast payload =>
    cases payload with
    | none => exact stays_throw
    | some payload =>
      cases payload with
      | null => exact stays_throw
      | _ => exact stays_broadcastFor hadmitted
  | discoveryUnicast payload =>
    cases payload with
    | none => exact stays_throw
    | some payload =>
      cases payload with
      | null => exact stays_throw
      | _ => exact stays_unicastFor hadmitted
  | unassignedDevicesQuery => exact stays_bind stays_listed fun _ => stays_pure
  | sensorsConfiguration => exact stays_bind stays_listed fun _ => stays_pure
  | sensorProvision payload =>
    cases payload with
    | none => exact stays_throw
    | some dto =>
      show Program.Stays _ _ (GatewayService.handleSensorProvision (some dto))
      unfold GatewayService.handleSensorProvision
      dsimp only
      split
      · exact stays_throw
      refine stays_bind (stays_getDeviceTopicByUseCase topical_arrival _ _) fun topic => ?_
      refine stays_bind ?_ fun _ => stays_throw
      exact stays_validateSensorTypes (fun _ => stays_perform trivial fun _ => rfl) _ _

/-- Whatever arrives is served under its protocol. -/
theorem Arrival.wp_program (cfg : Config) (a : Arrival) :
    (a.program cfg).wp a.protocol (fun _ _ => True) () := by
  obtain ⟨cookie, session, entry⟩ := a
  cases entry with
  | http route =>
    unfold Arrival.program
    dsimp only
    cases hguards : guards route.roles cookie session with
    | error e => trivial
    | ok d =>
      have hadmitted : (guards route.roles cookie session).toBool = true := by
        rw [hguards]
        rfl
      have huser : (session.map fun d => Json.str d.userId) = some (.str d.userId) := by
        rw [(guards_ok hguards).1]
        rfl
      exact wp_of_stays (stays_route rfl hadmitted huser) fun _ => trivial
  | socket message => exact wp_of_stays (stays_message rfl) fun _ => trivial

end Programs

/-! ### Clients side by side -/

/-- The stores, the connection to the broker, and the sessions that are live. -/
structure Backend where
  site : Site
  sessions : String → Option SessionData

/-- What happens besides: the connection is closed, or sessions are made, end or lapse. -/
inductive BackendEvent
  | closed
  | sessions (sessions : String → Option SessionData)

def Backend.after (b : Backend) : BackendEvent → Option Backend
  | .closed => (b.site.after .closed).map fun site => { b with site }
  | .sessions sessions => some { b with sessions }

def gateway (cfg : Config) :
    System Backend Arrival Unit BackendEvent Command Command.Reply Exception where
  program := Arrival.program cfg
  protocol := Arrival.protocol
  fresh := ()
  ends _ _ _ := True
  follows := Arrival.wp_program cfg
  env := Backend.after
  execute b c r b' := Executes cfg b.site c r b'.site ∧ b'.sessions = b.sessions

abbrev GatewayEvent := CallEvent Arrival Unit BackendEvent Command Command.Reply Exception

/-- What arrives has the session that is live under its cookie, if it has any. -/
def Arrives (b : Backend) : GatewayEvent → Prop
  | .start a => a.session = a.cookie.bind b.sessions
  | _ => True

/-- Messages to the socket name nobody but the holder of a session. -/
def NamesHolder : GatewayEvent → Prop
  | .start a => a.Named
  | _ => True

/-- Who has been let through and names nobody but the holder of his session causes what is issued
for him. -/
theorem Arrival.provenance_of_allowed {a : Arrival} {c : Command} (hnamed : a.Named)
    (h : a.protocol.allowed () c) : a.Provenance c := by
  have hcauses : a.admitted = true → a.Causes a.userId := by
    obtain ⟨cookie, session, entry⟩ := a
    cases entry with
    | socket message => exact fun _ => hnamed
    | http route =>
      intro (hadmitted : (guards route.roles cookie session).toBool = true)
      cases hguards : guards route.roles cookie session with
      | error e =>
        rw [hguards] at hadmitted
        cases hadmitted
      | ok d =>
        obtain ⟨rfl, hrole⟩ := guards_ok hguards
        rintro _ ⟨⟩
        exact ⟨d, rfl, rfl, hrole⟩
  cases c with
  | publish awaited topic payload =>
    intro hrequest
    rw [h.2 hrequest]
    exact hcauses h.1
  | cacheSetex key value =>
    rcases h.2 with hnone | huser
    · intro user hsome
      rw [hnone] at hsome
      cases hsome
    · show a.Causes (value.get "userId")
      rw [huser]
      exact hcauses h.1
  | _ => trivial

theorem named_outline (cfg : Config) :
    System.Outline (gateway cfg) (fun p e => Arrives p.shared e ∧ NamesHolder e)
      (fun _ => True) (fun _ t => t.call.Named) where
  env _ _ _ := ⟨trivial, fun _ h => h⟩
  start _ hcond := hcond.2
  did _ _ hnamed _ _ _ := ⟨trivial, hnamed, fun _ _ _ _ h => h⟩

/-- In a run in which the messages to the socket name nobody but the holder of a session, every
request to devices and every entry is caused by a client that held a live session of the user it
names when it arrived, with a role that the route demands. -/
theorem provenance_of_namesHolder (cfg : Config) {b : Backend} {tr : List GatewayEvent}
    {p : Pool Backend (Process (gateway cfg))}
    (hrun : Run ((gateway cfg).Step fun p e => Arrives p.shared e ∧ NamesHolder e) (Pool.start b)
      tr p)
    {a : Arrival} {c : Command} {r : Except Exception c.Reply} (he : .did a () c r ∈ tr) :
    a.Provenance c := by
  obtain ⟨_, _, rfl, -, hnamed, hallowed⟩ :=
    (System.holds_start trivial).allowed_of_mem (named_outline cfg) hrun he
  exact Arrival.provenance_of_allowed hnamed hallowed

/-! ### A client without a session -/

def gatewayOracle (cfg : Config) : System.Oracle (gateway cfg) Outcome where
  answer o b c := ((oracle cfg).answer o b.site c).map fun (r, site) => (r, { b with site })
  sound {o b c r b'} h := by
    obtain ⟨⟨r', site⟩, hanswer, heq⟩ := Option.map_eq_some_iff.mp h
    cases heq
    exact ⟨(oracle cfg).sound hanswer, rfl⟩

/-- An engineer who is logged in. -/
def engineer : SessionData :=
  { userId := "ana", username := "ana", roles := [.str "engineer"], loginTime := 0,
    lastActivity := 0, ipAddress := "10.0.0.1", userAgent := "" }

/-- The client is connected to the broker, and Ana is logged in. -/
def engineerBackend : Backend where
  site := { offline with world := panel, link := { offline.link with connected := true } }
  sessions sid := if sid = "s1" then some engineer else none

/-- The pool in which one client has arrived. -/
def arrived (a : Arrival) : Pool Backend (Process (gateway panelConfig)) :=
  ⟨engineerBackend,
    Function.update (fun _ => none) 0 (some (Process.start (gateway panelConfig) a))⟩

theorem step_arrived (a : Arrival) : Pool.Step (gateway panelConfig).machine (fun _ => True)
    (Pool.start engineerBackend) (.start a) (arrived a) :=
  System.step_of_move (O := gatewayOracle panelConfig) (n := 1) (m := .start 0 a) rfl

theorem below_arrived (a : Arrival) : System.Below 1 (arrived a) :=
  System.below_of_move (O := gatewayOracle panelConfig) (m := .start 0 a) (e := .start a)
    (System.below_start engineerBackend) rfl

/-- Nobody else arrives, and nothing else happens. -/
def issues : GatewayEvent → Bool
  | .did _ _ _ _ => true
  | _ => false

theorem arrives_of_issues {b : Backend} {e : GatewayEvent} (h : issues e = true) :
    Arrives b e ∧ NamesHolder e := by
  cases e with
  | did a q c r => exact ⟨trivial, trivial⟩
  | _ => cases h

/-- The first client goes on for `n` commands. -/
def issue (n : ℕ) : List (System.Move Arrival BackendEvent Outcome) :=
  .step 0 (.attempt "") :: .step 0 (.attempt panelRequest) :: List.replicate n (.step 0 (.attempt ""))

/-- The engineer asks all devices to announce themselves. -/
def announcement : Arrival := ⟨some "s1", some engineer, .http .discoverDevicesBroadcast⟩

/-- The socket asks the same, and names her. -/
def socketAnnouncement : Arrival :=
  ⟨some "s1", some engineer, .socket (.discoveryBroadcast (some (.obj [("userId", .str "ana")])))⟩

/-- Both are under way. -/
def bothArrived : Pool Backend (Process (gateway panelConfig)) :=
  ⟨engineerBackend, Function.update (arrived announcement).threads 1
    (some (Process.start (gateway panelConfig) socketAnnouncement))⟩

theorem named_socketAnnouncement : socketAnnouncement.Named := by
  intro v hv
  cases hv
  exact ⟨engineer, rfl, rfl, .engineer, by decide, rfl⟩

theorem run_bothArrived :
    Run ((gateway panelConfig).Step fun p e => Arrives p.shared e ∧ NamesHolder e)
      (Pool.start engineerBackend) [.start socketAnnouncement, .start announcement]
        bothArrived := by
  have hsecond : Pool.Step (gateway panelConfig).machine (fun _ => True) (arrived announcement)
      (.start socketAnnouncement) bothArrived :=
    System.step_of_move (O := gatewayOracle panelConfig) (n := 2)
      (m := .start 1 socketAnnouncement) rfl
  have hfirst : Run ((gateway panelConfig).Step fun p e => Arrives p.shared e ∧ NamesHolder e)
      (Pool.start engineerBackend) [.start announcement] (arrived announcement) :=
    .single ⟨step_arrived announcement, rfl, trivial⟩
  exact hfirst.snoc ⟨hsecond, rfl, named_socketAnnouncement⟩

theorem below_bothArrived : System.Below 2 bothArrived :=
  System.below_of_move (O := gatewayOracle panelConfig) (m := .start 1 socketAnnouncement)
    (e := .start socketAnnouncement) (fun i hi => below_arrived announcement i (by omega)) rfl

/-- The id that is drawn for the second of two requests. -/
def secondRequest : String := "4c8e2f17-90ab-4d36-b5c1-7e0d93fa6b28"

/-- The two go on in turns. -/
def issueInTurns (n : ℕ) : List (System.Move Arrival BackendEvent Outcome) :=
  [.step 0 (.attempt ""), .step 1 (.attempt ""), .step 0 (.attempt panelRequest),
    .step 1 (.attempt secondRequest)] ++
    (List.replicate n [.step 0 (.attempt ""), .step 1 (.attempt "")]).flatten

theorem provenance_of_namesHolder_engineer :
    ∃ tr p, Run ((gateway panelConfig).Step fun p e => Arrives p.shared e ∧ NamesHolder e)
        (Pool.start engineerBackend) tr p ∧ p.shared.site.link.sent.length = 2 ∧
      ∀ a c r, .did a () c r ∈ tr → a.Provenance c := by
  have hscript : (System.play (gatewayOracle panelConfig) 2 (fun _ e => issues e)
      bothArrived (issueInTurns 5)).any
        (fun p => decide (p.shared.site.link.sent.length = 2)) = true := by
    decide +kernel
  obtain ⟨tr, p, hrest, -, htest⟩ :=
    System.exists_run (fun _ _ _ => arrives_of_issues) below_bothArrived hscript
  have hrun := run_bothArrived.trans hrest
  exact ⟨_, p, hrun, of_decide_eq_true htest,
    fun a c r he => provenance_of_namesHolder panelConfig hrun he⟩

/-- A client without a session asks the same in the name of the engineer. -/
def impostor : Arrival :=
  ⟨none, none, .socket (.discoveryBroadcast (some (.obj [("userId", .str "ana")])))⟩

/-- The client is about to write an entry in the name of the engineer. -/
def writesEntry (t : Process (gateway panelConfig)) : Bool :=
  match t.prog with
  | .await (.cacheSetex _ value) _ =>
    JsVal.strictEq (some (.str "ana")) (value.get "userId") && t.call.session.isNone
  | _ => false

theorem not_provenance_of_socket :
    ¬ ∀ (cfg : Config) (b : Backend) (tr : List GatewayEvent)
        (p : Pool Backend (Process (gateway cfg))) (a : Arrival) (c : Command)
        (r : Except Exception c.Reply),
      Run ((gateway cfg).Step fun p e => Arrives p.shared e) (Pool.start b) tr p →
        .did a () c r ∈ tr → a.Provenance c := by
  intro h
  have hscript : (System.play (gatewayOracle panelConfig) 1 (fun _ e => issues e)
      (arrived impostor) (issue 1)).any (fun p => (p.threads 0).any writesEntry) = true := by
    decide +kernel
  obtain ⟨tr, p, hrest, -, htest⟩ :=
    System.exists_run (fun _ _ _ he => (arrives_of_issues he).1) (below_arrived _) hscript
  obtain ⟨t, ht, hwrites⟩ := (Option.any_eq_true _ _).mp htest
  unfold writesEntry at hwrites
  split at hwrites
  · rename_i key value k hprog
    obtain ⟨huser, hnone⟩ := Bool.and_eq_true_iff.mp hwrites
    let site := (p.shared.site.attempt panelConfig "" (.cacheSetex key value)).2
    have hexec : (gateway panelConfig).execute p.shared (.cacheSetex key value) (.ok ())
        { p.shared with site } :=
      ⟨.attempted "" (.cacheSetex key value) nofun, rfl⟩
    obtain ⟨q, hstep⟩ := System.exists_did ht hprog hexec
    have hfirst : Run ((gateway panelConfig).Step fun p e => Arrives p.shared e)
        (Pool.start engineerBackend) [.start impostor] (arrived impostor) :=
      .single ⟨step_arrived impostor, rfl⟩
    have hrun := (hfirst.trans hrest).snoc ⟨hstep, trivial⟩
    obtain ⟨d, hd, -⟩ := h panelConfig engineerBackend _ q t.call _ _ hrun List.mem_cons_self
      (.str "ana") (eq_of_strictEq_str huser)
    rw [hd] at hnone
    cases hnone
  · cases hwrites

end IotPanel.Device

import IotPanel.Device.Connection
import IotPanel.Device.Gateway
import IotPanel.Device.Protocol
import IotPanel.Device.Site
import IotPanel.Lib.Process
import IotPanel.Lib.Returns
import Mathlib.Algebra.Group.Prod
import Mathlib.Algebra.Order.Group.Multiset

/-!
# What the device services are asked to do

The messages of the broker, the routes and the socket of the clients and the callbacks of the
connection, all side by side on one database and one connection. Of each call it is known whether
its message has found its request in the cache, which rows it has found, and what it has stored.
-/

namespace IotPanel.Device

open Responser (CodedType pendingKey checkCached)
open ResponserService (discoveredId discoveredSensor hardwareStatus)
open DeviceService (assigned invalidSensorTypes)
open Program

inductive Errand
  | message (d : Delivery)
  | arrival (a : Arrival)
  | initConnection
  | onConnect
  | disconnect

/-- The columns of a sensor that no update sets. -/
structure Identity where
  deviceId : JsVal
  capabilities : JsVal
  isActuator : Bool

def Sensor.identity (v : Sensor) : Identity := ⟨v.deviceId, v.capabilities, v.isActuator⟩

/-- Sensors, telemetry and hardware statuses. -/
abbrev Records := Multiset Identity × Multiset Telemetry × Multiset HardwareStatus

def telemetryRecord (payload : Json) : Telemetry :=
  ⟨payload.get "deviceId", payload.get "metric", payload.get "value", payload.get "meta"⟩

/-- The update that the handler of the message may make. -/
def Delivery.sets (d : Delivery) : Option SensorUpdate :=
  match d.kind with
  | .discovery => some { SensorUpdate.none with isDeleted := some false }
  | .assign =>
    if (d.payload.get "status").strictEq (some (.str "accepted")) then
      some (assigned (d.payload.get "functionality"))
    else none
  | .upgrade =>
    if (d.payload.get "status").strictEq (some (.str "success")) then
      some { SensorUpdate.none with lastUpgrade := some (newDate (d.payload.get "timestamp")) }
    else none
  | .heartbeat =>
    some { SensorUpdate.none with connectionState := some (d.payload.get "connectionState") }
  | .reboot =>
    some { SensorUpdate.none with lastReboot := some (newDate (d.payload.get "timestamp")) }
  | .ack | .telemetry | .hardwareStatus => none

/-- What the handler of the message may store. -/
def Delivery.due (d : Delivery) : Records :=
  match d.kind with
  | .discovery => ({(discoveredSensor d.payload).identity}, 0, 0)
  | .telemetry => (0, {telemetryRecord d.payload}, 0)
  | .hardwareStatus => (0, 0, {hardwareStatus d.payload})
  | _ => 0

/-- What is known of a call. -/
structure Progress where
  accepted : Bool
  found : List Sensor
  stored : Records

namespace Progress

def fresh : Progress := ⟨false, [], 0⟩

def find (g : Progress) (found : Option Sensor) : Progress :=
  { g with found := found.toList ++ g.found }

def store (g : Progress) (x : Records) : Progress := { g with stored := g.stored + x }

theorem stored_store {g : Progress} {x : Records} (h : g.stored = 0) : (g.store x).stored = x := by
  show g.stored + x = x
  rw [h, zero_add]

end Progress

/-- The guards of the route let the client through. -/
def Arrival.passes (a : Arrival) : Prop :=
  ∃ route d, a.entry = .http route ∧ guards route.roles a.cookie a.session = .ok d

/-- The device that is named by the route or in the message. -/
def Arrival.deviceId (a : Arrival) : JsVal :=
  match a.entry with
  | .http route =>
    match route with
    | .getSingleSensor id | .getHardwareStatus id | .deleteSensor id
    | .getDeviceConfiguration id | .getDeviceStatus id => some (.str id)
    | .provisionDevice body => some (.str body.deviceId)
    | .reconfigureDevice configData => some (.str configData.deviceId)
    | .getDeviceTelemetry telemetry => some (.str telemetry.deviceId)
    | _ => none
  | .socket (.sensorProvision (some body)) => some (.str body.deviceId)
  | .socket _ => none

/-- The update that the handler of the route may make. -/
def Arrival.sets (a : Arrival) : Option SensorUpdate :=
  match a.entry with
  | .http (.provisionDevice body) =>
    some (assigned (some (.arr (body.functionality.map .str))))
  | .http (.deleteSensor _) => some { SensorUpdate.none with isDeleted := some true }
  | .http (.reconfigureDevice configData) =>
    some { SensorUpdate.none with configuration := some (some configData.json) }
  | _ => none

namespace Errand

def program (cfg : Config) : Errand → Prog Unit
  | message d => ListenerService.listen cfg d.kind d.topic d.payload
  | arrival a => a.program cfg
  | initConnection => MqttClientService.initConnection
  | onConnect => MqttClientService.onConnect cfg
  | disconnect => MqttClientService.disconnect

/-- The device whose rows the call looks up and writes. -/
def deviceId : Errand → JsVal
  | message d => d.deviceId
  | arrival a => a.deviceId
  | initConnection | onConnect | disconnect => none

/-- The update that the call may make. -/
def sets : Errand → Option SensorUpdate
  | message d => d.sets
  | arrival a => a.sets
  | initConnection | onConnect | disconnect => none

def due : Errand → Records
  | message d => d.due
  | _ => 0

/-- The handler of a message acts when the message has been accepted, and on its own code; the
handler of a route acts behind the guards. -/
def Acts (k : Errand) (g : Progress) : Prop :=
  match k with
  | message d => g.accepted = true ∧ d.proceeds = true
  | arrival a => a.passes
  | _ => False

/-- What is assigned has been compared with the capabilities of a row that was found. -/
def Compared (g : Progress) (u : SensorUpdate) : Prop :=
  ∀ f, u.assignedFunctionality = some f →
    ∃ row ∈ g.found, invalidSensorTypes row.capabilities f = .ok []

/-- The call stores what it is due to, and has not done so before. -/
def Stores (k : Errand) (g : Progress) (x : Records) : Prop :=
  k.Acts g ∧ g.stored = 0 ∧ x = k.due

def allows (k : Errand) (g : Progress) : Command → Prop
  | .findSensor q => q.deviceId = k.deviceId
  | .cacheGet key => ∃ d, k = message d ∧ key = pendingKey (d.payload.get "requestId") ∧
      d.Validated ∧ g.accepted = false
  | .updateSensors deviceId u =>
    k.Acts g ∧ deviceId = k.deviceId ∧ k.sets = some u ∧ Compared g u
  | .saveSensor v => k.Stores g ({v.identity}, 0, 0) ∧ g.found = [] ∧
      ∃ d, k = message d ∧ v = discoveredSensor d.payload
  | .saveTelemetry t => k.Stores g (0, {t}, 0)
  | .saveHardwareStatus h => k.Stores g (0, 0, {h})
  | _ => True

/-- The message is accepted with this entry of the cache. -/
def accepts (k : Errand) (cached : Option Json) : Bool :=
  match k with
  | message d => decide (d.checked cached = .accepted)
  | _ => false

def next (k : Errand) (g : Progress) : (c : Command) → Except Exception c.Reply → Progress
  | .cacheGet _, .ok cached => { g with accepted := k.accepts cached }
  | .findSensor _, .ok found => g.find found
  | .saveSensor v, .ok _ => g.store ({v.identity}, 0, 0)
  | .saveTelemetry t, .ok _ => g.store (0, {t}, 0)
  | .saveHardwareStatus h, .ok _ => g.store (0, 0, {h})
  | _, _ => g

def protocol (k : Errand) : Protocol Progress Command Command.Reply Exception where
  allowed := k.allows
  next := k.next

/-- A message whose listener has gone on and returned has stored what is due, unless it is the
discovery of a device that is stored. -/
def ends (k : Errand) (r : Except Exception Unit) (g : Progress) : Prop :=
  ∀ d, k = message d → r = .ok () →
    (ListenerService.listener d.kind).goesOn d.topic d.payload = true →
      g.stored = d.due ∨ (d.kind = .discovery ∧ g.found ≠ [])

end Errand

/-! ### What the parts of a call come to -/

section Parts

variable {cfg : Config} {k : Errand} {g : Progress} {α : Type}

/-- A command that tells nothing, and writes neither sensors nor records. -/
def Quiet : Command → Prop
  | .cacheGet _ | .findSensor _ | .updateSensors _ _ | .saveSensor _ | .saveTelemetry _
  | .saveHardwareStatus _ => False
  | _ => True

theorem stays_of_quiet {c : Command} (h : Quiet c) :
    (perform c : Prog c.Reply).Stays k.protocol g := by
  cases c with
  | cacheGet key => exact h.elim
  | findSensor q => exact h.elim
  | updateSensors deviceId u => exact h.elim
  | saveSensor v => exact h.elim
  | saveTelemetry t => exact h.elim
  | saveHardwareStatus x => exact h.elim
  | _ => exact stays_perform trivial fun _ => rfl

theorem topical_errand : Topical k.protocol g where
  findTopic _ := stays_of_quiet trivial
  saveTopic _ := stays_of_quiet trivial

theorem stays_deleteCache_errand (payload : Json) :
    (ResponserService.deleteCache payload).Stays k.protocol g :=
  stays_ite (fun _ => stays_of_quiet trivial) fun _ => stays_pure

theorem stays_update {deviceId : JsVal} {u : SensorUpdate} (hacts : k.Acts g)
    (hdevice : deviceId = k.deviceId) (hsets : k.sets = some u) (hcompared : Errand.Compared g u) :
    (updateSensors deviceId u).Stays k.protocol g :=
  stays_perform ⟨hacts, hdevice, hsets, hcompared⟩ fun _ => rfl

/-- What assigns nothing needs no comparison. -/
theorem compared_of_none {u : SensorUpdate} (h : u.assignedFunctionality = none) :
    Errand.Compared g u := by
  intro f hf
  rw [h] at hf
  cases hf

/-- A lookup of the sensor and what is done with its answer. -/
theorem returns_lookup {q : SensorQuery} {rest : Option Sensor → Prog α}
    {Q : α → Progress → Prop} (hq : q.deviceId = k.deviceId)
    (hnone : (rest none).Returns k.protocol Q g)
    (hsome : ∀ row, (rest (some row)).Returns k.protocol Q (g.find (some row))) :
    (findSensor q >>= rest).Returns k.protocol Q g := by
  have hfound : (findSensor q).Returns k.protocol (fun found g' => g' = g.find found) g :=
    returns_perform hq fun _ => rfl
  refine returns_bind hfound ?_
  rintro found _ rfl
  cases found with
  | none => exact hnone
  | some row => exact hsome row

/-- Functionality that is valid has been compared with a row. -/
theorem returns_validateSensorTypes {deviceId functionality : JsVal}
    (hdevice : deviceId = k.deviceId) :
    (DeviceService.validateSensorTypes deviceId functionality).Returns k.protocol
      (fun _ g' => ∃ row, g' = g.find (some row) ∧
        invalidSensorTypes row.capabilities functionality = .ok []) g := by
  refine returns_lookup hdevice returns_throw fun row => ?_
  dsimp only
  cases hinvalid : invalidSensorTypes row.capabilities functionality with
  | error e => exact returns_throw
  | ok rest =>
    cases rest with
    | nil => exact returns_pure ⟨row, rfl, hinvalid⟩
    | cons _ _ => exact returns_throw

theorem compared_find {row : Sensor} {f : JsVal}
    (h : invalidSensorTypes row.capabilities f = .ok []) :
    Errand.Compared (g.find (some row)) (assigned f) := by
  rintro _ ⟨⟩
  exact ⟨row, List.mem_cons_self, h⟩

end Parts

/-! ### Messages -/

section Messages

variable {cfg : Config} {d : Delivery} {g : Progress}

/-- What a listener that returns has come to. -/
def Delivery.Done (d : Delivery) (g : Progress) : Prop :=
  g.stored = d.due ∨ (d.kind = .discovery ∧ g.found ≠ [])

/-- The message has been accepted, and its handler is to do its work. -/
structure Ready (d : Delivery) (g : Progress) : Prop where
  accepted : g.accepted = true
  found : g.found = []
  stored : g.stored = 0

theorem done_of_due {g : Progress} (hdue : d.due = 0) (h : g.stored = 0) : d.Done g :=
  .inl (h.trans hdue.symm)

theorem returns_transformAndValidate :
    (ListenerService.transformAndValidate d.kind d.payload).Returns (Errand.message d).protocol
      (fun p g' => p = d.payload ∧ Ready d g') .fresh := by
  refine returns_after (stays_of_quiet trivial) fun time => ?_
  refine returns_guard fun hvalid => ?_
  have hread : (cacheGet (pendingKey (d.payload.get "requestId"))).Returns
      (Errand.message d).protocol
      (fun cached g' => g' = { Progress.fresh with
        accepted := decide (d.checked cached = .accepted) }) .fresh :=
    returns_perform ⟨d, rfl, rfl, ⟨time, by simpa using hvalid⟩, rfl⟩ fun _ => rfl
  refine returns_bind hread ?_
  rintro cached _ rfl
  dsimp only
  cases hchecked : checkCached cached d.payload with
  | error e => exact returns_throw
  | ok p =>
    refine returns_pure ⟨eq_of_checkCached hchecked, ?_, rfl, rfl⟩
    simp [Delivery.checked, hchecked]

theorem acts_of_ready (h : Ready d g) (hgo : d.proceeds = true) : (Errand.message d).Acts g :=
  ⟨h.accepted, hgo⟩

/-- An update that is made after the last test of a handler. -/
theorem returns_update_then {deviceId : JsVal} {u : SensorUpdate}
    (hacts : (Errand.message d).Acts g) (hdevice : deviceId = d.deviceId)
    (hsets : d.sets = some u) (hcompared : Errand.Compared g u) (hdone : d.Done g) :
    (updateSensors deviceId u >>= fun _ => ResponserService.deleteCache d.payload).Returns
      (Errand.message d).protocol (fun _ => d.Done) g :=
  returns_after (stays_update hacts hdevice hsets hcompared) fun _ =>
    returns_of_stays (stays_deleteCache_errand _) fun _ => hdone

theorem returns_handleDiscoveryResponse (hkind : d.kind = .discovery) (h : Ready d g) :
    (ResponserService.handleDiscoveryResponse cfg d.payload).Returns (Errand.message d).protocol
      (fun _ => d.Done) g := by
  have hgo : d.proceeds = true := by rw [Delivery.proceeds, hkind]
  have hsets : d.sets = some { SensorUpdate.none with isDeleted := some false } := by
    rw [Delivery.sets, hkind]
  have hdue : d.due = ({(discoveredSensor d.payload).identity}, 0, 0) := by
    rw [Delivery.due, hkind]
  have hbase : ∀ g' name, (TopicService.createDeviceBaseTopic cfg name).Stays
      (Errand.message d).protocol g' := fun _ _ => stays_storeTopic cfg topical_errand _ _ _
  have hannounce : ∀ g', d.Done g' → (announceDiscovered d.payload).Returns
      (Errand.message d).protocol (fun _ => d.Done) g' := by
    intro g' hdone
    refine returns_after (stays_of_quiet trivial) fun _ => ?_
    exact returns_ite (fun _ => returns_of_stays (stays_deleteCache_errand _) fun _ => hdone)
      fun _ => returns_pure hdone
  cases hid : discoveredId d.payload with
  | error e =>
    unfold ResponserService.handleDiscoveryResponse
    rw [hid]
    exact returns_throw
  | ok id =>
    have hdevice : id = d.deviceId := deviceId_of_discoveredId hkind hid
    rw [handleDiscoveryResponse_eq hid]
    refine returns_lookup hdevice ?_ fun row => ?_
    · -- a device that is not known yet is stored with its topics
      refine returns_after (hbase g _) fun base => ?_
      refine returns_bind (Q := fun _ => d.Done) (returns_rethrow ?_) fun _ g' hdone =>
        hannounce g' hdone
      have hstored : (saveSensor (discoveredSensor d.payload)).Returns (Errand.message d).protocol
          (fun _ => d.Done) g :=
        returns_perform ⟨⟨acts_of_ready h hgo, h.stored, hdue.symm⟩, h.found, d, rfl, rfl⟩
          fun _ => .inl ((Progress.stored_store h.stored).trans hdue.symm)
      refine returns_bind hstored fun _ g' hdone => ?_
      refine returns_after (stays_of_quiet trivial) fun _ => ?_
      refine returns_after (stays_createAllTopicsForDevice cfg topical_errand _) fun topics => ?_
      exact returns_of_stays (stays_of_quiet trivial) fun _ => hdone
    · have hdone : d.Done (g.find (some row)) := .inr ⟨hkind, List.cons_ne_nil _ _⟩
      have hrest : (takeDiscovered cfg d.payload (Responser.interpolate id) (some row)).Returns
          (Errand.message d).protocol (fun _ => d.Done) (g.find (some row)) :=
        returns_after (hbase _ _) fun base => hannounce _ hdone
      refine returns_ite (fun _ => ?_) fun _ => hrest
      refine returns_after (stays_update ?_ hdevice hsets (compared_of_none rfl)) fun _ => hrest
      exact ⟨h.accepted, hgo⟩

theorem returns_handleAssignResponse (hkind : d.kind = .assign) (h : Ready d g) :
    (ResponserService.handleAssignResponse d.payload).Returns (Errand.message d).protocol
      (fun _ => d.Done) g := by
  have hdevice : d.payload.get "deviceId" = d.deviceId := by rw [Delivery.deviceId, hkind]
  have hdue : d.due = 0 := by rw [Delivery.due, hkind]
  refine returns_ite (fun _ => returns_throw) fun hcode => ?_
  refine returns_ite (fun _ => returns_throw) fun hstatus => ?_
  have hgo : d.proceeds = true := by
    rw [Delivery.proceeds, hkind]
    simpa using hcode
  have hsets : d.sets = some (assigned (d.payload.get "functionality")) := by
    rw [Delivery.sets, hkind]
    exact if_pos (by simpa using hstatus)
  refine returns_bind (returns_validateSensorTypes hdevice) ?_
  rintro _ _ ⟨row, rfl, hvalid⟩
  exact returns_update_then ⟨h.accepted, hgo⟩ hdevice hsets (compared_find hvalid)
    (done_of_due hdue h.stored)

theorem returns_handleUpgradeResponse (hkind : d.kind = .upgrade) (h : Ready d g) :
    (ResponserService.handleUpgradeResponse d.payload).Returns (Errand.message d).protocol
      (fun _ => d.Done) g := by
  have hdevice : d.payload.get "deviceId" = d.deviceId := by rw [Delivery.deviceId, hkind]
  have hdone : d.Done g := done_of_due (by rw [Delivery.due, hkind]) h.stored
  refine returns_ite (fun _ => returns_pure hdone) fun hcode => ?_
  refine returns_ite (fun _ => returns_pure hdone) fun _ => ?_
  refine returns_ite (fun hstatus => ?_) fun _ => returns_pure hdone
  have hgo : d.proceeds = true := by
    rw [Delivery.proceeds, hkind]
    simpa using hcode
  have hsets : d.sets =
      some { SensorUpdate.none with lastUpgrade := some (newDate (d.payload.get "timestamp")) } := by
    rw [Delivery.sets, hkind]
    exact if_pos hstatus
  exact returns_update_then ⟨h.accepted, hgo⟩ hdevice hsets (compared_of_none rfl) hdone

theorem returns_handleDeviceHeartbeat (hkind : d.kind = .heartbeat) (h : Ready d g) :
    (ResponserService.handleDeviceHeartbeat d.payload).Returns (Errand.message d).protocol
      (fun _ => d.Done) g := by
  have hdevice : d.payload.get "deviceId" = d.deviceId := by rw [Delivery.deviceId, hkind]
  have hdue : d.due = 0 := by rw [Delivery.due, hkind]
  refine returns_ite (fun _ => returns_pure (done_of_due hdue h.stored)) fun hcode => ?_
  have hgo : d.proceeds = true := by
    rw [Delivery.proceeds, hkind]
    simpa using hcode
  have hsets : d.sets = some
      { SensorUpdate.none with connectionState := some (d.payload.get "connectionState") } := by
    rw [Delivery.sets, hkind]
  refine returns_lookup hdevice returns_throw fun row => ?_
  exact returns_update_then ⟨h.accepted, hgo⟩ hdevice hsets (compared_of_none rfl)
    (done_of_due hdue h.stored)

theorem returns_handleRebootResponse (hkind : d.kind = .reboot) (h : Ready d g) :
    (ResponserService.handleRebootResponse d.payload).Returns (Errand.message d).protocol
      (fun _ => d.Done) g := by
  have hdevice : d.payload.get "deviceId" = d.deviceId := by rw [Delivery.deviceId, hkind]
  have hdone : d.Done g := done_of_due (by rw [Delivery.due, hkind]) h.stored
  refine returns_ite (fun _ => returns_pure hdone) fun hcode => ?_
  have hgo : d.proceeds = true := by
    rw [Delivery.proceeds, hkind]
    simpa using hcode
  have hsets : d.sets =
      some { SensorUpdate.none with lastReboot := some (newDate (d.payload.get "timestamp")) } := by
    rw [Delivery.sets, hkind]
  exact returns_update_then ⟨h.accepted, hgo⟩ hdevice hsets (compared_of_none rfl) hdone

theorem returns_handleTelemetryResponse (hkind : d.kind = .telemetry) (h : Ready d g) :
    (ResponserService.handleTelemetryResponse d.payload).Returns (Errand.message d).protocol
      (fun _ => d.Done) g := by
  have hdue : d.due = (0, {telemetryRecord d.payload}, 0) := by rw [Delivery.due, hkind]
  refine returns_ite (fun _ => returns_throw) fun hcode => ?_
  have hgo : d.proceeds = true := by
    rw [Delivery.proceeds, hkind]
    simpa using hcode
  have hstored : (saveTelemetry (telemetryRecord d.payload)).Returns (Errand.message d).protocol
      (fun _ => d.Done) g :=
    returns_perform ⟨acts_of_ready h hgo, h.stored, hdue.symm⟩
      fun _ => .inl ((Progress.stored_store h.stored).trans hdue.symm)
  exact returns_bind hstored fun _ g' hdone =>
    returns_of_stays (stays_deleteCache_errand _) fun _ => hdone

theorem returns_handleHardwareStatus (hkind : d.kind = .hardwareStatus) (h : Ready d g) :
    (ResponserService.handleHardwareStatus d.payload).Returns (Errand.message d).protocol
      (fun _ => d.Done) g := by
  have hdevice : d.payload.get "deviceId" = d.deviceId := by rw [Delivery.deviceId, hkind]
  have hdue : d.due = (0, 0, {hardwareStatus d.payload}) := by rw [Delivery.due, hkind]
  refine returns_ite (fun _ => returns_throw) fun hcode => ?_
  have hgo : d.proceeds = true := by
    rw [Delivery.proceeds, hkind]
    simpa using hcode
  refine returns_lookup hdevice returns_throw fun row => ?_
  have hstored : (saveHardwareStatus (hardwareStatus d.payload)).Returns
      (Errand.message d).protocol (fun _ => d.Done) (g.find (some row)) :=
    returns_perform ⟨⟨h.accepted, hgo⟩, h.stored, hdue.symm⟩
      fun _ => .inl ((Progress.stored_store h.stored).trans hdue.symm)
  exact returns_bind hstored fun _ g' hdone =>
    returns_of_stays (stays_deleteCache_errand _) fun _ => hdone

theorem returns_handler (h : Ready d g)
    (hgo : (ListenerService.listener d.kind).goesOn d.topic d.payload = true) :
    (ListenerService.handler cfg d.kind d.payload).Returns (Errand.message d).protocol
      (fun _ => d.Done) g := by
  unfold ListenerService.handler
  cases hkind : d.kind with
  | discovery =>
    -- the listener has asked for a response id, too
    have hid : (d.payload.get "responseId").truthy = true := by
      rw [hkind] at hgo
      exact (Bool.and_eq_true_iff.mp hgo).2
    exact returns_ite (fun _ => returns_handleDiscoveryResponse hkind h) fun hno => absurd hid hno
  | assign => exact returns_handleAssignResponse hkind h
  | ack => exact returns_throw
  | upgrade => exact returns_handleUpgradeResponse hkind h
  | heartbeat => exact returns_handleDeviceHeartbeat hkind h
  | reboot => exact returns_handleRebootResponse hkind h
  | telemetry => exact returns_handleTelemetryResponse hkind h
  | hardwareStatus => exact returns_handleHardwareStatus hkind h

/-- A listener that goes on and returns has done its work. -/
theorem returns_listen :
    (ListenerService.listen cfg d.kind d.topic d.payload).Returns (Errand.message d).protocol
      (fun _ g' => (ListenerService.listener d.kind).goesOn d.topic d.payload = true → d.Done g')
      .fresh := by
  refine returns_ite (fun hno => ?_) fun hgo => ?_
  · refine returns_pure fun hgo => ?_
    rw [hgo] at hno
    cases hno
  · refine returns_bind returns_transformAndValidate ?_
    rintro _ g' ⟨rfl, hready⟩
    exact returns_mono (fun _ _ hdone _ => hdone) (returns_handler hready (by simpa using hgo))

end Messages

/-! ### Clients and callbacks -/

section Arrivals

variable {cfg : Config} {a : Arrival} {k : Errand} {g : Progress}

/-- Nothing is asked of what a client gets. -/
abbrev Complies (k : Errand) (g : Progress) {α : Type} (x : Prog α) : Prop :=
  x.Returns k.protocol (fun _ _ => True) g

theorem complies_of_stays {α : Type} {x : Prog α} (h : x.Stays k.protocol g) : Complies k g x :=
  returns_of_stays h fun _ => trivial

theorem complies_discoverOn {awaited : Bool} {compose : Mqtt.Topic → String}
    {payload : String → ℕ → Json} : Complies k g (discoverOn cfg awaited compose payload) := by
  refine returns_after (stays_getBroadcastTopic topical_errand) fun b => ?_
  refine returns_after (stays_of_quiet trivial) fun requestId => ?_
  refine returns_after (stays_of_quiet trivial) fun timestamp => ?_
  refine returns_after (stays_of_quiet trivial) fun _ => ?_
  refine returns_after (stays_storeTopic cfg topical_errand _ _ _) fun topic => ?_
  refine returns_after (stays_of_quiet trivial) fun _ => ?_
  exact complies_of_stays (stays_of_quiet trivial)

theorem complies_broadcastFor (userId : JsVal) :
    Complies k g (DeviceService.broadcastFor cfg userId) := by
  rw [DeviceService.broadcastFor_eq]
  exact complies_discoverOn

theorem complies_unicastFor (userId deviceId : JsVal) :
    Complies k g (DeviceService.unicastFor cfg userId deviceId) := by
  rw [DeviceService.unicastFor_eq]
  exact complies_discoverOn

theorem complies_getHardwareStatus {userId deviceId : String}
    (hdevice : some (.str deviceId) = k.deviceId) :
    Complies k g (DeviceService.getHardwareStatus cfg userId deviceId) := by
  refine returns_lookup hdevice returns_throw fun row => ?_
  refine returns_rethrow ?_
  refine returns_after (stays_of_quiet trivial) fun requestId => ?_
  refine returns_after (stays_of_quiet trivial) fun timestamp => ?_
  refine returns_after (stays_createTopic cfg topical_errand _ _) fun topic => ?_
  refine returns_after (stays_of_quiet trivial) fun _ => ?_
  exact complies_of_stays (stays_of_quiet trivial)

theorem complies_AssignDeviceFunction {userId : String} {dto : PublishSensorFunctionalityDto}
    (hentry : a.entry = .http (.provisionDevice dto)) (hpasses : a.passes) :
    Complies (.arrival a) g (DeviceService.AssignDeviceFunction userId dto) := by
  have hdevice : some (.str dto.deviceId) = (Errand.arrival a).deviceId := by
    rw [Errand.deviceId, Arrival.deviceId, hentry]
  have hsets : (Errand.arrival a).sets =
      some (assigned (some (.arr (dto.functionality.map .str)))) := by
    rw [Errand.sets, Arrival.sets, hentry]
  unfold DeviceService.AssignDeviceFunction
  refine returns_guard fun _ => ?_
  refine returns_after (stays_getDeviceTopicByUseCase topical_errand _ _) fun topic => ?_
  refine returns_bind (returns_validateSensorTypes hdevice) ?_
  rintro _ _ ⟨row, rfl, hvalid⟩
  refine returns_after (stays_of_quiet trivial) fun requestId => ?_
  refine returns_after (stays_of_quiet trivial) fun _ => ?_
  refine returns_after (stays_update hpasses hdevice hsets (compared_find hvalid)) fun _ => ?_
  exact complies_of_stays (stays_of_quiet trivial)

theorem complies_deleteSensor {deviceId : String}
    (hentry : a.entry = .http (.deleteSensor deviceId)) (hpasses : a.passes) :
    Complies (.arrival a) g (DeviceService.deleteSensor deviceId) := by
  have hdevice : some (.str deviceId) = (Errand.arrival a).deviceId := by
    rw [Errand.deviceId, Arrival.deviceId, hentry]
  have hsets : (Errand.arrival a).sets =
      some { SensorUpdate.none with isDeleted := some true } := by
    rw [Errand.sets, Arrival.sets, hentry]
  refine returns_lookup hdevice returns_throw fun row => ?_
  exact complies_of_stays (stays_update hpasses hdevice hsets (compared_of_none rfl))

theorem complies_setDeviceConfiguration {configData : SensorConfigDto}
    (hentry : a.entry = .http (.reconfigureDevice configData)) (hpasses : a.passes) :
    Complies (.arrival a) g (DeviceService.setDeviceConfiguration configData) := by
  have hdevice : some (.str configData.deviceId) = (Errand.arrival a).deviceId := by
    rw [Errand.deviceId, Arrival.deviceId, hentry]
  have hsets : (Errand.arrival a).sets =
      some { SensorUpdate.none with configuration := some (some configData.json) } := by
    rw [Errand.sets, Arrival.sets, hentry]
  refine returns_lookup hdevice returns_throw fun row => ?_
  refine returns_after (stays_getDeviceTopicByUseCase topical_errand _ _) fun topic => ?_
  refine returns_after (stays_of_quiet trivial) fun _ => ?_
  exact complies_of_stays (stays_update hpasses hdevice hsets (compared_of_none rfl))

theorem complies_getDeviceTelemetry {telemetry : PublishTelemetryDto}
    (hdevice : some (.str telemetry.deviceId) = k.deviceId) :
    Complies k g (DeviceService.getDeviceTelemetry telemetry) := by
  unfold DeviceService.getDeviceTelemetry
  refine returns_guard fun _ => returns_lookup hdevice returns_throw fun row => ?_
  refine returns_after (stays_getDeviceTopicByUseCase topical_errand _ _) fun topic => ?_
  refine returns_after (stays_of_quiet trivial) fun _ => ?_
  exact complies_of_stays (stays_of_quiet trivial)

/-- A list that is read. -/
theorem complies_listed {f : SensorFilter} {e : Exception} :
    Complies k g (do
      let found ← findSensors f
      if found = [] then throw e
      return found : Prog (List Sensor)) := by
  refine returns_after (stays_of_quiet trivial) fun found => ?_
  exact returns_ite (fun _ => returns_throw) fun _ => returns_pure trivial

/-- What is read, and not looked at here. -/
theorem complies_read {α : Type} {x : Prog α} (h : Complies k g x) :
    Complies k g (do let _ ← x) :=
  returns_bind h fun _ _ _ => returns_pure trivial

theorem complies_route {route : DeviceRoute} {userId : String} (hentry : a.entry = .http route)
    (hpasses : a.passes) : Complies (.arrival a) g (route.handler cfg userId) := by
  have hdevice : (Errand.arrival a).deviceId =
      (⟨a.cookie, a.session, .http route⟩ : Arrival).deviceId := by
    rw [Errand.deviceId, Arrival.deviceId, hentry]
    rfl
  cases route with
  | getAllSensors => exact complies_read complies_listed
  | getSingleSensor id =>
    refine complies_read (returns_lookup hdevice.symm returns_throw fun row => ?_)
    exact returns_pure trivial
  | querySensors query => exact complies_read (complies_of_stays (stays_of_quiet trivial))
  | discoverDevicesBroadcast =>
    exact complies_broadcastFor (some (.str userId))
  | discoverDeviceUnicast id =>
    exact complies_unicastFor (some (.str userId)) (some (.str id))
  | getUnassignedSensor => exact complies_read complies_listed
  | getHardwareStatus id => exact complies_getHardwareStatus hdevice.symm
  | provisionDevice body => exact complies_AssignDeviceFunction hentry hpasses
  | deleteSensor id => exact complies_deleteSensor hentry hpasses
  | getDeviceConfiguration id =>
    refine complies_read (returns_lookup hdevice.symm ?_ fun row => ?_)
    · exact returns_ite (fun _ => returns_throw) fun _ => returns_pure trivial
    · exact returns_ite (fun _ => returns_throw) fun _ => returns_pure trivial
  | reconfigureDevice configData => exact complies_setDeviceConfiguration hentry hpasses
  | getHistory id | controlDevice id => exact returns_pure trivial
  | getDeviceStatus id =>
    exact returns_lookup hdevice.symm returns_throw fun row => returns_pure trivial
  | getDeviceTelemetry telemetry => exact complies_getDeviceTelemetry hdevice.symm

theorem complies_socket {message : SocketMessage} (hentry : a.entry = .socket message) :
    Complies (.arrival a) g (message.handler cfg) := by
  cases message with
  | discoveryBroadcast payload =>
    cases payload with
    | none => exact returns_throw
    | some payload =>
      cases payload with
      | null => exact returns_throw
      | _ => exact complies_broadcastFor _
  | discoveryUnicast payload =>
    cases payload with
    | none => exact returns_throw
    | some payload =>
      cases payload with
      | null => exact returns_throw
      | _ => exact complies_unicastFor _ _
  | unassignedDevicesQuery => exact complies_read complies_listed
  | sensorsConfiguration => exact complies_read complies_listed
  | sensorProvision payload =>
    cases payload with
    | none => exact returns_throw
    | some dto =>
      have hdevice : some (.str dto.deviceId) = (Errand.arrival a).deviceId := by
        rw [Errand.deviceId, Arrival.deviceId, hentry]
      show Complies _ _ (GatewayService.handleSensorProvision (some dto))
      unfold GatewayService.handleSensorProvision
      refine returns_guard fun _ => ?_
      refine returns_after (stays_getDeviceTopicByUseCase topical_errand _ _) fun topic => ?_
      exact returns_bind (returns_validateSensorTypes hdevice) fun _ _ _ => returns_throw

theorem complies_arrival : Complies (.arrival a) g (a.program cfg) := by
  unfold Arrival.program
  cases hentry : a.entry with
  | http route =>
    dsimp only
    cases hguards : guards route.roles a.cookie a.session with
    | error e => exact returns_throw
    | ok d => exact complies_route hentry ⟨route, d, hentry, hguards⟩
  | socket message => exact complies_socket hentry

theorem complies_initConnection : Complies .initConnection g MqttClientService.initConnection :=
  returns_rethrow (complies_of_stays (stays_of_quiet trivial))

theorem complies_subscribed {k : Errand} : Complies k g TopicService.getAllSubscribedTopics := by
  refine returns_after (stays_of_quiet trivial) fun topics => ?_
  exact returns_ite (fun _ => returns_throw) fun _ => returns_pure trivial

theorem complies_onConnect : Complies .onConnect g (MqttClientService.onConnect cfg) := by
  refine returns_after (stays_of_quiet trivial) fun _ => ?_
  refine returns_after (stays_createTopic cfg topical_errand _ _) fun b => ?_
  refine returns_bind complies_subscribed fun topics g' _ => ?_
  exact complies_of_stays (stays_of_quiet trivial)

theorem complies_disconnect : Complies .disconnect g MqttClientService.disconnect := by
  refine returns_rethrow (returns_bind complies_subscribed fun topics g' _ => ?_)
  refine returns_after ?_ fun _ => ?_
  · induction topics with
    | nil => exact stays_pure
    | cons t ts ih => exact stays_bind (stays_of_quiet trivial) fun _ => ih
  · refine returns_after (stays_of_quiet trivial) fun _ => ?_
    exact complies_of_stays (stays_of_quiet trivial)

end Arrivals

/-- Every call follows its protocol. -/
theorem Errand.wp_program (cfg : Config) (k : Errand) :
    (k.program cfg).wp k.protocol k.ends .fresh := by
  have hserves : ∀ {x : Prog Unit}, (∀ d, k ≠ .message d) → Complies k .fresh x →
      x.wp k.protocol k.ends .fresh := fun hk h =>
    wp_mono (fun _ _ _ d hd => absurd hd (hk d)) h
  cases k with
  | message d =>
    refine wp_mono (fun r g h d' hd hr hgo => ?_) (@returns_listen cfg d)
    cases hd
    exact h () hr hgo
  | arrival a => exact hserves (by rintro d ⟨⟩) complies_arrival
  | initConnection => exact hserves (by rintro d ⟨⟩) complies_initConnection
  | onConnect => exact hserves (by rintro d ⟨⟩) complies_onConnect
  | disconnect => exact hserves (by rintro d ⟨⟩) complies_disconnect

/-! ### The calls side by side -/

/-- The site, and for the specifications the telemetry that the database has refused. -/
structure Archive where
  site : Site
  refused : List Telemetry

/-- What happens besides: time passes, a write to the cache is executed or lost, a record of
telemetry is saved or refused, and the connection to the broker is closed. -/
inductive Incident
  | tick (d : ℕ)
  | landed (i : ℕ)
  | lost (i : ℕ)
  | saved (i : ℕ)
  | refused (i : ℕ)
  | closed

namespace Archive

def setWorld (a : Archive) (w : World) : Archive := { a with site := { a.site with world := w } }

def after (cfg : Config) (a : Archive) : Incident → Option Archive
  | .tick d => some (a.setWorld { a.site.world with now := a.site.world.now + d })
  | .landed i => a.site.world.inFlight[i]?.map fun f =>
      a.setWorld (a.site.world.land cfg.ttl f (a.site.world.inFlight.eraseIdx i))
  | .lost i => a.site.world.inFlight[i]?.map fun _ =>
      a.setWorld { a.site.world with inFlight := a.site.world.inFlight.eraseIdx i }
  | .saved i => a.site.world.unsaved[i]?.map fun t =>
      a.setWorld { a.site.world with
        unsaved := a.site.world.unsaved.eraseIdx i
        telemetry := a.site.world.telemetry ++ [t] }
  | .refused i => a.site.world.unsaved[i]?.map fun t =>
      { a.setWorld { a.site.world with unsaved := a.site.world.unsaved.eraseIdx i } with
        refused := a.refused ++ [t] }
  | .closed =>
    some { a with site := { a.site with link := { a.site.link with connected := false } } }

end Archive

def errands (cfg : Config) :
    System Archive Errand Progress Incident Command Command.Reply Exception where
  program := Errand.program cfg
  protocol := Errand.protocol
  fresh := .fresh
  ends := Errand.ends
  follows := Errand.wp_program cfg
  env := Archive.after cfg
  execute a c r a' := Executes cfg a.site c r a'.site ∧ a'.refused = a.refused

abbrev ErrandEvent := CallEvent Errand Progress Incident Command Command.Reply Exception

abbrev ErrandPool (cfg : Config) := Pool Archive (Process (errands cfg))

/-- One command of one call, or an incident. -/
abbrev Attends (cfg : Config) : ErrandPool cfg → ErrandEvent → ErrandPool cfg → Prop :=
  (errands cfg).Step fun _ _ => True

end IotPanel.Device

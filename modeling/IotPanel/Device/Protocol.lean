import IotPanel.Device.Handlers

/-!
# What requests and deliveries do, step by step

A request draws one id, caches one entry under it and publishes one payload with it. A delivery
reads the cache once, and does nothing else before it has found its request there.
-/

namespace IotPanel.Device

open Responser (ResponseType CodedType pendingKey checkCached)
open Program

/-! ### Requests -/

/-- How far a request has come: it has drawn an id, and it has sent the entry to the cache. -/
inductive RequestPhase
  | fresh
  | drew (requestId : String)
  | cached (requestId : String)

/-- The entry that is cached for a request. -/
def RequestOp.entry (op : RequestOp) (requestId : String) : Json :=
  .obj [("requestCode", .str op.code), ("userId", .str op.userId), ("requestId", .str requestId)]

/-- What `getDeviceTelemetry` sends to the cache. -/
def undefinedEntry : Setex := ⟨"pending:undefined", .obj []⟩

def RequestOp.mayCache (op : RequestOp) (q : RequestPhase) (f : Setex) : Prop :=
  (∃ r, q = .drew r ∧ f = ⟨pendingKey (some (.str r)), op.entry r⟩) ∨
    (q = .fresh ∧ f = undefinedEntry)

def RequestOp.mayPublish (op : RequestOp) (q : RequestPhase) (payload : Json) : Prop :=
  (∃ r, q = .cached r ∧ payload.get "requestId" = some (.str r) ∧
    payload.get "userId" = some (.str op.userId)) ∨
  ∃ telemetry, op = .getDeviceTelemetry telemetry ∧ payload = telemetry.json

def RequestOp.protocol (op : RequestOp) : Protocol RequestPhase Command Command.Reply Exception where
  allowed q
    | .uuid => q = .fresh
    | .cacheSetex key value => op.mayCache q ⟨key, value⟩
    | .publish _ _ payload => op.mayPublish q payload
    | .cacheGet _ | .cacheDel _ | .saveSensor _ | .saveTelemetry _ | .saveHardwareStatus _
    | .emit _ => False
    | _ => True
  next q c r :=
    match c, r with
    | .uuid, .ok id => .drew id
    | .cacheSetex _ _, _ =>
      match q with
      | .drew id => .cached id
      | q => q
    | _, _ => q

section Topics

variable {S : Type} {P : Protocol S Command Command.Reply Exception} {s : S}

/-- A protocol that lets topics be looked up and stored. -/
structure Topical (P : Protocol S Command Command.Reply Exception) (s : S) : Prop where
  findTopic : ∀ q, (findTopic q).Stays P s
  saveTopic : ∀ t, (saveTopic t).Stays P s

theorem stays_getBroadcastTopic (h : Topical P s) : TopicService.getBroadcastTopic.Stays P s := by
  refine stays_bind (h.findTopic _) fun found => ?_
  cases found with
  | some t => exact stays_pure
  | none => exact stays_throw

theorem stays_getDeviceTopicByUseCase (h : Topical P s) (deviceId : String)
    (useCase : Mqtt.TopicUseCase) :
    (TopicService.getDeviceTopicByUseCase deviceId useCase).Stays P s := by
  refine stays_bind (h.findTopic _) fun found => ?_
  cases found with
  | some t => exact stays_pure
  | none => exact stays_throw

variable {cfg : Config} {deviceId topic : String} {useCase : Mqtt.TopicUseCase}

theorem stays_storeTopic_of (hfind : ∀ q, (findTopic q).Stays P s)
    (hsave : (saveTopic ⟨cfg.topics.mqttBrokerUrl, deviceId, topic, useCase, true⟩).Stays P s) :
    (TopicService.storeTopic cfg deviceId topic useCase).Stays P s := by
  refine stays_bind (hfind _) fun found => ?_
  cases found with
  | some t => exact stays_pure
  | none => exact stays_bind hsave fun _ => stays_pure

theorem stays_createTopic_of (hfind : ∀ q, (findTopic q).Stays P s)
    (hsave : (saveTopic ⟨cfg.topics.mqttBrokerUrl, deviceId,
      cfg.topics.deviceTopic deviceId useCase, useCase, true⟩).Stays P s) :
    (TopicService.createTopic cfg deviceId useCase).Stays P s := by
  refine stays_bind (hfind _) fun found => ?_
  cases found with
  | some t => exact stays_pure
  | none => exact stays_storeTopic_of hfind hsave

theorem stays_createAllTopicsForDevice_of (hfind : ∀ q, (findTopic q).Stays P s)
    (hsave : ∀ topic useCase,
      (saveTopic ⟨cfg.topics.mqttBrokerUrl, deviceId, topic, useCase, true⟩).Stays P s) :
    (TopicService.createAllTopicsForDevice cfg deviceId).Stays P s :=
  stays_bind (stays_storeTopic_of hfind (hsave _ _)) fun _ =>
    stays_bind (stays_mapM fun _ => stays_createTopic_of hfind (hsave _ _)) fun _ => stays_pure

variable (cfg)

theorem stays_storeTopic (h : Topical P s) (deviceId topic : String)
    (useCase : Mqtt.TopicUseCase) :
    (TopicService.storeTopic cfg deviceId topic useCase).Stays P s :=
  stays_storeTopic_of h.findTopic (h.saveTopic _)

theorem stays_createTopic (h : Topical P s) (deviceId : String) (useCase : Mqtt.TopicUseCase) :
    (TopicService.createTopic cfg deviceId useCase).Stays P s :=
  stays_createTopic_of h.findTopic (h.saveTopic _)

theorem stays_createAllTopicsForDevice (h : Topical P s) (deviceId : String) :
    (TopicService.createAllTopicsForDevice cfg deviceId).Stays P s :=
  stays_createAllTopicsForDevice_of h.findTopic fun _ _ => h.saveTopic _

end Topics

section Discoveries

open ResponserService (discoveredId discoveredSensor handleDiscoveryResponse)

variable {S : Type} {P : Protocol S Command Command.Reply Exception} {s : S} {cfg : Config}
  {payload : Json} {id : JsVal}

/-- What is done for a device that is not known yet. -/
def storeDiscovered (cfg : Config) (payload : Json) (deviceId : String) (base : Mqtt.Topic) :
    Prog Unit := do
  saveSensor (discoveredSensor payload)
  subscribe [base.topic]
  let otherTopics ← TopicService.createAllTopicsForDevice cfg deviceId
  subscribe (otherTopics.map fun t => t.topic)

def announceDiscovered (payload : Json) : Prog Unit := do
  emit payload
  if !(payload.get "isBroadcast").truthy then
    ResponserService.deleteCache payload

/-- What is done when the sensor has been looked up. -/
def takeDiscovered (cfg : Config) (payload : Json) (deviceId : String) (stored : Option Sensor) :
    Prog Unit := do
  let base ← TopicService.createDeviceBaseTopic cfg deviceId
  if stored.isNone then
    try storeDiscovered cfg payload deviceId base
    catch _ => throw (.forbidden "Discovery data malformed")
  announceDiscovered payload

theorem handleDiscoveryResponse_eq (h : discoveredId payload = .ok id) :
    handleDiscoveryResponse cfg payload = (do
      let stored ← findSensor ⟨id, none, none⟩
      if stored.any fun s => s.isDeleted then
        updateSensors id { SensorUpdate.none with isDeleted := some false }
      takeDiscovered cfg payload (Responser.interpolate id) stored) := by
  unfold handleDiscoveryResponse
  rw [h]
  rfl

/-- A protocol that lets the handler of a discovery do all its parts. -/
structure LetsDiscover (cfg : Config) (P : Protocol S Command Command.Reply Exception) (s : S)
    (payload : Json) (id : JsVal) : Prop where
  findSensor : ∀ q, (findSensor q).Stays P s
  restore : (updateSensors id { SensorUpdate.none with isDeleted := some false }).Stays P s
  findTopic : ∀ q, (findTopic q).Stays P s
  saveTopic : ∀ topic useCase, (saveTopic
    ⟨cfg.topics.mqttBrokerUrl, Responser.interpolate id, topic, useCase, true⟩).Stays P s
  saveSensor : (saveSensor (discoveredSensor payload)).Stays P s
  subscribe : ∀ topics, (subscribe topics).Stays P s
  emit : (emit payload).Stays P s
  deleteCache : (ResponserService.deleteCache payload).Stays P s

theorem LetsDiscover.announceDiscovered (h : LetsDiscover cfg P s payload id) :
    (announceDiscovered payload).Stays P s :=
  stays_bind h.emit fun _ => stays_ite (fun _ => h.deleteCache) fun _ => stays_pure

theorem LetsDiscover.storeDiscovered (h : LetsDiscover cfg P s payload id) (base : Mqtt.Topic) :
    (storeDiscovered cfg payload (Responser.interpolate id) base).Stays P s := by
  refine stays_bind h.saveSensor fun _ => stays_bind (h.subscribe _) fun _ => ?_
  refine stays_bind (stays_createAllTopicsForDevice_of h.findTopic h.saveTopic) fun topics => ?_
  exact h.subscribe _

theorem LetsDiscover.takeDiscovered (h : LetsDiscover cfg P s payload id) (stored : Option Sensor) :
    (takeDiscovered cfg payload (Responser.interpolate id) stored).Stays P s := by
  refine stays_bind (stays_storeTopic_of h.findTopic (h.saveTopic _ _)) fun base => ?_
  refine stays_ite (fun _ => ?_) fun _ => h.announceDiscovered
  exact stays_bind (stays_tryCatch (h.storeDiscovered base) fun _ => stays_throw)
    fun _ => h.announceDiscovered

theorem stays_handleDiscoveryResponse_of (hid : discoveredId payload = .ok id)
    (h : LetsDiscover cfg P s payload id) : (handleDiscoveryResponse cfg payload).Stays P s := by
  rw [handleDiscoveryResponse_eq hid]
  refine stays_bind (h.findSensor _) fun stored => ?_
  refine stays_ite (fun _ => ?_) fun _ => h.takeDiscovered stored
  exact stays_bind h.restore fun _ => h.takeDiscovered stored

end Discoveries

/-- What both requests for a discovery do with the name of the topic. -/
def announce (cfg : Config) (awaited : Bool) (name : String) (payload : Json) : Prog Unit := do
  let topic ← TopicService.storeTopic cfg "Mqtt_Broker" name .broadcast
  publish awaited topic.topic payload
  subscribe [topic.topic]

/-- A request for a discovery; `compose` makes the name of the topic. -/
def discoverOn (cfg : Config) (awaited : Bool) (compose : Mqtt.Topic → String)
    (payload : String → ℕ → Json) : Prog Unit := do
  let broadcastTopic ← TopicService.getBroadcastTopic
  let requestId ← uuid
  let timestamp ← now
  setCache (payload requestId timestamp)
  announce cfg awaited (compose broadcastTopic) (payload requestId timestamp)

section Requests

variable {op : RequestOp} {q : RequestPhase} {Q : Except Exception Unit → RequestPhase → Prop}
  {cfg : Config}

theorem topical_request : Topical op.protocol q where
  findTopic _ := stays_perform trivial fun _ => rfl
  saveTopic _ := stays_perform trivial fun _ => rfl

/-- The rest of a request after its entry has been sent. -/
theorem wp_setCache {r : String} {payload : Json} {rest : Prog Unit}
    (hid : payload.get "requestId" = some (.str r))
    (huser : payload.get "userId" = some (.str op.userId))
    (hcode : payload.get "requestCode" = some (.str op.code))
    (hrest : rest.wp op.protocol (fun _ _ => True) (.cached r)) :
    (setCache payload >>= fun _ => rest).wp op.protocol (fun _ _ => True) (.drew r) := by
  refine wp_bind ⟨.inl ⟨r, rfl, ?_⟩, fun reply => ?_⟩
  · simp [hid, pendingEntry, jsonObject, huser, hcode, RequestOp.entry]
  · cases reply with
    | ok _ => exact hrest
    | error _ => trivial

/-- A published payload has the id and the user of the entry. -/
theorem stays_publish {r topic : String} {awaited : Bool} {payload : Json}
    (hid : payload.get "requestId" = some (.str r))
    (huser : payload.get "userId" = some (.str op.userId)) :
    (publish awaited topic payload).Stays op.protocol (.cached r) :=
  stays_perform (.inl ⟨r, rfl, hid, huser⟩) fun _ => rfl

/-- The rest of a request after it has drawn its id. -/
theorem wp_uuid {rest : String → Prog Unit}
    (hrest : ∀ r, (rest r).wp op.protocol (fun _ _ => True) (.drew r)) :
    (uuid >>= rest).wp op.protocol (fun _ _ => True) .fresh := by
  refine wp_bind ⟨rfl, fun reply => ?_⟩
  cases reply with
  | ok r => exact hrest r
  | error _ => trivial

/-- Whatever the rest does after a part that stays where it is. -/
theorem wp_then {α : Type} {x : Prog α} {rest : α → Prog Unit} (hx : x.Stays op.protocol q)
    (hrest : ∀ a, (rest a).wp op.protocol (fun _ _ => True) q) :
    (x >>= rest).wp op.protocol (fun _ _ => True) q :=
  wp_bind_of_stays hx hrest fun _ => trivial

theorem wp_discoverOn {awaited : Bool} {compose : Mqtt.Topic → String}
    {payload : String → ℕ → Json} (hid : ∀ r time, (payload r time).get "requestId" = some (.str r))
    (huser : ∀ r time, (payload r time).get "userId" = some (.str op.userId))
    (hcode : ∀ r time, (payload r time).get "requestCode" = some (.str op.code)) :
    (discoverOn cfg awaited compose payload).wp op.protocol (fun _ _ => True) .fresh := by
  refine wp_then (stays_getBroadcastTopic topical_request) fun _ => wp_uuid fun r => ?_
  refine wp_then (stays_perform trivial fun _ => rfl) fun time => ?_
  refine wp_setCache (hid r time) (huser r time) (hcode r time) ?_
  refine wp_then (stays_storeTopic cfg topical_request _ _ _) fun _ => ?_
  exact wp_then (stays_publish (hid r time) (huser r time)) fun _ => ⟨trivial, fun _ => trivial⟩

/-- The stored id of a device need not be the one it was asked for under; the request carries
what is stored. -/
theorem hardwarePayload_ids (deviceId : JsVal) (userId r : String) (time : ℕ) :
    let payload := DeviceService.hardwarePayload deviceId userId r time
    payload.get "requestId" = some (.str r) ∧ payload.get "userId" = some (.str userId) ∧
      payload.get "requestCode" = some (.str "REQUEST_HARDWARE_METRICS") := by
  cases deviceId <;> exact ⟨rfl, rfl, rfl⟩

theorem wp_getHardwareStatus (cfg : Config) (userId deviceId : String) :
    (DeviceService.getHardwareStatus cfg userId deviceId).wp
      (RequestOp.getHardwareStatus userId deviceId).protocol (fun _ _ => True) .fresh := by
  refine wp_then (stays_perform trivial fun _ => rfl) fun found => ?_
  cases found with
  | none => exact trivial
  | some device =>
    refine wp_tryCatch (wp_mono (Q := fun _ _ => True) (fun a _ _ => by cases a <;> trivial) ?_)
    refine wp_uuid fun r => wp_then (stays_perform trivial fun _ => rfl) fun time => ?_
    obtain ⟨hid, huser, hcode⟩ := hardwarePayload_ids device.deviceId userId r time
    refine wp_then (stays_createTopic cfg topical_request _ _) fun topic => ?_
    exact wp_setCache hid huser hcode (wp_of_stays (stays_publish hid huser) fun _ => trivial)

theorem assignPayload_ids (dto : PublishSensorFunctionalityDto)
    (userId r : String) :
    let payload := DeviceService.assignPayload dto userId r
    payload.get "requestId" = some (.str r) ∧ payload.get "userId" = some (.str userId) ∧
      payload.get "requestCode" = some (.str "REQUEST_ASSIGN_DEVICE_FUNCTION") := by
  refine ⟨?_, ?_, ?_⟩
  · exact Json.get_set_self _ _ _
  · show ((((Json.obj dto.fields).set _ _).set _ _).set _ _).get _ = _
    rw [Json.get_set_of_ne (by decide), Json.get_set_of_ne (by decide)]
    exact Json.get_set_self _ _ _
  · show ((((Json.obj dto.fields).set _ _).set _ _).set _ _).get _ = _
    rw [Json.get_set_of_ne (by decide)]
    exact Json.get_set_self _ _ _

theorem stays_validateSensorTypes {S : Type} {P : Protocol S Command Command.Reply Exception}
    {s : S} (h : ∀ q, (findSensor q).Stays P s) (deviceId functionality : JsVal) :
    (DeviceService.validateSensorTypes deviceId functionality).Stays P s := by
  refine stays_bind (h _) fun found => ?_
  cases found with
  | none => exact stays_throw
  | some device =>
    cases hinvalid : DeviceService.invalidSensorTypes device.capabilities functionality with
    | error e =>
      simp only [hinvalid]
      exact stays_throw
    | ok rest =>
      cases rest with
      | nil =>
        simp only [hinvalid]
        exact stays_pure
      | cons _ _ =>
        simp only [hinvalid]
        exact stays_throw

theorem wp_AssignDeviceFunction (userId : String)
    (dto : PublishSensorFunctionalityDto) :
    (DeviceService.AssignDeviceFunction userId dto).wp
      (RequestOp.AssignDeviceFunction userId dto).protocol (fun _ _ => True) .fresh := by
  unfold DeviceService.AssignDeviceFunction
  split
  · exact trivial
  refine wp_then (stays_getDeviceTopicByUseCase topical_request _ _) fun topic => ?_
  refine wp_then (stays_validateSensorTypes (fun _ => stays_perform trivial fun _ => rfl) _ _)
    fun _ => wp_uuid fun r => ?_
  obtain ⟨hid, huser, hcode⟩ := assignPayload_ids dto userId r
  refine wp_setCache hid huser hcode (wp_then (stays_perform trivial fun _ => rfl) fun _ => ?_)
  exact wp_of_stays (stays_publish hid huser) fun _ => trivial

theorem wp_getDeviceTelemetry (telemetry : PublishTelemetryDto) :
    (DeviceService.getDeviceTelemetry telemetry).wp
      (RequestOp.getDeviceTelemetry telemetry).protocol (fun _ _ => True) .fresh := by
  unfold DeviceService.getDeviceTelemetry
  split
  · exact trivial
  refine wp_then (stays_perform trivial fun _ => rfl) fun found => ?_
  cases found with
  | none => exact trivial
  | some device =>
    refine wp_then (stays_getDeviceTopicByUseCase topical_request _ _) fun topic => ?_
    refine wp_then (stays_perform (.inr ⟨rfl, rfl⟩) fun _ => rfl) fun _ => ?_
    exact ⟨.inr ⟨telemetry, rfl, rfl⟩, fun _ => trivial⟩

/-- Every operation follows the protocol of requests. -/
theorem RequestOp.wp_program (cfg : Config) (op : RequestOp) :
    (op.program cfg).wp op.protocol (fun _ _ => True) .fresh := by
  cases op with
  | discoverDevicesBroadcast userId =>
    exact wp_discoverOn (fun _ _ => rfl) (fun _ _ => rfl) fun _ _ => rfl
  | discoverDeviceUnicast userId deviceId =>
    exact wp_discoverOn (fun _ _ => rfl) (fun _ _ => rfl) fun _ _ => rfl
  | getHardwareStatus userId deviceId => exact wp_getHardwareStatus cfg userId deviceId
  | AssignDeviceFunction userId dto => exact wp_AssignDeviceFunction userId dto
  | getDeviceTelemetry telemetry => exact wp_getDeviceTelemetry telemetry

end Requests

/-! ### Deliveries -/

/-- A message that has been routed to the listener of a kind of response. -/
structure Delivery where
  kind : ResponseType
  topic : String
  payload : Json

/-- How far a delivery has come: it has yet to read the cache, has found its request there, or
has been turned away. -/
inductive DeliveryPhase
  | checking
  | accepted
  | refused
  deriving DecidableEq

namespace Delivery

/-- The device that the response says it comes from. -/
def deviceId (d : Delivery) : JsVal :=
  match d.kind with
  | .discovery => (d.payload.get "sensorData").bind fun data => data.get "deviceId"
  | _ => d.payload.get "deviceId"

/-- The handler goes on with the response code. -/
def proceeds (d : Delivery) : Bool :=
  match d.kind with
  | .discovery => true
  | .ack => false
  | .assign => CodedType.assign.codeAccepted (d.payload.get "responseCode")
  | .upgrade => CodedType.upgrade.codeAccepted (d.payload.get "responseCode")
  | .heartbeat => CodedType.heartbeat.codeAccepted (d.payload.get "responseCode")
  | .reboot => CodedType.reboot.codeAccepted (d.payload.get "responseCode")
  | .telemetry => CodedType.telemetry.codeAccepted (d.payload.get "responseCode")
  | .hardwareStatus => CodedType.hardwareStatus.codeAccepted (d.payload.get "responseCode")

/-- The payload has passed the validation of its kind at some time. -/
def Validated (d : Delivery) : Prop :=
  ∃ time, ClassValidator.validate (d.kind.dto time) d.payload = true

/-- The phase after a reply of the cache. -/
def checked (d : Delivery) (cached : Option Json) : DeliveryPhase :=
  match checkCached cached d.payload with
  | .ok _ => .accepted
  | .error _ => .refused

def protocol (d : Delivery) : Protocol DeliveryPhase Command Command.Reply Exception where
  allowed q
    | .now => True
    | .cacheGet key =>
      q = .checking ∧ key = pendingKey (d.payload.get "requestId") ∧ d.Validated
    | .cacheDel key => q = .accepted ∧ key = pendingKey (d.payload.get "requestId")
    | .findSensor _ | .findTopic _ | .saveTopic _ | .subscribe _ => q = .accepted
    | .emit _ => q = .accepted ∧ d.proceeds = true
    | .updateSensors deviceId _ => q = .accepted ∧ d.proceeds = true ∧ deviceId = d.deviceId
    | .saveSensor s => q = .accepted ∧ d.proceeds = true ∧ s.deviceId = d.deviceId
    | .saveTelemetry t => q = .accepted ∧ d.proceeds = true ∧ t.deviceId = d.deviceId
    | .saveHardwareStatus h => q = .accepted ∧ d.proceeds = true ∧ h.deviceId = d.deviceId
    | _ => False
  next q c r :=
    match c, r with
    | .cacheGet _, .ok cached => d.checked cached
    | .cacheGet _, .error _ => .refused
    | _, _ => q

end Delivery

section Deliveries

variable {d : Delivery}

theorem eq_of_checkCached {cached : Option Json} {payload p : Json}
    (h : checkCached cached payload = .ok p) : p = payload := by
  cases cached with
  | none => cases h
  | some entry =>
    simp only [checkCached] at h
    split at h <;> cases h
    rfl

theorem topical_delivery : Topical d.protocol .accepted where
  findTopic _ := stays_perform rfl fun _ => rfl
  saveTopic _ := stays_perform rfl fun _ => rfl

theorem stays_findSensor (q : SensorQuery) : (findSensor q).Stays d.protocol .accepted :=
  stays_perform rfl fun _ => rfl

theorem stays_updateSensors {deviceId : JsVal} (u : SensorUpdate) (hgo : d.proceeds = true)
    (hid : deviceId = d.deviceId) : (updateSensors deviceId u).Stays d.protocol .accepted :=
  stays_perform ⟨rfl, hgo, hid⟩ fun _ => rfl

theorem stays_deleteCache : (ResponserService.deleteCache d.payload).Stays d.protocol .accepted := by
  unfold ResponserService.deleteCache
  split
  · exact stays_perform ⟨rfl, rfl⟩ fun _ => rfl
  · exact stays_pure

/-- A row made of the discovery data has the id that was read of it. -/
theorem deviceId_of_discoveredId {deviceId : JsVal} (hkind : d.kind = .discovery)
    (h : ResponserService.discoveredId d.payload = .ok deviceId) : deviceId = d.deviceId := by
  rw [Delivery.deviceId, hkind]
  unfold ResponserService.discoveredId at h
  split at h
  · cases h
  · cases h
  · rename_i data hdata
    cases h
    simp [hdata]

theorem stays_handleDiscoveryResponse (cfg : Config) (hkind : d.kind = .discovery) :
    (ResponserService.handleDiscoveryResponse cfg d.payload).Stays d.protocol .accepted := by
  have hgo : d.proceeds = true := by rw [Delivery.proceeds, hkind]
  have hsensor : (ResponserService.discoveredSensor d.payload).deviceId = d.deviceId := by
    rw [Delivery.deviceId, hkind]
    rfl
  cases hid : ResponserService.discoveredId d.payload with
  | error e =>
    unfold ResponserService.handleDiscoveryResponse
    rw [hid]
    exact stays_throw
  | ok deviceId =>
    exact stays_handleDiscoveryResponse_of hid
      { findSensor := stays_findSensor
        restore := stays_updateSensors _ hgo (deviceId_of_discoveredId hkind hid)
        findTopic := topical_delivery.findTopic
        saveTopic := fun _ _ => topical_delivery.saveTopic _
        saveSensor := stays_perform ⟨rfl, hgo, hsensor⟩ fun _ => rfl
        subscribe := fun _ => stays_perform rfl fun _ => rfl
        emit := stays_perform ⟨rfl, hgo⟩ fun _ => rfl
        deleteCache := stays_deleteCache }

theorem stays_handleAssignResponse (hkind : d.kind = .assign) :
    (ResponserService.handleAssignResponse d.payload).Stays d.protocol .accepted := by
  have hgo : d.proceeds = CodedType.assign.codeAccepted (d.payload.get "responseCode") := by
    rw [Delivery.proceeds, hkind]
  have hid : d.payload.get "deviceId" = d.deviceId := by rw [Delivery.deviceId, hkind]
  refine stays_ite (fun _ => stays_throw) fun hcode => ?_
  refine stays_ite (fun _ => stays_throw) fun _ => ?_
  refine stays_bind (stays_validateSensorTypes stays_findSensor _ _) fun _ => ?_
  exact stays_bind (stays_updateSensors _ (by simpa [hgo] using hcode) hid)
    fun _ => stays_deleteCache

theorem stays_handleUpgradeResponse (hkind : d.kind = .upgrade) :
    (ResponserService.handleUpgradeResponse d.payload).Stays d.protocol .accepted := by
  have hgo : d.proceeds = CodedType.upgrade.codeAccepted (d.payload.get "responseCode") := by
    rw [Delivery.proceeds, hkind]
  have hid : d.payload.get "deviceId" = d.deviceId := by rw [Delivery.deviceId, hkind]
  refine stays_ite (fun _ => stays_pure) fun hcode => ?_
  refine stays_ite (fun _ => stays_pure) fun _ => stays_ite (fun _ => ?_) fun _ => stays_pure
  exact stays_bind (stays_updateSensors _ (by simpa [hgo] using hcode) hid)
    fun _ => stays_deleteCache

theorem stays_handleDeviceHeartbeat (hkind : d.kind = .heartbeat) :
    (ResponserService.handleDeviceHeartbeat d.payload).Stays d.protocol .accepted := by
  have hgo : d.proceeds = CodedType.heartbeat.codeAccepted (d.payload.get "responseCode") := by
    rw [Delivery.proceeds, hkind]
  have hid : d.payload.get "deviceId" = d.deviceId := by rw [Delivery.deviceId, hkind]
  refine stays_ite (fun _ => stays_pure) fun hcode => ?_
  refine stays_bind (stays_findSensor _) fun found => ?_
  cases found with
  | none => exact stays_throw
  | some sensor =>
    exact stays_bind (stays_updateSensors _ (by simpa [hgo] using hcode) hid)
      fun _ => stays_deleteCache

theorem stays_handleRebootResponse (hkind : d.kind = .reboot) :
    (ResponserService.handleRebootResponse d.payload).Stays d.protocol .accepted := by
  have hgo : d.proceeds = CodedType.reboot.codeAccepted (d.payload.get "responseCode") := by
    rw [Delivery.proceeds, hkind]
  have hid : d.payload.get "deviceId" = d.deviceId := by rw [Delivery.deviceId, hkind]
  refine stays_ite (fun _ => stays_pure) fun hcode => ?_
  exact stays_bind (stays_updateSensors _ (by simpa [hgo] using hcode) hid)
    fun _ => stays_deleteCache

theorem stays_handleTelemetryResponse (hkind : d.kind = .telemetry) :
    (ResponserService.handleTelemetryResponse d.payload).Stays d.protocol .accepted := by
  have hgo : d.proceeds = CodedType.telemetry.codeAccepted (d.payload.get "responseCode") := by
    rw [Delivery.proceeds, hkind]
  have hid : d.payload.get "deviceId" = d.deviceId := by rw [Delivery.deviceId, hkind]
  refine stays_ite (fun _ => stays_throw) fun hcode => ?_
  exact stays_bind (stays_perform ⟨rfl, by simpa [hgo] using hcode, hid⟩ fun _ => rfl)
    fun _ => stays_deleteCache

theorem stays_handleHardwareStatus (hkind : d.kind = .hardwareStatus) :
    (ResponserService.handleHardwareStatus d.payload).Stays d.protocol .accepted := by
  have hgo : d.proceeds = CodedType.hardwareStatus.codeAccepted (d.payload.get "responseCode") := by
    rw [Delivery.proceeds, hkind]
  have hid : d.payload.get "deviceId" = d.deviceId := by rw [Delivery.deviceId, hkind]
  refine stays_ite (fun _ => stays_throw) fun hcode => ?_
  refine stays_bind (stays_findSensor _) fun found => ?_
  cases found with
  | none => exact stays_throw
  | some sensor =>
    exact stays_bind (stays_perform ⟨rfl, by simpa [hgo] using hcode, hid⟩ fun _ => rfl)
      fun _ => stays_deleteCache

/-- A handler acts on its own device only, and only if it goes on with the code. -/
theorem stays_handler (cfg : Config) (d : Delivery) :
    (ListenerService.handler cfg d.kind d.payload).Stays d.protocol .accepted := by
  unfold ListenerService.handler
  split
  · exact stays_ite (fun _ => stays_handleDiscoveryResponse cfg ‹_›) fun _ => stays_pure
  · exact stays_handleAssignResponse ‹_›
  · exact stays_throw
  · exact stays_handleUpgradeResponse ‹_›
  · exact stays_handleDeviceHeartbeat ‹_›
  · exact stays_handleRebootResponse ‹_›
  · exact stays_handleTelemetryResponse ‹_›
  · exact stays_handleHardwareStatus ‹_›

/-- A delivery that finds its request in the cache is accepted, any other ends there. -/
theorem wp_transformAndValidate (d : Delivery) :
    (ListenerService.transformAndValidate d.kind d.payload).wp d.protocol
      (fun a q => ∀ p, a = .ok p → p = d.payload ∧ q = .accepted) .checking := by
  refine wp_bind ⟨trivial, fun time => ?_⟩
  cases time with
  | error e => rintro p ⟨⟩
  | ok time =>
    show Program.wp _ _ (if _ then _ else _) _
    split
    · rintro p ⟨⟩
    · rename_i hvalid
      refine wp_bind ⟨⟨rfl, rfl, time, by simpa using hvalid⟩, fun cached => ?_⟩
      cases cached with
      | error e => rintro p ⟨⟩
      | ok cached =>
        show Program.wp _ _ (match checkCached cached d.payload with
          | .ok p => (pure p : Prog Json)
          | .error e => throw e) (d.checked cached)
        unfold Delivery.checked
        cases hchecked : checkCached cached d.payload with
        | error e => rintro p ⟨⟩
        | ok p =>
          rintro p' ⟨⟩
          exact ⟨eq_of_checkCached hchecked, rfl⟩

/-- Every listener follows the protocol of deliveries. -/
theorem Delivery.wp_listen (cfg : Config) (d : Delivery) :
    (ListenerService.listen cfg d.kind d.topic d.payload).wp d.protocol (fun _ _ => True)
      .checking := by
  show Program.wp _ _ (if _ then _ else _) _
  split
  · trivial
  · refine wp_bind (wp_mono ?_ (wp_transformAndValidate d))
    intro a q ha
    cases a with
    | error e => trivial
    | ok p =>
      obtain ⟨rfl, rfl⟩ := ha p rfl
      exact wp_of_stays (stays_handler cfg d) fun _ => trivial

end Deliveries

end IotPanel.Device

import IotPanel.Device.Calls

/-!
# The programs follow their protocols

One specification for each operation on topics, and from these that every call follows its
protocol.
-/

namespace IotPanel.Device

open Mqtt (Topic TopicUseCase)
open ResponserService (discoveredId discoveredSensor)
open Program

/-- The phase that a part of a call ends in: `Q` of its result, and settled if it fails. -/
def Settles {α : Type} (Q : α → Phase → Prop) : Except Exception α → Phase → Prop
  | .ok a, q => Q a q
  | .error _, q => q.Settled

/-- What changes when topics of these names are stored. -/
structure Stores (k : Call) (q : Phase) (names : List String) (q' : Phase) : Prop where
  device : q'.device = q.device
  restoring : q'.restoring = q.restoring
  known : ∀ f ∈ q.known, f ∈ q'.known
  owed : ∀ x ∈ q'.owed, x ∈ q.owed ∨ (x ∈ names ∧ k.subscribes q = true)

theorem filter_eq_nil_of_subset {xs ys : List String} (h : ∀ x ∈ xs, x ∈ ys) :
    xs.filter (fun t => t ∉ ys) = [] := by
  refine List.filter_eq_nil_iff.mpr fun x hx => ?_
  simpa only [decide_eq_true_eq, not_not] using h x hx

section Rules

variable {cfg : Config} {k : Call} {q q' q'' : Phase} {α β : Type}

theorem settled_fail (q : Phase) (c : Command) : (q.fail c).Settled := by
  show (q.failed || q.restoring || !q.owed.isEmpty) = true ∨ (q.owed = [] ∧ q.restoring = false)
  cases hr : q.restoring with
  | true => exact .inl (by simp)
  | false =>
    cases ho : q.owed with
    | nil => exact .inr ⟨rfl, rfl⟩
    | cons x xs => exact .inl (by simp)

theorem wp_command {c : Command} {Q : c.Reply → Phase → Prop} (h : k.allows cfg q c)
    (hok : ∀ a, Q a (k.learn cfg q c a)) :
    (perform c : Prog c.Reply).wp (k.protocol cfg) (Settles Q) q := by
  refine ⟨h, fun r => ?_⟩
  cases r with
  | ok a => exact hok a
  | error e => exact settled_fail q c

/-- A command whose answer tells nothing. -/
theorem wp_silent {c : Command} (h : k.allows cfg q c) (hq : ∀ a, k.learn cfg q c a = q) :
    (perform c : Prog c.Reply).wp (k.protocol cfg) (Settles fun _ q' => q' = q) q :=
  wp_command h hq

theorem wp_seq {x : Prog α} {f : α → Prog β} {Q : α → Phase → Prop} {Q' : β → Phase → Prop}
    (hx : x.wp (k.protocol cfg) (Settles Q) q)
    (hf : ∀ a q', Q a q' → (f a).wp (k.protocol cfg) (Settles Q') q') :
    (x >>= f).wp (k.protocol cfg) (Settles Q') q := by
  refine wp_bind (wp_mono ?_ hx)
  intro a q' h
  cases a with
  | ok a => exact hf a q' h
  | error e => exact h

/-- After a part that leaves the phase as it is. -/
theorem wp_after {x : Prog α} {f : α → Prog β} {Q : β → Phase → Prop}
    (hx : x.wp (k.protocol cfg) (Settles fun _ q' => q' = q) q)
    (hf : ∀ a, (f a).wp (k.protocol cfg) (Settles Q) q) :
    (x >>= f).wp (k.protocol cfg) (Settles Q) q := by
  refine wp_seq hx fun a q' h => ?_
  rw [h]
  exact hf a

theorem wp_settles_mono {x : Prog α} {Q Q' : α → Phase → Prop} (h : ∀ a q', Q a q' → Q' a q')
    (hx : x.wp (k.protocol cfg) (Settles Q) q) : x.wp (k.protocol cfg) (Settles Q') q := by
  refine wp_mono ?_ hx
  intro a q' ha
  cases a with
  | ok a => exact h a q' ha
  | error e => exact ha

/-- An error that is caught and replaced by another one. -/
theorem wp_rethrow {x : Prog α} {Q : α → Phase → Prop} {e : Exception}
    (hx : x.wp (k.protocol cfg) (Settles Q) q) :
    (tryCatch x fun _ => throw e).wp (k.protocol cfg) (Settles Q) q := by
  refine wp_tryCatch (wp_mono ?_ hx)
  intro a q' ha
  cases a with
  | ok a => exact ha
  | error e => exact ha

/-! ### Topics -/

theorem names_congr {t : Topic} (hknown : q'.known = q.known) (h : k.Names cfg q t) :
    k.Names cfg q' t := by
  unfold Call.Names at h ⊢
  rw [hknown]
  exact h

theorem subscribes_congr (hdevice : q'.device = q.device) : k.subscribes q' = k.subscribes q := by
  unfold Call.subscribes
  rw [hdevice]

namespace Stores

theorem trans {names names' : List String} (h : Stores k q names q')
    (h' : Stores k q' names' q'') : Stores k q (names ++ names') q'' where
  device := h'.device.trans h.device
  restoring := h'.restoring.trans h.restoring
  known f hf := h'.known f (h.known f hf)
  owed x hx := by
    rcases h'.owed x hx with hx | ⟨hx, hs⟩
    · rcases h.owed x hx with hx | ⟨hx, hs⟩
      · exact .inl hx
      · exact .inr ⟨List.mem_append_left _ hx, hs⟩
    · exact .inr ⟨List.mem_append_right _ hx, (subscribes_congr h.device).symm.trans hs⟩

theorem knows {names : List String} {deviceId topic : String} (h : Stores k q names q')
    (hq : q.Knows deviceId topic) : q'.Knows deviceId topic := by
  obtain ⟨f, hf, hname⟩ := hq
  exact ⟨f, h.known f hf, hname⟩

/-- A call that was clear owes no more than the new names. -/
theorem owed_of_clear {names : List String} (h : Stores k q names q') (hq : q.Clear) :
    ∀ x ∈ q'.owed, x ∈ names := by
  intro x hx
  rcases h.owed x hx with hx | ⟨hx, -⟩
  · rw [hq.1] at hx
    exact absurd hx List.not_mem_nil
  · exact hx

/-- A call that does not subscribe stays clear. -/
theorem clear {names : List String} (h : Stores k q names q') (hq : q.Clear)
    (hs : k.subscribes q = false) : q'.Clear := by
  refine ⟨List.eq_nil_iff_forall_not_mem.mpr fun x hx => ?_, h.restoring.trans hq.2⟩
  rcases h.owed x hx with hx | ⟨-, hs'⟩
  · rw [hq.1] at hx
    exact List.not_mem_nil hx
  · rw [hs] at hs'
    cases hs'

/-- Subscribing to the names clears a call that was clear before. -/
theorem clear_filter {names names' : List String} (h : Stores k q names q') (hq : q.Clear)
    (hsub : ∀ x ∈ names, x ∈ names') :
    ({ q' with owed := q'.owed.filter fun t => t ∉ names' } : Phase).Clear := by
  refine ⟨filter_eq_nil_of_subset fun x hx => ?_, h.restoring.trans hq.2⟩
  exact hsub x (h.owed_of_clear hq x hx)

end Stores

/-- The row that `storeTopic` makes. -/
def storedRow (cfg : Config) (deviceId topic : String) (useCase : TopicUseCase) : Topic :=
  { brokerUrl := cfg.topics.mqttBrokerUrl, deviceId, topic, useCase, isSubscribed := true }

theorem wp_storeTopic {deviceId topic : String} {useCase : TopicUseCase}
    (hnames : k.Names cfg q (storedRow cfg deviceId topic useCase)) :
    (TopicService.storeTopic cfg deviceId topic useCase).wp (k.protocol cfg)
      (Settles fun t q' => Stores k q [t.topic] q' ∧ q'.Knows deviceId topic) q := by
  refine wp_seq (Q := fun found q' => q' = k.learn cfg q (.findTopic
    ⟨none, some deviceId, some topic, some useCase, none⟩) found)
    (wp_command trivial fun _ => rfl) ?_
  rintro found _ rfl
  cases found with
  | some t =>
    refine ⟨⟨rfl, rfl, fun g hg => List.mem_cons_of_mem _ hg, fun x hx => .inl hx⟩, ?_⟩
    exact ⟨_, List.mem_cons_self, rfl, rfl⟩
  | none =>
    let row := storedRow cfg deviceId topic useCase
    refine wp_seq (Q := fun _ q' => Stores k q [row.topic] q' ∧ q'.Knows deviceId topic)
      (wp_command (c := .saveTopic row) ⟨rfl, names_congr rfl hnames⟩ fun _ => ⟨?_, ?_⟩)
      fun _ q' hq' => hq'
    · refine ⟨rfl, rfl, fun g hg => List.mem_cons_of_mem _ hg, fun x hx => ?_⟩
      change x ∈ (if k.subscribes _ then row.topic :: q.owed else q.owed) at hx
      split at hx
      · rename_i hs
        rcases List.mem_cons.mp hx with rfl | hx
        · exact .inr ⟨List.mem_singleton_self _, hs⟩
        · exact .inl hx
      · exact .inl hx
    · exact ⟨_, List.mem_cons_self, rfl, rfl⟩

theorem wp_createTopic {deviceId : String} {useCase : TopicUseCase}
    (hnames : k.Names cfg q
      (storedRow cfg deviceId (cfg.topics.deviceTopic deviceId useCase) useCase)) :
    (TopicService.createTopic cfg deviceId useCase).wp (k.protocol cfg)
      (Settles fun t q' => Stores k q [t.topic] q' ∧
        q'.Knows deviceId (cfg.topics.deviceTopic deviceId useCase)) q := by
  refine wp_seq (Q := fun found q' => q' = k.learn cfg q (.findTopic
    ⟨some cfg.topics.mqttBrokerUrl, some deviceId,
      some (cfg.topics.deviceTopic deviceId useCase), none, none⟩) found)
    (wp_command trivial fun _ => rfl) ?_
  rintro found q' hq'
  cases found with
  | some t =>
    subst hq'
    refine ⟨⟨rfl, rfl, fun g hg => List.mem_cons_of_mem _ hg, fun x hx => .inl hx⟩, ?_⟩
    exact ⟨_, List.mem_cons_self, rfl, rfl⟩
  | none =>
    have hlooked : Stores k q [] q' := by
      rw [hq']
      exact ⟨rfl, rfl, fun g hg => hg, fun x hx => .inl hx⟩
    have hknown : q'.known = q.known := by rw [hq']; rfl
    refine wp_settles_mono ?_ (wp_storeTopic (names_congr hknown hnames))
    rintro t q'' ⟨hstores, hknows⟩
    exact ⟨hlooked.trans hstores, hknows⟩

/-- The call stores topics under the names that are made for them. -/
def Derives (cfg : Config) (k : Call) : Prop :=
  ∀ q t, (t.topic = cfg.topics.baseTopic ++ "/" ++ t.deviceId ∧ t.useCase = .deviceBase) ∨
    t.topic = cfg.topics.deviceTopic t.deviceId t.useCase → k.Names cfg q t

theorem wp_createDeviceBaseTopic {deviceId : String} (h : Derives cfg k) :
    (TopicService.createDeviceBaseTopic cfg deviceId).wp (k.protocol cfg)
      (Settles fun t q' => Stores k q [t.topic] q' ∧
        q'.Knows deviceId (cfg.topics.baseTopic ++ "/" ++ deviceId)) q :=
  wp_storeTopic (h _ _ (.inl ⟨rfl, rfl⟩))

theorem wp_mapM_createTopic {deviceId : String} (h : Derives cfg k) (useCases : List TopicUseCase) :
    (useCases.mapM (TopicService.createTopic cfg deviceId)).wp (k.protocol cfg)
      (Settles fun ts q' => Stores k q (ts.map fun t => t.topic) q' ∧
        ∀ u ∈ useCases, q'.Knows deviceId (cfg.topics.deviceTopic deviceId u)) q := by
  induction useCases generalizing q with
  | nil =>
    refine ⟨⟨rfl, rfl, fun g hg => hg, fun x hx => .inl hx⟩, fun u hu => ?_⟩
    exact absurd hu List.not_mem_nil
  | cons useCase useCases ih =>
    rw [List.mapM_cons]
    refine wp_seq (wp_createTopic (h _ _ (.inr rfl))) ?_
    rintro t q₁ ⟨hfirst, hknows⟩
    refine wp_seq ih ?_
    rintro ts q₂ ⟨hrest, hall⟩
    refine ⟨hfirst.trans hrest, fun u hu => ?_⟩
    rcases List.mem_cons.mp hu with rfl | hu
    · exact hrest.knows hknows
    · exact hall u hu

theorem wp_createAllTopicsForDevice {deviceId : String} (h : Derives cfg k) :
    (TopicService.createAllTopicsForDevice cfg deviceId).wp (k.protocol cfg)
      (Settles fun ts q' => Stores k q (ts.map fun t => t.topic) q' ∧
        ∀ u, q'.Knows deviceId (cfg.topics.deviceTopic deviceId u)) q := by
  refine wp_seq (wp_createDeviceBaseTopic h) ?_
  rintro base q₁ ⟨hbase, -⟩
  refine wp_seq (wp_mapM_createTopic h TopicUseCase.all) ?_
  rintro ts q₂ ⟨hrest, hall⟩
  refine ⟨hbase.trans hrest, fun u => hall u ?_⟩
  cases u <;> decide

/-- The rest of a request after it has found the broadcast topic. -/
theorem wp_getBroadcastTopic (hq : q.Clear) :
    TopicService.getBroadcastTopic.wp (k.protocol cfg)
      (Settles fun t q' => q'.Clear ∧ (broadcastQuery, t) ∈ q'.known) q := by
  refine wp_seq (Q := fun found q' => q' = k.learn cfg q (.findTopic broadcastQuery) found)
    (wp_command trivial fun _ => rfl) ?_
  rintro found _ rfl
  cases found with
  | some t => exact ⟨hq, List.mem_cons_self⟩
  | none => exact .inr hq

theorem wp_getDeviceTopicByUseCase {deviceId : String} {useCase : TopicUseCase} (hq : q.Clear) :
    (TopicService.getDeviceTopicByUseCase deviceId useCase).wp (k.protocol cfg)
      (Settles fun _ q' => q'.Clear ∧ q'.device = q.device) q := by
  refine wp_seq (Q := fun found q' => q' = k.learn cfg q (.findTopic
    ⟨none, some deviceId, none, some useCase, none⟩) found) (wp_command trivial fun _ => rfl) ?_
  rintro found _ rfl
  cases found with
  | some t => exact ⟨hq, rfl⟩
  | none => exact .inr hq

/-! ### Requests and responses -/

theorem wp_validateSensorTypes {functionality : JsVal}
    (hlookup : k.lookup = ⟨k.deviceId, some false, none⟩) (hq : q.Clear) :
    (DeviceService.validateSensorTypes k.deviceId functionality).wp (k.protocol cfg)
      (Settles fun _ q' => q'.Clear ∧ ∃ row, q'.device = some (some row) ∧
        DeviceService.invalidSensorTypes row.capabilities functionality = .ok []) q := by
  refine wp_seq (Q := fun found q' => q' = { q with device := some found })
    (wp_command hlookup.symm fun _ => rfl) ?_
  rintro found _ rfl
  cases found with
  | none => exact .inr hq
  | some row =>
    cases hinvalid : DeviceService.invalidSensorTypes row.capabilities functionality with
    | error e =>
      simp only [hinvalid]
      exact .inr hq
    | ok rest =>
      simp only [hinvalid]
      cases rest with
      | nil => exact ⟨hq, row, rfl, hinvalid⟩
      | cons v vs => exact .inr hq

theorem wp_deleteCache {payload : Json} :
    (ResponserService.deleteCache payload).wp (k.protocol cfg)
      (Settles fun _ q' => q' = q) q := by
  show Program.wp _ _ (if _ then _ else _) _
  split
  · exact wp_silent trivial fun _ => rfl
  · rfl

end Rules

section Calls

variable {cfg : Config} {q : Phase}

/-- A discovery that returns has this phase. -/
structure Discovered (cfg : Config) (name : String) (q : Phase) : Prop where
  clear : q.Clear
  base : q.Knows name (cfg.topics.baseTopic ++ "/" ++ name)
  topics : (∃ row, q.device = some (some row)) ∨
    ∀ useCase, q.Knows name (cfg.topics.deviceTopic name useCase)

theorem derives_discoveryResponse (payload : Json) : Derives cfg (.discoveryResponse payload) :=
  fun _ _ h => h

theorem subscribes_of_found {payload : Json} {row : Sensor} (h : q.device = some (some row)) :
    (Call.discoveryResponse payload).subscribes q = false := by
  unfold Call.subscribes
  rw [h]

/-- What a discovery stores of a device that it does not know yet. -/
theorem wp_storeDiscovered {payload : Json} {base : Topic} {name : String}
    (hdevice : q.device = some none) (hrestoring : q.restoring = false)
    (howed : ∀ x ∈ q.owed, x ∈ [base.topic])
    (hbase : q.Knows name (cfg.topics.baseTopic ++ "/" ++ name)) :
    (do
      saveSensor (discoveredSensor payload)
      subscribe [base.topic]
      let otherTopics ← TopicService.createAllTopicsForDevice cfg name
      subscribe (otherTopics.map fun t => t.topic) : Prog Unit).wp
        ((Call.discoveryResponse payload).protocol cfg)
        (Settles fun _ => Discovered cfg name) q := by
  let k := Call.discoveryResponse payload
  refine wp_seq (Q := fun _ q' => q' = { q with device := none })
    (wp_command ⟨hdevice, payload, rfl, rfl⟩ fun _ => rfl) ?_
  rintro _ _ rfl
  refine wp_seq (Q := fun _ q' => q'.Clear ∧ q'.known = q.known)
    (wp_command (.inr howed) fun _ => ⟨⟨filter_eq_nil_of_subset howed, hrestoring⟩, rfl⟩) ?_
  rintro _ q₁ ⟨hclear, hknown⟩
  refine wp_seq (wp_createAllTopicsForDevice (derives_discoveryResponse payload)) ?_
  rintro ts q₂ ⟨hstores, hall⟩
  have hbase₁ : q₁.Knows name (cfg.topics.baseTopic ++ "/" ++ name) := by
    obtain ⟨f, hf, hname⟩ := hbase
    exact ⟨f, hknown ▸ hf, hname⟩
  exact wp_command (.inr (hstores.owed_of_clear hclear)) fun _ =>
    ⟨hstores.clear_filter hclear fun x hx => hx, hstores.knows hbase₁, .inr hall⟩

/-- The message to the clients, and the end of a discovery. -/
theorem wp_announce {payload : Json} {name : String} (hq : Discovered cfg name q) :
    (do
      emit payload
      if !(payload.get "isBroadcast").truthy then
        ResponserService.deleteCache payload : Prog Unit).wp
          ((Call.discoveryResponse payload).protocol cfg) (Settles fun _ => Discovered cfg name)
          q := by
  refine wp_after (wp_silent trivial fun _ => rfl) fun _ => ?_
  split
  · refine wp_settles_mono ?_ wp_deleteCache
    rintro _ _ rfl
    exact hq
  · exact hq

/-- What a discovery does once it has looked for the device. -/
theorem wp_discovered {payload : Json} {name : String} {stored : Option Sensor}
    (hdevice : q.device = some stored) (hclear : q.Clear) :
    (do
      let base ← TopicService.createDeviceBaseTopic cfg name
      if stored.isNone then
        try
          saveSensor (discoveredSensor payload)
          subscribe [base.topic]
          let otherTopics ← TopicService.createAllTopicsForDevice cfg name
          subscribe (otherTopics.map fun t => t.topic)
        catch _ => throw (.forbidden "Discovery data malformed")
      emit payload
      if !(payload.get "isBroadcast").truthy then
        ResponserService.deleteCache payload : Prog Unit).wp
          ((Call.discoveryResponse payload).protocol cfg) (Settles fun _ => Discovered cfg name)
          q := by
  refine wp_seq (wp_createDeviceBaseTopic (derives_discoveryResponse payload)) ?_
  rintro base q₁ ⟨hstores, hbase⟩
  cases stored with
  | some row =>
    exact wp_announce ⟨hstores.clear hclear (subscribes_of_found hdevice), hbase,
      .inl ⟨row, hstores.device.trans hdevice⟩⟩
  | none =>
    refine wp_seq (wp_rethrow (wp_storeDiscovered (hstores.device.trans hdevice)
      (hstores.restoring.trans hclear.2) (hstores.owed_of_clear hclear) hbase)) fun _ q₂ hq₂ => ?_
    exact wp_announce hq₂

theorem wp_handleDiscoveryResponse (payload : Json) :
    (ResponserService.handleDiscoveryResponse cfg payload).wp
      ((Call.discoveryResponse payload).protocol cfg)
      (Settles fun _ => Discovered cfg
        (Responser.interpolate (Call.discoveryResponse payload).deviceId)) .fresh := by
  let k := Call.discoveryResponse payload
  unfold ResponserService.handleDiscoveryResponse
  cases hid : discoveredId payload with
  | error e => exact .inr ⟨rfl, rfl⟩
  | ok deviceId =>
    have hdeviceId : k.deviceId = deviceId := Call.deviceId_of_discovered hid
    have hlookup : k.lookup = ⟨deviceId, none, none⟩ := by
      show (⟨k.deviceId, none, none⟩ : SensorQuery) = _
      rw [hdeviceId]
    rw [hdeviceId]
    refine wp_seq (Q := fun stored q => q = { Phase.fresh with device := some stored })
      (wp_command hlookup.symm fun _ => rfl) ?_
    rintro stored _ rfl
    show Program.wp _ _ (if _ then _ else _) _
    split
    · refine wp_after (wp_silent ⟨hdeviceId.symm, .inl rfl⟩ fun _ => rfl) fun _ => ?_
      exact wp_discovered rfl ⟨rfl, rfl⟩
    · exact wp_discovered rfl ⟨rfl, rfl⟩

/-- A call that is no discovery has only to be settled at its end. -/
theorem wp_ends {k : Call} {x : Prog Unit} (hk : ∀ payload, k ≠ .discoveryResponse payload)
    (hx : x.wp (k.protocol cfg) (Settles fun _ => Phase.Clear) q) :
    x.wp (k.protocol cfg) (k.ends cfg) q := by
  refine wp_mono ?_ hx
  intro a q' h
  refine ⟨?_, fun payload hpayload => absurd hpayload (hk payload)⟩
  cases a with
  | ok a => exact .inr h
  | error e => exact h

section Others

variable {k : Call}

/-- A call that goes on with the row that it finds, and does nothing if there is none. -/
theorem wp_lookup {query : SensorQuery} {f : Option Sensor → Prog Unit}
    (hlookup : (k.protocol cfg).allowed .fresh (.findSensor query))
    (hnone : ∀ q, q.Clear → (f none).wp (k.protocol cfg) (Settles fun _ => Phase.Clear) q)
    (hsome : ∀ row q, q.Clear →
      (f (some row)).wp (k.protocol cfg) (Settles fun _ => Phase.Clear) q) :
    (findSensor query >>= f).wp (k.protocol cfg) (Settles fun _ => Phase.Clear) .fresh := by
  refine wp_seq (Q := fun _ => Phase.Clear) (wp_command hlookup fun _ => ⟨rfl, rfl⟩) ?_
  intro found q hq
  cases found with
  | none => exact hnone q hq
  | some row => exact hsome row q hq

/-- The end of a call that leaves its phase as it is. -/
theorem wp_last {x : Prog Unit} (hq : q.Clear)
    (hx : x.wp (k.protocol cfg) (Settles fun _ q' => q' = q) q) :
    x.wp (k.protocol cfg) (Settles fun _ => Phase.Clear) q := by
  refine wp_settles_mono ?_ hx
  rintro _ _ rfl
  exact hq

theorem wp_handleAssignResponse (payload : Json) :
    (ResponserService.handleAssignResponse payload).wp
      ((Call.assignResponse payload).protocol cfg) (Settles fun _ => Phase.Clear) .fresh := by
  have hclear : Phase.fresh.Clear := ⟨rfl, rfl⟩
  show Program.wp _ _ (if _ then _ else _) _
  split
  · exact .inr hclear
  show Program.wp _ _ (if _ then _ else _) _
  split
  · exact .inr hclear
  refine wp_seq (wp_validateSensorTypes rfl hclear) ?_
  rintro _ q ⟨hq, row, hrow, hvalid⟩
  refine wp_after (wp_silent ⟨rfl, .inr ⟨rfl, row, hrow, hvalid⟩⟩ fun _ => rfl) fun _ => ?_
  exact wp_last hq wp_deleteCache

theorem wp_handleDeviceHeartbeat (payload : Json) :
    (ResponserService.handleDeviceHeartbeat payload).wp
      ((Call.deviceHeartbeat payload).protocol cfg) (Settles fun _ => Phase.Clear) .fresh := by
  have hclear : Phase.fresh.Clear := ⟨rfl, rfl⟩
  show Program.wp _ _ (if _ then _ else _) _
  split
  · exact hclear
  refine wp_lookup rfl (fun q hq => .inr hq) fun row q hq => ?_
  refine wp_after (wp_silent ⟨rfl, .inl rfl⟩ fun _ => rfl) fun _ => ?_
  exact wp_last hq wp_deleteCache

theorem wp_call_AssignDeviceFunction (userId : String) (dto : PublishSensorFunctionalityDto) :
    (DeviceService.AssignDeviceFunction userId dto).wp
      ((Call.assignDeviceFunction userId dto).protocol cfg) (Settles fun _ => Phase.Clear)
      .fresh := by
  have hclear : Phase.fresh.Clear := ⟨rfl, rfl⟩
  unfold DeviceService.AssignDeviceFunction
  split
  · exact .inr hclear
  refine wp_seq (wp_getDeviceTopicByUseCase hclear) ?_
  rintro topic q ⟨hq, -⟩
  refine wp_seq (wp_validateSensorTypes rfl hq) ?_
  rintro _ q' ⟨hq', row, hrow, hvalid⟩
  refine wp_after (wp_silent trivial fun _ => rfl) fun r => ?_
  refine wp_after (wp_silent trivial fun _ => rfl) fun _ => ?_
  refine wp_after (wp_silent ⟨rfl, .inr ⟨rfl, row, hrow, hvalid⟩⟩ fun _ => rfl) fun _ => ?_
  exact wp_last hq' (wp_silent trivial fun _ => rfl)

theorem wp_setDeviceConfiguration (config : SensorConfigDto) :
    (DeviceService.setDeviceConfiguration config).wp
      ((Call.setDeviceConfiguration config).protocol cfg) (Settles fun _ => Phase.Clear)
      .fresh := by
  refine wp_lookup rfl (fun q hq => .inr hq) fun row q hq => ?_
  refine wp_seq (wp_getDeviceTopicByUseCase hq) ?_
  rintro topic q' ⟨hq', -⟩
  refine wp_after (wp_silent trivial fun _ => rfl) fun _ => ?_
  exact wp_last hq' (wp_silent ⟨rfl, .inl rfl⟩ fun _ => rfl)

theorem wp_deleteSensor (deviceId : String) :
    (DeviceService.deleteSensor deviceId).wp
      ((Call.deleteSensor deviceId).protocol cfg) (Settles fun _ => Phase.Clear) .fresh := by
  refine wp_lookup rfl (fun q hq => .inr hq) fun row q hq => ?_
  exact wp_last hq (wp_silent ⟨rfl, .inl rfl⟩ fun _ => rfl)

/-- A call that stores one topic and does not subscribe to it. -/
theorem wp_storeOnly {x : Prog Topic} {deviceId topic : String} (hq : q.Clear)
    (hs : k.subscribes q = false)
    (hx : x.wp (k.protocol cfg)
      (Settles fun t q' => Stores k q [t.topic] q' ∧ q'.Knows deviceId topic) q) :
    (do let _ ← x : Prog Unit).wp (k.protocol cfg) (Settles fun _ => Phase.Clear) q := by
  refine wp_seq hx ?_
  rintro t q' ⟨hstores, -⟩
  exact hstores.clear hq hs

theorem wp_call_getHardwareStatus (userId deviceId : String) :
    (DeviceService.getHardwareStatus cfg userId deviceId).wp
      ((Call.getHardwareStatus userId deviceId).protocol cfg) (Settles fun _ => Phase.Clear)
      .fresh := by
  refine wp_lookup rfl (fun q hq => .inr hq) fun row q hq => ?_
  refine wp_rethrow ?_
  refine wp_after (wp_silent trivial fun _ => rfl) fun r => ?_
  refine wp_after (wp_silent trivial fun _ => rfl) fun time => ?_
  refine wp_seq (wp_createTopic (.inr rfl)) ?_
  rintro topic q' ⟨hstores, -⟩
  refine wp_after (wp_silent trivial fun _ => rfl) fun _ => ?_
  exact wp_last (hstores.clear hq rfl) (wp_silent trivial fun _ => rfl)

/-- What the discovery requests do with the topic that they ask on. -/
theorem wp_askOn {awaited : Bool} {topic : String} {payload : Json} (hq : q.Clear)
    (hnames : k.Names cfg q (storedRow cfg "Mqtt_Broker" topic .broadcast)) :
    (do
      let topic ← TopicService.storeTopic cfg "Mqtt_Broker" topic .broadcast
      publish awaited topic.topic payload
      subscribe [topic.topic] : Prog Unit).wp (k.protocol cfg) (Settles fun _ => Phase.Clear) q := by
  refine wp_seq (wp_storeTopic hnames) ?_
  rintro t q' ⟨hstores, -⟩
  refine wp_after (wp_silent trivial fun _ => rfl) fun _ => ?_
  exact wp_command (.inr (hstores.owed_of_clear hq)) fun _ => hstores.clear_filter hq fun x hx => hx

theorem wp_call_discoverDevicesBroadcast (userId : String) :
    (DeviceService.discoverDevicesBroadcast cfg userId).wp
      ((Call.discoverDevicesBroadcast userId).protocol cfg) (Settles fun _ => Phase.Clear)
      .fresh := by
  refine wp_seq (wp_getBroadcastTopic ⟨rfl, rfl⟩) ?_
  rintro b q ⟨hq, hknown⟩
  refine wp_after (wp_silent trivial fun _ => rfl) fun r => ?_
  refine wp_after (wp_silent trivial fun _ => rfl) fun time => ?_
  refine wp_after (wp_silent trivial fun _ => rfl) fun _ => ?_
  exact wp_askOn hq ⟨rfl, rfl, b, hknown, rfl⟩

theorem wp_call_discoverDeviceUnicast (userId deviceId : String) :
    (DeviceService.discoverDeviceUnicast cfg userId deviceId).wp
      ((Call.discoverDeviceUnicast userId deviceId).protocol cfg) (Settles fun _ => Phase.Clear)
      .fresh := by
  refine wp_seq (wp_getBroadcastTopic ⟨rfl, rfl⟩) ?_
  rintro b q ⟨hq, -⟩
  refine wp_after (wp_silent trivial fun _ => rfl) fun r => ?_
  refine wp_after (wp_silent trivial fun _ => rfl) fun time => ?_
  refine wp_after (wp_silent trivial fun _ => rfl) fun _ => ?_
  exact wp_askOn hq ⟨rfl, rfl, rfl⟩

theorem wp_initConnection :
    MqttClientService.initConnection.wp (Call.initConnection.protocol cfg)
      (Settles fun _ => Phase.Clear) .fresh :=
  wp_rethrow (wp_command rfl fun _ => ⟨rfl, rfl⟩)

/-- The topics that are read are all that the callback has to restore. -/
theorem wp_onConnect :
    (MqttClientService.onConnect cfg).wp (Call.onConnect.protocol cfg)
      (Settles fun _ => Phase.Clear) .fresh := by
  refine wp_seq (Q := fun _ _ => True) (wp_command ⟨rfl, rfl, rfl⟩ fun _ => trivial) ?_
  rintro _ q -
  refine wp_seq (wp_createTopic (.inr rfl)) ?_
  rintro b q₁ -
  refine wp_seq (Q := fun ts q' => q'.owed = ts.map (fun t => t.topic) ∧ q'.restoring = false)
    ?_ ?_
  · refine wp_seq (Q := fun ts q' => q'.owed = ts.map (fun t => t.topic) ∧ q'.restoring = false)
      (wp_command ⟨rfl, rfl⟩ fun _ => ⟨rfl, rfl⟩) ?_
    rintro ts q₂ ⟨howed, hrestoring⟩
    show Program.wp _ _ (if _ then _ else _) _
    split
    · rename_i hts
      rw [hts] at howed
      exact .inr ⟨howed, hrestoring⟩
    · exact ⟨howed, hrestoring⟩
  · rintro ts q₂ ⟨howed, hrestoring⟩
    have hall : ∀ x ∈ q₂.owed, x ∈ ts.map (fun t => t.topic) ++ [b.topic] := by
      rw [howed]
      exact fun x hx => List.mem_append_left _ hx
    exact wp_command (.inr hall) fun _ => ⟨filter_eq_nil_of_subset hall, hrestoring⟩

end Others

/-- Every call follows its protocol. -/
theorem Call.wp_program (cfg : Config) (k : Call) :
    (k.program cfg).wp (k.protocol cfg) (k.ends cfg) .fresh := by
  cases k with
  | discoveryResponse payload =>
    refine wp_mono ?_ (wp_handleDiscoveryResponse payload)
    intro a q h
    cases a with
    | ok a =>
      refine ⟨.inr h.clear, ?_⟩
      rintro _ ⟨⟩ -
      exact ⟨h.base, h.topics⟩
    | error e => exact ⟨h, fun _ _ h => by cases h⟩
  | assignResponse payload => exact wp_ends (by rintro _ ⟨⟩) (wp_handleAssignResponse payload)
  | deviceHeartbeat payload => exact wp_ends (by rintro _ ⟨⟩) (wp_handleDeviceHeartbeat payload)
  | assignDeviceFunction userId dto =>
    exact wp_ends (by rintro _ ⟨⟩) (wp_call_AssignDeviceFunction userId dto)
  | setDeviceConfiguration config =>
    exact wp_ends (by rintro _ ⟨⟩) (wp_setDeviceConfiguration config)
  | deleteSensor deviceId => exact wp_ends (by rintro _ ⟨⟩) (wp_deleteSensor deviceId)
  | createTopic deviceId useCase =>
    exact wp_ends (by rintro _ ⟨⟩) (wp_storeOnly ⟨rfl, rfl⟩ rfl (wp_createTopic (.inr rfl)))
  | storeTopic deviceId topic useCase =>
    exact wp_ends (by rintro _ ⟨⟩) (wp_storeOnly ⟨rfl, rfl⟩ rfl (wp_storeTopic ⟨rfl, rfl, rfl⟩))
  | subscribe topics =>
    exact wp_ends (by rintro _ ⟨⟩) (wp_command (.inl rfl) fun _ => ⟨rfl, rfl⟩)
  | unsubscribe topic => exact wp_ends (by rintro _ ⟨⟩) (wp_command rfl fun _ => ⟨rfl, rfl⟩)
  | discoverDevicesBroadcast userId =>
    exact wp_ends (by rintro _ ⟨⟩) (wp_call_discoverDevicesBroadcast userId)
  | discoverDeviceUnicast userId deviceId =>
    exact wp_ends (by rintro _ ⟨⟩) (wp_call_discoverDeviceUnicast userId deviceId)
  | getHardwareStatus userId deviceId =>
    exact wp_ends (by rintro _ ⟨⟩) (wp_call_getHardwareStatus userId deviceId)
  | initConnection => exact wp_ends (by rintro _ ⟨⟩) wp_initConnection
  | onConnect => exact wp_ends (by rintro _ ⟨⟩) wp_onConnect

end Calls

end IotPanel.Device

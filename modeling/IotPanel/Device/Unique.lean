import IotPanel.Device.Naming
import IotPanel.Device.Script
import IotPanel.Device.Services

/-!
# One row per device

A discovery looks for the device, and for each of its topics, and stores what it has not found.
Nothing else keeps two discoveries from storing the same row.
-/

namespace IotPanel.Device

open Mqtt (Topic TopicUseCase)
open ResponserService (discoveredId discoveredSensor)

/-- At most one row for a device, and at most one for a device and the name of a topic. -/
structure Unique (w : World) : Prop where
  sensors : (w.sensors.map fun v => v.deviceId).Nodup
  topics : (w.topics.map fun t => (t.deviceId, t.topic)).Nodup

/-- Only responses to discoveries are handled. -/
def Discovering : ServiceEvent → Prop
  | .start k => ∃ payload, k = .discoveryResponse payload
  | _ => True

namespace Service

variable {cfg : Config}

/-- The call is under way, has looked for the device in vain, and has yet to store it. -/
def MissesSensor (t : Service cfg) (deviceId : JsVal) : Prop :=
  ¬ t.Over ∧ t.phase.device = some none ∧ t.call.deviceId = deviceId

/-- The call is under way, has looked for the topic in vain, and has yet to store it. -/
def MissesTopic (t : Service cfg) (row : Topic) : Prop :=
  ¬ t.Over ∧ ∃ own, t.phase.topic = some own ∧ own.deviceId = row.deviceId ∧ own.topic = row.topic

end Service

/-- A row is stored only while no other call that is under way has looked for it in vain, and a
device is looked for under an id that the database finds. -/
def Exclusive (cfg : Config) (p : Pool Site (Service cfg)) : ServiceEvent → Prop
  | .did _ _ (.findSensor f) _ => cfg.matchesId f.deviceId f.deviceId = true
  | .did _ _ (.saveSensor v) _ => ∀ i j t u, p.threads i = some t → p.threads j = some u →
      t.MissesSensor v.deviceId → u.MissesSensor v.deviceId → i = j
  | .did _ _ (.saveTopic row) _ => ∀ i j t u, p.threads i = some t → p.threads j = some u →
      t.MissesTopic row → u.MissesTopic row → i = j
  | _ => True

/-- The row that is stored has the id that was looked for. -/
theorem deviceId_discoveredSensor (payload : Json) :
    (discoveredSensor payload).deviceId = (Call.discoveryResponse payload).deviceId := by
  rw [Call.deviceId, discoveredId, discoveredSensor]
  cases payload.get "sensorData" with
  | none => rfl
  | some data => cases data <;> rfl

theorem nodup_map_append {α β : Type} {f : α → β} {l : List α} {a : α} (h : (l.map f).Nodup)
    (ha : f a ∉ l.map f) : ((l ++ [a]).map f).Nodup := by
  rw [List.map_append, List.map_singleton, ← List.concat_eq_append]
  exact h.concat ha

section Invariant

variable {cfg : Config} {s s' : Site} {k : Call} {q q' : Phase}

/-- The rows are unique, and every topic bears its own name. -/
structure Stored (cfg : Config) (s : Site) : Prop where
  unique : Unique s.world
  regular : ∀ row ∈ s.world.topics, Regular cfg row

/-- What a discovery has not found is not there. -/
structure Missing (s : Site) (k : Call) (q : Phase) : Prop where
  discovery : ∃ payload, k = .discoveryResponse payload
  sensor : q.device = some none → k.deviceId ∉ s.world.sensors.map fun v => v.deviceId
  topic : ∀ t, q.topic = some t → ∀ row ∈ s.world.topics, row.deviceId = t.deviceId →
    row.topic = t.topic → row.useCase ≠ t.useCase

theorem Stored.congr (h : Stored cfg s)
    (hsensors : (s'.world.sensors.map fun v => v.deviceId) = s.world.sensors.map fun v => v.deviceId)
    (htopics : s'.world.topics = s.world.topics) : Stored cfg s' where
  unique := by
    refine ⟨?_, ?_⟩
    · rw [hsensors]
      exact h.unique.sensors
    · rw [htopics]
      exact h.unique.topics
  regular := by
    rw [htopics]
    exact h.regular

theorem Missing.congr (h : Missing s k q)
    (hsensors : (s'.world.sensors.map fun v => v.deviceId) = s.world.sensors.map fun v => v.deviceId)
    (htopics : s'.world.topics = s.world.topics) (hdevice : q'.device = some none → q.device = some none)
    (htopic : ∀ t, q'.topic = some t → q.topic = some t) : Missing s' k q' where
  discovery := h.discovery
  sensor hq := by
    rw [hsensors]
    exact h.sensor (hdevice hq)
  topic t ht := by
    rw [htopics]
    exact h.topic t (htopic t ht)

theorem map_deviceId_updateSensors (cfg : Config) (s : Site) (deviceId : JsVal) (u : SensorUpdate) :
    ((s.updateSensors cfg deviceId u).world.sensors.map fun v => v.deviceId) =
      s.world.sensors.map fun v => v.deviceId := by
  show ((s.world.sensors.map _).map _) = _
  rw [List.map_map]
  refine List.map_congr_left fun v _ => ?_
  show (if _ then u.apply v else v : Sensor).deviceId = v.deviceId
  split <;> rfl

/-- A lookup that finds nothing shows that the id is not stored. -/
theorem not_mem_of_find (hid : cfg.matchesId k.deviceId k.deviceId = true)
    (hlookup : k.lookup = ⟨k.deviceId, none, none⟩)
    (hfind : s.world.sensors.find? (cfg.accepts k.lookup) = none) :
    k.deviceId ∉ s.world.sensors.map fun v => v.deviceId := by
  intro hmem
  obtain ⟨v, hv, hvid⟩ := List.mem_map.mp hmem
  have hno := List.find?_eq_none.mp hfind v hv
  rw [hlookup] at hno
  simp [Config.accepts, hvid, hid] at hno

/-- The row that would be stored is not there. -/
theorem missing_of_find {f : TopicQuery} {t : Topic} (ht : f.record cfg = some t)
    (hf : s.world.topics.find? f.accepts = none) {row : Topic} (hrow : row ∈ s.world.topics)
    (hdevice : row.deviceId = t.deviceId) (htopic : row.topic = t.topic) :
    row.useCase ≠ t.useCase := by
  intro huse
  unfold TopicQuery.record at ht
  split at ht
  · cases ht
    have hno := List.find?_eq_none.mp hf row hrow
    simp only at hdevice htopic huse
    simp [TopicQuery.accepts, hdevice, htopic, huse] at hno
  · cases ht

/-- What a step keeps, and what the call that makes it knows then. -/
theorem Stored.effect {c : Command} {r : Except Exception c.Reply} (h : Stored cfg s)
    (hk : Missing s k q) (hid : ∀ f, c = .findSensor f → cfg.matchesId f.deviceId f.deviceId = true)
    (he : Effect cfg k s q c r s' q') : Stored cfg s' ∧ Missing s' k q' := by
  obtain ⟨payload, rfl⟩ := hk.discovery
  cases he with
  | other hs =>
    have hsensors := congrArg (List.map fun v => v.deviceId) hs.sensors
    exact ⟨h.congr hsensors hs.topics, hk.congr hsensors hs.topics id fun _ => id⟩
  | failed e =>
    exact ⟨h, hk.congr rfl rfl Phase.device_of_fail fun _ => Phase.topic_of_fail⟩
  | foundSensor =>
    refine ⟨h, hk.discovery, fun hq => ?_, hk.topic⟩
    exact not_mem_of_find (hid _ rfl) rfl (Option.some.inj hq)
  | foundTopic ht => exact ⟨h, hk.congr rfl rfl id (by rintro t ⟨⟩)⟩
  | missedTopic hf =>
    exact ⟨h, hk.discovery, hk.sensor, fun t ht row hrow => missing_of_find ht hf hrow⟩
  | readTopics hk' => cases hk'
  | @updated u hset =>
    have hsensors := map_deviceId_updateSensors cfg s
      (Call.discoveryResponse payload).deviceId u
    exact ⟨h.congr hsensors rfl, hk.congr hsensors rfl id fun _ => id⟩
  | storedSensor hpayload hdevice =>
    cases hpayload
    refine ⟨⟨⟨?_, h.unique.topics⟩, h.regular⟩, hk.discovery, by rintro ⟨⟩, hk.topic⟩
    refine nodup_map_append h.unique.sensors ?_
    rw [deviceId_discoveredSensor]
    exact hk.sensor hdevice
  | @storedTopic t ht hnames =>
    -- the lookup has asked for the use case as well, but the name tells it
    have hnew : (t.deviceId, t.topic) ∉ s.world.topics.map fun row => (row.deviceId, row.topic) := by
      intro hmem
      obtain ⟨row, hrow, heq⟩ := List.mem_map.mp hmem
      obtain ⟨hdevice, htopic⟩ := Prod.mk.inj heq
      exact hk.topic t ht row hrow hdevice htopic
        ((h.regular row hrow).useCase_eq hnames hdevice htopic)
    refine ⟨⟨⟨h.unique.sensors, nodup_map_append h.unique.topics hnew⟩, fun row hrow => ?_⟩,
      hk.discovery, hk.sensor, by rintro _ ⟨⟩⟩
    rcases List.mem_append.mp hrow with hrow | hrow
    · exact h.regular row hrow
    · rw [List.mem_singleton.mp hrow]
      exact regular_of_derived hnames
  | subscribed hconnected hts => exact ⟨h.congr rfl rfl, hk.congr rfl rfl id fun _ => id⟩
  | unsubscribed hconnected => exact ⟨h.congr rfl rfl, hk.congr rfl rfl id fun _ => id⟩
  | connected hk' => cases hk'
  | renewed hk' => cases hk'

/-- What another call knows after a step. -/
theorem Missing.effect {k' : Call} {q₀ : Phase} {c : Command} {r : Except Exception c.Reply}
    (h : Missing s k' q₀) (he : Effect cfg k s q c r s' q')
    (hsensor : ∀ v, c = .saveSensor v → q₀.device = some none → k'.deviceId ≠ v.deviceId)
    (htopic : ∀ t, c = .saveTopic t → ∀ own, q₀.topic = some own →
      ¬ (own.deviceId = t.deviceId ∧ own.topic = t.topic)) : Missing s' k' q₀ := by
  cases he with
  | other hs =>
    have hsensors := congrArg (List.map fun v => v.deviceId) hs.sensors
    exact h.congr hsensors hs.topics id fun _ => id
  | updated hset => exact h.congr (map_deviceId_updateSensors cfg s _ _) rfl id fun _ => id
  | storedSensor hpayload hdevice =>
    refine ⟨h.discovery, fun hq hmem => ?_, h.topic⟩
    obtain ⟨v, hv, hid⟩ := List.mem_map.mp hmem
    rcases List.mem_append.mp hv with hv | hv
    · exact h.sensor hq (List.mem_map.mpr ⟨v, hv, hid⟩)
    · rw [List.mem_singleton.mp hv] at hid
      exact hsensor _ rfl hq hid.symm
  | storedTopic ht hnames =>
    refine ⟨h.discovery, h.sensor, fun own hown row hrow hdevice hname => ?_⟩
    rcases List.mem_append.mp hrow with hrow | hrow
    · exact h.topic own hown row hrow hdevice hname
    · rw [List.mem_singleton.mp hrow] at hdevice hname
      exact absurd ⟨hdevice.symm, hname.symm⟩ (htopic _ rfl own hown)
  | _ => exact h.congr rfl rfl id fun _ => id

theorem unique_outline (cfg : Config) :
    System.Outline (services cfg) (fun p e => Discovering e ∧ Exclusive cfg p e) (Stored cfg)
      (fun s t => ¬ t.Over → Missing s t.call t.phase) where
  env hG _ h := by
    cases h
    exact ⟨hG.congr rfl rfl, fun t ht hover => (ht hover).congr rfl rfl id fun _ => id⟩
  start _ h _ := ⟨h.1, by rintro ⟨⟩, by rintro _ ⟨⟩⟩
  did {p i t c k r s} hprog hG hA ht hcond hexec := by
    have hallowed : t.call.allows cfg t.phase c := t.allowed_of_await hprog
    have hover := t.not_over_of_await hprog
    have he := effect_of_executes hallowed hexec
    obtain ⟨hs, hself⟩ := hG.effect (hA hover) (by rintro f rfl; exact hcond.2) he
    refine ⟨hs, fun _ => hself, fun j u hj hu hAu hover' => (hAu hover').effect he ?_ ?_⟩
    · rintro v rfl hq hid
      obtain ⟨hdevice, payload, hpayload, rfl⟩ := hallowed
      have hown : Service.MissesSensor t (discoveredSensor payload).deviceId :=
        ⟨hover, hdevice, by rw [hpayload]; exact (deviceId_discoveredSensor payload).symm⟩
      exact hj (hcond.2 _ _ _ _ hu ht ⟨hover', hq, hid⟩ hown)
    · rintro row rfl own hq hsame
      exact hj (hcond.2 _ _ _ _ hu ht ⟨hover', own, hq, hsame⟩ ⟨hover, row, hallowed.1, rfl, rfl⟩)

end Invariant

/-- In a run in which no row is stored while another discovery has looked for it in vain, the rows
stay unique. -/
theorem unique_of_exclusive (cfg : Config) {s : Site} (hunique : Unique s.world)
    (hregular : ∀ row ∈ s.world.topics, Regular cfg row) {tr : List ServiceEvent}
    {p : Pool Site (Service cfg)}
    (hrun : Run ((services cfg).Step fun p e => Discovering e ∧ Exclusive cfg p e) (Pool.start s)
      tr p) : Unique p.shared.world :=
  ((System.holds_start ⟨hunique, hregular⟩).run (unique_outline cfg) hrun).shared.unique

/-- A test for runs of discoveries. -/
def discovering : ServiceEvent → Bool
  | .start (.discoveryResponse _) => true
  | .start _ => false
  | _ => true

theorem discovering_of_test {e : ServiceEvent} (h : discovering e = true) : Discovering e := by
  cases e with
  | start k =>
    cases k with
    | discoveryResponse payload => exact ⟨payload, rfl⟩
    | _ => cases h
  | _ => trivial

/-- A panel that knows no device. -/
def empty : Site where
  world := { panel with sensors := [], topics := [] }
  link := { connected := true, accepts := fun _ _ => true, sent := [], subscriptions := [],
            updates := [] }

theorem unique_empty : Unique empty.world := ⟨List.nodup_nil, List.nodup_nil⟩

def discovery : Call := .discoveryResponse (discovered true).payload

/-- At most one of the calls below `n` is under way. -/
def oneRunning (cfg : Config) (n : ℕ) (p : Pool Site (Service cfg)) : Bool :=
  (List.range n).all fun i => (List.range n).all fun j =>
    i == j || (p.threads i).all System.isOver || (p.threads j).all System.isOver

/-- A test for the steps of a run with one call after the other. -/
def consecutive (cfg : Config) (n : ℕ) (p : Pool Site (Service cfg)) (e : ServiceEvent) : Bool :=
  discovering e && oneRunning cfg n p && match e with
    | .did _ _ (.findSensor f) _ => cfg.matchesId f.deviceId f.deviceId
    | _ => true

theorem exclusive_of_consecutive {cfg : Config} {n : ℕ} {p : Pool Site (Service cfg)}
    {e : ServiceEvent} (hp : System.Below n p) (h : consecutive cfg n p e = true) :
    Discovering e ∧ Exclusive cfg p e := by
  obtain ⟨h, hfind⟩ := Bool.and_eq_true_iff.mp h
  obtain ⟨hdiscovering, hrunning⟩ := Bool.and_eq_true_iff.mp h
  have hbelow : ∀ {i t}, p.threads i = some t → i ∈ List.range n := by
    intro i t ht
    by_contra hi
    rw [hp i (by simpa using hi)] at ht
    cases ht
  have hone : ∀ {i j t u}, p.threads i = some t → p.threads j = some u → ¬ t.Over → ¬ u.Over →
      i = j := by
    intro i j t u ht hu hover hover'
    have htest := List.all_eq_true.mp (List.all_eq_true.mp hrunning i (hbelow ht)) j (hbelow hu)
    rw [ht, hu, Bool.or_eq_true, Bool.or_eq_true] at htest
    rcases htest with (heq | ht) | hu
    · exact eq_of_beq heq
    · exact absurd (System.over_of_test ht) hover
    · exact absurd (System.over_of_test hu) hover'
  refine ⟨discovering_of_test hdiscovering, ?_⟩
  cases e with
  | did k q c r =>
    cases c with
    | findSensor f => exact hfind
    | saveSensor v => exact fun i j t u ht hu hmiss hmiss' => hone ht hu hmiss.1 hmiss'.1
    | saveTopic row => exact fun i j t u ht hu hmiss hmiss' => hone ht hu hmiss.1 hmiss'.1
    | _ => trivial
  | _ => trivial

/-- A discovery that fails to store its first topic, and another one from its first command to its
last. -/
theorem unique_of_exclusive_discovery :
    ∃ tr p, Run ((services panelConfig).Step fun p e => Discovering e ∧ Exclusive panelConfig p e)
        (Pool.start empty) tr p ∧
      (p.shared.world.sensors.length = 1 ∧ p.shared.world.topics.length = 16) ∧
        Unique p.shared.world := by
  have hscript : (System.play (oracle panelConfig) 2 (consecutive panelConfig 2)
      (Pool.start empty) (.start 0 discovery :: proceed 0 2 ++
        .step 0 (.fail (.error "connection lost")) :: .start 1 discovery :: proceed 1 53)).any
        (fun p => decide (p.shared.world.sensors.length = 1 ∧
          p.shared.world.topics.length = 16)) = true := by
    decide +kernel
  obtain ⟨tr, p, hrun, -, htest⟩ :=
    System.exists_run (fun _ _ => exclusive_of_consecutive) (System.below_start _) hscript
  exact ⟨tr, p, hrun, of_decide_eq_true htest,
    unique_of_exclusive panelConfig unique_empty (by rintro _ ⟨⟩) hrun⟩

/-- The rows with the id of the device. -/
def esp32Rows (w : World) : List Sensor :=
  w.sensors.filter fun v => JsVal.strictEq (some (.str "esp32-2")) v.deviceId

theorem not_unique_of_length {w : World} (h : 2 ≤ (esp32Rows w).length) : ¬ Unique w := by
  intro hunique
  have hsub : ((esp32Rows w).map fun v => v.deviceId).Sublist (w.sensors.map fun v => v.deviceId) :=
    List.Sublist.map _ List.filter_sublist
  have hid : ∀ v ∈ esp32Rows w, v.deviceId = some (.str "esp32-2") :=
    fun v hv => eq_of_strictEq_str (List.mem_filter.mp hv).2
  have hnodup := hsub.nodup hunique.sensors
  revert h hid hnodup
  generalize esp32Rows w = rows
  intro h hid hnodup
  match rows, h with
  | a :: b :: rest, _ =>
    have hab : a.deviceId = b.deviceId :=
      (hid a (by simp)).trans (hid b (by simp)).symm
    simp [hab] at hnodup

/-- Two answers of a device, of which the second looks for it before the first has stored it. -/
theorem not_unique_of_interleaved :
    ¬ ∀ (cfg : Config) (s : Site) (tr : List ServiceEvent) (p : Pool Site (Service cfg)),
      Unique s.world → Run ((services cfg).Step fun _ e => Discovering e) (Pool.start s) tr p →
        Unique p.shared.world := by
  intro h
  have hscript : (System.play (oracle panelConfig) 2 (fun _ e => discovering e) (Pool.start empty)
      ([.start 0 discovery, .start 1 discovery] ++ proceed 0 1 ++ proceed 1 1 ++ proceed 0 3 ++
        proceed 1 3)).any (fun p => decide (2 ≤ (esp32Rows p.shared.world).length)) = true := by
    decide +kernel
  obtain ⟨tr, p, hrun, -, htest⟩ :=
    System.exists_run (fun _ _ _ => discovering_of_test) (System.below_start _) hscript
  exact not_unique_of_length (of_decide_eq_true htest)
    (h panelConfig empty tr p unique_empty hrun)

end IotPanel.Device

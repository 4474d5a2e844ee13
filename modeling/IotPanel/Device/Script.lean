import IotPanel.Device.Pending

/-!
# Scripted runs

A script says which thread moves next. Running it is a computation, so that a test of where it
leads can be decided.
-/

namespace IotPanel.Device

/-- What a scheduler does next: the oldest write on its way to the cache is executed by `land`. -/
inductive Move
  | tick (n : ℕ)
  | start (i : ℕ) (x : Start)
  | step (i : ℕ) (fresh : String)
  | land

/-- The thread may be given `fresh` as the id that it draws, if it draws one. -/
def State.grants (s : State) (fresh : String) : Command → Bool
  | .uuid => decide (Session.IsUuid fresh) && (s.drew fresh).isNone
  | _ => true

/-- The next command of a thread is executed. -/
def stepThread (cfg : Config) (s : State) (t : Thread) (fresh : String) :
    Option (Event × State × Thread) :=
  match t.prog with
  | .ret _ => none
  | .await c k =>
    let (r, w) := cfg.execute fresh s.world c
    if s.grants fresh c then
      some (.did t.id t.job c (.ok r), s.record t c (.ok r) w,
        ⟨t.id, t.job.advance c (.ok r), k (.ok r)⟩)
    else none

/-- The event and the pool after a move, if it can be made. -/
def move (cfg : Config) (p : Pool State Thread) : Move → Option (Event × Pool State Thread)
  | .tick n =>
    let s := { p.shared with world := { p.shared.world with now := p.shared.world.now + n } }
    some (.tick n, ⟨s, fun j => (p.threads j).map ((machine cfg).observe s)⟩)
  | .start i x =>
    if (p.threads i).isNone then
      some (.start x, p.put (machine cfg) { p.shared with started := p.shared.started + 1 } i
        (some ⟨p.shared.started, x.job, x.program cfg⟩))
    else none
  | .step i fresh => do
    let t ← p.threads i
    let (e, s, u) ← stepThread cfg p.shared t fresh
    return (e, p.put (machine cfg) s i (some u))
  | .land =>
    match p.shared.world.inFlight with
    | [] => none
    | f :: rest =>
      let s := p.shared.land cfg.ttl f rest
      some (.landed f, ⟨s, fun j => (p.threads j).map ((machine cfg).observe s)⟩)

/-- The pool after all moves, if each of them can be made with an event that `allow` lets
through. -/
def runScript (cfg : Config) (allow : State → Event → Bool) :
    Pool State Thread → List Move → Option (Pool State Thread)
  | p, [] => some p
  | p, m :: ms => do
    let (e, q) ← move cfg p m
    if allow p.shared e then runScript cfg allow q ms else none

variable {cfg : Config} {C : State → Thread → Event → Prop} {p q : Pool State Thread} {e : Event}

theorem exec_of_stepThread {s s' : State} {t u : Thread} {fresh : String}
    (h : stepThread cfg s t fresh = some (e, s', u)) : Exec cfg s t e s' (some u) := by
  unfold stepThread at h
  split at h
  · cases h
  · rename_i c k hprog
    simp only at h
    split at h
    · rename_i hgrants
      cases h
      refine .replied fresh hprog fun hc => ?_
      subst hc
      simpa [State.grants] using hgrants
    · cases h

theorem step_of_move {m : Move} (h : move cfg p m = some (e, q)) :
    Pool.Step (machine cfg) (fun _ => True) p e q := by
  cases m with
  | tick n =>
    cases h
    exact .env (.tick n)
  | start i x =>
    simp only [move] at h
    split at h
    · rename_i hfree
      cases h
      exact .spawn i (Option.isNone_iff_eq_none.mp hfree) trivial ⟨x, rfl, rfl, rfl⟩
    · cases h
  | step i fresh =>
    simp only [move, Option.bind_eq_bind, Option.bind_eq_some_iff] at h
    obtain ⟨t, ht, ⟨e', s', u⟩, hstep, h⟩ := h
    cases h
    exact .exec i ht (exec_of_stepThread hstep)
  | land =>
    simp only [move] at h
    split at h
    · cases h
    · rename_i f rest hf
      cases h
      have hsplit : p.shared.world.inFlight = [] ++ f :: rest := hf
      exact .env (.landed hsplit)

theorem run_of_script {allow : State → Event → Bool} {ms : List Move}
    (hallow : ∀ s t e, allow s e = true → C s t e) (h : runScript cfg allow p ms = some q) :
    ∃ tr, Run (Pool.Step ((machine cfg).restrict C) fun _ => True) p tr q := by
  induction ms generalizing p with
  | nil =>
    cases h
    exact ⟨_, .refl⟩
  | cons m ms ih =>
    simp only [runScript, Option.bind_eq_bind, Option.bind_eq_some_iff] at h
    obtain ⟨⟨e, p'⟩, hmove, h⟩ := h
    split at h
    · rename_i he
      obtain ⟨tr, hrun⟩ := ih h
      have hs := (step_of_move hmove).restrict fun t => hallow p.shared t e he
      exact ⟨_, (Run.single hs).trans hrun⟩
    · cases h

/-- A script whose events are allowed is a run of the machine, to a pool that passes the test. -/
theorem exists_run {allow : State → Event → Bool} {ms : List Move}
    {test : Pool State Thread → Bool} (hallow : ∀ s t e, allow s e = true → C s t e)
    (h : (runScript cfg allow p ms).any test = true) :
    ∃ tr q, Run (Pool.Step ((machine cfg).restrict C) fun _ => True) p tr q ∧ test q = true := by
  obtain ⟨q, hq, htest⟩ := (Option.any_eq_true _ _).mp h
  obtain ⟨tr, hrun⟩ := run_of_script hallow hq
  exact ⟨tr, q, hrun, htest⟩

/-- A script and one more move: a run of the machine, and a step out of where it ends. -/
theorem exists_step {ms : List Move} {m : Move}
    {test : Pool State Thread → Event × Pool State Thread → Bool}
    (h : (runScript cfg (fun _ _ => true) p ms).any
      (fun q => (move cfg q m).any (test q)) = true) :
    ∃ tr q e q', Run (Pool.Step (machine cfg) fun _ => True) p tr q ∧
      Pool.Step (machine cfg) (fun _ => True) q e q' ∧ test q (e, q') = true := by
  obtain ⟨tr, q, hrun, htest⟩ := exists_run (C := fun _ _ _ => True) (fun _ _ _ _ => trivial) h
  obtain ⟨⟨e, q'⟩, hmove, htest⟩ := (Option.any_eq_true _ _).mp htest
  exact ⟨tr, q, e, q', hrun.mono fun hs => hs.of_restrict, step_of_move hmove, htest⟩

/-! ### A panel with one device -/

def panelConfig : Config :=
  { ttl := 60, topics := ⟨"iot", "mqtt://broker"⟩, idMatches := fun _ _ => false,
    functionalityMatches := fun _ _ => false }

/-- The device is known already, and has been deleted. -/
def esp32 : Sensor :=
  { deviceId := some (.str "esp32-2"), capabilities := some (.arr [.str "temperature"]),
    assignedFunctionality := none, provisionState := .discovered,
    connectionState := some (.str "offline"), isActuator := false, isDeleted := true,
    lastReboot := .value none, lastUpgrade := .value none, configuration := none }

def panel : World :=
  { now := 0, cache := Store.empty, inFlight := [], sensors := [esp32], telemetry := [],
    unsaved := [], hardware := [],
    topics := [⟨"mqtt://broker", "Mqtt_Broker", "iot/broadcast", .broadcast, true⟩] }

def panelRequest : String := "b1f0a9d4-3c27-4d85-8e12-5f7a60c9e3d2"

/-- A heartbeat with the ids of the request. -/
def heartbeat : Delivery :=
  { kind := .heartbeat, topic := "iot/esp32-2/heartbeat"
    payload := .obj [("userId", .str "ana"), ("responseId", .str "h1"),
      ("responseCode", .str "210"), ("requestId", .str panelRequest),
      ("deviceId", .str "esp32-2"), ("timestamp", .num 1), ("connectionState", .str "online"),
      ("uptime", .num 5), ("wifiRssi", .num 3)] }

/-- The answer of the device to a discovery with the id of the request. -/
def discovered (isBroadcast : Bool) : Delivery :=
  { kind := .discovery, topic := "iot/esp32-2/discovery"
    payload := .obj [("userId", .str "ana"), ("responseId", .str "d1"),
      ("responseCode", .str "200"), ("requestId", .str panelRequest), ("timestamp", .num 1),
      ("isBroadcast", .bool isBroadcast), ("uptime", .num 5),
      ("sensorData", .obj [("deviceId", .str "esp32-2")])] }

/-- The request is made, up to its entry in the cache. -/
def request (op : RequestOp) : List Move :=
  [.start 0 (.request op), .step 0 "", .step 0 panelRequest, .step 0 "", .step 0 "", .land]

/-- The delivery arrives and passes the check. -/
def arrive (i : ℕ) (d : Delivery) : List Move := [.start i (.delivery d), .step i "", .step i ""]

end IotPanel.Device

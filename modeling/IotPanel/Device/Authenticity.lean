import IotPanel.Device.Script

/-!
# Whether a reply answers its request

The check compares two ids. What kind of request it was, and which device it was for, is not
compared; where every reply that is checked does answer the request, what the handlers change is
what was asked for.
-/

namespace IotPanel.Device

open Responser (ResponseType)

/-- The code of the requests that a kind of response answers. -/
def answeredCode : ResponseType → Option String
  | .discovery => some "REQUEST_DISCOVERY"
  | .assign => some "REQUEST_ASSIGN_DEVICE_FUNCTION"
  | .ack => none
  | .upgrade => some "REQUEST_FIRMWARE_UPDATE"
  | .heartbeat => some "REQUEST_HEARTBEAT"
  | .reboot => some "REQUEST_REBOOT"
  | .telemetry => some "REQUEST_TELEMETRY_DATA"
  | .hardwareStatus => some "REQUEST_HARDWARE_METRICS"

/-- The response is of the kind that was asked for, and from the device that was asked. -/
structure Delivery.Answers (d : Delivery) (op : RequestOp) : Prop where
  code : answeredCode d.kind = some op.code
  device : ∀ target, op.target = some target → d.deviceId = some (.str target)

/-- What the thread `id` changes of the device is the answer to a request that was issued, and
whose entry had lived for less than its lifetime when the reply was checked. -/
def Authentic (cfg : Config) (s : State) (id : ℕ) (d : Delivery) (deviceId : JsVal) : Prop :=
  ∃ ta r op tl, (id, d, ta) ∈ s.accepted ∧ Matched cfg s d ta r op tl ∧ d.Answers op ∧
    deviceId = d.deviceId

/-- A reply that carries the ids of a pending request, and whose code its handler goes on with,
answers that request. -/
def Answering (cfg : Config) (s : State) (_ : Thread) (e : Event) : Prop :=
  ∀ d, e.reads = some d → d.proceeds = true → ∀ r op, s.Pending cfg r op →
    Carries d.payload r op → d.Answers op

variable {cfg : Config} {s s' : State} {i : ℕ} {d : Delivery} {e : Event}

/-- A handler touches the device of its response alone, after the check, and only if it goes on
with the code. -/
theorem Delivery.allowed_of_touches {q : DeliveryPhase} {c : Command} {deviceId : JsVal}
    (hallowed : d.protocol.allowed q c) (h : c.touches = some deviceId) :
    q = .accepted ∧ d.proceeds = true ∧ deviceId = d.deviceId := by
  cases c with
  | updateSensors _ _ | saveSensor _ | saveTelemetry _ | saveHardwareStatus _ =>
    cases h
    exact hallowed
  | _ => cases h

theorem Event.eq_of_changes {deviceId : JsVal} (h : e.changes = some (i, d, deviceId)) :
    ∃ q c r, e = .did i (.delivery d q) c (.ok r) ∧ c.touches = some deviceId := by
  cases e with
  | did id job c r =>
    cases job with
    | request _ _ => cases h
    | delivery d' q =>
      cases r with
      | error _ => cases h
      | ok r =>
        obtain ⟨touched, htouched, heq⟩ := Option.map_eq_some_iff.mp h
        cases heq
        exact ⟨q, c, r, rfl, htouched⟩
  | _ => cases h

/-- The replies that have been accepted so far answer their requests. -/
def Answered (s : State) : Prop :=
  ∀ {i d ta r op}, (i, d, ta) ∈ s.accepted → d.proceeds = true →
    d.payload.get "requestId" = some (.str r) → s.issued r = some op → d.Answers op

theorem Answered.does {job job' : Job} {t : Thread} (hwf : WellFormed cfg s) (h : Answered s)
    (hjob : job.Holds s i) (hs : Does s i job e s' job') (hC : Answering cfg s t e) :
    Answered s' := by
  cases hs with
  | @issued op r =>
    intro j d ta v op' hj hgo hid hop
    by_cases hv : v = r
    · subst hv
      exact absurd hjob.2 (hwf.issued_of_accepted hj hid)
    · exact h hj hgo hid (by simpa [State.issue, hv] using hop)
  | @found d hvalid hchecked =>
    intro j d' ta v op' hj hgo hid hop
    rcases List.mem_cons.mp hj with heq | hj
    · cases heq
      obtain ⟨r, op, hc, hp⟩ := hwf.pending_of_checked hvalid hchecked
      obtain rfl := eq_of_get hid hc.requestId
      obtain rfl : op' = op := Option.some.inj (hop.symm.trans hp.issued)
      exact hC d rfl hgo _ _ hp hc
    · exact h hj hgo hid hop
  | _ => exact h

theorem Answered.outline (cfg : Config) :
    Pool.Outline ((machine cfg).restrict (Answering cfg))
      (fun s => WellFormed cfg s ∧ Answered s) Thread.Holds Thread.Differs := by
  refine outline_and cfg id ?_ fun hwf h hjob hs hC => h.does hwf hjob hs hC
  intro s e s' h hs
  cases hs <;> exact h

/-- In a run whose replies answer the requests they carry the ids of, every change of a handler
is authentic. -/
theorem authentic_of_answering (cfg : Config) (w : World) {tr : List Event}
    {p q : Pool State Thread} {deviceId : JsVal}
    (hrun : Run (Pool.Step ((machine cfg).restrict (Answering cfg)) fun _ => True)
      (Pool.start (.initial w)) tr p)
    (hs : Pool.Step ((machine cfg).restrict (Answering cfg)) (fun _ => True) p e q)
    (he : e.changes = some (i, d, deviceId)) : Authentic cfg p.shared i d deviceId := by
  have hinitial : Answered (.initial w) := fun h => by cases h
  obtain ⟨⟨hwf, hanswered⟩, hthread, -⟩ := Pool.Holds.run (Answered.outline cfg)
    (Pool.holds_start ⟨wellFormed_initial cfg w, hinitial⟩) hrun
  cases hs with
  | env h => cases h <;> cases he
  | spawn j hfree hadmits h =>
    obtain ⟨x, rfl, -, -⟩ := h
    cases he
  | exec j ht h =>
    have hL := hthread ht
    obtain ⟨ph, c, r, rfl, htouched⟩ := Event.eq_of_changes he
    obtain ⟨hid, hjob, hallowed⟩ := allows_of_exec hL.follows h.1
    obtain ⟨rfl, hgo, rfl⟩ := Delivery.allowed_of_touches hallowed htouched
    have haccepted := hL.job
    rw [← hjob, ← hid] at haccepted
    obtain ⟨ta, hta⟩ := haccepted
    obtain ⟨-, r', op, tl, hm⟩ := hwf.accepted hta
    exact ⟨ta, r', op, tl, hta, hm, hanswered hta hgo hm.carries.requestId hm.issued, rfl⟩

/-- A test for replies that answer what has been issued under their id. -/
def answers (s : State) (e : Event) : Bool :=
  e.reads.all fun d =>
    match d.payload.get "requestId" with
    | some (.str r) => (s.issued r).all fun op =>
      decide (answeredCode d.kind = some op.code) && op.target.isNone
    | _ => false

theorem answering_of_answers (t : Thread) (h : answers s e = true) : Answering cfg s t e := by
  intro d hd _ r op hp hc
  simp only [answers, hd, Option.all_some, hc.requestId, hp.issued, Bool.and_eq_true,
    decide_eq_true_eq, Option.isNone_iff_eq_none] at h
  refine ⟨h.1, fun target htarget => ?_⟩
  rw [h.2] at htarget
  cases htarget

/-- A broadcast discovery, whose answer brings the deleted device back. -/
theorem authentic_of_answering_discovery :
    ∃ tr p q, Run (Pool.Step ((machine panelConfig).restrict (Answering panelConfig))
        fun _ => True) (Pool.start (.initial panel)) tr p ∧
      ∃ e i d deviceId,
        Pool.Step ((machine panelConfig).restrict (Answering panelConfig)) (fun _ => True) p e q ∧
          e.changes = some (i, d, deviceId) ∧ Authentic panelConfig p.shared i d deviceId := by
  have hscript : (runScript panelConfig answers (Pool.start (.initial panel))
      (request (.discoverDevicesBroadcast "ana") ++ arrive 1 (discovered true) ++ [.step 1 ""])).any
        (fun p => (move panelConfig p (.step 1 "")).any fun x =>
          x.1.changes.isSome && answers p.shared x.1) = true := by
    decide +kernel
  obtain ⟨tr, p, hrun, htest⟩ := exists_run (C := Answering panelConfig)
    (fun _ t _ h => answering_of_answers t h) hscript
  obtain ⟨⟨e, q⟩, hmove, htest⟩ := (Option.any_eq_true _ _).mp htest
  obtain ⟨hchanges, hanswers⟩ := Bool.and_eq_true_iff.mp htest
  obtain ⟨⟨i, d, deviceId⟩, hchanges⟩ := Option.isSome_iff_exists.mp hchanges
  have hanswering : ∀ t, Answering panelConfig p.shared t e :=
    fun t => answering_of_answers t hanswers
  have hs := (step_of_move hmove).restrict hanswering
  exact ⟨tr, p, q, hrun, e, i, d, deviceId, hs, hchanges,
    authentic_of_answering panelConfig panel hrun hs hchanges⟩

/-- A heartbeat of one device is taken as the answer to a discovery of another. -/
theorem not_authentic_of_heartbeat :
    ¬ ∀ (cfg : Config) (w : World) (tr : List Event) (p q : Pool State Thread) (e : Event)
      (i : ℕ) (d : Delivery) (deviceId : JsVal),
      Run (Pool.Step (machine cfg) fun _ => True) (Pool.start (.initial w)) tr p →
        Pool.Step (machine cfg) (fun _ => True) p e q → e.changes = some (i, d, deviceId) →
          Authentic cfg p.shared i d deviceId := by
  intro h
  have hscript : (runScript panelConfig (fun _ _ => true) (Pool.start (.initial panel))
      (request (.discoverDeviceUnicast "ana" "esp32-1") ++ arrive 1 heartbeat ++
        [.step 1 ""])).any
        (fun p => (move panelConfig p (.step 1 "")).any fun x =>
          x.1.changes.any fun y =>
            match y.2.1.payload.get "requestId" with
            | some (.str r) => (p.shared.issued r).any fun op =>
              !decide (answeredCode y.2.1.kind = some op.code)
            | _ => false) = true := by
    decide +kernel
  obtain ⟨tr, p, e, q, hrun, hs, htest⟩ := exists_step hscript
  obtain ⟨⟨i, d, deviceId⟩, hchanges, htest⟩ := (Option.any_eq_true _ _).mp htest
  obtain ⟨ta, r, op, tl, -, hm, hanswers, -⟩ :=
    h panelConfig panel tr p q e i d deviceId hrun hs hchanges
  simp only [hm.carries.requestId, hm.issued, Option.any_some, hanswers.code, decide_true,
    Bool.not_true] at htest
  cases htest

end IotPanel.Device

import IotPanel.Device.Script

/-!
# Whether a request can be answered

The write of the entry is not awaited, so that the request may be published before the entry is
there. Once it is, every reply with its two ids passes the check until the entry expires or is
deleted.
-/

namespace IotPanel.Device

open Responser (pendingKey)

/-- The request and the payload that is handed to the broker. -/
def Event.publishes : Event → Option (RequestOp × Json)
  | .did _ (.request op _) (.publish _ _ payload) _ => some (op, payload)
  | _ => none

/-- The cache holds the ids of the payload under its request id, and from then on every valid
reply that echoes them passes the check, as long as the entry lives and no reply deletes it. -/
def Answerable (cfg : Config) (p : Pool State Thread) (payload : Json) : Prop :=
  ∃ entry, p.shared.world.cache (pendingKey (payload.get "requestId")) = some entry ∧
    p.shared.world.now < entry.expiresAt ∧
    entry.value.get "requestId" = payload.get "requestId" ∧
    entry.value.get "userId" = payload.get "userId" ∧
    ∀ tr p', Run (Pool.Step (machine cfg) fun _ => True) p tr p' →
      p'.shared.world.now < entry.expiresAt →
      (∀ i, (i, pendingKey (payload.get "requestId")) ∉ p'.shared.deleted) →
      ∀ d : Delivery, d.Validated → d.payload.get "requestId" = payload.get "requestId" →
        d.payload.get "userId" = payload.get "userId" →
          d.checked (p'.shared.lookup d) = .accepted

variable {cfg : Config} {s s' : State} {i tl : ℕ} {r : String} {op : RequestOp} {e : Event}

/-- What has been issued and has reached the cache stays recorded. -/
def Reached (r : String) (op : RequestOp) (tl : ℕ) (s : State) : Prop :=
  s.issued r = some op ∧ s.landed r = some tl

theorem Reached.env (hwf : WellFormed cfg s) (h : Reached r op tl s) (hs : Env cfg s e s') :
    Reached r op tl s' := by
  cases hs with
  | @landed f before after hf =>
    refine ⟨h.1, ?_⟩
    have hmem : f ∈ s.world.inFlight := by simp [hf]
    show (if (s.issued r).isSome ∧ f.key = pendingKey (some (.str r)) then some s.world.now
      else s.landed r) = some tl
    rw [if_neg, h.2]
    rintro ⟨hr, hkey⟩
    obtain rfl | ⟨v, op', rfl, -, hnone⟩ := hwf.inFlight f hmem
    · exact hwf.key_ne hr hkey.symm
    · rw [pendingKey_inj.mp hkey, h.2] at hnone
      cases hnone
  | _ => exact h

theorem Reached.does {job job' : Job} (h : Reached r op tl s) (hjob : job.Holds s i)
    (hs : Does s i job e s' job') : Reached r op tl s' := by
  cases hs with
  | @issued op' v =>
    refine ⟨?_, h.2⟩
    have hne : r ≠ v := by
      rintro rfl
      have hissued := hjob.2
      rw [h.1] at hissued
      cases hissued
    simpa [State.issue, hne] using h.1
  | _ => exact h

theorem Reached.outline (cfg : Config) (r : String) (op : RequestOp) (tl : ℕ) :
    Pool.Outline (machine cfg) (fun s => WellFormed cfg s ∧ Reached r op tl s) Thread.Holds
      Thread.Differs := by
  refine (Device.outline cfg).strengthen ?_ ?_ ?_
  · intro s e s' hwf h hs
    exact h.env hwf hs
  · rintro s e s' t _ h ⟨x, _, rfl, _⟩
    exact h
  · intro s t e s' t' hwf ht h hs
    obtain ⟨u, -, -, -, hdoes⟩ := does_of_exec ht.follows hs
    exact h.does ht.job hdoes

variable {p q : Pool State Thread} {payload : Json}

/-- A pending request stays pending until its entry expires or is deleted. -/
theorem pending_of_run (hp : Pool.Holds (WellFormed cfg) Thread.Holds Thread.Differs p)
    (hr : Reached r op tl p.shared) {tr : List Event}
    (hrun : Run (Pool.Step (machine cfg) fun _ => True) p tr q)
    (hlive : q.shared.world.now < tl + 1000 * cfg.ttl)
    (hkept : ∀ i, (i, pendingKey (some (.str r))) ∉ q.shared.deleted) :
    WellFormed cfg q.shared ∧ q.shared.Pending cfg r op := by
  have hstart : Pool.Holds (fun s => WellFormed cfg s ∧ Reached r op tl s) Thread.Holds
      Thread.Differs p := ⟨⟨hp.shared, hr⟩, hp.thread, hp.apart⟩
  obtain ⟨⟨hwf, hissued, hlanded⟩, -, -⟩ := hstart.run (Reached.outline cfg r op tl) hrun
  exact ⟨hwf, hissued, ⟨tl, hlanded, hlive⟩, hkept⟩

theorem answerable_of_pending (hp : Pool.Holds (WellFormed cfg) Thread.Holds Thread.Differs p)
    (hc : Carries payload r op) (hpending : p.shared.Pending cfg r op) :
    Answerable cfg p payload := by
  obtain ⟨tl, hl, hlive⟩ := hpending.live
  unfold Answerable
  rw [hc.requestId, hc.userId]
  refine ⟨_, hp.shared.kept hpending.issued hl hpending.kept, hlive, rfl, rfl, ?_⟩
  intro tr q hrun hnow hkept d _ hid huser
  obtain ⟨hwf, hq⟩ := pending_of_run hp ⟨hpending.issued, hl⟩ hrun hnow hkept
  exact hwf.checked_of_pending hq ⟨hid, huser⟩

theorem pending_of_answerable (hwf : WellFormed cfg p.shared)
    (hid : payload.get "requestId" = some (.str r)) (h : Answerable cfg p payload) :
    ∃ op, Carries payload r op ∧ p.shared.Pending cfg r op := by
  obtain ⟨entry, hentry, hlive, hids, huser, -⟩ := h
  rw [hid] at hentry hids
  obtain hundefined | ⟨op, hvalue, hpending⟩ :=
    hwf.pending_of_get (Store.get_eq_some.mpr ⟨entry, hentry, hlive, rfl⟩)
  · rw [hundefined] at hids
    cases hids
  · rw [hvalue, entry_userId] at huser
    exact ⟨op, ⟨hid, huser.symm⟩, hpending⟩

theorem Event.eq_of_publishes (h : e.publishes = some (op, payload)) :
    ∃ i q awaited topic reply,
      e = .did i (.request op q) (.publish awaited topic payload) reply := by
  cases e with
  | did i job c reply =>
    cases job with
    | delivery _ _ => cases h
    | request op' q =>
      cases c with
      | publish awaited topic payload' =>
        cases h
        exact ⟨i, q, awaited, topic, reply, rfl⟩
      | _ => cases h
  | _ => cases h

/-- A request that is published can be answered if and only if the entry with its ids has
reached the cache, has not expired and has not been deleted; and the ids of all requests but
those of `getDeviceTelemetry` are the ones whose entry the request itself has sent. -/
theorem answerable_iff_pending (cfg : Config) (w : World) {tr : List Event}
    (hrun : Run (Pool.Step (machine cfg) fun _ => True) (Pool.start (.initial w)) tr p)
    (hs : Pool.Step (machine cfg) (fun _ => True) p e q)
    (he : e.publishes = some (op, payload)) :
    (Answerable cfg p payload ↔
        ∃ r op', Carries payload r op' ∧ p.shared.Pending cfg r op') ∧
      ((∃ telemetry, op = .getDeviceTelemetry telemetry) ∨
        ∃ r, Carries payload r op ∧ p.shared.issued r = some op) := by
  have hp := Pool.Holds.run (Device.outline cfg) (Pool.holds_start (wellFormed_initial cfg w)) hrun
  obtain ⟨i, ph, awaited, topic, reply, rfl⟩ := Event.eq_of_publishes he
  cases hs with
  | env h => cases h
  | spawn _ _ _ h =>
    obtain ⟨x, hx, -, -⟩ := h
    cases hx
  | exec j ht h =>
    have hL := hp.thread ht
    obtain ⟨hi, hjob, hallowed⟩ := allows_of_exec hL.follows h
    -- The id is that of the request which the thread itself has sent.
    have hown := hL.job
    rw [← hjob, ← hi] at hown
    have hid : ∃ r, payload.get "requestId" = some (.str r) := by
      obtain ⟨r, -, hid, -⟩ | ⟨telemetry, -, rfl⟩ := hallowed
      · exact ⟨r, hid⟩
      · exact ⟨telemetry.requestId, rfl⟩
    refine ⟨⟨fun ha => ?_, ?_⟩, ?_⟩
    · obtain ⟨r, hid⟩ := hid
      obtain ⟨op', hc, hpending⟩ := pending_of_answerable hp.shared hid ha
      exact ⟨r, op', hc, hpending⟩
    · rintro ⟨r, op', hc, hpending⟩
      exact answerable_of_pending hp hc hpending
    · obtain ⟨r, rfl, hid, huser⟩ | ⟨telemetry, rfl, -⟩ := hallowed
      · exact .inr ⟨r, ⟨hid, huser⟩, hown⟩
      · exact .inl ⟨telemetry, rfl⟩

/-- A discovery whose entry has been written by the time it is published. -/
theorem answerable_iff_pending_discovery :
    ∃ tr p e q op payload,
      Run (Pool.Step (machine panelConfig) fun _ => True) (Pool.start (.initial panel)) tr p ∧
        Pool.Step (machine panelConfig) (fun _ => True) p e q ∧
        e.publishes = some (op, payload) ∧ Answerable panelConfig p payload := by
  have hscript : (runScript panelConfig (fun _ _ => true) (Pool.start (.initial panel))
      (request (.discoverDevicesBroadcast "ana") ++ [.step 0 "", .step 0 ""])).any
        (fun p => (move panelConfig p (.step 0 "")).any fun x => x.1.publishes.any fun y =>
          decide (y.1.target = none) && (p.shared.issued panelRequest).isSome &&
          (match p.shared.landed panelRequest with
            | some tl => decide (p.shared.world.now < tl + 1000 * panelConfig.ttl)
            | none => false) && p.shared.deleted.isEmpty &&
          JsVal.strictEq (some (.str panelRequest)) (y.2.get "requestId")) = true := by
    decide +kernel
  obtain ⟨tr, p, e, q, hrun, hs, htest⟩ := exists_step hscript
  obtain ⟨⟨op, payload⟩, he, htest⟩ := (Option.any_eq_true _ _).mp htest
  simp only [Bool.and_eq_true, decide_eq_true_eq] at htest
  obtain ⟨⟨⟨⟨htarget, hissued⟩, hlive⟩, hdeleted⟩, hid⟩ := htest
  obtain ⟨hiff, hown⟩ := answerable_iff_pending panelConfig panel hrun hs he
  refine ⟨tr, p, e, q, op, payload, hrun, hs, he, hiff.mpr ?_⟩
  obtain ⟨telemetry, rfl⟩ | ⟨r, hc, hop⟩ := hown
  · cases htarget
  · obtain rfl := eq_of_get (eq_of_strictEq_str hid) hc.requestId
    refine ⟨panelRequest, op, hc, hop, ?_, fun i hi => ?_⟩
    · split at hlive
      · rename_i tl hl
        exact ⟨tl, hl, by simpa using hlive⟩
      · cases hlive
    · rw [List.isEmpty_iff.mp hdeleted] at hi
      cases hi

/-- The panel with an assigned device. -/
def assignedPanel : World :=
  { panel with
    sensors := [{ esp32 with isDeleted := false, provisionState := .assigned }]
    topics := [⟨"mqtt://broker", "esp32-2", "iot/esp32-2/telemetry", .telemetry, true⟩] }

def telemetryRequest : PublishTelemetryDto :=
  { userId := "ana", requestId := panelRequest, requestCode := "REQUEST_TELEMETRY_DATA",
    deviceId := "esp32-2", timestamp := 1 }

/-- A telemetry request is published with nothing in the cache under its id. -/
theorem not_answerable_of_telemetry :
    ¬ ∀ (cfg : Config) (w : World) (tr : List Event) (p q : Pool State Thread) (e : Event)
      (op : RequestOp) (payload : Json),
      Run (Pool.Step (machine cfg) fun _ => True) (Pool.start (.initial w)) tr p →
        Pool.Step (machine cfg) (fun _ => True) p e q → e.publishes = some (op, payload) →
          Answerable cfg p payload := by
  intro h
  have hscript : (runScript panelConfig (fun _ _ => true) (Pool.start (.initial assignedPanel))
      [.start 0 (.request (.getDeviceTelemetry telemetryRequest)), .step 0 "", .step 0 "",
        .step 0 "", .land]).any
        (fun p => (move panelConfig p (.step 0 "")).any fun x => x.1.publishes.any fun y =>
          (p.shared.world.cache (pendingKey (y.2.get "requestId"))).isNone) = true := by
    decide +kernel
  obtain ⟨tr, p, e, q, hrun, hs, htest⟩ := exists_step hscript
  obtain ⟨⟨op, payload⟩, he, htest⟩ := (Option.any_eq_true _ _).mp htest
  obtain ⟨entry, hentry, -⟩ := h panelConfig assignedPanel tr p q e op payload hrun hs he
  simp only [hentry, Option.isNone_some] at htest
  cases htest

end IotPanel.Device

import IotPanel.Device.Lifecycle
import IotPanel.Lib.Tally
import Mathlib.Algebra.BigOperators.Pi

/-!
# The records of the devices

Sensors, telemetry and hardware statuses are only ever added. What is stored in the end is what was
there and what each call has stored: nothing of it is lost, and nothing comes twice. Only
discoveries get to store anything.
-/

namespace IotPanel.Device

open ResponserService (discoveredSensor)

/-- All that is stored, is on its way to the database or has been refused by it. -/
def Archive.records (a : Archive) : Records :=
  (↑(a.site.world.sensors.map Sensor.identity),
    ↑a.site.world.telemetry + ↑a.site.world.unsaved + ↑a.refused, ↑a.site.world.hardware)

section Steps

variable {cfg : Config} {k : Errand} {g : Progress} {a a' : Archive}

theorem coe_eraseIdx {α : Type} {xs : List α} {i : ℕ} {x : α} (h : xs[i]? = some x) :
    {x} + (↑(xs.eraseIdx i) : Multiset α) = ↑xs := by
  obtain ⟨hi, rfl⟩ := List.getElem?_eq_some_iff.mp h
  exact Multiset.coe_eq_coe.mpr (List.getElem_cons_eraseIdx_perm hi)

/-- No incident adds or removes a record. -/
theorem records_after {x : Incident} (h : a.after cfg x = some a') : a'.records = a.records := by
  cases x with
  | tick | closed =>
    cases h
    rfl
  | landed i | lost i =>
    obtain ⟨f, -, rfl⟩ := Option.map_eq_some_iff.mp h
    rfl
  | saved i =>
    obtain ⟨t, ht, rfl⟩ := Option.map_eq_some_iff.mp h
    refine Prod.ext rfl (Prod.ext ?_ rfl)
    show ↑(a.site.world.telemetry ++ [t]) + ↑(a.site.world.unsaved.eraseIdx i) + ↑a.refused =
      (↑a.site.world.telemetry + ↑a.site.world.unsaved + ↑a.refused : Multiset Telemetry)
    rw [← coe_eraseIdx ht, ← Multiset.coe_add, Multiset.coe_singleton]
    ac_rfl
  | refused i =>
    obtain ⟨t, ht, rfl⟩ := Option.map_eq_some_iff.mp h
    refine Prod.ext rfl (Prod.ext ?_ rfl)
    show ↑a.site.world.telemetry + ↑(a.site.world.unsaved.eraseIdx i) + ↑(a.refused ++ [t]) =
      (↑a.site.world.telemetry + ↑a.site.world.unsaved + ↑a.refused : Multiset Telemetry)
    rw [← coe_eraseIdx ht, ← Multiset.coe_add, Multiset.coe_singleton]
    ac_rfl

/-- What a command adds to the records is noted of its call. -/
theorem records_of_executes {c : Command} {r : Except Exception c.Reply} {s' : Site}
    (h : Executes cfg a.site c r s') :
    ∃ x, ({ a with site := s' } : Archive).records = a.records + x ∧
      (k.next g c r).stored = g.stored + x := by
  have hsame : ∀ {t : Site},
      t.world.sensors.map Sensor.identity = a.site.world.sensors.map Sensor.identity →
      t.world.telemetry = a.site.world.telemetry → t.world.unsaved = a.site.world.unsaved →
      t.world.hardware = a.site.world.hardware →
      ({ a with site := t } : Archive).records = a.records + 0 := by
    intro t hsensors htelemetry hunsaved hhardware
    rw [add_zero]
    unfold Archive.records
    rw [hsensors, htelemetry, hunsaved, hhardware]
  cases h with
  | failed e hfallible =>
    refine ⟨0, hsame rfl rfl rfl rfl, ?_⟩
    rw [add_zero]
    cases c with
    | _ => rfl
  | kept hconnected => exact ⟨0, hsame rfl rfl rfl rfl, (add_zero _).symm⟩
  | attempted fresh c hfresh =>
    cases c with
    | saveSensor v =>
      refine ⟨({v.identity}, 0, 0), ?_, rfl⟩
      refine Prod.ext ?_ (Prod.ext (add_zero _).symm (add_zero _).symm)
      show ((a.site.world.sensors ++ [v]).map Sensor.identity : Multiset Identity) = _
      rw [List.map_append]
      rfl
    | saveTelemetry t =>
      refine ⟨(0, {t}, 0), Prod.ext (add_zero _).symm (Prod.ext ?_ (add_zero _).symm), rfl⟩
      show ↑a.site.world.telemetry + ↑(a.site.world.unsaved ++ [t]) + ↑a.refused =
        (↑a.site.world.telemetry + ↑a.site.world.unsaved + ↑a.refused : Multiset Telemetry) + {t}
      rw [← Multiset.coe_add, Multiset.coe_singleton]
      ac_rfl
    | saveHardwareStatus x =>
      refine ⟨(0, 0, {x}), Prod.ext (add_zero _).symm (Prod.ext (add_zero _).symm ?_), rfl⟩
      exact (Multiset.coe_add _ _).symm
    | updateSensors deviceId u =>
      refine ⟨0, hsame ?_ rfl rfl rfl, (add_zero _).symm⟩
      show (a.site.world.sensors.map fun v =>
        if cfg.matchesId deviceId v.deviceId then u.apply v else v).map Sensor.identity = _
      rw [List.map_map]
      refine List.map_congr_left fun v _ => ?_
      show (if cfg.matchesId deviceId v.deviceId then u.apply v else v).identity = v.identity
      split
      · rfl
      · rfl
    | publish awaited topic payload | subscribe topics | unsubscribe topic =>
      refine ⟨0, ?_, (add_zero _).symm⟩
      unfold Site.attempt
      dsimp only
      split
      · exact hsame rfl rfl rfl rfl
      · exact hsame rfl rfl rfl rfl
    | _ => exact ⟨0, hsame rfl rfl rfl rfl, (add_zero _).symm⟩

theorem records_tally : System.Tally (errands cfg) Archive.records
    fun _ g => g.stored where
  fresh _ := rfl
  env h := records_after h
  did {a t c r a'} _ hexec := by
    obtain ⟨site, refused⟩ := a'
    obtain ⟨hexec, hrefused⟩ := hexec
    obtain rfl : refused = a.refused := hrefused
    obtain ⟨x, hrecords, hstored⟩ := records_of_executes (k := t.call) (g := t.phase) hexec
    calc ({ a with site } : Archive).records + t.phase.stored
        = a.records + x + t.phase.stored := by rw [hrecords]
      _ = a.records + (t.phase.stored + x) := by ac_rfl
      _ = a.records + (t.call.next t.phase c r).stored := by rw [hstored]

/-- The call has stored nothing yet, or what an entitled call is due to store. -/
def Kept (tr : List ErrandEvent) (k : Errand) (g : Progress) : Prop :=
  g.stored = 0 ∨ (g.stored = k.due ∧ Entitled tr k)

theorem Kept.mono {tr : List ErrandEvent} (h : Kept tr k g) (e : ErrandEvent) :
    Kept (e :: tr) k g :=
  h.imp_right fun hdue => ⟨hdue.1, hdue.2.mono e⟩

theorem kept_recall : System.Recall (errands cfg) (fun _ _ => True)
    fun tr a k g => Truthful cfg tr a k g ∧ Kept tr k g where
  start := ⟨truthful_recall.start, .inl rfl⟩
  mono hs h := ⟨truthful_recall.mono hs h.1, h.2.mono _⟩
  did {tr a t c r a'} h hallowed hexec := by
    refine ⟨truthful_recall.did h.1 hallowed hexec, ?_⟩
    have hstore : ∀ x, t.call.Stores t.phase x →
        Kept (.did t.call t.phase c r :: tr) t.call (t.phase.store x) := by
      rintro x ⟨hacts, hnone, rfl⟩
      exact .inr ⟨Progress.stored_store hnone, (entitled_of_acts h.1 hacts).mono _⟩
    have hkept := h.2.mono (.did t.call t.phase c r)
    show Kept _ t.call (t.call.next t.phase c r)
    unfold Errand.next
    split
    · exact hkept
    · exact hkept
    · exact hstore _ hallowed.1
    · exact hstore _ hallowed
    · exact hstore _ hallowed
    · exact hkept

end Steps

section Runs

variable {cfg : Config} {a : Archive} {tr : List ErrandEvent} {p : ErrandPool cfg}

/-- The call has stored nothing, or it is an accepted discovery that has stored its sensor. -/
def StoresSensor (tr : List ErrandEvent) (k : Errand) (g : Progress) : Prop :=
  g.stored = 0 ∨ ∃ d, k = .message d ∧ d.kind = .discovery ∧ Confirmed tr d ∧
    g.stored = ({(discoveredSensor d.payload).identity}, 0, 0)

theorem storesSensor_of_kept {k : Errand} {g : Progress} (h : Kept tr k g) :
    StoresSensor tr k g := by
  obtain hnone | ⟨hdue, hentitled⟩ := h
  · exact .inl hnone
  · cases k with
    | message d =>
      have hdue : g.stored = d.due := hdue
      unfold Delivery.due at hdue
      obtain hkind | hkind := kind_of_entitled hentitled
      · rw [hkind] at hdue
        exact .inr ⟨d, rfl, hkind, hentitled.1, hdue⟩
      · rw [hkind] at hdue
        exact .inl hdue
    | arrival _ | initConnection | onConnect | disconnect => exact .inl hdue

theorem storesSensor_of_run (hrun : Run (Attends cfg) (Pool.start a) tr p) {i : ℕ}
    {t : Process (errands cfg)} (ht : p.threads i = some t) : StoresSensor tr t.call t.phase :=
  storesSensor_of_kept (System.recalls_of_run kept_recall hrun i t ht).2

/-- Whatever the order in which messages, clients and callbacks go on and whatever fails: no
telemetry and no hardware status is ever added, and the sensors are those of before and one for
each discovery that has stored its own. A discovery that goes on and returns has done so, unless
the device was stored. -/
theorem recorded_of_run (hrun : Run (Attends cfg) (Pool.start a) tr p) :
    System.Balanced Archive.records (fun _ g => g.stored) a.records p ∧
      p.shared.records.2 = a.records.2 ∧
      ∀ i t, p.threads i = some t → StoresSensor tr t.call t.phase ∧
        ∀ d, t.call = .message d → d.kind = .discovery → t.prog = .ret (.ok ()) →
          (ListenerService.listener d.kind).goesOn d.topic d.payload = true →
            t.phase.stored = ({(discoveredSensor d.payload).identity}, 0, 0) ∨
              t.phase.found ≠ [] := by
  have hbalanced := System.balanced_of_run records_tally hrun
  refine ⟨hbalanced, ?_, fun i t ht => ⟨storesSensor_of_run hrun ht, ?_⟩⟩
  · obtain ⟨ids, -, hsum⟩ := hbalanced
    have hlog : ∀ i ∈ ids, (System.logOf (fun _ g => g.stored) p i : Records).2 = 0 := by
      intro i _
      unfold System.logOf
      cases ht : p.threads i with
      | none => rfl
      | some t =>
        show t.phase.stored.2 = 0
        obtain hnone | ⟨d, -, -, -, hstored⟩ := storesSensor_of_run hrun ht
        · rw [hnone]
          rfl
        · rw [hstored]
          rfl
    rw [hsum, Prod.snd_add, Prod.snd_sum, Finset.sum_eq_zero hlog, add_zero]
  · intro d hd hkind hret hgo
    have hdue : d.due = ({(discoveredSensor d.payload).identity}, 0, 0) := by
      rw [Delivery.due, hkind]
    obtain hdone | ⟨-, hfound⟩ := t.ends_of_ret hret d hd rfl hgo
    · exact .inl (hdone.trans hdue)
    · exact .inr hfound

end Runs

/-! ### A new device -/

/-- No device is known yet. -/
def emptyArchive : Archive :=
  connectedArchive.setWorld { connectedArchive.site.world with sensors := [] }

/-- The device announces itself, and the handler comes to its end. -/
def firstAnswer (n : ℕ) : List (System.Move Errand Incident Outcome) :=
  .start 1 (.message (discovered true)) :: List.replicate n (.step 1 (.attempt ""))

/-- The device has been stored, and the listener has returned. -/
def discoveredOnce (p : ErrandPool panelConfig) : Bool :=
  decide (p.shared.sensors.length = 1) && (p.threads 1).any System.isOver

theorem recorded_of_run_welcome :
    ∃ tr p, Run (Attends panelConfig) (Pool.start emptyArchive) tr p ∧ discoveredOnce p = true ∧
      System.Balanced Archive.records (fun _ g => g.stored) emptyArchive.records p ∧
      p.shared.records.2 = emptyArchive.records.2 := by
  have hscript : (System.play (errandsOracle panelConfig) 2 (fun _ _ => true)
      (Pool.start emptyArchive) (discoveryRequest ++ firstAnswer 55)).any discoveredOnce =
        true := by
    decide +kernel
  obtain ⟨tr, p, hrun, -, htest⟩ :=
    System.exists_run (fun _ _ _ _ => trivial) (System.below_start _) hscript
  obtain ⟨hbalanced, hrecords, -⟩ := recorded_of_run hrun
  exact ⟨tr, p, hrun, htest, hbalanced, hrecords⟩

end IotPanel.Device

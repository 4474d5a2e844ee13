import IotPanel.Device.Script

/-!
# Whether a request is answered once

The key of a request is read when a reply is checked and deleted at the end of its handler, if
at all. Where no reply is checked in between, a request to one device is answered once.
-/

namespace IotPanel.Device

open Responser (pendingKey)

/-- One reply at most to the request `r` has passed the check, and no other has been applied. -/
structure AtMostOnce (s : State) (r : String) : Prop where
  checked : ∀ {i j d d' ta ta'}, (i, d, ta) ∈ s.accepted → (j, d', ta') ∈ s.accepted →
    d.payload.get "requestId" = some (.str r) → d'.payload.get "requestId" = some (.str r) → i = j
  applied : ∀ {i d}, (i, d) ∈ s.applied → d.payload.get "requestId" = some (.str r) →
    ∃ ta, (i, d, ta) ∈ s.accepted

/-- When a reply is checked that carries the ids of a request to one device, and the lifetime of
its entry is not over, every reply to it that has passed the check before has deleted the key. -/
def Consuming (cfg : Config) (s : State) (_ : Thread) (e : Event) : Prop :=
  ∀ d, e.reads = some d → ∀ r op tl, Carries d.payload r op → s.issued r = some op →
    op.target ≠ none → s.landed r = some tl → s.world.now < tl + 1000 * cfg.ttl →
      ∀ i d' ta, (i, d', ta) ∈ s.accepted → d'.payload.get "requestId" = some (.str r) →
        (i, pendingKey (some (.str r))) ∈ s.deleted

variable {cfg : Config} {s s' : State} {i : ℕ} {e : Event}

/-- Each request to one device has been answered once at most. -/
def Once (s : State) : Prop :=
  ∀ {i j d d' ta ta' r op}, (i, d, ta) ∈ s.accepted → (j, d', ta') ∈ s.accepted →
    d.payload.get "requestId" = some (.str r) → d'.payload.get "requestId" = some (.str r) →
      s.issued r = some op → op.target ≠ none → i = j

theorem Once.does {job job' : Job} {t : Thread} (hwf : WellFormed cfg s) (h : Once s)
    (hjob : job.Holds s i) (hs : Does s i job e s' job') (hC : Consuming cfg s t e) : Once s' := by
  cases hs with
  | @issued op r =>
    intro j k d d' ta ta' v op' hj hk hid hid' hop htarget
    by_cases hv : v = r
    · subst hv
      exact absurd hjob.2 (hwf.issued_of_accepted hj hid)
    · exact h hj hk hid hid' (by simpa [State.issue, hv] using hop) htarget
  | @found d hvalid hchecked =>
    obtain ⟨v, op, hc, hp⟩ := hwf.pending_of_checked hvalid hchecked
    obtain ⟨tl, hl, hlive⟩ := hp.live
    -- the entry is still there, so none of the replies accepted before has deleted it
    have hfirst : ∀ {j d' ta r op'}, (j, d', ta) ∈ s.accepted →
        d.payload.get "requestId" = some (.str r) → d'.payload.get "requestId" = some (.str r) →
        s.issued r = some op' → op'.target ≠ none → False := by
      intro j d' ta r op' hj hid hid' hop htarget
      obtain rfl := eq_of_get hc.requestId hid
      obtain rfl : op = op' := Option.some.inj (hp.issued.symm.trans hop)
      exact hp.kept j (hC d rfl v op tl hc hop htarget hl hlive j d' ta hj hid')
    intro j k d₁ d₂ ta ta' r op' hj hk hid hid' hop htarget
    rcases List.mem_cons.mp hj with heq | hj
    · cases heq
      rcases List.mem_cons.mp hk with heq | hk
      · cases heq
        rfl
      · exact (hfirst hk hid hid' hop htarget).elim
    · rcases List.mem_cons.mp hk with heq | hk
      · cases heq
        exact (hfirst hj hid' hid hop htarget).elim
      · exact h hj hk hid hid' hop htarget
  | _ => exact h

theorem Once.outline (cfg : Config) :
    Pool.Outline ((machine cfg).restrict (Consuming cfg))
      (fun s => WellFormed cfg s ∧ Once s) Thread.Holds Thread.Differs := by
  refine outline_and cfg id ?_ fun hwf h hjob hs hC => h.does hwf hjob hs hC
  intro s e s' h hs
  cases hs <;> exact h

/-- In a run whose replies consume their requests before the next ones are checked, a request to
one device is answered once at most. -/
theorem atMostOnce_of_consuming (cfg : Config) (w : World) {tr : List Event}
    {p : Pool State Thread} {r : String} {op : RequestOp}
    (hrun : Run (Pool.Step ((machine cfg).restrict (Consuming cfg)) fun _ => True)
      (Pool.start (.initial w)) tr p)
    (hissued : p.shared.issued r = some op) (htarget : op.target ≠ none) :
    AtMostOnce p.shared r := by
  have hinitial : Once (.initial w) := fun h => by cases h
  obtain ⟨⟨hwf, honce⟩, -, -⟩ := Pool.Holds.run (Once.outline cfg)
    (Pool.holds_start ⟨wellFormed_initial cfg w, hinitial⟩) hrun
  exact ⟨fun hi hj hid hid' => honce hi hj hid hid' hissued htarget, fun hi _ => hwf.applied hi⟩

/-- A test for replies before which every accepted one has deleted its key. -/
def consumes (s : State) (e : Event) : Bool :=
  e.reads.all fun _ => s.accepted.all fun x =>
    s.deleted.contains (x.1, pendingKey (x.2.1.payload.get "requestId"))

theorem consuming_of_consumes (t : Thread) (h : consumes s e = true) : Consuming cfg s t e := by
  intro d hd r op tl _ _ _ _ _ j d' ta hj hid
  simp only [consumes, hd, Option.all_some, List.all_eq_true] at h
  have hcontains := h _ hj
  rw [hid] at hcontains
  exact List.contains_iff_mem.mp hcontains

/-- The answer to a unicast discovery, applied and consumed. -/
theorem atMostOnce_of_consuming_discovery :
    ∃ tr p, Run (Pool.Step ((machine panelConfig).restrict (Consuming panelConfig)) fun _ => True)
        (Pool.start (.initial panel)) tr p ∧
      p.shared.applied ≠ [] ∧ p.shared.deleted ≠ [] ∧ AtMostOnce p.shared panelRequest := by
  have hscript : (runScript panelConfig consumes (Pool.start (.initial panel))
      (request (.discoverDeviceUnicast "ana" "esp32-2") ++ arrive 1 (discovered false) ++
        [.step 1 "", .step 1 "", .step 1 "", .step 1 "", .step 1 "", .step 1 ""] ++
        arrive 2 (discovered false))).any
        (fun p => !p.shared.applied.isEmpty && !p.shared.deleted.isEmpty &&
          (p.shared.issued panelRequest).any fun op => op.target.isSome) = true := by
    decide +kernel
  obtain ⟨tr, p, hrun, htest⟩ := exists_run (C := Consuming panelConfig)
    (fun _ t _ h => consuming_of_consumes t h) hscript
  obtain ⟨hrest, hissued⟩ := Bool.and_eq_true_iff.mp htest
  obtain ⟨happlied, hdeleted⟩ := Bool.and_eq_true_iff.mp hrest
  obtain ⟨op, hop, htarget⟩ := (Option.any_eq_true _ _).mp hissued
  refine ⟨tr, p, hrun, by simpa using happlied, by simpa using hdeleted, ?_⟩
  exact atMostOnce_of_consuming panelConfig panel hrun hop (Option.isSome_iff_ne_none.mp htarget)

/-- Two copies of a reply are checked before the first of them deletes the key: both are
applied. -/
theorem not_atMostOnce_of_duplicate :
    ¬ ∀ (cfg : Config) (w : World) (tr : List Event) (p : Pool State Thread) (r : String)
      (op : RequestOp), Run (Pool.Step (machine cfg) fun _ => True) (Pool.start (.initial w)) tr p →
        p.shared.issued r = some op → op.target ≠ none →
          ∀ i j d d', (i, d) ∈ p.shared.applied → (j, d') ∈ p.shared.applied →
            d.payload.get "requestId" = some (.str r) →
              d'.payload.get "requestId" = some (.str r) → i = j := by
  intro h
  have hscript : (runScript panelConfig (fun _ _ => true) (Pool.start (.initial panel))
      (request (.discoverDeviceUnicast "ana" "esp32-2") ++ arrive 1 (discovered false) ++
        arrive 2 (discovered false) ++ [.step 1 "", .step 2 "", .step 1 "", .step 2 ""])).any
        (fun p => (p.shared.issued panelRequest).any (fun op => op.target.isSome) &&
          p.shared.applied.any fun x => p.shared.applied.any fun y => x.1 != y.1 &&
            JsVal.strictEq (some (.str panelRequest)) (x.2.payload.get "requestId") &&
            JsVal.strictEq (some (.str panelRequest)) (y.2.payload.get "requestId")) = true := by
    decide +kernel
  obtain ⟨tr, p, hrun, htest⟩ := exists_run (C := fun _ _ _ => True)
    (fun _ _ _ _ => trivial) hscript
  obtain ⟨hissued, htest⟩ := Bool.and_eq_true_iff.mp htest
  obtain ⟨op, hop, htarget⟩ := (Option.any_eq_true _ _).mp hissued
  obtain ⟨⟨i, d⟩, hi, htest⟩ := List.any_eq_true.mp htest
  obtain ⟨⟨j, d'⟩, hj, htest⟩ := List.any_eq_true.mp htest
  simp only [Bool.and_eq_true, bne_iff_ne] at htest
  obtain ⟨⟨hne, hid⟩, hid'⟩ := htest
  exact hne (h panelConfig panel tr p panelRequest op (hrun.mono fun hs => hs.of_restrict) hop
    (Option.isSome_iff_ne_none.mp htarget) i j d d' hi hj (eq_of_strictEq_str hid)
    (eq_of_strictEq_str hid'))

end IotPanel.Device

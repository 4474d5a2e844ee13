import IotPanel.Device.Capability

/-!
# Marks of subscriptions

A topic is marked as subscribed when its row is stored, and the services do not change the mark
when they subscribe and unsubscribe. What is marked and not subscribed to has to be owed by a call
that is still running. `disconnect` clears the marks by updates that it does not wait for, so that
they are executed at any later time.
-/

namespace IotPanel.Device

open Mqtt (Topic)
open Program

/-- A topic is marked exactly when the client is subscribed to it. -/
def Marked (s : Site) : Prop :=
  ∀ row ∈ s.world.topics, row.isSubscribed = true ↔ row.topic ∈ s.link.subscriptions

/-- Topics that are not marked are not subscribed to. -/
def Unmarked (s : Site) : Prop :=
  ∀ row ∈ s.world.topics, row.isSubscribed = false → row.topic ∉ s.link.subscriptions

/-! ### The calls, and those of `disconnect` -/

inductive BrokerCall
  | service (k : Call)
  | disconnect

namespace BrokerCall

def program (cfg : Config) : BrokerCall → Prog Unit
  | service k => k.program cfg
  | disconnect => MqttClientService.disconnect

/-- What `disconnect` does. -/
def Clears : Command → Prop
  | .findTopics _ | .endClient => True
  | .sendTopicUpdate _ b | .setConnected b => b = false
  | _ => False

/-- Of `disconnect` nothing needs to be known. -/
def protocol (cfg : Config) : BrokerCall → Protocol Phase Command Command.Reply Exception
  | service k => k.protocol cfg
  | disconnect => ⟨fun _ c => Clears c, fun q _ _ => q⟩

def ends (cfg : Config) : BrokerCall → Except Exception Unit → Phase → Prop
  | service k, r, q => k.ends cfg r q
  | disconnect, _, q => q.Settled

theorem stays_clears {cfg : Config} {q : Phase} {c : Command} (hc : Clears c) :
    (perform c : Prog c.Reply).Stays (disconnect.protocol cfg) q :=
  stays_perform hc fun _ => rfl

theorem stays_disconnect_clears (cfg : Config) (q : Phase) :
    MqttClientService.disconnect.Stays (disconnect.protocol cfg) q := by
  refine stays_tryCatch ?_ fun _ => stays_throw
  refine stays_bind ?_ fun topics => ?_
  · refine stays_bind (stays_clears (c := .findTopics _) trivial) fun topics => ?_
    exact stays_ite (fun _ => stays_throw) fun _ => stays_pure
  refine stays_bind ?_ fun _ => ?_
  · induction topics with
    | nil => exact stays_pure
    | cons t ts ih =>
      exact stays_bind (stays_clears (c := .sendTopicUpdate _ false) rfl) fun _ => ih
  · exact stays_bind (stays_clears (c := .setConnected false) rfl) fun _ =>
      stays_clears (c := .endClient) trivial

theorem wp_program (cfg : Config) (k : BrokerCall) :
    (k.program cfg).wp (k.protocol cfg) (k.ends cfg) .fresh := by
  cases k with
  | service k => exact k.wp_program cfg
  | disconnect =>
    exact wp_of_stays (stays_disconnect_clears cfg _) fun _ => .inr ⟨rfl, rfl⟩

end BrokerCall

/-- The connection is closed, or one of the updates that are under way is executed. -/
inductive BrokerEvent
  | closed
  | updated (i : ℕ)

def Site.afterEvent (s : Site) : BrokerEvent → Option Site
  | .closed => s.after .closed
  | .updated i => s.link.updates[i]?.map fun u =>
      s.updateTopics u.1 u.2 (s.link.updates.eraseIdx i)

def connections (cfg : Config) :
    System Site BrokerCall Phase BrokerEvent Command Command.Reply Exception where
  program := BrokerCall.program cfg
  protocol := BrokerCall.protocol cfg
  fresh := .fresh
  ends := BrokerCall.ends cfg
  follows := BrokerCall.wp_program cfg
  env := Site.afterEvent
  execute := Executes cfg

abbrev Connection (cfg : Config) := Process (connections cfg)

abbrev ConnectionEvent := CallEvent BrokerCall Phase BrokerEvent Command Command.Reply Exception

/-- The calls that store topics, subscribe, unsubscribe, connect and disconnect. -/
def Connecting : ConnectionEvent → Prop
  | .start (.service k) =>
    match k with
    | .createTopic _ _ | .storeTopic _ _ _ | .subscribe _ | .unsubscribe _ | .discoveryResponse _
    | .discoverDevicesBroadcast _ | .discoverDeviceUnicast _ _ | .getHardwareStatus _ _
    | .initConnection | .onConnect => True
    | _ => False
  | _ => True

/-- While the client is connected, a row is stored by a call that goes on to subscribe to it, or
the client is subscribed to its topic; marked topics are not unsubscribed, and unmarked ones not
subscribed to, not even by a connection that comes back; and a client is replaced only when it is
not connected. -/
def Call.Careful (k : Call) (s : Site) (q : Phase) : Command → Prop
  | .saveTopic row => s.link.connected = true →
      (k.subscribes q = true ∧ q.failed = false) ∨ row.topic ∈ s.link.subscriptions
  | .subscribe ts => ∀ row ∈ s.world.topics, row.isSubscribed = false → row.topic ∉ ts
  | .unsubscribe topic => ∀ row ∈ s.world.topics, row.isSubscribed = true → row.topic ≠ topic
  | .setConnected _ => Unmarked s
  | .connectClient => s.link.connected = false
  | _ => True

/-- Every command is careful; none fails, while the client is connected, in a call that has
something to subscribe to; a client is ended only when it is not connected; and an update that is
executed while the client is connected writes what is so. -/
def Careful (s : Site) : ConnectionEvent → Prop
  | .did (.service k) q c (.ok _) => k.Careful s q c
  | .did (.service _) q _ (.error _) => s.link.connected = true → q.Clear
  | .did .disconnect _ .endClient _ => s.link.connected = false
  | .env (.updated i) => s.link.connected = true →
      ∀ u, s.link.updates[i]? = some u → (u.2 = true ↔ u.1 ∈ s.link.subscriptions)
  | _ => True

/-- The call is yet to subscribe to the topic, and has not failed at it. -/
def Phase.Owes (q : Phase) (topic : String) : Prop :=
  q.failed = false ∧ (q.restoring = true ∨ topic ∈ q.owed)

section Invariant

variable {cfg : Config} {s s' : Site} {k : Call} {q q' : Phase}

/-- What the call is to store next is marked. -/
def Phase.Marks (q : Phase) : Prop := ∀ t, q.topic = some t → t.isSubscribed = true

/-- While the client is connected, topics that are not marked are not subscribed to. -/
def UnmarkedWhileConnected (s : Site) : Prop := s.link.connected = true → Unmarked s

theorem isSubscribed_record {f : TopicQuery} {t : Topic} (h : f.record cfg = some t) :
    t.isSubscribed = true := by
  unfold TopicQuery.record at h
  split at h
  · cases h
    rfl
  · cases h

theorem accepts_subscribedTopics {t : Topic} :
    subscribedTopics.accepts t = true ↔ t.isSubscribed = true := by
  simp [subscribedTopics, TopicQuery.accepts]

/-- What a step of a call keeps. -/
theorem UnmarkedWhileConnected.effect {c : Command} {r : Except Exception c.Reply}
    (hs : UnmarkedWhileConnected s) (hq : q.Marks)
    (hcareful : Careful s (.did (.service k) q c r)) (he : Effect cfg k s q c r s' q') :
    UnmarkedWhileConnected s' ∧ q'.Marks := by
  cases he with
  | other hsame =>
    refine ⟨fun hconnected row hrow => ?_, hq⟩
    rw [hsame.topics] at hrow
    rw [hsame.connected] at hconnected
    rw [hsame.subscriptions]
    exact hs hconnected row hrow
  | failed e => exact ⟨hs, fun t ht => hq t (Phase.topic_of_fail ht)⟩
  | foundTopic ht => exact ⟨hs, by rintro t ⟨⟩⟩
  | missedTopic hf => exact ⟨hs, fun t ht => isSubscribed_record ht⟩
  | @storedTopic t ht hnames =>
    refine ⟨fun hconnected row hrow hno => ?_, by rintro _ ⟨⟩⟩
    rcases List.mem_append.mp hrow with hrow | hrow
    · exact hs hconnected row hrow hno
    · rw [List.mem_singleton.mp hrow, hq t ht] at hno
      cases hno
  | subscribed hconnected hts =>
    refine ⟨fun _ row hrow hno hmem => ?_, hq⟩
    rcases List.mem_append.mp hmem with hmem | hmem
    · exact hs hconnected row hrow hno hmem
    · exact hcareful row hrow hno hmem
  | unsubscribed hconnected =>
    exact ⟨fun _ row hrow hno hmem => hs hconnected row hrow hno (List.mem_filter.mp hmem).1, hq⟩
  | connected hk hfresh => exact ⟨fun _ => hcareful, hq⟩
  | renewed hk => exact ⟨fun _ _ _ _ => List.not_mem_nil, hq⟩
  | _ => exact ⟨hs, hq⟩

theorem Phase.not_owes_of_clear (h : q.Clear) (topic : String) : ¬ q.Owes topic := by
  obtain ⟨howed, hrestoring⟩ := h
  rintro ⟨-, ho | ho⟩
  · rw [hrestoring] at ho
    cases ho
  · rw [howed] at ho
    exact List.not_mem_nil ho

/-- What a command can make of a topic: it is subscribed to or owed by the call that gives the
command, unless it was neither before. -/
def Stands (s s' : Site) (q q' : Phase) (row : Topic) : Prop :=
  row.topic ∈ s'.link.subscriptions ∨ q'.Owes row.topic ∨
    (s.link.connected = true ∧ row ∈ s.world.topics ∧ row.topic ∉ s.link.subscriptions ∧
      ¬ q.Owes row.topic)

section Standing

variable {row t : Topic} {ts : List String} {topic : String}

/-- The command leaves the row where it was. -/
theorem stands_of_mem (hconnected : s.link.connected = true) (hrow : row ∈ s.world.topics)
    (hsub : row.topic ∈ s.link.subscriptions → row.topic ∈ s'.link.subscriptions)
    (howes : q.Owes row.topic → row.topic ∈ s'.link.subscriptions ∨ q'.Owes row.topic) :
    Stands s s' q q' row := by
  by_cases hmem : row.topic ∈ s.link.subscriptions
  · exact .inl (hsub hmem)
  · by_cases ho : q.Owes row.topic
    · rcases howes ho with hsub' | ho'
      · exact .inl hsub'
      · exact .inr (.inl ho')
    · exact .inr (.inr ⟨hconnected, hrow, hmem, ho⟩)

/-- What is stored is owed, or subscribed to already. -/
theorem stands_storeTopic (hconnected : s.link.connected = true)
    (hcareful : (k.subscribes q = true ∧ q.failed = false) ∨ t.topic ∈ s.link.subscriptions)
    (hrow : row ∈ (s.storeTopic t).world.topics) :
    Stands s (s.storeTopic t) q
      { q with
        topic := none, known := (nameQuery t, t) :: q.known
        owed := if k.subscribes q then t.topic :: q.owed else q.owed } row := by
  rcases List.mem_append.mp hrow with hrow | hrow
  · refine stands_of_mem hconnected hrow id fun ho => .inr ⟨ho.1, ho.2.imp_right fun hmem => ?_⟩
    show row.topic ∈ (if k.subscribes q then t.topic :: q.owed else q.owed)
    split
    · exact List.mem_cons_of_mem _ hmem
    · exact hmem
  · rw [List.mem_singleton.mp hrow]
    rcases hcareful with ⟨hsubscribes, hfailed⟩ | hsub
    · refine .inr (.inl ⟨hfailed, .inr ?_⟩)
      show t.topic ∈ (if k.subscribes q then t.topic :: q.owed else q.owed)
      rw [if_pos hsubscribes]
      exact List.mem_cons_self
    · exact .inl hsub

/-- What is no longer owed is subscribed to. -/
theorem stands_subscribe (hconnected : s.link.connected = true) (hrow : row ∈ s.world.topics) :
    Stands s (s.setSubscriptions (s.link.subscriptions ++ ts)) q
      { q with owed := q.owed.filter fun t => t ∉ ts } row := by
  refine stands_of_mem hconnected hrow (List.mem_append_left _) fun ho => ?_
  by_cases hmem : row.topic ∈ ts
  · exact .inl (List.mem_append_right _ hmem)
  · refine .inr ⟨ho.1, ho.2.imp_right fun howed => ?_⟩
    exact List.mem_filter.mpr ⟨howed, by simpa using hmem⟩

theorem stands_unsubscribe (hconnected : s.link.connected = true) (hrow : row ∈ s.world.topics)
    (hne : row.topic ≠ topic) :
    Stands s (s.setSubscriptions (s.link.subscriptions.filter fun t => t ≠ topic)) q q row :=
  stands_of_mem hconnected hrow (fun hsub => List.mem_filter.mpr ⟨hsub, by simpa using hne⟩) .inr

end Standing

/-- After a step every marked topic is subscribed to or owed by the call that made it, unless it
was neither before. -/
theorem Effect.covers {c : Command} {r : Except Exception c.Reply}
    (hcareful : Careful s (.did (.service k) q c r)) (he : Effect cfg k s q c r s' q')
    (hconnected : s'.link.connected = true) {row : Topic} (hrow : row ∈ s'.world.topics)
    (hmark : row.isSubscribed = true) : Stands s s' q q' row := by
  cases he with
  | other hs =>
    rw [hs.topics] at hrow
    rw [hs.connected] at hconnected
    exact stands_of_mem hconnected hrow (fun hsub => hs.subscriptions ▸ hsub) .inr
  | failed e =>
    have hclear : q.Clear := hcareful hconnected
    exact stands_of_mem hconnected hrow id fun ho => absurd ho (q.not_owes_of_clear hclear _)
  | readTopics hk =>
    have howed : row.topic ∈ (s.world.topics.filter subscribedTopics.accepts).map fun t => t.topic :=
      List.mem_map_of_mem (List.mem_filter.mpr ⟨hrow, accepts_subscribedTopics.mpr hmark⟩)
    exact stands_of_mem hconnected hrow id fun ho => .inr ⟨ho.1, .inr howed⟩
  | storedTopic ht hnames => exact stands_storeTopic hconnected (hcareful hconnected) hrow
  | subscribed hlink hts => exact stands_subscribe hlink hrow
  | unsubscribed hlink => exact stands_unsubscribe hlink hrow (hcareful row hrow hmark)
  | connected hk hfresh =>
    refine .inr (.inl ⟨?_, .inl rfl⟩)
    show q.failed = false
    rw [hfresh]
    rfl
  | renewed hk =>
    have hdown : s.link.connected = false := hcareful
    change s.link.connected = true at hconnected
    rw [hdown] at hconnected
    cases hconnected
  | _ => exact stands_of_mem hconnected hrow id .inr

/-- `disconnect` stores nothing, and a client that is connected afterwards was so before and has
the same subscriptions. -/
theorem same_of_clears {c : Command} {r : Except Exception c.Reply}
    (hcareful : Careful s (.did .disconnect q c r)) (hallowed : BrokerCall.Clears c)
    (hexec : Executes cfg s c r s') :
    s'.world.topics = s.world.topics ∧ (s'.link.connected = true →
      s.link.connected = true ∧ s'.link.subscriptions = s.link.subscriptions) := by
  cases hexec with
  | failed e hfallible => exact ⟨rfl, fun h => ⟨h, rfl⟩⟩
  | kept hlink => exact hallowed.elim
  | attempted fresh c hfresh =>
    cases c with
    | findTopics f => exact ⟨rfl, fun h => ⟨h, rfl⟩⟩
    | sendTopicUpdate topic b => exact ⟨rfl, fun h => ⟨h, rfl⟩⟩
    | setConnected b =>
      obtain rfl : b = false := hallowed
      exact ⟨rfl, fun h => by cases h⟩
    | endClient =>
      have hdown : s.link.connected = false := hcareful
      refine ⟨rfl, fun h => ?_⟩
      change s.link.connected = true at h
      rw [hdown] at h
      cases h
    | _ => exact hallowed.elim

/-- A row after an update of topics was there before, and has been updated if it has the name. -/
theorem mem_updateTopics {topic : String} {b : Bool} {updates : List (String × Bool)} {row : Topic}
    (h : row ∈ (s.updateTopics topic b updates).world.topics) :
    (row.topic = topic ∧ row.isSubscribed = b) ∨ row ∈ s.world.topics := by
  obtain ⟨t, ht, rfl⟩ := List.mem_map.mp h
  by_cases htopic : t.topic = topic
  · rw [if_pos htopic]
    exact .inl ⟨htopic, rfl⟩
  · rw [if_neg htopic]
    exact .inr ht

theorem unmarked_outline (cfg : Config) :
    System.Outline (connections cfg) (fun p e => Connecting e ∧ Careful p.shared e)
      UnmarkedWhileConnected (fun _ t => t.phase.Marks) where
  env {p x s'} hG hcond h := by
    refine ⟨?_, fun _ ht => ht⟩
    cases x with
    | closed =>
      cases h
      exact fun hconnected => by cases hconnected
    | updated i =>
      obtain ⟨u, hu, rfl⟩ := Option.map_eq_some_iff.mp h
      intro hconnected row hrow hno
      obtain ⟨htopic, hwritten⟩ | hrow := mem_updateTopics hrow
      · rw [htopic]
        intro hsub
        rw [hwritten, (hcond.2 hconnected u hu).mpr hsub] at hno
        cases hno
      · exact hG hconnected row hrow hno
  start _ _ := by rintro t ⟨⟩
  did {p i t c k r s'} hprog hG hA _ hcond hexec := by
    have hallowed := t.allowed_of_await hprog
    obtain ⟨call, phase, prog, follows⟩ := t
    cases call with
    | service k =>
      obtain ⟨hs, hself⟩ := hG.effect hA hcond.2 (effect_of_executes hallowed hexec)
      exact ⟨hs, hself, fun j u _ _ hu => hu⟩
    | disconnect =>
      obtain ⟨htopics, hlink⟩ := same_of_clears hcond.2 hallowed hexec
      refine ⟨fun hconnected row hrow => ?_, hA, fun j u _ _ hu => hu⟩
      obtain ⟨hbefore, hsubs⟩ := hlink hconnected
      rw [htopics] at hrow
      rw [hsubs]
      exact hG hbefore row hrow

/-- While the client is connected, every marked topic is subscribed to or owed by a call. -/
def Covered (p : Pool Site (Connection cfg)) : Prop :=
  p.shared.link.connected = true → ∀ row ∈ p.shared.world.topics, row.isSubscribed = true →
    row.topic ∈ p.shared.link.subscriptions ∨
      ∃ i t, p.threads i = some t ∧ t.phase.Owes row.topic

section Steps

variable {p p' : Pool Site (Connection cfg)} {e : ConnectionEvent}

/-- The environment connects nobody, and marks nothing that is not subscribed to. -/
theorem Covered.env {x : BrokerEvent} (h : Covered p) (hcareful : Careful p.shared (.env x))
    (hx : p.shared.afterEvent x = some p'.shared) (hthreads : p'.threads = p.threads) :
    Covered p' := by
  intro hconnected row hrow hmark
  rw [hthreads]
  cases x with
  | closed =>
    rw [← Option.some.inj hx] at hconnected
    cases hconnected
  | updated i =>
    obtain ⟨u, hu, hs⟩ := Option.map_eq_some_iff.mp hx
    rw [← hs] at hconnected hrow ⊢
    obtain ⟨htopic, hwritten⟩ | hrow := mem_updateTopics hrow
    · rw [hwritten] at hmark
      rw [htopic]
      exact .inl ((hcareful hconnected u hu).mp hmark)
    · exact h hconnected row hrow hmark

/-- A call that starts takes no debt from the others. -/
theorem Covered.start {i : ℕ} {t : Connection cfg} (h : Covered p) (hfree : p.threads i = none)
    (hshared : p'.shared = p.shared)
    (hthreads : p'.threads = Function.update p.threads i (some t)) : Covered p' := by
  intro hconnected row hrow hmark
  rw [hshared] at hconnected hrow ⊢
  rcases h hconnected row hrow hmark with hsub | ⟨j, u, hu, ho⟩
  · exact .inl hsub
  · refine .inr ⟨j, u, ?_, ho⟩
    have hj : j ≠ i := by
      rintro rfl
      rw [hfree] at hu
      cases hu
    rw [hthreads, Function.update_of_ne hj]
    exact hu

/-- A command of a call, which pays its own debts only. -/
theorem Covered.did {i : ℕ} {t t' : Connection cfg} (h : Covered p) (ht : p.threads i = some t)
    (hthreads : p'.threads = Function.update p.threads i (some t'))
    (hcovers : p'.shared.link.connected = true → ∀ row ∈ p'.shared.world.topics,
      row.isSubscribed = true → Stands p.shared p'.shared t.phase t'.phase row) : Covered p' := by
  intro hconnected row hrow hmark
  rcases hcovers hconnected row hrow hmark with hsub | ho | ⟨hlink, hmem, hnsub, hnowes⟩
  · exact .inl hsub
  · refine .inr ⟨i, t', ?_, ho⟩
    rw [hthreads, Function.update_self]
  · rcases h hlink row hmem hmark with hsub | ⟨j, u, hu, ho⟩
    · exact absurd hsub hnsub
    · refine .inr ⟨j, u, ?_, ho⟩
      have hj : j ≠ i := by
        rintro rfl
        rw [ht] at hu
        cases hu
        exact hnowes ho
      rw [hthreads, Function.update_of_ne hj]
      exact hu

theorem Covered.step (h : Covered p)
    (hs : (connections cfg).Step (fun p e => Connecting e ∧ Careful p.shared e) p e p') :
    Covered p' := by
  obtain ⟨x, rfl, hx, hthreads⟩ | ⟨i, k, rfl, hfree, hshared, hthreads⟩ |
    ⟨i, t, c, k, r, hprog, ht, rfl, hexec, hthreads⟩ := System.step_cases hs
  · exact h.env hs.2.2 hx hthreads
  · exact h.start hfree hshared hthreads
  · refine h.did ht hthreads fun hconnected row hrow hmark => ?_
    have hallowed := t.allowed_of_await hprog
    have hcareful := hs.2.2
    obtain ⟨call, phase, prog, follows⟩ := t
    cases call with
    | service k =>
      exact (effect_of_executes hallowed hexec).covers hcareful hconnected hrow hmark
    | disconnect =>
      obtain ⟨htopics, hlink⟩ := same_of_clears hcareful hallowed hexec
      obtain ⟨hbefore, hsubs⟩ := hlink hconnected
      rw [htopics] at hrow
      exact stands_of_mem hbefore hrow (fun hsub => hsubs ▸ hsub) .inr

end Steps

/-- A call that is over owes nothing. -/
theorem not_owes_of_over {t : Connection cfg} (hover : t.Over) (topic : String) :
    ¬ t.phase.Owes topic := by
  obtain ⟨a, ha⟩ := hover
  have hsettled : t.phase.Settled := by
    have hends := t.ends_of_ret ha
    obtain ⟨call, phase, prog, follows⟩ := t
    cases call with
    | service k => exact hends.1
    | disconnect => exact hends
  rcases hsettled with hfailed | hclear
  · rintro ⟨hnot, -⟩
    rw [hfailed] at hnot
    cases hnot
  · exact t.phase.not_owes_of_clear hclear topic

end Invariant

/-- In a careful run, from marks that are right or before any client has connected, the marks are
right whenever no call is running and the client is connected. -/
theorem marked_of_careful (cfg : Config) {s : Site}
    (hinitial : s.link.connected = true → Marked s)
    {tr : List ConnectionEvent} {p : Pool Site (Connection cfg)}
    (hrun : Run ((connections cfg).Step fun p e => Connecting e ∧ Careful p.shared e)
      (Pool.start s) tr p)
    (hover : ∀ i t, p.threads i = some t → t.Over) (hconnected : p.shared.link.connected = true) :
    Marked p.shared := by
  have hunmarked : UnmarkedWhileConnected s := by
    intro hlink row hrow hno hmem
    rw [(hinitial hlink row hrow).mpr hmem] at hno
    cases hno
  have hstart : Covered (Pool.start s : Pool Site (Connection cfg)) :=
    fun hlink row hrow hmark => .inl ((hinitial hlink row hrow).mp hmark)
  have hholds := (System.holds_start hunmarked).run (unmarked_outline cfg) hrun
  have hcovered : Covered p := hrun.invariant hstart fun h hs => h.step hs
  intro row hrow
  constructor
  · intro hmark
    rcases hcovered hconnected row hrow hmark with hsub | ⟨i, t, ht, ho⟩
    · exact hsub
    · exact absurd ho (not_owes_of_over (hover i t ht) row.topic)
  · intro hsub
    by_contra hno
    exact hholds.shared hconnected row hrow (by simpa using hno) hsub

/-! ### Topics of one device -/

def connectionsOracle (cfg : Config) : System.Oracle (connections cfg) Outcome where
  answer := (oracle cfg).answer
  sound := (oracle cfg).sound

/-- A test for careful commands. -/
def Call.careful (k : Call) (s : Site) (q : Phase) : Command → Bool
  | .saveTopic _ => k.subscribes q && !q.failed
  | .subscribe ts => s.world.topics.all fun row => row.isSubscribed || !ts.contains row.topic
  | .unsubscribe _ => false
  | .setConnected _ =>
    s.world.topics.all fun row => row.isSubscribed || !s.link.subscriptions.contains row.topic
  | .connectClient => !s.link.connected
  | _ => true

/-- A test for the runs below, in which nothing fails. -/
def careful (s : Site) : ConnectionEvent → Bool
  | .env .closed => true
  | .env (.updated _) => !s.link.connected
  | .start (.service (.discoveryResponse _)) | .start (.service .onConnect)
  | .start (.service .initConnection) => true
  | .start (.service _) => false
  | .start .disconnect => true
  | .did (.service k) q c (.ok _) => k.careful s q c
  | .did .disconnect _ .endClient _ => !s.link.connected
  | .did .disconnect _ _ _ => true
  | .did _ _ _ (.error _) => false

/-- Nothing without a mark is among the topics. -/
theorem not_mem_of_all {s : Site} {ts : List String}
    (h : (s.world.topics.all fun row => row.isSubscribed || !ts.contains row.topic) = true) :
    ∀ row ∈ s.world.topics, row.isSubscribed = false → row.topic ∉ ts := by
  intro row hrow hno hmem
  have htest := List.all_eq_true.mp h row hrow
  rw [hno, List.contains_iff_mem.mpr hmem] at htest
  cases htest

theorem Call.careful_of_test {k : Call} {s : Site} {q : Phase} {c : Command}
    (h : k.careful s q c = true) : k.Careful s q c := by
  cases c with
  | saveTopic row =>
    intro _
    exact .inl (by simpa [Call.careful] using h)
  | subscribe ts => exact not_mem_of_all h
  | setConnected b => exact not_mem_of_all h
  | connectClient => simpa [Call.careful, Call.Careful] using h
  | unsubscribe topic => cases h
  | _ => trivial

theorem careful_of_test {s : Site} {e : ConnectionEvent} (h : careful s e = true) :
    Connecting e ∧ Careful s e := by
  cases e with
  | env x =>
    refine ⟨trivial, ?_⟩
    cases x with
    | closed => trivial
    | updated i =>
      intro hconnected
      have hdown : s.link.connected = false := by simpa [careful] using h
      rw [hdown] at hconnected
      cases hconnected
  | start k =>
    refine ⟨?_, trivial⟩
    cases k with
    | disconnect => trivial
    | service k =>
      cases k with
      | discoveryResponse payload | onConnect | initConnection => trivial
      | _ => cases h
  | did k q c r =>
    refine ⟨trivial, ?_⟩
    cases k with
    | service k =>
      cases r with
      | error e => cases h
      | ok a => exact Call.careful_of_test h
    | disconnect =>
      cases c with
      | endClient => simpa [careful, Careful] using h
      | _ => trivial

/-- A device is discovered, and the connection is lost and comes back. Then the client disconnects
and connects again, and all updates but that of the broadcast topic are executed in between. -/
def disconnectAndReconnect : List (System.Move BrokerCall BrokerEvent Outcome) :=
  .start 0 (.service discovery) :: proceed 0 53 ++
    .env .closed :: .start 1 (.service .onConnect) :: proceed 1 6 ++
    .start 2 .disconnect :: proceed 2 19 ++ List.replicate 16 (.env (.updated 0)) ++ proceed 2 1 ++
    .start 3 (.service .initConnection) :: proceed 3 1 ++
    .start 4 (.service .onConnect) :: proceed 4 4

/-- At the end the broadcast topic is marked, and the others are not. -/
theorem marked_of_careful_discovery :
    ∃ tr p, Run ((connections panelConfig).Step fun p e => Connecting e ∧ Careful p.shared e)
        (Pool.start empty) tr p ∧ p.shared.world.topics.length = 17 ∧
      (∃ row ∈ p.shared.world.topics, row.isSubscribed = true) ∧
      (∃ row ∈ p.shared.world.topics, row.isSubscribed = false) ∧ Marked p.shared := by
  have hscript : (System.play (connectionsOracle panelConfig) 5 (fun p e => careful p.shared e)
      (Pool.start empty) disconnectAndReconnect).any
        (fun p => p.shared.link.connected &&
          ((List.range 5).all (fun i => (p.threads i).all System.isOver) &&
            (decide (p.shared.world.topics.length = 17) &&
              (p.shared.world.topics.any (fun row => row.isSubscribed) &&
                p.shared.world.topics.any (fun row => !row.isSubscribed))))) = true := by
    decide +kernel
  obtain ⟨tr, p, hrun, hbelow, htest⟩ :=
    System.exists_run (fun _ _ _ => careful_of_test) (System.below_start _) hscript
  obtain ⟨hconnected, htest⟩ := Bool.and_eq_true_iff.mp htest
  obtain ⟨hover, htest⟩ := Bool.and_eq_true_iff.mp htest
  obtain ⟨hlength, htest⟩ := Bool.and_eq_true_iff.mp htest
  obtain ⟨hmarked, hunmarked⟩ := Bool.and_eq_true_iff.mp htest
  refine ⟨tr, p, hrun, of_decide_eq_true hlength, List.any_eq_true.mp hmarked, ?_, ?_⟩
  · obtain ⟨row, hrow, hno⟩ := List.any_eq_true.mp hunmarked
    exact ⟨row, hrow, by simpa using hno⟩
  · exact marked_of_careful panelConfig (fun _ => by rintro row ⟨⟩) hrun
      (System.over_of_below hbelow hover) hconnected

/-- A test for runs in which only topics are created. -/
def creating : ConnectionEvent → Bool
  | .start (.service (.createTopic _ _)) => true
  | .start _ => false
  | _ => true

theorem connecting_of_creating {e : ConnectionEvent} (h : creating e = true) : Connecting e := by
  cases e with
  | start k =>
    cases k with
    | disconnect => cases h
    | service k =>
      cases k with
      | createTopic deviceId useCase => trivial
      | _ => cases h
  | _ => trivial

/-- A topic is created, and nothing subscribes to it. -/
theorem not_marked_of_createTopic :
    ¬ ∀ (cfg : Config) (s : Site) (tr : List ConnectionEvent) (p : Pool Site (Connection cfg)),
      Marked s → Run ((connections cfg).Step fun _ e => Connecting e) (Pool.start s) tr p →
        (∀ i t, p.threads i = some t → t.Over) → p.shared.link.connected = true →
          Marked p.shared := by
  intro h
  have hscript : (System.play (connectionsOracle panelConfig) 1 (fun _ e => creating e)
      (Pool.start empty)
      (.start 0 (.service (.createTopic "esp32-2" .telemetry)) :: proceed 0 3)).any
        (fun p => p.shared.link.connected &&
          ((List.range 1).all (fun i => (p.threads i).all System.isOver) &&
            (p.shared.world.topics.any (fun row => row.isSubscribed) &&
              p.shared.link.subscriptions.isEmpty))) = true := by
    decide +kernel
  obtain ⟨tr, p, hrun, hbelow, htest⟩ :=
    System.exists_run (fun _ _ _ => connecting_of_creating) (System.below_start _) hscript
  obtain ⟨hconnected, htest⟩ := Bool.and_eq_true_iff.mp htest
  obtain ⟨hover, htest⟩ := Bool.and_eq_true_iff.mp htest
  obtain ⟨hmark, hnone⟩ := Bool.and_eq_true_iff.mp htest
  obtain ⟨row, hrow, hmark⟩ := List.any_eq_true.mp hmark
  have hmarked := h panelConfig empty tr p (by rintro row ⟨⟩) hrun
    (System.over_of_below hbelow hover) hconnected
  have hsub := (hmarked row hrow).mp hmark
  rw [List.isEmpty_iff.mp hnone] at hsub
  exact List.not_mem_nil hsub

end IotPanel.Device

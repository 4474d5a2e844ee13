import IotPanel.Js.Value
import Mathlib.Data.List.Induction

/-!
# Channels of the Redis service

All subscriptions of the service share one subscriber connection. A subscription adds a handler
of its own to the connection and has the connection subscribe to the channel; the function that
it returns takes the handler away and has the connection unsubscribe from the channel.
-/

namespace IotPanel.Redis

variable {κ : Type}

/-- A listener for messages: the number of its subscription, and what it closes over. -/
structure Handler (κ : Type) where
  id : ℕ
  channel : String
  callback : κ

/-- The subscriber connection, and the handlers that the returned functions close over. -/
structure Subscriber (κ : Type) where
  listeners : List (Handler κ)
  channels : List String
  returned : List (Handler κ)

namespace Subscriber

def initial : Subscriber κ := ⟨[], [], []⟩

/-- `RedisService.subscribe` -/
def subscribe (s : Subscriber κ) (channel : String) (callback : κ) : Subscriber κ :=
  let handler := ⟨s.returned.length, channel, callback⟩
  { listeners := s.listeners ++ [handler]
    channels := channel :: s.channels
    returned := s.returned ++ [handler] }

/-- The function that the subscription with a number has returned. -/
def unsubscribe (s : Subscriber κ) (n : ℕ) : Subscriber κ :=
  match s.returned[n]? with
  | none => s
  | some handler =>
    { s with
      listeners := s.listeners.filter fun h => h.id ≠ handler.id
      channels := s.channels.filter fun c => c ≠ handler.channel }

/-- The calls of callbacks that a message on a channel brings about, in their order. -/
def deliver (s : Subscriber κ) (channel message : String) : List (κ × String) :=
  if channel ∈ s.channels then
    (s.listeners.filter fun h => channel = h.channel).map fun h => (h.callback, message)
  else []

/-- A message as `RedisService.publish` sends it. -/
def messageText (stringify : Json → String) : Json → String
  | .str text => text
  | message => stringify message

/-- `RedisService.publish`, and what it brings about. -/
def publish (stringify : Json → String) (s : Subscriber κ) (channel : String) (message : Json) :
    List (κ × String) :=
  s.deliver channel (messageText stringify message)

end Subscriber

/-- What a user of the service does: subscribe, or call the function that the subscription with
a number has returned. -/
inductive Use (κ : Type)
  | subscribe (channel : String) (callback : κ)
  | unsubscribe (n : ℕ)

namespace Use

def apply (s : Subscriber κ) : Use κ → Subscriber κ
  | subscribe channel callback => s.subscribe channel callback
  | unsubscribe n => s.unsubscribe n

def subscribed : Use κ → Option (String × κ)
  | subscribe channel callback => some (channel, callback)
  | unsubscribe _ => none

def isUnsubscribe (n : ℕ) : Use κ → Bool
  | subscribe _ _ => false
  | unsubscribe m => m = n

end Use

/-! ### What is expected of subscriptions -/

/-- The subscriptions made, in their order, with their numbers. -/
def subscriptions (uses : List (Use κ)) : List (Handler κ) :=
  (uses.filterMap Use.subscribed).mapIdx fun n p => ⟨n, p.1, p.2⟩

/-- The subscriptions whose functions have not been called. -/
def live (uses : List (Use κ)) : List (Handler κ) :=
  (subscriptions uses).filter fun h => !uses.any (Use.isUnsubscribe h.id)

/-- Only functions that have been returned are called. -/
def Possible (uses : List (Use κ)) : Prop :=
  ∀ us n, us ++ [.unsubscribe n] <+: uses → n < (subscriptions us).length

/-- A message calls the callback of each live subscription to its channel, once. -/
def expected (uses : List (Use κ)) (channel message : String) : List (κ × String) :=
  ((live uses).filter fun h => channel = h.channel).map fun h => (h.callback, message)

/-- The function of the subscription `n` is called while another one to its channel is live. -/
def Cuts (uses : List (Use κ)) (n : ℕ) : Prop :=
  ∃ h ∈ live uses, h.id ≠ n ∧ ∃ k ∈ subscriptions uses, k.id = n ∧ h.channel = k.channel

def after (uses : List (Use κ)) : Subscriber κ := uses.foldl Use.apply .initial

variable {uses us : List (Use κ)} {n : ℕ} {u : Use κ} {h : Handler κ} {channel : String}
  {callback : κ}

/-! ### The listeners are the live subscriptions -/

theorem after_append_singleton (uses : List (Use κ)) (u : Use κ) :
    after (uses ++ [u]) = u.apply (after uses) := by
  simp [after]

@[simp] theorem subscriptions_subscribe :
    subscriptions (uses ++ [.subscribe channel callback]) =
      subscriptions uses ++ [⟨(subscriptions uses).length, channel, callback⟩] := by
  simp [subscriptions, Use.subscribed, List.mapIdx_append]

@[simp] theorem subscriptions_unsubscribe :
    subscriptions (uses ++ [.unsubscribe n]) = subscriptions uses := by
  simp [subscriptions, List.filterMap_append, List.filterMap_cons, Use.subscribed]

theorem returned_after (uses : List (Use κ)) : (after uses).returned = subscriptions uses := by
  induction uses using List.reverseRec with
  | nil => rfl
  | append_singleton uses u ih =>
    rw [after_append_singleton]
    cases u with
    | subscribe channel callback => simp [Use.apply, Subscriber.subscribe, ih]
    | unsubscribe n =>
      rw [subscriptions_unsubscribe, ← ih]
      change ((after uses).unsubscribe n).returned = _
      unfold Subscriber.unsubscribe
      split <;> rfl

theorem subscriptions_getElem? (uses : List (Use κ)) (n : ℕ) (h : Handler κ) :
    (subscriptions uses)[n]? = some h ↔ h ∈ subscriptions uses ∧ h.id = n := by
  simp only [subscriptions, List.mem_mapIdx, List.getElem?_mapIdx, Option.map_eq_some_iff]
  constructor
  · rintro ⟨p, hp, rfl⟩
    obtain ⟨hn, rfl⟩ := List.getElem?_eq_some_iff.mp hp
    exact ⟨⟨n, hn, rfl⟩, rfl⟩
  · rintro ⟨⟨i, hi, rfl⟩, rfl⟩
    exact ⟨_, List.getElem?_eq_getElem hi, rfl⟩

theorem Possible.sooner (h : Possible uses) (hus : us <+: uses) : Possible us :=
  fun vs n hvs => h vs n (hvs.trans hus)

/-- A function that has been called is one of those returned by now. -/
theorem lt_of_isUnsubscribe (hpossible : Possible uses)
    (h : uses.any (Use.isUnsubscribe n) = true) : n < (subscriptions uses).length := by
  obtain ⟨u, hu, hcalled⟩ := List.any_eq_true.mp h
  cases u with
  | subscribe channel callback => cases hcalled
  | unsubscribe m =>
    obtain rfl : m = n := by simpa [Use.isUnsubscribe] using hcalled
    obtain ⟨us, vs, rfl⟩ := List.append_of_mem hu
    have hlt := hpossible us m ⟨vs, by simp⟩
    simp only [subscriptions, List.length_mapIdx, List.filterMap_append, List.length_append] at hlt ⊢
    omega

theorem live_subscribe (hpossible : Possible uses) :
    live (uses ++ [.subscribe channel callback]) =
      live uses ++ [⟨(subscriptions uses).length, channel, callback⟩] := by
  have hnew : uses.any (Use.isUnsubscribe (subscriptions uses).length) = false := by
    by_contra hcalled
    exact absurd (lt_of_isUnsubscribe hpossible (by simpa using hcalled)) (lt_irrefl _)
  simp [live, Use.isUnsubscribe, List.filter_append, hnew]

theorem live_unsubscribe :
    live (uses ++ [.unsubscribe n]) = (live uses).filter fun h => h.id ≠ n := by
  simp only [live, subscriptions_unsubscribe, List.filter_filter]
  refine List.filter_congr fun h _ => ?_
  by_cases hn : n = h.id
  · simp [Use.isUnsubscribe, hn]
  · simp [Use.isUnsubscribe, hn, Ne.symm hn]

theorem listeners_after (hpossible : Possible uses) : (after uses).listeners = live uses := by
  induction uses using List.reverseRec with
  | nil => rfl
  | append_singleton uses u ih =>
    have ih := ih (hpossible.sooner (List.prefix_append _ _))
    rw [after_append_singleton]
    cases u with
    | subscribe channel callback =>
      rw [live_subscribe (hpossible.sooner (List.prefix_append _ _)), ← ih]
      simp [Use.apply, Subscriber.subscribe, returned_after]
    | unsubscribe n =>
      -- the function that is called is that of the subscription `n`
      obtain ⟨k, hk⟩ : ∃ k, (subscriptions uses)[n]? = some k :=
        ⟨_, List.getElem?_eq_getElem (hpossible uses n List.prefix_rfl)⟩
      have hid := ((subscriptions_getElem? uses n k).mp hk).2
      rw [live_unsubscribe, ← ih]
      simp [Use.apply, Subscriber.unsubscribe, returned_after, hk, hid]

/-! ### The channels of the connection -/

/-- The connection is subscribed to the channels of all listeners. -/
def Subscriber.Hears (s : Subscriber κ) : Prop := ∀ h ∈ s.listeners, h.channel ∈ s.channels

/-- A message is delivered as it should be if and only if the connection hears. -/
theorem publish_eq_iff (stringify : Json → String) (hpossible : Possible uses) :
    (∀ channel message, (after uses).publish stringify channel message =
      expected uses channel (Subscriber.messageText stringify message)) ↔ (after uses).Hears := by
  simp only [Subscriber.publish, Subscriber.deliver, expected, ← listeners_after hpossible]
  constructor
  · intro hright h hh
    by_contra hdeaf
    have hnone := hright h.channel .null
    rw [if_neg hdeaf] at hnone
    have hempty := List.map_eq_nil_iff.mp hnone.symm
    exact List.filter_eq_nil_iff.mp hempty h hh (by simp)
  · intro hhears channel message
    by_cases hchannel : channel ∈ (after uses).channels
    · rw [if_pos hchannel]
    · -- no listener is for a channel that is not heard
      rw [if_neg hchannel, List.filter_eq_nil_iff.mpr]
      · rfl
      · intro h hh hsame
        exact hchannel (of_decide_eq_true hsame ▸ hhears h hh)

theorem hears_subscribe (hhears : (after uses).Hears) :
    (after (uses ++ [.subscribe channel callback])).Hears := by
  rw [after_append_singleton]
  intro h hh
  simp only [Use.apply, Subscriber.subscribe, List.mem_append, List.mem_singleton] at hh ⊢
  obtain hh | rfl := hh
  · exact List.mem_cons_of_mem _ (hhears h hh)
  · exact List.mem_cons_self

/-- Calling a function keeps the connection hearing unless it cuts another subscription off. -/
theorem hears_unsubscribe_iff (hpossible : Possible (uses ++ [.unsubscribe n]))
    (hhears : (after uses).Hears) :
    (after (uses ++ [.unsubscribe n])).Hears ↔ ¬ Cuts uses n := by
  have hbefore : Possible uses := hpossible.sooner (List.prefix_append _ _)
  obtain ⟨k, hk⟩ : ∃ k, (subscriptions uses)[n]? = some k :=
    ⟨_, List.getElem?_eq_getElem (hpossible uses n List.prefix_rfl)⟩
  obtain ⟨hmem, hid⟩ := (subscriptions_getElem? uses n k).mp hk
  have hafter : (after (uses ++ [.unsubscribe n])).Hears ↔
      ∀ h ∈ live uses, h.id ≠ n → h.channel ∈ (after uses).channels ∧ h.channel ≠ k.channel := by
    rw [after_append_singleton]
    simp [Subscriber.Hears, Use.apply, Subscriber.unsubscribe, returned_after, hk, hid,
      listeners_after hbefore]
  rw [hafter]
  constructor
  · rintro hkept ⟨h, hh, hne, k', hk', hid', hchannel⟩
    have hsame : k' = k := by
      have hget := (subscriptions_getElem? uses n k').mpr ⟨hk', hid'⟩
      exact Option.some.inj (hget.symm.trans hk)
    exact (hkept h hh hne).2 (hsame ▸ hchannel)
  · intro hnot h hh hne
    refine ⟨hhears h (listeners_after hbefore ▸ hh), fun hchannel => ?_⟩
    exact hnot ⟨h, hh, hne, k, hmem, hid, hchannel⟩

/-- In a run every message is delivered as it should be, after each use of the service, if and
only if no function is called while another subscription to its channel is live. -/
theorem publish_eq_expected_iff (stringify : Json → String) (uses : List (Use κ))
    (hpossible : Possible uses) :
    (∀ us, us <+: uses → ∀ channel message, (after us).publish stringify channel message =
      expected us channel (Subscriber.messageText stringify message)) ↔
      ∀ us n, us ++ [.unsubscribe n] <+: uses → ¬ Cuts us n := by
  have hhears : (∀ us, us <+: uses → ∀ channel message,
      (after us).publish stringify channel message =
        expected us channel (Subscriber.messageText stringify message)) ↔
      ∀ us, us <+: uses → (after us).Hears :=
    forall₂_congr fun us hus => publish_eq_iff stringify (hpossible.sooner hus)
  rw [hhears]
  constructor
  · intro hall us n hus
    have hbefore := hall us ((List.prefix_append us [.unsubscribe n]).trans hus)
    exact (hears_unsubscribe_iff (hpossible.sooner hus) hbefore).mp (hall _ hus)
  · intro hnone us
    -- the uses are taken from the end, so that the connection hears before the last one
    induction us using List.reverseRec with
    | nil => exact fun _ h hh => (nomatch hh)
    | append_singleton us u ih =>
      intro hus
      have hbefore := ih ((List.prefix_append us [u]).trans hus)
      cases u with
      | subscribe channel callback => exact hears_subscribe hbefore
      | unsubscribe n =>
        exact (hears_unsubscribe_iff (hpossible.sooner hus) hbefore).mpr (hnone us n hus)

/-- Two subscriptions, and the function of the first is called. -/
def leaveFirst (first second : String) : List (Use String) :=
  [.subscribe first "display", .subscribe second "log", .unsubscribe 0]

theorem possible_leaveFirst (first second : String) : Possible (leaveFirst first second) := by
  rintro us n ⟨vs, hvs⟩
  match us with
  | [] | [_] => simp [leaveFirst] at hvs
  | [_, _] =>
    simp only [leaveFirst, List.cons_append, List.nil_append, List.cons.injEq] at hvs
    obtain ⟨rfl, rfl, hn, -⟩ := hvs
    cases hn
    exact Nat.zero_lt_two
  | _ :: _ :: _ :: us => simp [leaveFirst] at hvs

theorem publish_eq_expected_iff_leaveFirst :
    (∀ us, us <+: leaveFirst "telemetry" "alert" → ∀ channel message,
      (after us).publish Json.text channel message =
        expected us channel (Subscriber.messageText Json.text message)) ↔
      ∀ us n, us ++ [.unsubscribe n] <+: leaveFirst "telemetry" "alert" → ¬ Cuts us n :=
  publish_eq_expected_iff Json.text _ (possible_leaveFirst "telemetry" "alert")

/-- Of two subscriptions to one channel the second hears nothing once the first has left. -/
theorem not_publish_eq_expected :
    ¬ ∀ (stringify : Json → String) (uses : List (Use String)), Possible uses →
      ∀ channel message, (after uses).publish stringify channel message =
        expected uses channel (Subscriber.messageText stringify message) := by
  intro h
  have hright := h Json.text _ (possible_leaveFirst "telemetry" "telemetry") "telemetry" (.str "21.5")
  exact absurd hright (by decide)

end IotPanel.Redis

import IotPanel.Lib.Routes
import IotPanel.Lib.Text
import Mathlib

/-!
# The routes of the controllers

The routes of all controllers stand in one table, those of one controller in the order of its
methods. A request goes to the first route for its method that accepts its path, and to none else:
the guards and the handler of that route answer it.
-/

namespace IotPanel.Controllers

open Routing

inductive Method
  | get
  | head
  | post
  | put
  | patch
  | delete
  | options
  deriving DecidableEq

/-- A route for `GET` answers `HEAD` as well. -/
def Method.answers : Method → Method → Bool
  | get, head => true
  | m, n => m = n

inductive Handler
  | getHello
  | getStatus
  | signup
  | login
  | logout
  | changePassword
  | forgetPassword
  | resetPassword
  | create
  | findAll
  | findById
  | getUserProfile
  | updateUserProfile
  | updateUser
  | remove
  | assignRoles
  | getUserRoles
  | addRoles
  | removeRoles
  | getAllSensors
  | getSingleSensor
  | querySensors
  | discoverDevicesBroadcast
  | discoverDeviceUnicast
  | getUnassignedSensor
  | getHardwareStatus
  | provisionDevice
  | deleteSensor
  | getDeviceConfiguration
  | reconfigureDevice
  | getHistory
  | controlDevice
  | getDeviceStatus
  | getDeviceTelemetry
  | getDeviceTopicsByDeviceId
  | getSubscribedTopics
  | getConfig
  | updateConfig
  | validateConfig
  | testConnection
  | connect
  | getMqttStatus
  | publish
  | subscribe
  | unsubscribe
  | reconnect
  deriving DecidableEq

/-- A method of a controller with its decorator. -/
structure Endpoint where
  method : Method
  path : List (Segment String)
  handler : Handler
  deriving DecidableEq

structure Controller where
  path : List String
  endpoints : List Endpoint
  deriving DecidableEq

def appController : Controller where
  path := []
  endpoints :=
    [⟨.get, [], .getHello⟩,
      ⟨.get, [.name "status"], .getStatus⟩]

def authController : Controller where
  path := ["auth"]
  endpoints :=
    [⟨.post, [.name "signup"], .signup⟩,
      ⟨.post, [.name "login"], .login⟩,
      ⟨.post, [.name "logout"], .logout⟩,
      ⟨.post, [.name "change-password"], .changePassword⟩,
      ⟨.post, [.name "forget-password"], .forgetPassword⟩,
      ⟨.post, [.name "reset-password"], .resetPassword⟩]

def usersController : Controller where
  path := ["users"]
  endpoints :=
    [⟨.post, [.name "create"], .create⟩,
      ⟨.get, [.name "all"], .findAll⟩,
      ⟨.get, [.name "find", .param], .findById⟩,
      ⟨.get, [.name "profile", .name "get"], .getUserProfile⟩,
      ⟨.patch, [.name "profile", .name "update"], .updateUserProfile⟩,
      ⟨.patch, [.name "update", .param], .updateUser⟩,
      ⟨.delete, [.name "delete", .param], .remove⟩,
      ⟨.patch, [.name "roles", .name "update", .param], .assignRoles⟩,
      ⟨.get, [.name "roles", .name "get", .param], .getUserRoles⟩,
      ⟨.post, [.name "roles", .name "add", .param], .addRoles⟩,
      ⟨.post, [.name "roles", .name "remove", .param], .removeRoles⟩]

def deviceController : Controller where
  path := ["devices"]
  endpoints :=
    [⟨.get, [.name "all"], .getAllSensors⟩,
      ⟨.get, [.param], .getSingleSensor⟩,
      ⟨.get, [.name "query"], .querySensors⟩,
      ⟨.post, [.name "discover-broadcast"], .discoverDevicesBroadcast⟩,
      ⟨.post, [.name "discover-unicast", .param], .discoverDeviceUnicast⟩,
      ⟨.get, [.name "unassigned"], .getUnassignedSensor⟩,
      ⟨.post, [.name "hardware-status", .param], .getHardwareStatus⟩,
      ⟨.put, [.name "provision"], .provisionDevice⟩,
      ⟨.delete, [.param], .deleteSensor⟩,
      ⟨.get, [.name "config", .param], .getDeviceConfiguration⟩,
      ⟨.post, [.name "config"], .reconfigureDevice⟩,
      ⟨.get, [.param, .name "history"], .getHistory⟩,
      ⟨.post, [.param, .name "control"], .controlDevice⟩,
      ⟨.get, [.param, .name "status"], .getDeviceStatus⟩,
      ⟨.get, [.name "telemetry"], .getDeviceTelemetry⟩]

def topicController : Controller where
  path := ["topic"]
  endpoints :=
    [⟨.get, [.name "device", .param], .getDeviceTopicsByDeviceId⟩,
      ⟨.get, [.name "subscribed"], .getSubscribedTopics⟩]

def mqttController : Controller where
  path := ["mqtt"]
  endpoints :=
    [⟨.get, [.name "config"], .getConfig⟩,
      ⟨.put, [.name "config"], .updateConfig⟩,
      ⟨.post, [.name "config", .name "validate"], .validateConfig⟩,
      ⟨.post, [.name "config", .name "test-connection"], .testConnection⟩,
      ⟨.post, [.name "connect", .param], .connect⟩,
      ⟨.get, [.name "status"], .getMqttStatus⟩,
      ⟨.post, [.name "publish"], .publish⟩,
      ⟨.post, [.name "subscribe"], .subscribe⟩,
      ⟨.delete, [.name "unsubscribe", .param], .unsubscribe⟩,
      ⟨.post, [.name "reconnect"], .reconnect⟩]

/-- The controllers that have routes. In which order they are registered depends on the modules. -/
def controllers : List Controller :=
  [appController, authController, usersController, deviceController, topicController,
    mqttController]

/-! ### Dispatch -/

/-- Paths are compared without regard to case. -/
def lower (s : String) : String := String.ofList (s.toList.map Char.toLower)

/-- The segments of the global prefix. -/
structure ApiPrefix where
  segments : List String
  proper : ∀ s ∈ segments, s ≠ "" ∧ '/' ∉ s.toList

/-- The segments of the path of a request, which may end in a slash. -/
def segments (path : String) : Option (List String) :=
  match Text.split path '/' with
  | "" :: s :: ss => some (if (s :: ss).getLast? = some "" then (s :: ss).dropLast else s :: ss)
  | _ => none

/-- The pattern of an endpoint, with what comes from the prefix and the controller. -/
def pattern (apiPrefix : ApiPrefix) (c : Controller) (e : Endpoint) : List (Segment String) :=
  (apiPrefix.segments.map lower ++ c.path).map .name ++ e.path

def Endpoint.route (apiPrefix : ApiPrefix) (c : Controller) (e : Endpoint) : Route String Handler :=
  ⟨pattern apiPrefix c e, e.handler⟩

/-- All routes, with the methods that they are for. -/
def routes (apiPrefix : ApiPrefix) (cs : List Controller) : List (Method × Route String Handler) :=
  cs.flatMap fun c => c.endpoints.map fun e => (e.method, e.route apiPrefix c)

def table (apiPrefix : ApiPrefix) (cs : List Controller) (method : Method) :
    List (Route String Handler) :=
  ((routes apiPrefix cs).filter fun r => r.1.answers method).map Prod.snd

def dispatch (apiPrefix : ApiPrefix) (cs : List Controller) (method : Method) (path : String) :
    Option Handler :=
  (segments path).bind fun ss =>
    (select lower "" (table apiPrefix cs method) ss).map Route.handler

variable {apiPrefix : ApiPrefix} {cs : List Controller} {method : Method} {c : Controller}
  {e first : Endpoint}

/-! ### Paths -/

theorem toLower_eq_slash {c : Char} (h : c.toLower = '/') : c = '/' := by
  unfold Char.toLower at h
  split at h
  · rename_i hcapital
    have hval := congrArg (fun d : Char => d.val.toNat) h
    simp [UInt32.le_iff_toNat_le] at hcapital hval
    omega
  · exact h

theorem lower_lower (s : String) : lower (lower s) = lower s := by
  simp only [lower, String.toList_ofList, List.map_map, Function.comp_def,
    Char.toLower_toLower_eq_toLower]

/-- A segment of a path that is neither empty nor divided. -/
def Proper (s : String) : Prop := s ≠ "" ∧ '/' ∉ s.toList

instance (s : String) : Decidable (Proper s) := inferInstanceAs (Decidable (_ ∧ _))

theorem Proper.lower {s : String} (h : Proper s) : Proper (lower s) := by
  obtain ⟨hne, hslash⟩ := h
  constructor
  · simpa [Controllers.lower] using hne
  · intro hmem
    simp only [Controllers.lower, String.toList_ofList, List.mem_map] at hmem
    obtain ⟨c, hc, hlow⟩ := hmem
    exact hslash (toLower_eq_slash hlow ▸ hc)

/-- Proper segments are those of a path. -/
theorem exists_segments {ss : List String} (h : ∀ s ∈ ss, Proper s) :
    ∃ path, segments path = some ss := by
  cases ss with
  | nil => exact ⟨"/", by decide +kernel⟩
  | cons s t =>
    let parts : List (List Char) := [] :: (s :: t).map String.toList
    refine ⟨String.ofList (['/'].intercalate parts), ?_⟩
    have hparts : ∀ l ∈ parts, '/' ∉ l := by
      intro l hl
      obtain rfl | hl := List.mem_cons.mp hl
      · exact List.not_mem_nil
      · obtain ⟨s', hs', rfl⟩ := List.mem_map.mp hl
        exact (h s' hs').2
    have hsplit : Text.split (String.ofList (['/'].intercalate parts)) '/' = "" :: s :: t := by
      rw [Text.split, String.toList_ofList,
        List.splitOn_intercalate '/' hparts (List.cons_ne_nil _ _)]
      simp [parts, Function.comp_def]
    have hlast : (s :: t).getLast? ≠ some "" := by
      intro hlast
      exact (h "" (List.mem_of_getLast? hlast)).1 rfl
    unfold segments
    rw [hsplit]
    simp only [if_neg hlast]

/-- A proper segment that is none of those given. -/
theorem exists_new (l : List String) :
    ∃ new, Proper new ∧ Controllers.lower new = new ∧ new ∉ l := by
  let n := (l.map String.length).sum
  refine ⟨String.ofList (List.replicate (n + 1) 'x'), ⟨?_, ?_⟩, ?_, ?_⟩
  · simp [List.replicate_succ]
  · simp
  · simp [Controllers.lower]
  · intro hmem
    have hlength := List.mem_map_of_mem (f := String.length) hmem
    have hle := List.le_sum_of_mem hlength
    simp only [String.length_ofList, List.length_replicate] at hle
    omega

/-! ### Routes in their order -/

theorem mem_table {r : Route String Handler} :
    r ∈ table apiPrefix cs method ↔ ∃ c ∈ cs, ∃ e ∈ c.endpoints,
      e.method.answers method = true ∧ r = e.route apiPrefix c := by
  simp only [table, routes, List.mem_map, List.mem_filter, List.mem_flatMap, Prod.exists,
    exists_eq_right]
  constructor
  · rintro ⟨m, ⟨c, hc, e, he, heq⟩, hm⟩
    cases heq
    exact ⟨c, hc, e, he, hm, rfl⟩
  · rintro ⟨c, hc, e, he, hm, rfl⟩
    exact ⟨e.method, ⟨c, hc, e, he, rfl⟩, hm⟩

/-- Endpoints of one controller keep their order in the table. -/
theorem sublist_table (hc : c ∈ cs) (hbehind : [first, e].Sublist c.endpoints)
    (hfirst : first.method.answers method = true) (he : e.method.answers method = true) :
    [first.route apiPrefix c, e.route apiPrefix c].Sublist (table apiPrefix cs method) := by
  let declare : Endpoint → Method × Route String Handler :=
    fun e => (e.method, e.route apiPrefix c)
  have hall : (c.endpoints.map declare).Sublist (routes apiPrefix cs) := by
    unfold routes
    rw [List.flatMap_def]
    exact List.sublist_flatten_of_mem (List.mem_map_of_mem hc)
  have hpair := ((hbehind.map declare).trans hall).filter fun r => r.1.answers method
  simpa [declare, hfirst, he, table] using hpair.map Prod.snd

/-- Every handler stands at one place. -/
theorem nodup_endpoints (hcs : cs.Perm controllers) :
    ((cs.flatMap Controller.endpoints).map Endpoint.handler).Nodup := by
  have hone : ((controllers.flatMap Controller.endpoints).map Endpoint.handler).Nodup := by
    decide +kernel
  exact ((hcs.flatMap_right _).map _).nodup_iff.mpr hone

theorem nodup_handlers (hcs : cs.Perm controllers) :
    ((table apiPrefix cs method).map Route.handler).Nodup := by
  have hroutes : (routes apiPrefix cs).map (fun r => r.2.handler) =
      (cs.flatMap Controller.endpoints).map Endpoint.handler := by
    simp [routes, Endpoint.route, List.map_flatMap, Function.comp_def]
  have hsub : ((table apiPrefix cs method).map Route.handler).Sublist
      ((routes apiPrefix cs).map fun r => r.2.handler) := by
    unfold table
    rw [List.map_map]
    exact List.filter_sublist.map _
  rw [hroutes] at hsub
  exact hsub.nodup (nodup_endpoints hcs)

theorem nodup_table (hcs : cs.Perm controllers) : (table apiPrefix cs method).Nodup :=
  .of_map Route.handler (nodup_handlers hcs)

theorem eq_of_handler {c' : Controller} {e' : Endpoint} (hcs : cs.Perm controllers) (hc : c ∈ cs)
    (he : e ∈ c.endpoints) (hc' : c' ∈ cs) (he' : e' ∈ c'.endpoints)
    (h : e'.handler = e.handler) : e' = e :=
  List.inj_on_of_nodup_map (nodup_endpoints hcs) (List.mem_flatMap.mpr ⟨c', hc', he'⟩)
    (List.mem_flatMap.mpr ⟨c, hc, he⟩) h

theorem route_inj {r r' : Route String Handler} (hcs : cs.Perm controllers)
    (hr : r ∈ table apiPrefix cs method) (hr' : r' ∈ table apiPrefix cs method)
    (h : r.handler = r'.handler) : r = r' :=
  List.inj_on_of_nodup_map (nodup_handlers hcs) hr hr' h

theorem covers_pattern {c' : Controller} {e' : Endpoint} :
    covers "" (pattern apiPrefix c e) (pattern apiPrefix c' e') =
      covers "" (c.path.map .name ++ e.path) (c'.path.map .name ++ e'.path) := by
  simp only [pattern, List.map_append, List.append_assoc]
  exact covers_append_left (covers_names _)

/-- An endpoint behind another one of its controller that covers it answers no request. -/
theorem dispatch_ne_of_covers (hcs : cs.Perm controllers) (hc : c ∈ cs)
    (hbehind : [first, e].Sublist c.endpoints) (hmethod : first.method = e.method)
    (hcovers : covers "" first.path e.path = true) (path : String) :
    dispatch apiPrefix cs method path ≠ some e.handler := by
  intro hdispatch
  obtain ⟨ss, -, hselected⟩ := Option.bind_eq_some_iff.mp hdispatch
  obtain ⟨r, hr, hhandler⟩ := Option.map_eq_some_iff.mp hselected
  have hmem : r ∈ table apiPrefix cs method := List.mem_of_find?_eq_some hr
  obtain ⟨c', hc', e', he', hanswers, rfl⟩ := mem_table.mp hmem
  have he : e ∈ c.endpoints := hbehind.subset (by simp)
  obtain rfl : e' = e := eq_of_handler hcs hc he hc' he' hhandler
  have hown : e'.route apiPrefix c ∈ table apiPrefix cs method :=
    mem_table.mpr ⟨c, hc, e', he, hanswers, rfl⟩
  rw [route_inj hcs hmem hown rfl] at hr
  have hfirst : first.method.answers method = true := by rw [hmethod, hanswers]
  have hboth : covers "" (pattern apiPrefix c first) (pattern apiPrefix c e') = true := by
    rw [covers_pattern, covers_append_left (covers_names _), hcovers]
  exact select_ne_of_covers (nodup_table hcs) (sublist_table hc hbehind hfirst hanswers) hboth ss hr

/-- Where an endpoint covers another one, it comes after that one in the same controller, or the
other one is one of three. -/
theorem covers_cases : ∀ c ∈ controllers, ∀ e ∈ c.endpoints, ∀ c' ∈ controllers,
    ∀ e' ∈ c'.endpoints, e'.handler ≠ e.handler → e'.method.answers e.method = true →
      covers "" (c'.path.map .name ++ e'.path) (c.path.map .name ++ e.path) = true →
        (c' = c ∧ [e, e'].Sublist c.endpoints) ∨
          e.handler ∈ [Handler.querySensors, .getUnassignedSensor, .getDeviceTelemetry] := by
  decide +kernel

theorem answers_self (m : Method) : m.answers m = true := by
  cases m <;> rfl

/-- What is in front of the route of an endpoint does not cover it, unless it is one of three. -/
theorem covers_eq_false {pre post : List (Route String Handler)} {r : Route String Handler}
    (hcs : cs.Perm controllers) (hc : c ∈ cs) (he : e ∈ c.endpoints)
    (htable : table apiPrefix cs e.method = pre ++ e.route apiPrefix c :: post) (hr : r ∈ pre)
    (hother : e.handler ∉ [Handler.querySensors, .getUnassignedSensor, .getDeviceTelemetry]) :
    covers "" r.pattern (pattern apiPrefix c e) = false := by
  have hfront : [r, e.route apiPrefix c].Sublist (table apiPrefix cs e.method) := by
    rw [htable]
    exact (List.singleton_sublist.mpr hr).append
      (List.singleton_sublist.mpr (List.mem_cons_self (l := post)))
  obtain ⟨c', hc', e', he', hanswers, rfl⟩ := mem_table.mp (hfront.subset List.mem_cons_self)
  rw [← Bool.not_eq_true]
  intro hcovers
  have hne : e'.handler ≠ e.handler := by
    intro heq
    have hown : e.route apiPrefix c ∈ table apiPrefix cs e.method := hfront.subset (by simp)
    have hsame := route_inj hcs (hfront.subset List.mem_cons_self) hown heq
    have hnodup := hfront.nodup (nodup_table hcs)
    rw [hsame] at hnodup
    simp at hnodup
  have hpaths := covers_pattern.symm.trans hcovers
  obtain ⟨rfl, hbehind⟩ | hone := covers_cases c (hcs.mem_iff.mp hc) e he c' (hcs.mem_iff.mp hc') e'
    he' hne hanswers hpaths
  · -- the order of the two in the controller is that in the table
    have hswap : [e.route apiPrefix c', e'.route apiPrefix c'].Sublist
        (table apiPrefix cs e.method) :=
      sublist_table hc hbehind (answers_self _) hanswers
    exact not_sublist_swap (nodup_table hcs) hfront hswap
  · exact hother hone

/-- The names of the endpoints are written as they are compared. -/
theorem proper_names : ∀ c ∈ controllers, ∀ e ∈ c.endpoints,
    ∀ k ∈ names (c.path.map .name ++ e.path), lower k = k ∧ Proper k := by
  decide +kernel

theorem proper_pattern {k : String} (hc : c ∈ controllers) (he : e ∈ c.endpoints)
    (hk : Segment.name k ∈ pattern apiPrefix c e) : lower k = k ∧ Proper k := by
  simp only [pattern, List.map_append, List.append_assoc, List.mem_append] at hk
  obtain hk | hk := hk
  · -- a name of the prefix is taken in lower case
    simp only [List.mem_map, Segment.name.injEq, exists_eq_right] at hk
    obtain ⟨s, hs, rfl⟩ := hk
    have hproper : Proper s := apiPrefix.proper s hs
    exact ⟨lower_lower s, hproper.lower⟩
  · exact proper_names c hc e he k (mem_names.mpr (List.mem_append.mpr hk))

/-- An endpoint that none in front of it covers answers the request that it is filled to. -/
theorem exists_dispatch (apiPrefix : ApiPrefix) (hcs : cs.Perm controllers) (hc : c ∈ cs)
    (he : e ∈ c.endpoints)
    (hother : e.handler ∉ [Handler.querySensors, .getUnassignedSensor, .getDeviceTelemetry]) :
    ∃ path, dispatch apiPrefix cs e.method path = some e.handler := by
  have hown : e.route apiPrefix c ∈ table apiPrefix cs e.method :=
    mem_table.mpr ⟨c, hc, e, he, answers_self _, rfl⟩
  obtain ⟨pre, post, htable⟩ := List.append_of_mem hown
  obtain ⟨new, hproper, hlower, hnew⟩ := exists_new (pre.flatMap fun r => names r.pattern)
  have hnames : ∀ k, Segment.name k ∈ pattern apiPrefix c e → lower k = k ∧ Proper k :=
    fun k hk => proper_pattern (hcs.mem_iff.mp hc) he hk
  have hfill : ∀ s ∈ fill id new (pattern apiPrefix c e), Proper s := by
    intro s hs
    obtain ⟨a, ha, rfl⟩ := List.mem_map.mp hs
    cases a with
    | name k => exact (hnames k ha).2
    | param => exact hproper
  obtain ⟨path, hpath⟩ := exists_segments hfill
  have hselect : select lower "" (pre ++ e.route apiPrefix c :: post)
      (fill id new (pattern apiPrefix c e)) = some (e.route apiPrefix c) := by
    apply select_fill
    · exact fun k hk => (hnames k hk).1
    · rw [hlower]
      exact hproper.1
    · intro r hr hmem
      rw [hlower] at hmem
      exact hnew (List.mem_flatMap.mpr ⟨r, hr, mem_names.mpr hmem⟩)
    · exact fun r hr => covers_eq_false hcs hc he htable hr hother
  refine ⟨path, ?_⟩
  unfold dispatch
  rw [hpath, htable, Option.bind_some, hselect]
  rfl

/-! ### Which handlers answer requests -/

theorem exists_endpoint (h : Handler) :
    ∃ c ∈ controllers, ∃ e ∈ c.endpoints, e.handler = h := by
  cases h <;> decide

/-- In every order of the controllers, each handler answers some request, but for three: each of
these stands behind `getSingleSensor`, whose path covers theirs. -/
theorem answers_iff (apiPrefix : ApiPrefix) (cs : List Controller) (hcs : cs.Perm controllers)
    (h : Handler) : (∃ method path, dispatch apiPrefix cs method path = some h) ↔
      h ∉ [Handler.querySensors, .getUnassignedSensor, .getDeviceTelemetry] := by
  constructor
  · rintro ⟨method, path, hdispatch⟩ hmem
    have hc : deviceController ∈ cs := hcs.mem_iff.mpr (by decide)
    have hnone : ∀ e, [⟨.get, [.param], .getSingleSensor⟩, e].Sublist deviceController.endpoints →
        e.method = .get → covers "" [.param] e.path = true → h ≠ e.handler := by
      rintro e hbehind hmethod hcovers rfl
      exact dispatch_ne_of_covers hcs hc hbehind hmethod.symm hcovers path hdispatch
    obtain rfl | rfl | rfl : h = .querySensors ∨ h = .getUnassignedSensor ∨
        h = .getDeviceTelemetry := by simpa using hmem
    · exact hnone ⟨.get, [.name "query"], .querySensors⟩ (by decide) rfl (by decide) rfl
    · exact hnone ⟨.get, [.name "unassigned"], .getUnassignedSensor⟩ (by decide) rfl (by decide) rfl
    · exact hnone ⟨.get, [.name "telemetry"], .getDeviceTelemetry⟩ (by decide) rfl (by decide) rfl
  · intro hother
    obtain ⟨c, hc, e, he, rfl⟩ := exists_endpoint h
    exact ⟨e.method, exists_dispatch apiPrefix hcs (hcs.mem_iff.mpr hc) he hother⟩

theorem answers_iff_telemetry :
    (∃ method path, dispatch ⟨["api"], by decide⟩ controllers method path =
      some .getDeviceTelemetry) ↔ Handler.getDeviceTelemetry ∉
        [Handler.querySensors, .getUnassignedSensor, .getDeviceTelemetry] :=
  answers_iff ⟨["api"], by decide⟩ controllers (.refl _) .getDeviceTelemetry

end IotPanel.Controllers

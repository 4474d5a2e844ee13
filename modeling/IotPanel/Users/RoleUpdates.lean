import IotPanel.Lib.Process
import IotPanel.Users.Database

/-!
# Roles added and removed side by side

A call of `addRoles` or `removeRoles` reads the user, computes a list of roles from what it has
read, and writes the list whatever is stored by then.
-/

namespace IotPanel.Users

inductive RoleCall
  | addRoles (userId : String) (roles : List Role)
  | removeRoles (userId : String) (roles : List Role)

namespace RoleCall

def userId : RoleCall → String
  | addRoles userId _ | removeRoles userId _ => userId

def added : RoleCall → List Json
  | addRoles _ roles => roles.map Role.json
  | removeRoles _ _ => []

def removed : RoleCall → List Json
  | addRoles _ _ => []
  | removeRoles _ roles => roles.map Role.json

def program : RoleCall → Awaiting User
  | addRoles userId roles => Awaits.addRoles userId (roles.map Role.json)
  | removeRoles userId roles => Awaits.removeRoles userId (roles.map Role.json)

/-- What the call writes for what it has read. -/
def merged : RoleCall → List Json → List Json
  | addRoles _ roles, seen => mergeRoles seen (roles.map Role.json)
  | removeRoles _ roles, seen => withoutRoles seen (roles.map Role.json)

end RoleCall

/-- How far a call has come: `seen` is the row that it has read. -/
inductive RolePhase
  | reading
  | read (seen : User)
  | written
  | stopped

namespace RolePhase

def allows (k : RoleCall) : RolePhase → Command → Prop
  | reading, .findOne p => p = fun u => u.userId = k.userId && u.isActive
  | read seen, .update userId f =>
    userId = k.userId ∧ f = fun u => { u with roles := k.merged seen.roles }
  | written, .findOne _ => True
  | _, _ => False

def next : RolePhase → (c : Command) → Except Exception c.Reply → RolePhase
  | reading, .findOne _, .ok (some user) => read user
  | read _, .update _ _, .ok _ => written
  | written, _, _ => written
  | _, _, _ => stopped

end RolePhase

def roleProtocol (k : RoleCall) : Protocol RolePhase Command Command.Reply Exception where
  allowed := RolePhase.allows k
  next := RolePhase.next

/-- A call that returns has written. -/
def RoleCall.ends {α : Type} (a : Except Exception α) (φ : RolePhase) : Prop :=
  ∀ v, a = .ok v → φ = .written

theorem wp_rewrite {missing failed : String} {k : RoleCall}
    {change : User → Except Exception (User → User)}
    (hchange : ∀ user f, change user = .ok f →
      f = fun u => { u with roles := k.merged user.roles }) :
    (Awaits.rewrite missing failed true k.userId change).wp (roleProtocol k) RoleCall.ends
      .reading := by
  refine ⟨rfl, fun r => ?_⟩
  match r with
  | .error _ | .ok none => rintro v ⟨⟩
  | .ok (some user) =>
    dsimp only [Program.bind]
    cases hf : change user with
    | error e => rintro v ⟨⟩
    | ok f =>
      refine ⟨⟨rfl, hchange user f hf⟩, fun r => ?_⟩
      cases r with
      | error e => rintro v ⟨⟩
      | ok _ =>
        refine ⟨trivial, fun r => ?_⟩
        match r with
        | .error _ | .ok none => rintro v ⟨⟩
        | .ok (some updated) => exact fun _ _ => rfl

theorem wp_program (k : RoleCall) : k.program.wp (roleProtocol k) RoleCall.ends .reading := by
  unfold RoleCall.program
  cases k with
  | addRoles userId roles =>
    unfold Awaits.addRoles
    refine wp_rewrite (k := .addRoles userId roles) ?_
    rintro user _ ⟨⟩
    rfl
  | removeRoles userId roles =>
    unfold Awaits.removeRoles
    exact wp_rewrite (k := .removeRoles userId roles) fun user f hf => (of_removal hf).2

/-- The calls on the table of users. -/
def roleCalls : System UserTable RoleCall RolePhase Empty Command Command.Reply Exception where
  program k := do
    let _ ← k.program
    return ()
  protocol := roleProtocol
  fresh := .reading
  ends _ := RoleCall.ends
  follows k := by
    refine Program.wp_bind (Program.wp_mono ?_ (wp_program k))
    intro a φ hends
    cases a with
    | ok user => exact fun _ _ => hends user rfl
    | error e => rintro v ⟨⟩
  env _ := Empty.elim
  execute := Database

abbrev RolePool := Pool UserTable (Process roleCalls)

/-- The call has written the roles of the user. -/
def Wrote (p : RolePool) (userId : String) (k : RoleCall) : Prop :=
  k.userId = userId ∧ ∃ i t, p.threads i = some t ∧ t.call = k ∧ t.phase = .written

/-- The roles that the calls that have written are to leave of the `initial` ones. -/
def Due (p : RolePool) (userId : String) (initial : List Json) (v : Json) : Prop :=
  (v ∈ initial ∨ ∃ k, Wrote p userId k ∧ v ∈ k.added) ∧ ∀ k, Wrote p userId k → v ∉ k.removed

/-- No role of the user is both added and removed. -/
def Compatible (p : RolePool) (userId : String) : Prop :=
  ∀ i j t u, p.threads i = some t → p.threads j = some u → t.call.userId = userId →
    u.call.userId = userId → ∀ v ∈ t.call.added, v ∉ u.call.removed

/-- A call that writes the roles of the user has read the ones that are stored, apart from those
that it adds or removes itself. -/
def Current (userId : String) (p : RolePool) :
    CallEvent RoleCall RolePhase Empty Command Command.Reply Exception → Prop
  | .did k (.read seen) (.update _ _) _ =>
    k.userId = userId → ∀ u ∈ p.shared.rows, u.userId = userId →
      ∀ v, v ∉ k.added → v ∉ k.removed → (v ∈ seen.roles ↔ v ∈ u.roles)
  | _ => True

/-! ### What a call makes of the roles it has read -/

theorem includes_map_iff {roles : List Role} {v : Json} :
    includes (roles.map Role.json) v = true ↔ v ∈ roles.map Role.json := by
  refine ⟨mem_of_includes, fun hv => ?_⟩
  obtain ⟨r, -, rfl⟩ := List.mem_map.mp hv
  exact includes_json.mpr hv

/-- The roles that are there come first; they are left as they are. -/
theorem foldl_of_nodup {roles acc : List Json} (h : (acc ++ roles).Nodup) :
    roles.foldl (fun acc r => if includes acc r then acc else acc ++ [r]) acc = acc ++ roles := by
  induction roles generalizing acc with
  | nil => simp
  | cons r rs ih =>
    have hnew : ¬ includes acc r = true := by
      intro hin
      exact (List.nodup_append.mp h).2.2 r (mem_of_includes hin) r List.mem_cons_self rfl
    rw [List.foldl_cons, if_neg hnew, ih]
    · rw [List.append_assoc]
      rfl
    · rwa [List.append_assoc]

theorem nodup_mergeRoles {roles : List Json} {added : List Role} (h : roles.Nodup) :
    (mergeRoles roles (added.map Role.json)).Nodup := by
  have hfirst := foldl_of_nodup (show ([] ++ roles).Nodup from h)
  unfold mergeRoles
  rw [List.foldl_append, hfirst, List.nil_append]
  clear hfirst
  induction added generalizing roles with
  | nil => exact h
  | cons r rs ih =>
    rw [List.map_cons, List.foldl_cons]
    by_cases hin : includes roles r.json = true
    · rw [if_pos hin]
      exact ih h
    · rw [if_neg hin]
      have hnew : r.json ∉ roles := fun hr => hin (includes_json.mpr hr)
      have happend : (roles ++ [r.json]).Nodup := by
        rw [← List.concat_eq_append, List.nodup_concat]
        exact ⟨hnew, h⟩
      exact ih happend

theorem mem_withoutRoles_map {roles : List Json} {removed : List Role} {v : Json} :
    v ∈ withoutRoles roles (removed.map Role.json) ↔ v ∈ roles ∧ v ∉ removed.map Role.json := by
  unfold withoutRoles
  rw [List.mem_filter, Bool.not_eq_true', ← Bool.not_eq_true, includes_map_iff]

/-- The roles that a call has read, with those that it adds and without those that it removes. -/
theorem mem_merged {k : RoleCall} {seen : List Json} (v : Json) :
    v ∈ k.merged seen ↔ (v ∈ seen ∨ v ∈ k.added) ∧ v ∉ k.removed := by
  cases k with
  | addRoles userId roles =>
    refine mem_mergeRoles.trans ?_
    simp [RoleCall.added, RoleCall.removed]
  | removeRoles userId roles =>
    refine mem_withoutRoles_map.trans ?_
    simp [RoleCall.added, RoleCall.removed]

theorem nodup_merged {seen : List Json} (h : seen.Nodup) (k : RoleCall) : (k.merged seen).Nodup := by
  cases k with
  | addRoles userId roles => exact nodup_mergeRoles h
  | removeRoles userId roles => exact h.filter _

/-! ### The calls that have written -/

section Calls

variable {p q : RolePool} {userId : String} {initial : List Json} {k : RoleCall} {i : ℕ}
  {t : Process roleCalls}

/-- Calls after one of them has moved on, or has been started. -/
theorem wrote_update (hthreads : q.threads = Function.update p.threads i (some t))
    (hold : ∀ u, p.threads i = some u → u.call = t.call ∧ (u.phase = .written → t.phase = .written)) :
    Wrote q userId k ↔
      Wrote p userId k ∨ (k.userId = userId ∧ t.call = k ∧ t.phase = .written) := by
  constructor
  · rintro ⟨hid, j, u, hu, hcall, hphase⟩
    rw [hthreads] at hu
    by_cases hj : j = i
    · subst hj
      rw [Function.update_self] at hu
      cases hu
      exact .inr ⟨hid, hcall, hphase⟩
    · rw [Function.update_of_ne hj] at hu
      exact .inl ⟨hid, j, u, hu, hcall, hphase⟩
  · rintro (⟨hid, j, u, hu, hcall, hphase⟩ | ⟨hid, hcall, hphase⟩)
    · by_cases hj : j = i
      · subst hj
        obtain ⟨hsame, hkeeps⟩ := hold u hu
        refine ⟨hid, j, t, ?_, hsame.symm.trans hcall, hkeeps hphase⟩
        rw [hthreads, Function.update_self]
      · refine ⟨hid, j, u, ?_, hcall, hphase⟩
        rw [hthreads, Function.update_of_ne hj, hu]
    · refine ⟨hid, i, t, ?_, hcall, hphase⟩
      rw [hthreads, Function.update_self]

theorem due_congr (h : ∀ k, Wrote q userId k ↔ Wrote p userId k) (v : Json) :
    Due q userId initial v ↔ Due p userId initial v := by
  unfold Due
  simp only [h]

/-- The roles of the user are those that the calls that have written are to leave, and calls that
are about to write have read no role twice. -/
structure Merged (userId : String) (initial : List Json) (p : RolePool) : Prop where
  row : ∃ u ∈ p.shared.rows, u.userId = userId ∧ u.roles.Nodup ∧
    ∀ v, v ∈ u.roles ↔ Due p userId initial v
  seen : ∀ i t seen, p.threads i = some t → t.call.userId = userId → t.phase = .read seen →
    seen.roles.Nodup

theorem merged_start {s : UserTable} {u : User} (hu : u ∈ s.rows) (hroles : u.roles.Nodup) :
    Merged u.userId u.roles (Pool.start s) := by
  refine ⟨⟨u, hu, rfl, hroles, fun v => ?_⟩, ?_⟩
  · have hnone : ∀ k, ¬ Wrote (Pool.start s) u.userId k := by
      rintro k ⟨-, i, t, ht, -⟩
      cases ht
    unfold Due
    simp [hnone]
  · rintro i t seen ⟨⟩

/-- A call moves on, and writes nothing for the user. -/
theorem Merged.frame (h : Merged userId initial p)
    (hthreads : q.threads = Function.update p.threads i (some t))
    (hold : ∀ u, p.threads i = some u → u.call = t.call ∧ (u.phase = .written → t.phase = .written))
    (hrow : ∀ u ∈ p.shared.rows, u.userId = userId → u ∈ q.shared.rows)
    (hwrote : t.call.userId = userId → t.phase = .written → Wrote p userId t.call)
    (hseen : ∀ seen, t.call.userId = userId → t.phase = .read seen → seen.roles.Nodup) :
    Merged userId initial q := by
  have hsame : ∀ k, Wrote q userId k ↔ Wrote p userId k := by
    intro k
    rw [wrote_update hthreads hold]
    refine ⟨?_, .inl⟩
    rintro (hwrote' | ⟨hid, rfl, hphase⟩)
    · exact hwrote'
    · exact hwrote hid hphase
  refine ⟨?_, fun j u seen hu hid hphase => ?_⟩
  · obtain ⟨u, hu, hid, hnodup, hdue⟩ := h.row
    exact ⟨u, hrow u hu hid, hid, hnodup, fun v => (hdue v).trans (due_congr hsame v).symm⟩
  · rw [hthreads] at hu
    by_cases hj : j = i
    · subst hj
      rw [Function.update_self] at hu
      cases hu
      exact hseen seen hid hphase
    · rw [Function.update_of_ne hj] at hu
      exact h.seen j u seen hu hid hphase

/-- Where roles that are added are not removed, the roles of a further call can be settled last. -/
theorem due_write {roles : List Json} (hdue : ∀ v, v ∈ roles ↔ Due p userId initial v)
    (hwrote : ∀ k', Wrote q userId k' ↔ Wrote p userId k' ∨ k' = k)
    (hdisjoint : ∀ k', Wrote p userId k' → ∀ v ∈ k.added, v ∉ k'.removed) (v : Json) :
    Due q userId initial v ↔ (v ∈ roles ∨ v ∈ k.added) ∧ v ∉ k.removed := by
  rw [hdue v]
  unfold Due
  simp only [hwrote]
  constructor
  · rintro ⟨hin, hnot⟩
    refine ⟨?_, hnot k (.inr rfl)⟩
    have hkept : ∀ k', Wrote p userId k' → v ∉ k'.removed := fun k' hk' => hnot k' (.inl hk')
    rcases hin with hin | ⟨k', hk' | rfl, hadded⟩
    · exact .inl ⟨.inl hin, hkept⟩
    · exact .inl ⟨.inr ⟨k', hk', hadded⟩, hkept⟩
    · exact .inr hadded
  · rintro ⟨⟨hin, hkept⟩ | hadded, hnot⟩
    · refine ⟨?_, ?_⟩
      · rcases hin with hin | ⟨k', hk', hadded⟩
        · exact .inl hin
        · exact .inr ⟨k', .inl hk', hadded⟩
      · rintro k' (hk' | rfl)
        · exact hkept k' hk'
        · exact hnot
    · refine ⟨.inr ⟨k, .inr rfl, hadded⟩, ?_⟩
      rintro k' (hk' | rfl)
      · exact hdisjoint k' hk' v hadded
      · exact hnot

/-- The roles of the stored row are the ones that are due. -/
theorem Merged.due (h : Merged userId initial p) {u : User} (hu : u ∈ p.shared.rows)
    (huid : u.userId = userId) (v : Json) : v ∈ u.roles ↔ Due p userId initial v := by
  obtain ⟨u', hu', hid, -, hdue⟩ := h.row
  rw [Collection.eq_of_key User.userId List.mem_cons_self hu hu' (huid.trans hid.symm)]
  exact hdue v

/-- What is due after a call for the user has written. -/
theorem Merged.due_of_write (h : Merged userId initial p) (hdisjoint : Compatible q userId)
    (ht : p.threads i = some t) (hid : t.call.userId = userId) {t' : Process roleCalls}
    (hcall : t'.call = t.call) (hwritten : t'.phase = .written)
    (hthreads : q.threads = Function.update p.threads i (some t')) {u : User}
    (hu : u ∈ p.shared.rows) (huid : u.userId = userId) (v : Json) :
    Due q userId initial v ↔ (v ∈ u.roles ∨ v ∈ t.call.added) ∧ v ∉ t.call.removed := by
  have hwrote : ∀ k, Wrote q userId k ↔ Wrote p userId k ∨ k = t.call := by
    intro k
    rw [wrote_update hthreads]
    · refine or_congr_right ⟨fun ⟨_, hk, _⟩ => hk.symm.trans hcall, ?_⟩
      rintro rfl
      exact ⟨hid, hcall, hwritten⟩
    · intro v hv
      rw [ht] at hv
      cases hv
      exact ⟨hcall.symm, fun _ => hwritten⟩
  have hself : q.threads i = some t' := by rw [hthreads, Function.update_self]
  refine due_write (h.due hu huid) hwrote (fun k hk v hv => ?_) v
  obtain ⟨hkid, j, w, hw, rfl, -⟩ := (hwrote k).mpr (.inl hk)
  exact hdisjoint i j t' w hself hw (hcall ▸ hid) hkid v (hcall ▸ hv)

/-- A call writes the roles of the user. -/
theorem Merged.write {seen : User} (h : Merged userId initial p)
    (hdisjoint : Compatible q userId) (ht : p.threads i = some t) (hid : t.call.userId = userId)
    (hphase : t.phase = .read seen) {t' : Process roleCalls} (hcall : t'.call = t.call)
    (hwritten : t'.phase = .written)
    (hthreads : q.threads = Function.update p.threads i (some t'))
    (hupdate : p.shared.update? (fun u => u.userId = userId)
      (fun u => { u with roles := t.call.merged seen.roles }) = some q.shared)
    (hcurrent : ∀ u ∈ p.shared.rows, u.userId = userId →
      ∀ v, v ∉ t.call.added → v ∉ t.call.removed → (v ∈ seen.roles ↔ v ∈ u.roles)) :
    Merged userId initial q := by
  obtain ⟨u, hu, huid, -, -⟩ := h.row
  have hseen := h.seen i t seen ht hid hphase
  refine ⟨⟨{ u with roles := t.call.merged seen.roles }, ?_, huid, nodup_merged hseen _,
    fun v => ?_⟩, fun j w seen' hw hwid hwphase => ?_⟩
  · exact (Collection.mem_update? hupdate).mpr ⟨u, hu, if_pos (decide_eq_true huid)⟩
  · show v ∈ t.call.merged seen.roles ↔ _
    rw [h.due_of_write hdisjoint ht hid hcall hwritten hthreads hu huid v, mem_merged v]
    have hsame := hcurrent u hu huid v
    tauto
  · rw [hthreads] at hw
    by_cases hj : j = i
    · subst hj
      rw [Function.update_self] at hw
      cases hw
      rw [hwritten] at hwphase
      cases hwphase
    · rw [Function.update_of_ne hj] at hw
      exact h.seen j w seen' hw hwid hwphase

/-- A call moves on without having read or written anything. -/
theorem Merged.passes (h : Merged userId initial p) (ht : p.threads i = some t)
    {t' : Process roleCalls} (hthreads : q.threads = Function.update p.threads i (some t'))
    (hshared : q.shared = p.shared) (hcall : t'.call = t.call)
    (hwritten : t.phase = .written ↔ t'.phase = .written) (hread : ∀ seen, t'.phase ≠ .read seen) :
    Merged userId initial q := by
  refine h.frame hthreads (fun u hu => ?_) (fun u hu _ => hshared ▸ hu) (fun hid hw => ?_)
    fun seen _ hphase => absurd hphase (hread seen)
  · rw [ht] at hu
    cases hu
    exact ⟨hcall.symm, hwritten.mp⟩
  · exact ⟨hid, i, t, ht, hcall.symm, hwritten.mpr hw⟩

/-- A call reads the user, and what it has read is what is stored. -/
theorem Merged.reads (h : Merged userId initial p) (ht : p.threads i = some t)
    (hphase : t.phase = .reading) {t' : Process roleCalls} (hcall : t'.call = t.call)
    {test : User → Bool} (htest : test = fun u => u.userId = t.call.userId && u.isActive)
    (hshared : q.shared = p.shared)
    (hafter : t'.phase = .stopped ∨
      ∃ user, p.shared.find? test = some user ∧ t'.phase = .read user)
    (hthreads : q.threads = Function.update p.threads i (some t')) : Merged userId initial q := by
  refine h.frame hthreads (fun u hu => ?_) (fun u hu _ => hshared ▸ hu) (fun _ hw => ?_)
    fun seen hid hread => ?_
  · rw [ht] at hu
    cases hu
    refine ⟨hcall.symm, ?_⟩
    rw [hphase]
    rintro ⟨⟩
  · rw [hw] at hafter
    obtain ⟨⟨⟩⟩ | ⟨user, -, ⟨⟩⟩ := hafter
  · rw [hread] at hafter
    obtain ⟨⟨⟩⟩ | ⟨user, hfind, hread⟩ := hafter
    rw [RolePhase.read.inj hread]
    -- the row that was found is the one of the user
    obtain ⟨hmem, hfound⟩ := Collection.mem_of_find? hfind
    rw [htest] at hfound
    have huser : user.userId = userId :=
      (of_decide_eq_true (Bool.and_eq_true_iff.mp hfound).1).trans (hcall ▸ hid)
    obtain ⟨u, hu, huid, hnodup, -⟩ := h.row
    rw [Collection.eq_of_key User.userId List.mem_cons_self hmem hu (huser.trans huid.symm)]
    exact hnodup

theorem Merged.step {e} (h : Merged userId initial p) (hdisjoint : Compatible q userId)
    (hs : roleCalls.Step (Current userId) p e q) : Merged userId initial q := by
  obtain ⟨x, -⟩ | ⟨i, k, rfl, hfree, hshared, hthreads⟩ |
    ⟨i, t, c, k, r, hprog, ht, rfl, hexec, hthreads⟩ := System.step_cases hs
  · exact x.elim
  · refine h.frame hthreads (fun u hu => ?_) (fun u hu _ => ?_) ?_ ?_
    · rw [hfree] at hu
      cases hu
    · rwa [hshared]
    · rintro - ⟨⟩
    · rintro seen - ⟨⟩
  · have hallowed : RolePhase.allows t.call t.phase c := t.allowed_of_await hprog
    have hnext : (t.reply hprog r).phase = RolePhase.next t.phase c r := rfl
    have hcurrent : Current userId p (.did t.call t.phase c r) := hs.2
    cases hphase : t.phase with
    | reading =>
      rw [hphase] at hallowed hnext
      cases c with
      | findOne test =>
        obtain ⟨hshared, hr⟩ := Database.findOne_cases hexec
        have hafter : (t.reply hprog r).phase = .stopped ∨
            ∃ user, p.shared.find? test = some user ∧ (t.reply hprog r).phase = .read user := by
          rw [hnext]
          rcases hr with rfl | ⟨e, rfl⟩
          · cases p.shared.find? test with
            | none => exact .inl rfl
            | some user => exact .inr ⟨user, rfl, rfl⟩
          · exact .inl rfl
        have hcall : (t.reply hprog r).call = t.call := rfl
        exact h.reads ht hphase hcall hallowed hshared hafter hthreads
      | _ => exact hallowed.elim
    | read seen =>
      rw [hphase] at hallowed hnext hcurrent
      cases c with
      | update id f =>
        obtain ⟨rfl, rfl⟩ := hallowed
        obtain ⟨rfl, hupdate⟩ | ⟨hshared, e, rfl⟩ := Database.update_cases hexec
        · by_cases hid : t.call.userId = userId
          · have hcall : (t.reply hprog (.ok ())).call = t.call := rfl
            exact h.write hdisjoint ht hid hphase hcall hnext hthreads (hid ▸ hupdate) (hcurrent hid)
          · -- the row of another user is written
            refine h.frame hthreads (fun u hu => ?_) (fun u hu huid => ?_)
              (fun hid' => absurd hid' hid) fun _ hid' => absurd hid' hid
            · rw [ht] at hu
              cases hu
              exact ⟨rfl, fun _ => hnext⟩
            refine (Collection.mem_update? hupdate).mpr ⟨u, hu, if_neg ?_⟩
            rw [decide_eq_true_eq, huid]
            exact fun heq => hid heq.symm
        · -- the update has failed, and the call stops
          refine h.passes ht hthreads hshared rfl ?_ ?_
          · rw [hphase, hnext]
            constructor <;> rintro ⟨⟩
          · rw [hnext]
            rintro _ ⟨⟩
      | _ => exact hallowed.elim
    | written =>
      rw [hphase] at hallowed hnext
      cases c with
      | findOne test =>
        obtain ⟨hshared, -⟩ := Database.findOne_cases hexec
        refine h.passes ht hthreads hshared rfl (iff_of_true hphase hnext) ?_
        rw [hnext]
        rintro _ ⟨⟩
      | _ => exact hallowed.elim
    | stopped =>
      rw [hphase] at hallowed
      exact hallowed.elim

theorem Compatible.of_step {e} (h : Compatible q userId)
    (hs : roleCalls.Step (Current userId) p e q) : Compatible p userId := by
  intro i j t u ht hu htid huid
  obtain ⟨t', ht', htcall⟩ := System.exists_call_of_step hs ht
  obtain ⟨u', hu', hucall⟩ := System.exists_call_of_step hs hu
  have hapart := h i j t' u' ht' hu'
  rw [htcall, hucall] at hapart
  exact hapart htid huid

theorem merged_of_run {s : UserTable} {u : User} {tr} (hu : u ∈ s.rows) (hroles : u.roles.Nodup)
    (hrun : Run (roleCalls.Step (Current u.userId)) (Pool.start s) tr p) :
    Compatible p u.userId → Merged u.userId u.roles p := by
  induction hrun with
  | refl => exact fun _ => merged_start hu hroles
  | snoc _ hs ih => exact fun hdisjoint => (ih (hdisjoint.of_step hs)).step hdisjoint hs

/-- Conversely, a write that leaves the roles that are due has read what is stored. -/
theorem current_of_merged {seen : User} {id : String} {f : User → User}
    (h : Merged userId initial p) (hq : Merged userId initial q) (hdisjoint : Compatible q userId)
    (hs : roleCalls.Step (fun _ _ => True) p (.did k (.read seen) (.update id f) (.ok ())) q) :
    Current userId p (.did k (.read seen) (.update id f) (.ok ())) := by
  intro hid u hu huid
  obtain ⟨_, heq, -⟩ | ⟨_, _, heq, -⟩ | ⟨i, t, c, k', r, hprog, ht, heq, hexec, hthreads⟩ :=
    System.step_cases hs
  · cases heq
  · cases heq
  · have hallowed : RolePhase.allows t.call t.phase c := t.allowed_of_await hprog
    have hnext : (t.reply hprog r).phase = RolePhase.next t.phase c r := rfl
    generalize hphase : t.phase = φ at heq hallowed hnext
    have hcall : t.call = k := by
      cases heq
      rfl
    rw [hcall] at heq hallowed
    cases heq
    obtain ⟨rfl, rfl⟩ := hallowed
    obtain ⟨-, hupdate⟩ | ⟨-, e, he⟩ := Database.update_cases hexec
    · have hseen := h.seen i t seen ht (hcall ▸ hid) hphase
      have hrow : { u with roles := k.merged seen.roles } ∈ q.shared.rows :=
        (Collection.mem_update? hupdate).mpr ⟨u, hu, if_pos (decide_eq_true (huid.trans hid.symm))⟩
      intro v hadded hremoved
      have hsame : (t.reply hprog (.ok ())).call = t.call := rfl
      have hdue := h.due_of_write hdisjoint ht (hcall ▸ hid) hsame hnext hthreads hu huid v
      rw [← hq.due hrow huid v, hcall] at hdue
      have hmerged := (mem_merged (k := k) v).symm.trans hdue
      tauto
    · cases he

/-- Every call for the user has returned. -/
def Returned (p : RolePool) (userId : String) : Prop :=
  ∀ i t, p.threads i = some t → t.call.userId = userId → t.prog = .ret (.ok ())

/-- The user has the roles it had and those that were added, without those that were removed, and
none of them twice. -/
def Updated (p : RolePool) (user : User) : Prop :=
  ∃ u ∈ p.shared.rows, u.userId = user.userId ∧ u.roles.Nodup ∧ ∀ v, v ∈ u.roles ↔
    (v ∈ user.roles ∨ ∃ i t, p.threads i = some t ∧ t.call.userId = user.userId ∧
      v ∈ t.call.added) ∧
    ∀ i t, p.threads i = some t → t.call.userId = user.userId → v ∉ t.call.removed

end Calls

/-! ### Scripts -/

/-- Nothing fails unless an index refuses it. -/
def database : System.Oracle roleCalls Unit where
  answer _ s c :=
    match c with
    | .findOne p => some (.ok (s.find? p), s)
    | .save record =>
      match s.insert? record with
      | some users => some (.ok (), users)
      | none => some (.error duplicateKey, s)
    | .update userId f =>
      match s.update? (fun u => u.userId = userId) f with
      | some users => some (.ok (), users)
      | none => some (.error duplicateKey, s)
    | .call _ | .result _ _ => none
  sound {o s c r s'} h := by
    cases c with
    | findOne p =>
      cases h
      exact .find p
    | save record =>
      dsimp only at h
      split at h
      · cases h
        exact .save ‹_›
      · cases h
        exact .refuseSave ‹_›
    | update userId f =>
      dsimp only at h
      split at h
      · cases h
        exact .update ‹_›
      · cases h
        exact .refuseUpdate ‹_›
    | call a | result a i => cases h

/-- The same roles, whatever their order. -/
def sameRoles (xs ys : List Json) : Bool := xs.all (includes ys) && ys.all (includes xs)

/-- A test for writes of roles that were read as they are stored. -/
def readsStored (p : RolePool) :
    CallEvent RoleCall RolePhase Empty Command Command.Reply Exception → Bool
  | .did k (.read seen) (.update _ _) _ =>
    p.shared.rows.all fun u => u.userId ≠ k.userId || sameRoles seen.roles u.roles
  | _ => true

theorem mem_iff_of_sameRoles {xs ys : List Json} (h : sameRoles xs ys = true) (v : Json) :
    v ∈ xs ↔ v ∈ ys := by
  obtain ⟨hxs, hys⟩ := Bool.and_eq_true_iff.mp h
  exact ⟨fun hv => mem_of_includes (List.all_eq_true.mp hxs v hv),
    fun hv => mem_of_includes (List.all_eq_true.mp hys v hv)⟩

theorem current_of_test {p : RolePool} {e} (userId : String) (h : readsStored p e = true) :
    Current userId p e := by
  unfold readsStored at h
  split at h
  · rintro rfl u hu huid v - -
    have htest := List.all_eq_true.mp h u hu
    rw [huid] at htest
    simp only [ne_eq, not_true_eq_false, decide_false, Bool.false_or] at htest
    exact mem_iff_of_sameRoles htest v
  · rename_i hother
    unfold Current
    split
    · exact (hother _ _ _ _ _ rfl).elim
    · trivial

/-- A test for calls that have returned and of which none removes what another one adds. -/
def settled (n : ℕ) (p : RolePool) : Bool :=
  (List.range n).all fun i => (p.threads i).all fun t =>
    (match t.prog with
      | .ret (.ok _) => true
      | _ => false) &&
    (List.range n).all fun j => (p.threads j).all fun u =>
      t.call.added.all fun v => !includes u.call.removed v

theorem mem_removed {k : RoleCall} {v : Json} (h : v ∈ k.removed) :
    includes k.removed v = true := by
  cases k with
  | addRoles userId roles => exact absurd h List.not_mem_nil
  | removeRoles userId roles => exact includes_map_iff.mpr h

theorem of_settled {n : ℕ} {p : RolePool} (hbelow : System.Below n p) (h : settled n p = true)
    (userId : String) : Returned p userId ∧ Compatible p userId := by
  have hlt : ∀ i t, p.threads i = some t → i ∈ List.range n := by
    intro i t ht
    rw [List.mem_range]
    by_contra hi
    rw [hbelow i (by omega)] at ht
    cases ht
  have htest : ∀ i t, p.threads i = some t → _ := fun i t ht => by
    have hi := List.all_eq_true.mp h i (hlt i t ht)
    rw [ht] at hi
    exact Bool.and_eq_true_iff.mp hi
  refine ⟨fun i t ht _ => ?_, fun i j t u ht hu _ _ v hadded hremoved => ?_⟩
  · have hret := (htest i t ht).1
    split at hret
    · rename_i heq
      exact heq
    · cases hret
  · have hj := List.all_eq_true.mp (htest i t ht).2 j (hlt j u hu)
    rw [hu] at hj
    have hv := List.all_eq_true.mp hj v hadded
    rw [mem_removed hremoved] at hv
    cases hv

section Main

variable {p : RolePool}

/-- No update is lost if each call that writes has read the roles that are stored by then. -/
theorem updated_of_current {s : UserTable} {user : User} {tr} (huser : user ∈ s.rows)
    (hroles : user.roles.Nodup)
    (hrun : Run (roleCalls.Step (Current user.userId)) (Pool.start s) tr p)
    (hdisjoint : Compatible p user.userId) (hreturned : Returned p user.userId) :
    Updated p user := by
  obtain ⟨u, hu, hid, hnodup, hdue⟩ := (merged_of_run huser hroles hrun hdisjoint).row
  have hwritten : ∀ i t, p.threads i = some t → t.call.userId = user.userId →
      Wrote p user.userId t.call :=
    fun i t ht htid => ⟨htid, i, t, ht, rfl, t.ends_of_ret (hreturned i t ht htid) () rfl⟩
  refine ⟨u, hu, hid, hnodup, fun v => (hdue v).trans (and_congr (or_congr_right ?_) ?_)⟩
  · constructor
    · rintro ⟨k, ⟨hk, i, t, ht, rfl, -⟩, hadded⟩
      exact ⟨i, t, ht, hk, hadded⟩
    · rintro ⟨i, t, ht, htid, hadded⟩
      exact ⟨t.call, hwritten i t ht htid, hadded⟩
  · constructor
    · intro hnot i t ht htid
      exact hnot t.call (hwritten i t ht htid)
    · rintro hnot k ⟨hk, i, t, ht, rfl, -⟩
      exact hnot i t ht hk

end Main

def ana : User :=
  { userId := "ana", email := "ana@iot.org", username := "ana", password := none,
    firstName := none, lastName := none, photoUrl := none, isActive := true,
    roles := [Role.viewer.json] }

/-- The table with one user. -/
def onlyAna : UserTable := ⟨[ana], by simp⟩

/-- The second call reads between the write of the first one and its end. -/
theorem updated_of_current_ana :
    ∃ tr p, Run (roleCalls.Step (Current "ana")) (Pool.start onlyAna) tr p ∧ Updated p ana := by
  have hscript : (System.play database 2 readsStored (Pool.start onlyAna)
      [.start 0 (.addRoles "ana" [.engineer]), .start 1 (.removeRoles "ana" [.viewer]),
        .step 0 (), .step 0 (), .step 1 (), .step 0 (), .step 1 (), .step 1 ()]).any
          (settled 2) = true := by
    decide +kernel
  obtain ⟨tr, p, hrun, hbelow, htest⟩ := System.exists_run
    (fun _ _ _ => current_of_test "ana") (System.below_start _) hscript
  obtain ⟨hreturned, hdisjoint⟩ := of_settled hbelow htest "ana"
  have hana : ana ∈ onlyAna.rows := List.mem_cons_self
  exact ⟨tr, p, hrun,
    updated_of_current hana (List.nodup_singleton _) hrun hdisjoint hreturned⟩

/-- Two calls read before either of them writes. -/
theorem not_updated_of_addRoles :
    ¬ ∀ (s : UserTable) (user : User) (tr : List _) (p : RolePool), user ∈ s.rows →
      user.roles.Nodup → Run (roleCalls.Step fun _ _ => True) (Pool.start s) tr p →
        Compatible p user.userId → Returned p user.userId → Updated p user := by
  intro h
  have hscript : (System.play database 2 (fun _ _ => true) (Pool.start onlyAna)
      [.start 0 (.addRoles "ana" [.engineer]), .start 1 (.addRoles "ana" [.admin]),
        .step 0 (), .step 1 (), .step 0 (), .step 0 (), .step 1 (), .step 1 ()]).any
          (fun p => settled 2 p && p.shared.rows.all (fun u => !includes u.roles Role.engineer.json) &&
            (p.threads 0).any fun t =>
              t.call.userId = "ana" && includes t.call.added Role.engineer.json) = true := by
    decide +kernel
  obtain ⟨tr, p, hrun, hbelow, htest⟩ :=
    System.exists_run (fun _ _ _ _ => trivial) (System.below_start _) hscript
  obtain ⟨htest, hfirst⟩ := Bool.and_eq_true_iff.mp htest
  obtain ⟨hsettled, hlost⟩ := Bool.and_eq_true_iff.mp htest
  obtain ⟨hreturned, hdisjoint⟩ := of_settled hbelow hsettled "ana"
  obtain ⟨t, ht, hcall⟩ := (Option.any_eq_true _ _).mp hfirst
  obtain ⟨hid, hadded⟩ := Bool.and_eq_true_iff.mp hcall
  have htid : t.call.userId = "ana" := of_decide_eq_true hid
  obtain ⟨u, hu, -, -, hroles⟩ :=
    h onlyAna ana tr p List.mem_cons_self (List.nodup_singleton _) hrun hdisjoint hreturned
  have hkept : Role.engineer.json ∈ u.roles := (hroles _).mpr
    ⟨.inr ⟨0, t, ht, htid, mem_of_includes hadded⟩,
      fun j w hw hwid => hdisjoint 0 j t w ht hw htid hwid _ (mem_of_includes hadded)⟩
  have hgone := List.all_eq_true.mp hlost u hu
  rw [includes_json.mpr hkept] at hgone
  cases hgone

end IotPanel.Users

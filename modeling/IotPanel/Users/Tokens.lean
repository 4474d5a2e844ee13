import IotPanel.Js.Exception
import IotPanel.Lib.Run
import IotPanel.Lib.Text
import Mathlib.Logic.Function.Basic

/-!
# Refresh tokens and password-reset tokens

`TokenService` keeps both in one collection: the kind of a token is the suffix of its text, its
owner a column. A refresh token is replaced when it is used.
-/

namespace IotPanel.Tokens

inductive TokenType
  | access
  | refresh
  | reset
  deriving DecidableEq

def TokenType.value : TokenType → String
  | access => "accessToken"
  | refresh => "refreshToken"
  | reset => "resetToken"

/-- A row of the token collection, without its id and the time of its creation. -/
structure Token where
  userId : String
  token : String
  deriving DecidableEq

/-- A method of the service: what it has written before it throws stays written. -/
abbrev TokenMethod := ExceptT Exception (StateM (List Token))

def TokenMethod.exec {α : Type} (x : TokenMethod α) (rows : List Token) :
    Except Exception α × List Token := x.run.run rows

@[simp] theorem TokenMethod.exec_bind {α β : Type} (x : TokenMethod α) (f : α → TokenMethod β)
    (rows : List Token) :
    TokenMethod.exec (x >>= f) rows =
      match x.exec rows with
      | (.ok a, rows') => (f a).exec rows'
      | (.error e, rows') => (.error e, rows') := by
  simp only [TokenMethod.exec, ExceptT.run_bind, StateT.run_bind]
  rcases hx : (StateT.run (ExceptT.run x) rows) with ⟨_ | _, _⟩ <;> rfl

@[simp] theorem TokenMethod.exec_map {α β : Type} (f : α → β) (x : TokenMethod α)
    (rows : List Token) :
    TokenMethod.exec (f <$> x) rows = ((x.exec rows).1.map f, (x.exec rows).2) := by
  rw [map_eq_pure_bind, TokenMethod.exec_bind]
  rcases x.exec rows with ⟨_ | _, _⟩ <;> rfl

namespace TokenRepo

def delete (p : Token → Bool) : TokenMethod Unit := modify fun rows => rows.filter fun t => !p t

def save (t : Token) : TokenMethod Unit := modify fun rows => rows ++ [t]

def findOne (p : Token → Bool) : TokenMethod (Option Token) := do return (← get).find? p

end TokenRepo

/-- `{ userId, token: Like('%.refreshToken') }` -/
def isRefreshOf (userId : String) (t : Token) : Bool :=
  t.userId = userId && Text.endsWith t.token ("." ++ TokenType.refresh.value)

namespace TokenService

def storeRefreshToken (userId token : String) : TokenMethod Unit := do
  TokenRepo.delete (isRefreshOf userId)
  TokenRepo.save ⟨userId, token⟩

/-- `uuid` is the one that is generated. -/
def generateRefreshToken (uuid userId : String) (type : TokenType) : TokenMethod String := do
  let token := uuid ++ ("." ++ type.value)
  storeRefreshToken userId token
  return token

def validateRefreshToken (refreshToken : String) : TokenMethod String := do
  match ← TokenRepo.findOne fun t => t.token = refreshToken with
  | none => throw (.unauthorized "Invalid Refresh Token")
  | some _ => return "Token Is Valid"

def refreshTheToken (uuid userId refreshToken : String) : TokenMethod String := do
  let _ ← validateRefreshToken (refreshToken ++ ("." ++ TokenType.refresh.value))
  let newToken ← generateRefreshToken uuid userId .refresh
  return (Text.split newToken '.').headD ""

def invalidateRefreshToken (refreshToken : String) : TokenMethod String := do
  TokenRepo.delete fun t => t.token = refreshToken ++ ("." ++ TokenType.refresh.value)
  return "Record Deleted Successfully"

def generatePasswordResetToken (uuid userId : String) : TokenMethod String := do
  TokenRepo.save ⟨userId, uuid ++ ".reset"⟩
  return uuid

def validatePasswordResetToken (token : String) : TokenMethod String := do
  match ← TokenRepo.findOne fun t => t.token = token ++ ".reset" with
  | none => throw (.unauthorized "Invalid or expired reset token")
  | some record => return record.userId

def invalidatePasswordResetToken (token : String) : TokenMethod Unit :=
  TokenRepo.delete fun t => t.token = token ++ ".reset"

def invalidateAllRefreshTokensForUser (userId : String) : TokenMethod Unit :=
  TokenRepo.delete (isRefreshOf userId)

end TokenService

/-- A call of the service. -/
inductive TokenOp
  | generateRefreshToken (userId : String) (type : TokenType)
  | validateRefreshToken (refreshToken : String)
  | refreshTheToken (userId refreshToken : String)
  | invalidateRefreshToken (refreshToken : String)
  | invalidateAllRefreshTokensForUser (userId : String)
  | generatePasswordResetToken (userId : String)
  | validatePasswordResetToken (token : String)
  | invalidatePasswordResetToken (token : String)

namespace TokenOp

/-- What the call answers, or nothing, with `uuid` for the one that it may generate. -/
def run (uuid : String) : TokenOp → TokenMethod (Option String)
  | generateRefreshToken userId type =>
    some <$> TokenService.generateRefreshToken uuid userId type
  | validateRefreshToken refreshToken => some <$> TokenService.validateRefreshToken refreshToken
  | refreshTheToken userId refreshToken =>
    some <$> TokenService.refreshTheToken uuid userId refreshToken
  | invalidateRefreshToken refreshToken => some <$> TokenService.invalidateRefreshToken refreshToken
  | invalidateAllRefreshTokensForUser userId =>
    (fun _ => none) <$> TokenService.invalidateAllRefreshTokensForUser userId
  | generatePasswordResetToken userId =>
    some <$> TokenService.generatePasswordResetToken uuid userId
  | validatePasswordResetToken token => some <$> TokenService.validatePasswordResetToken token
  | invalidatePasswordResetToken token =>
    (fun _ => none) <$> TokenService.invalidatePasswordResetToken token

/-- The operations on refresh tokens. -/
def onRefreshTokens : TokenOp → Bool
  | generateRefreshToken _ _ | validateRefreshToken _ | refreshTheToken _ _
  | invalidateRefreshToken _ | invalidateAllRefreshTokensForUser _ => true
  | generatePasswordResetToken _ | validatePasswordResetToken _
  | invalidatePasswordResetToken _ => false

end TokenOp

/-- A call, and the UUID that is there for it to generate. -/
structure Event where
  op : TokenOp
  uuid : String

/-- The collection, the UUIDs generated so far, and for each user the UUID of the refresh token
most recently issued to the user, unless that has been invalidated since. -/
structure State where
  rows : List Token
  drawn : List String
  issued : String → Option String

namespace State

def initial : State := ⟨[], [], fun _ => none⟩

def issuedAfter (s : State) (e : Event) (succeeded : Bool) : String → Option String :=
  match e.op with
  | .generateRefreshToken userId type =>
    if type = .refresh then Function.update s.issued userId (some e.uuid) else s.issued
  | .refreshTheToken userId _ =>
    if succeeded then Function.update s.issued userId (some e.uuid) else s.issued
  | .invalidateRefreshToken refreshToken =>
    fun userId => if s.issued userId = some refreshToken then none else s.issued userId
  | .invalidateAllRefreshTokensForUser userId => Function.update s.issued userId none
  | _ => s.issued

def step (s : State) (e : Event) : State :=
  let o := (e.op.run e.uuid).exec s.rows
  { rows := o.2, drawn := e.uuid :: s.drawn, issued := s.issuedAfter e o.1.isOk }

/-- A UUID has no dot, and no two generated ones are the same. -/
def Fresh (s : State) (uuid : String) : Prop := '.' ∉ uuid.toList ∧ uuid ∉ s.drawn

end State

/-- The refresh token is accepted from the user. -/
def Accepts (rows : List Token) (userId refreshToken : String) : Prop :=
  ∃ uuid a rows', (TokenService.refreshTheToken uuid userId refreshToken).exec rows = (.ok a, rows')

/-- A token that `validatePasswordResetToken` can find. -/
def isReset (t : Token) : Bool := Text.endsWith t.token ".reset"

namespace State

/-- The call keeps to the law of rotation. -/
structure Conforms (s : State) (e : Event) : Prop where
  refresh : ∀ userId refreshToken, e.op = .refreshTheToken userId refreshToken →
    let o := (TokenService.refreshTheToken e.uuid userId refreshToken).exec s.rows
    (o.1.isOk = true ↔ s.issued userId = some refreshToken) ∧
      (o.1.isOk = true → o.1 = .ok e.uuid ∧ (∀ userId', ¬ Accepts o.2 userId' refreshToken) ∧
        (o.2.filter (isRefreshOf userId)).length = 1)
  reset : e.op.onRefreshTokens = true →
    ((e.op.run e.uuid).exec s.rows).2.filter isReset = s.rows.filter isReset

/-- A refresh token is used by its owner only, and no token of another type takes its place. -/
def Meets (s : State) : TokenOp → Prop
  | .refreshTheToken userId refreshToken =>
    ∀ t ∈ s.rows, t.token = refreshToken ++ ("." ++ TokenType.refresh.value) → t.userId = userId
  | .generateRefreshToken userId type =>
    type = .refresh ∨ ∀ t ∈ s.rows, isRefreshOf userId t = false
  | _ => True

end State

variable {rows rows' : List Token} {u v r uuid token : String} {type : TokenType} {t : Token}
  {s s' : State} {e : Event}

/-! ### Suffixes -/

/-- The texts of the tokens that a user may be issued. -/
def refreshToken (uuid : String) : String := uuid ++ ("." ++ TokenType.refresh.value)

theorem isRefreshOf_iff : isRefreshOf u t = true ↔ t.userId = u ∧ ∃ x, t.token = refreshToken x := by
  unfold isRefreshOf refreshToken
  rw [Bool.and_eq_true, decide_eq_true_eq]
  refine and_congr_right fun _ => ⟨fun h => ?_, ?_⟩
  · obtain ⟨x, hx⟩ := Text.endsWith_iff.mp h
    refine ⟨String.ofList x, ?_⟩
    rw [← String.toList_inj, ← hx]
    simp
  · rintro ⟨x, hx⟩
    rw [hx, Text.endsWith_append]

theorem refreshToken_inj {x y : String} : refreshToken x = refreshToken y ↔ x = y :=
  ⟨Text.append_right_cancel, fun h => h ▸ rfl⟩

theorem refreshToken_ne_reset {x y : String} : refreshToken x ≠ y ++ ".reset" :=
  Text.append_ne_append (by decide) (by decide)

theorem refreshToken_eq_iff {x y : String} :
    refreshToken x = y ++ ("." ++ type.value) ↔ type = .refresh ∧ x = y := by
  cases type with
  | refresh =>
    change refreshToken x = refreshToken y ↔ _
    simp [refreshToken_inj]
  | access =>
    have hne : refreshToken x ≠ y ++ ("." ++ TokenType.access.value) :=
      Text.append_ne_append (by decide) (by decide)
    simpa using hne
  | reset =>
    have hne : refreshToken x ≠ y ++ ("." ++ TokenType.reset.value) :=
      Text.append_ne_append (by decide) (by decide)
    simpa using hne

theorem isReset_of_refresh (h : t.token = refreshToken r) : isReset t = false := by
  unfold isReset
  rw [h]
  exact Text.endsWith_append_eq_false (by decide) (by decide)

theorem isReset_generated : isReset ⟨u, uuid ++ ("." ++ type.value)⟩ = false := by
  cases type <;> exact Text.endsWith_append_eq_false (by decide) (by decide)

/-! ### What the calls do -/

/-- The rows after a token has taken the place of the user's refresh token. -/
def replaced (rows : List Token) (u token : String) : List Token :=
  rows.filter (fun t => !isRefreshOf u t) ++ [⟨u, token⟩]

theorem exec_generateRefreshToken :
    (TokenService.generateRefreshToken uuid u type).exec rows =
      (.ok (uuid ++ ("." ++ type.value)), replaced rows u (uuid ++ ("." ++ type.value))) := rfl

theorem exec_validateRefreshToken :
    (TokenService.validateRefreshToken token).exec rows =
      if ∃ t ∈ rows, t.token = token then (.ok "Token Is Valid", rows)
      else (.error (.unauthorized "Invalid Refresh Token"), rows) := by
  have hexec : (TokenService.validateRefreshToken token).exec rows =
      TokenMethod.exec (match rows.find? fun t => t.token = token with
        | none => throw (.unauthorized "Invalid Refresh Token")
        | some _ => return "Token Is Valid") rows := rfl
  rw [hexec]
  cases hfind : rows.find? fun t => t.token = token with
  | none =>
    have hnone : ¬ ∃ t ∈ rows, t.token = token := by simpa using hfind
    rw [if_neg hnone]
    rfl
  | some t =>
    have hsome : ∃ t ∈ rows, t.token = token :=
      ⟨t, List.mem_of_find?_eq_some hfind, by simpa using List.find?_some hfind⟩
    rw [if_pos hsome]
    rfl

theorem exec_refreshTheToken :
    (TokenService.refreshTheToken uuid u r).exec rows =
      if ∃ t ∈ rows, t.token = refreshToken r then
        (.ok ((Text.split (refreshToken uuid) '.').headD ""), replaced rows u (refreshToken uuid))
      else (.error (.unauthorized "Invalid Refresh Token"), rows) := by
  change TokenMethod.exec (TokenService.validateRefreshToken (refreshToken r) >>= fun _ =>
    TokenService.generateRefreshToken uuid u .refresh >>= fun newToken =>
      pure ((Text.split newToken '.').headD "")) rows = _
  rw [TokenMethod.exec_bind, exec_validateRefreshToken]
  by_cases hfound : ∃ t ∈ rows, t.token = refreshToken r
  · rw [if_pos hfound, if_pos hfound]
    rfl
  · rw [if_neg hfound, if_neg hfound]

theorem accepts_iff : Accepts rows u r ↔ ∃ t ∈ rows, t.token = refreshToken r := by
  unfold Accepts
  simp only [exec_refreshTheToken]
  by_cases hfound : ∃ t ∈ rows, t.token = refreshToken r
  · simp [hfound]
  · simp [hfound]

/-- The new refresh token is returned without its suffix. -/
theorem split_refreshToken (h : '.' ∉ uuid.toList) :
    (Text.split (refreshToken uuid) '.').headD "" = uuid := by
  have hdot : refreshToken uuid = uuid ++ (String.ofList ['.'] ++ TokenType.refresh.value) := rfl
  rw [hdot, Text.split_append h]
  rfl

theorem mem_replaced : t ∈ replaced rows u token ↔
    t ∈ rows ∧ isRefreshOf u t = false ∨ t = ⟨u, token⟩ := by
  simp [replaced]

/-- A user has one refresh token when it has been replaced. -/
theorem refresh_replaced : (replaced rows u (refreshToken uuid)).filter (isRefreshOf u) =
    [⟨u, refreshToken uuid⟩] := by
  have hnew : isRefreshOf u ⟨u, refreshToken uuid⟩ = true := isRefreshOf_iff.mpr ⟨rfl, uuid, rfl⟩
  simp [replaced, List.filter_append, List.filter_filter, hnew]

theorem reset_filter_refresh :
    (rows.filter fun t => !isRefreshOf u t).filter isReset = rows.filter isReset := by
  rw [List.filter_filter]
  refine List.filter_congr fun t _ => ?_
  cases hrefresh : isRefreshOf u t with
  | false => simp
  | true =>
    obtain ⟨-, x, hx⟩ := isRefreshOf_iff.mp hrefresh
    simp [isReset_of_refresh hx]

theorem reset_replaced :
    (replaced rows u (uuid ++ ("." ++ type.value))).filter isReset = rows.filter isReset := by
  rw [replaced, List.filter_append, reset_filter_refresh, List.filter_singleton, isReset_generated]
  simp

/-- No operation on refresh tokens creates or removes a password-reset token. -/
theorem reset_run {op : TokenOp} (h : op.onRefreshTokens = true) :
    ((op.run uuid).exec rows).2.filter isReset = rows.filter isReset := by
  cases op with
  | generateRefreshToken u type =>
    rw [TokenOp.run, TokenMethod.exec_map, exec_generateRefreshToken]
    exact reset_replaced
  | validateRefreshToken token =>
    rw [TokenOp.run, TokenMethod.exec_map, exec_validateRefreshToken]
    split <;> rfl
  | refreshTheToken u r =>
    rw [TokenOp.run, TokenMethod.exec_map, exec_refreshTheToken]
    split
    · exact reset_replaced
    · rfl
  | invalidateRefreshToken r =>
    change ((rows.filter fun t => !decide (t.token = refreshToken r)).filter isReset) = _
    rw [List.filter_filter]
    refine List.filter_congr fun t _ => ?_
    by_cases ht : t.token = refreshToken r
    · simp [ht, isReset_of_refresh ht]
    · simp [ht]
  | invalidateAllRefreshTokensForUser u => exact reset_filter_refresh
  | _ => cases h

theorem rows_validateRefreshToken :
    ((TokenOp.run uuid (.validateRefreshToken token)).exec rows).2 = rows := by
  rw [TokenOp.run, TokenMethod.exec_map, exec_validateRefreshToken]
  split <;> rfl

theorem rows_validatePasswordResetToken :
    ((TokenOp.run uuid (.validatePasswordResetToken token)).exec rows).2 = rows := by
  have hexec : ((TokenOp.run uuid (.validatePasswordResetToken token)).exec rows).2 =
      (TokenMethod.exec (match rows.find? fun t => t.token = token ++ ".reset" with
        | none => throw (.unauthorized "Invalid or expired reset token")
        | some record => return record.userId) rows).2 := by
    rw [TokenOp.run, TokenMethod.exec_map]
    rfl
  rw [hexec]
  cases rows.find? fun t => t.token = token ++ ".reset" <;> rfl

/-! ### Runs -/

/-- The collection in terms of what has been issued: a user has the refresh token that is on
record as issued and no other, and each token is made of a generated UUID. -/
structure State.Consistent (s : State) : Prop where
  issued : ∀ u r, ⟨u, refreshToken r⟩ ∈ s.rows ↔ s.issued u = some r
  drawn : ∀ t ∈ s.rows, ∀ r, t.token = refreshToken r → r ∈ s.drawn

namespace State

theorem consistent_initial : initial.Consistent := ⟨by simp [initial], by simp [initial]⟩

/-- The rows after a call are the old ones or the new token. -/
theorem Consistent.of_rows {rows : List Token} {drawn : List String}
    {issued : String → Option String} (h : s.Consistent) (hdrawn : ∀ x ∈ s.drawn, x ∈ drawn)
    (hrows : ∀ t ∈ rows, t ∈ s.rows ∨ ∀ r, t.token = refreshToken r → r ∈ drawn)
    (hissued : ∀ u r, ⟨u, refreshToken r⟩ ∈ rows ↔ issued u = some r) :
    State.Consistent ⟨rows, drawn, issued⟩ := by
  refine ⟨hissued, fun t ht r hr => ?_⟩
  obtain hold | hnew := hrows t ht
  · exact hdrawn r (h.drawn t hold r hr)
  · exact hnew r hr

/-- A refresh token takes the place of the user's, and is on record. -/
theorem Consistent.replace (h : s.Consistent) (u uuid : String) :
    State.Consistent ⟨replaced s.rows u (refreshToken uuid), uuid :: s.drawn,
      Function.update s.issued u (some uuid)⟩ := by
  refine h.of_rows (fun x hx => List.mem_cons_of_mem _ hx) (fun t ht => ?_) fun v r => ?_
  · obtain ⟨hold, -⟩ | rfl := mem_replaced.mp ht
    · exact .inl hold
    · exact .inr fun r hr => by simp [refreshToken_inj.mp hr]
  · rw [mem_replaced, h.issued v r]
    by_cases hv : v = u
    · subst hv
      have hgone : isRefreshOf v ⟨v, refreshToken r⟩ = true := isRefreshOf_iff.mpr ⟨rfl, r, rfl⟩
      simp [hgone, refreshToken_inj, eq_comm]
    · have hkept : isRefreshOf u ⟨v, refreshToken r⟩ = false := by
        simp [isRefreshOf, hv]
      simp [hkept, hv]

theorem Consistent.keep (h : s.Consistent) (uuid : String) :
    State.Consistent ⟨s.rows, uuid :: s.drawn, s.issued⟩ :=
  h.of_rows (fun _ hx => List.mem_cons_of_mem _ hx) (fun _ ht => .inl ht) h.issued

/-- A token that is no refresh token is added. -/
theorem Consistent.add (h : s.Consistent) (uuid : String) {t : Token}
    (hother : ∀ r, refreshToken r ≠ t.token) :
    State.Consistent ⟨s.rows ++ [t], uuid :: s.drawn, s.issued⟩ := by
  refine h.of_rows (fun x hx => List.mem_cons_of_mem _ hx) (fun t' ht' => ?_) fun v r => ?_
  · obtain hold | hnew := List.mem_append.mp ht'
    · exact .inl hold
    · rw [List.mem_singleton.mp hnew]
      exact .inr fun r hr => absurd hr.symm (hother r)
  · rw [List.mem_append, h.issued v r, List.mem_singleton]
    exact or_iff_left fun heq => hother r (congrArg Token.token heq)

/-- Tokens are removed, and no longer on record. -/
theorem Consistent.remove (h : s.Consistent) (uuid : String) {p : Token → Bool}
    {issued : String → Option String}
    (hissued : ∀ u r, issued u = some r ↔ s.issued u = some r ∧ p ⟨u, refreshToken r⟩ = false) :
    State.Consistent ⟨s.rows.filter fun t => !p t, uuid :: s.drawn, issued⟩ := by
  refine h.of_rows (fun x hx => List.mem_cons_of_mem _ hx)
    (fun t ht => .inl (List.mem_of_mem_filter ht)) fun u r => ?_
  rw [List.mem_filter, h.issued u r, hissued u r, Bool.not_eq_true']

theorem Consistent.step (h : s.Consistent) (hmeets : s.Meets e.op) : (s.step e).Consistent := by
  obtain ⟨op, uuid⟩ := e
  cases op with
  | generateRefreshToken u type =>
    change State.Consistent ⟨replaced s.rows u (uuid ++ ("." ++ type.value)), uuid :: s.drawn,
      if type = .refresh then Function.update s.issued u (some uuid) else s.issued⟩
    by_cases htype : type = .refresh
    · subst htype
      exact h.replace u uuid
    · -- the user has had no refresh token, and the new token is none
      have hnone : s.rows.filter (fun t => !isRefreshOf u t) = s.rows :=
        List.filter_eq_self.mpr fun t ht => by simp [hmeets.resolve_left htype t ht]
      rw [if_neg htype, replaced, hnone]
      exact h.add uuid fun r heq => htype (refreshToken_eq_iff.mp heq).1
  | refreshTheToken u r =>
    by_cases hfound : ∃ t ∈ s.rows, t.token = refreshToken r
    · have hstep : s.step ⟨.refreshTheToken u r, uuid⟩ =
          ⟨replaced s.rows u (refreshToken uuid), uuid :: s.drawn,
            Function.update s.issued u (some uuid)⟩ := by
        simp [State.step, TokenOp.run, exec_refreshTheToken, hfound, issuedAfter, Except.map,
          Except.isOk, Except.toBool]
      rw [hstep]
      exact h.replace u uuid
    · have hstep : s.step ⟨.refreshTheToken u r, uuid⟩ = ⟨s.rows, uuid :: s.drawn, s.issued⟩ := by
        simp [State.step, TokenOp.run, exec_refreshTheToken, hfound, issuedAfter, Except.map,
          Except.isOk, Except.toBool]
      rw [hstep]
      exact h.keep uuid
  | validateRefreshToken token =>
    change State.Consistent ⟨((TokenOp.run uuid (.validateRefreshToken token)).exec s.rows).2,
      uuid :: s.drawn, s.issued⟩
    rw [rows_validateRefreshToken]
    exact h.keep uuid
  | invalidateRefreshToken r =>
    change State.Consistent ⟨s.rows.filter fun t => !decide (t.token = refreshToken r),
      uuid :: s.drawn, fun v => if s.issued v = some r then none else s.issued v⟩
    refine h.remove uuid fun v x => ?_
    rw [decide_eq_false_iff_not, refreshToken_inj]
    by_cases hv : s.issued v = some r
    · simp [hv, eq_comm]
    · rw [if_neg hv]
      refine (and_iff_left_of_imp fun hx => ?_).symm
      rintro rfl
      exact hv hx
  | invalidateAllRefreshTokensForUser u =>
    refine h.remove uuid fun v x => ?_
    by_cases hv : v = u
    · subst hv
      have hgone : isRefreshOf v ⟨v, refreshToken x⟩ = true := isRefreshOf_iff.mpr ⟨rfl, x, rfl⟩
      simp [issuedAfter, hgone]
    · have hkept : isRefreshOf u ⟨v, refreshToken x⟩ = false := by simp [isRefreshOf, hv]
      simp [issuedAfter, hkept, hv]
  | generatePasswordResetToken u => exact h.add uuid fun _ => refreshToken_ne_reset
  | validatePasswordResetToken token =>
    change State.Consistent ⟨((TokenOp.run uuid (.validatePasswordResetToken token)).exec s.rows).2,
      uuid :: s.drawn, s.issued⟩
    rw [rows_validatePasswordResetToken]
    exact h.keep uuid
  | invalidatePasswordResetToken token =>
    refine h.remove uuid fun v x => ?_
    simp [issuedAfter, refreshToken_ne_reset]

/-- A step that meets the condition conforms. -/
theorem Consistent.conforms (h : s.Consistent) (hfresh : s.Fresh e.uuid) (hmeets : s.Meets e.op) :
    s.Conforms e := by
  refine ⟨fun u r hop => ?_, reset_run⟩
  rw [hop] at hmeets
  dsimp only
  rw [exec_refreshTheToken]
  by_cases hfound : ∃ t ∈ s.rows, t.token = refreshToken r
  · obtain ⟨t, ht, htoken⟩ := hfound
    have howner : t.userId = u := hmeets t ht htoken
    have hrow : (⟨u, refreshToken r⟩ : Token) ∈ s.rows := by
      rw [← howner, ← htoken]
      exact ht
    rw [if_pos ⟨t, ht, htoken⟩]
    refine ⟨iff_of_true rfl ((h.issued u r).mp hrow), fun _ => ⟨?_, fun v => ?_, ?_⟩⟩
    · rw [split_refreshToken hfresh.1]
    · rw [accepts_iff]
      rintro ⟨t', ht', htoken'⟩
      obtain ⟨hold, hkept⟩ | rfl := mem_replaced.mp ht'
      · -- an old token with this text would be the user's, and those are gone
        have hgone := isRefreshOf_iff.mpr ⟨hmeets t' hold htoken', r, htoken'⟩
        rw [hkept] at hgone
        cases hgone
      · -- the new UUID has not been generated before
        have hsame : e.uuid = r := refreshToken_inj.mp htoken'
        exact hfresh.2 (hsame ▸ h.drawn t ht r htoken)
    · rw [refresh_replaced]
      rfl
  · rw [if_neg hfound]
    refine ⟨iff_of_false (by simp [Except.isOk, Except.toBool]) fun hissued => ?_,
      fun hok => by cases hok⟩
    exact hfound ⟨_, (h.issued u r).mpr hissued, rfl⟩

/-- A refresh that conforms meets the condition. -/
theorem meets_of_conforms {u r : String} (hop : e.op = .refreshTheToken u r)
    (hconforms : s.Conforms e) : s.Meets e.op := by
  rw [hop]
  intro t ht htoken
  by_contra hother
  have hlaw := hconforms.refresh u r hop
  dsimp only at hlaw
  rw [exec_refreshTheToken, if_pos ⟨t, ht, htoken⟩] at hlaw
  -- the other user's token is still there when the user's own has been replaced
  refine (hlaw.2 rfl).2.1 u (accepts_iff.mpr ⟨t, mem_replaced.mpr (.inl ⟨ht, ?_⟩), htoken⟩)
  simp [isRefreshOf, hother]

/-- The step is one of a run with fresh UUIDs in which the condition is met. -/
def Careful (s : State) (e : Event) (s' : State) : Prop :=
  s.Fresh e.uuid ∧ s.Meets e.op ∧ s' = s.step e

theorem consistent_of_run {tr : List Event} (h : Run Careful initial tr s) : s.Consistent := by
  refine h.invariant consistent_initial ?_
  rintro s e _ hs ⟨-, hmeets, rfl⟩
  exact hs.step hmeets

/-- In a run whose steps all meet the condition each step keeps to the law of rotation; and a
refresh that follows such a run keeps to it only if it meets the condition itself. -/
theorem rotation_of_meets (tr : List Event) (s : State) (h : Run Careful initial tr s) (e : Event)
    (hfresh : s.Fresh e.uuid) :
    (s.Meets e.op → s.Conforms e) ∧
      ∀ userId refreshToken, e.op = .refreshTheToken userId refreshToken → s.Conforms e →
        s.Meets e.op := by
  exact ⟨(consistent_of_run h).conforms hfresh, fun u r hop => meets_of_conforms hop⟩

/-- Alice's refresh token is issued. -/
def aliceLogsIn : Event := ⟨.generateRefreshToken "alice" .refresh, "1b9d6bcd"⟩

theorem careful_aliceLogsIn : Run Careful initial [aliceLogsIn] (initial.step aliceLogsIn) :=
  .single ⟨⟨by decide, by simp [initial]⟩, .inl rfl, rfl⟩

theorem rotation_of_meets_alice :
    let s := initial.step aliceLogsIn
    let e := Event.mk (.refreshTheToken "alice" "1b9d6bcd") "9b1deb4d"
    (s.Meets e.op → s.Conforms e) ∧
      ∀ userId refreshToken, e.op = .refreshTheToken userId refreshToken → s.Conforms e →
        s.Meets e.op :=
  rotation_of_meets _ _ careful_aliceLogsIn _ ⟨by decide, by decide⟩

/-- Bob refreshes with Alice's token. -/
theorem not_rotation :
    ¬ ∀ (tr : List Event) (s : State),
      Run (fun s e s' => s.Fresh e.uuid ∧ s' = s.step e) initial tr s →
        ∀ e, s.Fresh e.uuid → s.Conforms e := by
  intro h
  have hconforms := h [aliceLogsIn] _ (.single ⟨⟨by decide, by simp [initial]⟩, rfl⟩)
    ⟨.refreshTheToken "bob" "1b9d6bcd", "9b1deb4d"⟩ ⟨by decide, by decide⟩
  have hissued := (hconforms.refresh "bob" "1b9d6bcd" rfl).1.mp (by decide)
  cases hissued

end State

end IotPanel.Tokens

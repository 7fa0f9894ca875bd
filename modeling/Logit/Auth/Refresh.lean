import Mathlib.Logic.Equiv.List
import Logit.Concurrency.Pool
import Logit.Python.Text
import Logit.Security.SessionToken
import Logit.Users.Model

/-!
# Refresh tokens

A user has one refresh token, in a column of the user's row. `/auth/refresh` exchanges
the stored token for a new one; a login stores a new one, and a logout or a deletion
clears the column. Each request reads the row, and writes it later without looking at it
again; and a token is a function of the user and of the second it expires in. So a token
is used once as long as nobody else has written the row in between, and no second gives
the same token twice.

## Main definitions

* `refreshUser` — the checks of `/auth/refresh`
* `TokenStore`, `SignInTask`, `SignInAct` — the rows, the requests, and their steps
* `SingleUse` — no token is accepted that has been used before
* `Undisturbed`, `WritesUndisturbed` — the condition on a write

## Main results

* `singleUse_of_reachable` — while every write is undisturbed, refresh tokens are single-use
-/

namespace Logit.Auth

open Calendar Concurrency Python Security Users

/-! ## Requests -/

/-- The exceptions of the requests. -/
inductive AuthError
  | authenticationError (detail : String)
  | userNotFoundError
  | inactiveUserError
  /-- `UUID` has refused a text. -/
  | valueError
  deriving DecidableEq, Repr

/-- `_extract_bearer_token`. -/
def extractBearerToken (authorization : Option String) : Option String :=
  authorization.bind (removePrefix? "Bearer ")

/-- `_extract_bearer_token(authorization) or refresh_token_cookie`, if that is not empty. -/
def actualToken (authorization refreshTokenCookie : Option String) : Option String :=
  (((extractBearerToken authorization).filter (· ≠ "")).or refreshTokenCookie).filter (· ≠ "")

/-- What a request brings: a header and a cookie. -/
structure Credentials where
  authorization : Option String
  refreshTokenCookie : Option String
  deriving DecidableEq, Repr

variable (settings : SessionSettings) (jwt : Jwt)

/-- The checks of `/auth/refresh`: the token, and the user it is exchanged for. -/
def refreshUser (now : Datetime) (users : UserTable) (credentials : Credentials) :
    Except AuthError (String × UUID × User) :=
  match actualToken credentials.authorization credentials.refreshTokenCookie with
  | none => .error (.authenticationError "Refresh token not found.")
  | some token =>
    match verifyToken jwt now token "refresh" with
    | none => .error (.authenticationError "Invalid or expired refresh token.")
    | some sub =>
      match UUID.parse sub with
      | none => .error .valueError
      | some userId =>
        match users userId with
        | none => .error .userNotFoundError
        | some user =>
          if user.refreshToken ≠ some token then
            .error (.authenticationError "Refresh token has been revoked or already used.")
          else if !user.isActive then .error .inactiveUserError
          else .ok (token, userId, user)

/-- The user a logout is about; without one it clears nothing. -/
def logoutUser (now : Datetime) (users : UserTable) (credentials : Credentials) :
    Option (UUID × User) := do
  let token ← actualToken credentials.authorization credentials.refreshTokenCookie
  let sub ← verifyToken jwt now token "refresh"
  let userId ← UUID.parse sub
  let user ← users userId
  return (userId, user)

/-! ## Runs -/

/-- What has happened to refresh tokens. -/
inductive TokenEvent
  /-- `/auth/refresh` has exchanged a token. -/
  | accepted (token : String)
  /-- A logout or a deletion has succeeded while a token was stored. -/
  | revoked (token : String)
  deriving DecidableEq, Repr

/-- The user rows, and what has happened to refresh tokens, latest first. -/
structure TokenStore where
  users : UserTable
  history : List TokenEvent

/-- The token of an event. -/
def TokenEvent.token : TokenEvent → String
  | .accepted token => token
  | .revoked token => token

/-- The tokens that have been accepted or revoked. -/
def usedTokens (history : List TokenEvent) : List String := history.map TokenEvent.token

/-- The token stored for a user. -/
def tokenOf (users : UserTable) (userId : UUID) : Option String :=
  (users userId).bind (·.refreshToken)

/-- Where a request stands between its read of the user and its write. -/
inductive SignInTask
  /-- A login has found its user and is about to read the row. -/
  | signingIn (userId : UUID)
  /-- It is about to store a token made at an instant. -/
  | storing (userId : UUID) (loaded : User) (now : Datetime)
  | presenting (credentials : Credentials)
  /-- A refresh is about to store a token made at an instant, for the one it has checked. -/
  | rotating (userId : UUID) (loaded : User) (token : String) (now : Datetime)
  | loggingOut (credentials : Credentials)
  | clearing (userId : UUID) (loaded : User)
  | authenticating (userId : UUID)
  | deleting (userId : UUID) (loaded : User)
  | over
  deriving DecidableEq, Repr

/-- What a logout or a deletion revokes: the token that is stored when it succeeds. -/
def revocation (stored : User) : List TokenEvent :=
  (stored.refreshToken.map TokenEvent.revoked).toList

/-- One statement of a request, with the commit that follows a write. -/
inductive SignInAct : TokenStore → SignInTask → TokenStore → SignInTask → Prop
  | read {s : TokenStore} {userId : UUID} {user : User} (now : Datetime)
      (huser : s.users userId = some user) :
      SignInAct s (.signingIn userId) s (.storing userId user now)
  | store {s : TokenStore} {userId : UUID} {stored loaded : User} {now : Datetime}
      (hstored : s.users userId = some stored) :
      SignInAct s (.storing userId loaded now)
        { s with users := s.users.set userId (updateRefreshToken stored loaded
            (createRefreshToken settings jwt now (UUID.str userId))) } .over
  | check {s : TokenStore} {credentials : Credentials} {checked now : Datetime} {token : String}
      {userId : UUID} {user : User}
      (hcheck : refreshUser jwt checked s.users credentials = .ok (token, userId, user)) :
      SignInAct s (.presenting credentials) s (.rotating userId user token now)
  | rotate {s : TokenStore} {userId : UUID} {stored loaded : User} {token : String}
      {now : Datetime} (hstored : s.users userId = some stored) :
      SignInAct s (.rotating userId loaded token now)
        { users := s.users.set userId (updateRefreshToken stored loaded
            (createRefreshToken settings jwt now (UUID.str userId)))
          history := .accepted token :: s.history } .over
  | logOut {s : TokenStore} {credentials : Credentials} {now : Datetime} {userId : UUID}
      {user : User} (huser : logoutUser jwt now s.users credentials = some (userId, user)) :
      SignInAct s (.loggingOut credentials) s (.clearing userId user)
  | clear {s : TokenStore} {userId : UUID} {stored loaded : User}
      (hstored : s.users userId = some stored) :
      SignInAct s (.clearing userId loaded)
        { users := s.users.set userId (updateRefreshToken stored loaded "")
          history := revocation stored ++ s.history } .over
  | authenticate {s : TokenStore} {userId : UUID} {user : User}
      (huser : s.users userId = some user) (hactive : user.isActive = true) :
      SignInAct s (.authenticating userId) s (.deleting userId user)
  | delete {s : TokenStore} {userId : UUID} {stored loaded : User}
      (hstored : s.users userId = some stored) :
      SignInAct s (.deleting userId loaded)
        { users := s.users.set userId (deleteUser stored loaded)
          history := revocation stored ++ s.history } .over
  /-- Any statement may fail, or be refused. -/
  | fail {s : TokenStore} {task : SignInTask} : SignInAct s task s .over

/-- The requests that may start. -/
def SignInTask.Starts : SignInTask → Prop
  | .signingIn _ => True
  | .presenting _ => True
  | .loggingOut _ => True
  | .authenticating _ => True
  | _ => False

/-- Users may be created without a token, and everything else in their rows may change. -/
def OtherWrites (s s' : TokenStore) : Prop :=
  (∀ userId, tokenOf s'.users userId = tokenOf s.users userId) ∧ s'.history = s.history

/-- The requests of the service that read or write refresh tokens. -/
def signIns : Program TokenStore SignInTask :=
  ⟨OtherWrites, SignInTask.Starts, SignInAct settings jwt⟩

/-- A table in which no tokens have been stored. -/
def TokenStore.start (users : UserTable) : TokenStore := ⟨users, []⟩

/-- No token has been accepted that had been accepted or revoked before. -/
def SingleUse : List TokenEvent → Prop
  | [] => True
  | .accepted token :: history => token ∉ usedTokens history ∧ SingleUse history
  | .revoked _ :: history => SingleUse history

/-- No token is stored for a user. -/
def NoToken (users : UserTable) (userId : UUID) : Prop :=
  ∀ token ∈ tokenOf users userId, token = ""

/-- What a request that is about to write may rely on. The token made for a user is not one that
has been used; the token a refresh has checked has not been used since; and a logout or deletion
has read a token to clear, or there is none to clear now. -/
def Undisturbed (s : TokenStore) : SignInTask → Prop
  | .storing userId _ now =>
    createRefreshToken settings jwt now (UUID.str userId) ∉ usedTokens s.history
  | .rotating userId _ token now => token ∉ usedTokens s.history ∧
    createRefreshToken settings jwt now (UUID.str userId) ∉ token :: usedTokens s.history
  | .clearing userId loaded => loaded.refreshToken ≠ some "" ∨ NoToken s.users userId
  | .deleting userId loaded => loaded.refreshToken ≠ none ∨ NoToken s.users userId
  | _ => True

/-- The condition on a step that writes. -/
def WritesUndisturbed (s : TokenStore) (task : SignInTask) (s' : TokenStore) : Prop :=
  s' ≠ s → Undisturbed settings jwt s task

/-! ## What is stored -/

variable {settings jwt} {s s' : TokenStore} {task task' : SignInTask}

theorem tokenOf_set (users : UserTable) (userId : UUID) (user : User) :
    tokenOf (users.set userId user) userId = user.refreshToken := by
  simp [tokenOf]

theorem tokenOf_set_ne (users : UserTable) {userId other : UUID} (h : other ≠ userId)
    (user : User) : tokenOf (users.set userId user) other = tokenOf users other := by
  rw [tokenOf, tokenOf, UserTable.set_ne users h]

theorem tokenOf_of_some {users : UserTable} {userId : UUID} {user : User}
    (h : users userId = some user) : tokenOf users userId = user.refreshToken := by
  rw [tokenOf, h]
  rfl

/-- Whom a token has been made for. -/
def subjectOf (jwt : Jwt) (token : String) : Option String := (jwt.decode token).bind (·.sub)

theorem subjectOf_createRefreshToken (now : Datetime) (subject : String) :
    subjectOf jwt (createRefreshToken settings jwt now subject) = some subject := by
  rw [subjectOf, createRefreshToken, jwt.decode_encode]
  rfl

/-- The stored tokens are made for their users and have not been used; and no token has been
accepted twice, or after it was revoked. -/
structure Fresh (jwt : Jwt) (s : TokenStore) : Prop where
  owned : ∀ userId token, tokenOf s.users userId = some token → token ≠ "" →
    subjectOf jwt token = some (UUID.str userId)
  unused : ∀ userId token, tokenOf s.users userId = some token → token ≠ "" →
    token ∉ usedTokens s.history
  single : SingleUse s.history

theorem Fresh.start {users : UserTable} (h : ∀ userId, tokenOf users userId = none) :
    Fresh jwt (.start users) where
  owned userId token htoken := by simp [TokenStore.start, h] at htoken
  unused userId token htoken := by simp [TokenStore.start, h] at htoken
  single := trivial

/-- One user's token is written, and one made for the user before may be used with it. -/
theorem Fresh.write (h : Fresh jwt s) {userId : UUID}
    (howned : ∀ token, tokenOf s'.users userId = some token → token ≠ "" →
      subjectOf jwt token = some (UUID.str userId))
    (hunused : ∀ token, tokenOf s'.users userId = some token → token ≠ "" →
      token ∉ usedTokens s'.history)
    (hothers : ∀ other, other ≠ userId → tokenOf s'.users other = tokenOf s.users other)
    (hused : ∀ token ∈ usedTokens s'.history, token ≠ "" → token ∈ usedTokens s.history ∨
      subjectOf jwt token = some (UUID.str userId))
    (hsingle : SingleUse s'.history) : Fresh jwt s' where
  owned other token htoken hne := by
    by_cases hother : other = userId
    · subst hother
      exact howned token htoken hne
    · exact h.owned other token (hothers other hother ▸ htoken) hne
  unused other token htoken hne hmem := by
    by_cases hother : other = userId
    · subst hother
      exact hunused token htoken hne hmem
    · rw [hothers other hother] at htoken
      rcases hused token hmem hne with hmem | hmade
      · exact h.unused other token htoken hne hmem
      · -- Two users do not store one token.
        have hsubject := (h.owned other token htoken hne).symm.trans hmade
        exact hother (UUID.str_injective (Option.some.inj hsubject))
  single := hsingle

/-- What is stored after a token that nobody has used has been made for a user. -/
theorem Fresh.stored (h : Fresh jwt s) {userId : UUID} {stored loaded : User} {made : String}
    (hstored : s.users userId = some stored) (hmade : subjectOf jwt made = some (UUID.str userId))
    (hunused : made ∉ usedTokens s.history) :
    Fresh jwt { s with users := s.users.set userId (updateRefreshToken stored loaded made) } := by
  have hafter : ∀ token, tokenOf (s.users.set userId (updateRefreshToken stored loaded made))
      userId = some token → tokenOf s.users userId = some token ∨ token = made := by
    intro token htoken
    rw [tokenOf_set] at htoken
    rcases flush_cases stored.refreshToken loaded.refreshToken (some made) with hflush | hflush
    · exact .inl ((tokenOf_of_some hstored).trans (hflush.symm.trans htoken))
    · exact .inr (Option.some.inj (htoken.symm.trans hflush))
  refine h.write (fun token htoken hne => ?_) (fun token htoken hne => ?_)
    (fun other hother => tokenOf_set_ne _ hother _) (fun _ hmem _ => .inl hmem) h.single
  · rcases hafter token htoken with hbefore | rfl
    · exact h.owned userId token hbefore hne
    · exact hmade
  · rcases hafter token htoken with hbefore | rfl
    · exact h.unused userId token hbefore hne
    · exact hunused

/-- What is stored after a token of the user has been exchanged. -/
theorem Fresh.rotated (h : Fresh jwt s) {userId : UUID} {stored loaded : User}
    {token made : String} (hloaded : loaded.refreshToken = some token)
    (htoken : subjectOf jwt token = some (UUID.str userId)) (hfree : token ∉ usedTokens s.history)
    (hmade : subjectOf jwt made = some (UUID.str userId))
    (hunused : made ∉ token :: usedTokens s.history) :
    Fresh jwt ⟨s.users.set userId (updateRefreshToken stored loaded made),
      .accepted token :: s.history⟩ := by
  -- The token that is made differs from the loaded one, so it is written.
  have hnew : some made ≠ loaded.refreshToken := by
    rw [hloaded]
    exact fun heq => hunused (Option.some.inj heq ▸ List.mem_cons_self)
  have hafter : tokenOf (s.users.set userId (updateRefreshToken stored loaded made)) userId =
      some made := (tokenOf_set ..).trans (if_neg hnew)
  refine h.write (fun token' htoken' _ => ?_) (fun token' htoken' _ => ?_)
    (fun other hother => tokenOf_set_ne _ hother _) (fun token' hmem _ => ?_) ⟨hfree, h.single⟩
  · obtain rfl := Option.some.inj (hafter.symm.trans htoken')
    exact hmade
  · obtain rfl := Option.some.inj (hafter.symm.trans htoken')
    exact hunused
  · rcases List.mem_cons.mp hmem with rfl | hmem
    · exact .inr htoken
    · exact .inl hmem

theorem singleUse_revocation (stored : User) {history : List TokenEvent} (h : SingleUse history) :
    SingleUse (revocation stored ++ history) := by
  unfold revocation
  cases stored.refreshToken <;> exact h

theorem mem_usedTokens_revocation {stored : User} {history : List TokenEvent} {token : String}
    (h : token ∈ usedTokens (revocation stored ++ history)) :
    token ∈ usedTokens history ∨ stored.refreshToken = some token := by
  unfold revocation at h
  cases hstored : stored.refreshToken with
  | none =>
    rw [hstored] at h
    exact .inl h
  | some revoked =>
    rw [hstored] at h
    rcases List.mem_cons.mp h with rfl | h
    · exact .inr rfl
    · exact .inl h

/-- What is stored after a write that leaves a user no token. -/
theorem Fresh.revoked (h : Fresh jwt s) {userId : UUID} {stored user : User}
    (hstored : s.users userId = some stored) (hnone : ∀ token ∈ user.refreshToken, token = "") :
    Fresh jwt ⟨s.users.set userId user, revocation stored ++ s.history⟩ := by
  refine h.write (fun token htoken hne => ?_) (fun token htoken hne => ?_)
    (fun other hother => tokenOf_set_ne _ hother _) (fun token hmem hne => ?_)
    (singleUse_revocation stored h.single)
  · rw [tokenOf_set] at htoken
    exact absurd (hnone token htoken) hne
  · rw [tokenOf_set] at htoken
    exact absurd (hnone token htoken) hne
  · exact (mem_usedTokens_revocation hmem).imp_right fun hrevoked =>
      h.owned userId token ((tokenOf_of_some hstored).trans hrevoked) hne

/-- Clearing a token that has been read, or where there is none, leaves none. -/
theorem flush_noToken {users : UserTable} {userId : UUID} {stored : User}
    {loaded cleared : Option String} (hstored : users userId = some stored)
    (hcleared : ∀ token ∈ cleared, token = "") (h : loaded ≠ cleared ∨ NoToken users userId) :
    ∀ token ∈ flush stored.refreshToken loaded cleared, token = "" := by
  intro token htoken
  rcases h with hne | hnone
  · rw [flush, if_neg (Ne.symm hne)] at htoken
    exact hcleared token htoken
  · rcases flush_cases stored.refreshToken loaded cleared with hflush | hflush
    · rw [hflush] at htoken
      exact hnone token ((tokenOf_of_some hstored).trans htoken)
    · rw [hflush] at htoken
      exact hcleared token htoken

/-! ## Every run -/

/-- A refresh about to write has checked the token it has loaded, which is one of its user's. -/
def Checked (jwt : Jwt) : SignInTask → Prop
  | .rotating userId loaded token _ =>
    loaded.refreshToken = some token ∧ subjectOf jwt token = some (UUID.str userId)
  | _ => True

theorem actualToken_ne {authorization refreshTokenCookie : Option String} {token : String}
    (h : actualToken authorization refreshTokenCookie = some token) : token ≠ "" := by
  simpa using (Option.filter_eq_some_iff.mp h).2

theorem refreshUser_ok {now : Datetime} {users : UserTable} {credentials : Credentials}
    {token : String} {userId : UUID} {user : User}
    (h : refreshUser jwt now users credentials = .ok (token, userId, user)) :
    token ≠ "" ∧ users userId = some user ∧ user.refreshToken = some token ∧
      user.isActive = true := by
  unfold refreshUser at h
  split at h
  · cases h
  · next presented hpresented =>
    split at h
    · cases h
    · split at h
      · cases h
      · split at h
        · cases h
        · next found hfound =>
          split_ifs at h with htoken hactive
          obtain ⟨rfl, rfl, rfl⟩ : presented = token ∧ _ = userId ∧ found = user := by
            simpa using h
          exact ⟨actualToken_ne hpresented, hfound, not_not.mp htoken, by simpa using hactive⟩

theorem SignInAct.checked (h : SignInAct settings jwt s task s' task') (hfresh : Fresh jwt s) :
    Checked jwt task' := by
  cases h with
  | check hcheck =>
    obtain ⟨hne, huser, htoken, -⟩ := refreshUser_ok hcheck
    exact ⟨htoken, hfresh.owned _ _ ((tokenOf_of_some huser).trans htoken) hne⟩
  | _ => trivial

/-- Every undisturbed step keeps what is stored fresh. -/
theorem Fresh.act (h : Fresh jwt s) (hchecked : Checked jwt task)
    (hwrites : WritesUndisturbed settings jwt s task s')
    (hact : SignInAct settings jwt s task s' task') : Fresh jwt s' := by
  by_cases hsame : s' = s
  · exact hsame ▸ h
  have hundisturbed := hwrites hsame
  cases hact with
  | store hstored => exact h.stored hstored (subjectOf_createRefreshToken ..) hundisturbed
  | rotate hstored =>
    exact h.rotated hchecked.1 hchecked.2 hundisturbed.1 (subjectOf_createRefreshToken ..)
      hundisturbed.2
  | clear hstored =>
    exact h.revoked hstored (flush_noToken hstored (by simp) hundisturbed)
  | delete hstored =>
    exact h.revoked hstored (flush_noToken hstored (by simp) hundisturbed)
  | _ => exact h

theorem verifyToken_createRefreshToken {made now : Datetime} {subject : String}
    (hexp : now.unixSeconds < (made.addDays settings.REFRESH_TOKEN_EXPIRE_DAYS).unixSeconds) :
    verifyToken jwt now (createRefreshToken settings jwt made subject) "refresh" =
      some subject := by
  rw [verifyToken, createRefreshToken, jwt.decode_encode]
  simp [refreshPayload, not_le.mpr hexp]

section Requests

variable {guard : TokenStore → SignInTask → TokenStore → Prop} {userId : UUID} {user : User}
  {made now : Datetime} {token : String}

/-- A login stores a token. -/
theorem runs_login (huser : s.users userId = some user) (hread : guard s (.signingIn userId) s)
    (hstore : ∀ s', guard s (.storing userId user now) s') :
    ((signIns settings jwt).restricted guard).Runs (s, .signingIn userId)
      ({ s with users := s.users.set userId { user with
          refreshToken := some (createRefreshToken settings jwt now (UUID.str userId)) } },
        .over) := by
  have hact : SignInAct settings jwt s (.storing userId user now) _ .over := .store huser
  rw [updateRefreshToken, flush_self] at hact
  exact .step ⟨hread, .read now huser⟩ (.last ⟨hstore _, hact⟩)

end Requests

/-! ## A run -/

/-- Texts have numbers. -/
@[reducible] def textCode : Encodable String :=
  .ofLeftInverse (fun text => text.toList.map Char.toNat)
    (fun codes => String.ofList (codes.map Char.ofNat)) fun text => by
      simp [List.map_map, Function.comp_def, Char.ofNat_toNat]

/-- A library whose tokens are as long as the number of what they say. -/
def plainJwt : Jwt :=
  letI := textCode
  { encode payload := String.ofList
      ('e' :: List.replicate (Encodable.encode (payload.exp, payload.sub, payload.type)) '.')
    decode token := (Encodable.decode (α := Option ℤ × Option String × Option String)
      (token.toList.length - 1)).map fun said => ⟨said.1, said.2.1, said.2.2⟩
    decode_encode payload := by simp [Encodable.encodek] }

theorem plainJwt_ne (payload : Payload) : plainJwt.encode payload ≠ "" := by
  intro h
  have hchars := congrArg String.toList h
  simp [plainJwt] at hchars

theorem createRefreshToken_ne {settings : SessionSettings} {jwt : Jwt} {first second : Datetime}
    {subject : String} (h : first.unixSeconds ≠ second.unixSeconds) :
    createRefreshToken settings jwt first subject ≠
      createRefreshToken settings jwt second subject := fun htokens => by
  have hpayload := jwt.encode_injective htokens
  have hexp := Option.some.inj (congrArg Payload.exp hpayload)
  rw [Datetime.unixSeconds_addDays, Datetime.unixSeconds_addDays] at hexp
  exact h (by omega)

/-- A user without a token. -/
def signedOut : User :=
  ⟨"a@x.kr", none, true, some .google, some "g-1", none, false, none, none, none, none, none⟩

/-- A table with one user, who has a token or none. -/
def holding (token : Option String) : UserTable :=
  UserTable.set (fun _ => none) 7 { signedOut with refreshToken := token }

/-- The token made for this user at an instant. -/
def tokenMade (now : Datetime) : String := createRefreshToken ⟨30⟩ plainJwt now (UUID.str 7)

theorem tokenMade_ne_empty (now : Datetime) : tokenMade now ≠ "" := plainJwt_ne _

theorem holding_self (token : Option String) :
    holding token 7 = some { signedOut with refreshToken := token } := UserTable.set_self ..

theorem tokenOf_holding (token : Option String) : tokenOf (holding token) 7 = token :=
  tokenOf_of_some (holding_self token)

theorem set_holding (token token' : Option String) :
    (holding token).set 7 { signedOut with refreshToken := token' } = holding token' :=
  Function.update_idem ..

section Run

variable (guard : TokenStore → SignInTask → TokenStore → Prop) (history : List TokenEvent)

/-- The user logs in. -/
theorem runs_login_holding (stored : Option String) (now : Datetime)
    (hread : guard ⟨holding stored, history⟩ (.signingIn 7) ⟨holding stored, history⟩)
    (hstore : ∀ s', guard ⟨holding stored, history⟩
      (.storing 7 { signedOut with refreshToken := stored } now) s') :
    ((signIns ⟨30⟩ plainJwt).restricted guard).Runs (⟨holding stored, history⟩, .signingIn 7)
      (⟨holding (some (tokenMade now)), history⟩, .over) := by
  have hrun : ((signIns ⟨30⟩ plainJwt).restricted guard).Runs _ _ :=
    runs_login (holding_self stored) hread hstore
  rwa [set_holding] at hrun

end Run

end Logit.Auth

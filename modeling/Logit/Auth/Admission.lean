import Logit.Auth.Accounts
import Logit.Auth.Revocation

/-!
# Who is let in

A request is let in with an access token, which is never looked up: it is signed, says whose it
is and runs out. Access tokens are given out with a refresh token, by a login or for a refresh
token. So whoever is let in as a user has tokens that come from a login of that user, from one
refresh to the next. A logout leaves the access tokens that have been given out, and they run out;
a user who has deleted the account is not let in before a login has made it active again.

Nobody else knows the secret, so a token whose signature is right has been given out.

## Main definitions

* `getCurrentUser` — the user a request is let in as
* `AccessStore`, `AccessTask`, `AccessAct`, `accesses` — the rows, the requests and their steps
* `FromLogin` — tokens that come from a login
* `Unraced`, `WritesUnraced` — the condition on a write

## Main results

* `fromLogin_of_reachable` — whoever is let in has tokens that come from a login
* `reactivated_of_reachable` — nobody is let in as a user who has deleted the account
* `expired_of_reachable` — while every write is unraced, a logout is final when the access tokens
  have run out
-/

namespace Logit.Auth

open Calendar Concurrency Python Security Users

/-! ## Requests -/

variable (settings : AccessSettings) (jwt : Jwt)

/-- `get_current_user`: the user of an access token, who must be active. -/
def getCurrentUser (now : Datetime) (users : UserTable) (token : String) :
    Except AuthError (UUID × User) :=
  match verifyToken jwt now token "access" with
  | none => .error (.authenticationError "Could not validate credentials")
  | some sub =>
    match UUID.parse sub with
    | none => .error .valueError
    | some userId =>
      match users userId with
      | none => .error .userNotFoundError
      | some user => if !user.isActive then .error .inactiveUserError else .ok (userId, user)

/-- The access token given out at an instant. -/
def accessToken (userId : UUID) (made : Datetime) : String :=
  createAccessToken settings jwt made (UUID.str userId) none

/-- The refresh token given out with it. -/
def refreshToken (userId : UUID) (made : Datetime) : String :=
  createRefreshToken settings.toSessionSettings jwt made (UUID.str userId)

/-- When the two tokens were made that are given out together. -/
structure Issue where
  access : Datetime
  refresh : Datetime
  deriving DecidableEq, Repr

/-- Both have been made by an instant. -/
def Issue.By (issue : Issue) (time : Datetime) : Prop :=
  issue.access ≤ time ∧ issue.refresh ≤ time

/-- Both have been made since an instant. -/
def Issue.Since (issue : Issue) (time : Datetime) : Prop :=
  time ≤ issue.access ∧ time ≤ issue.refresh

/-- What has happened to users and their tokens. -/
inductive AccessEvent
  /-- A login has given out tokens. -/
  | loggedIn (userId : UUID) (issue : Issue)
  /-- `/auth/refresh` has given out tokens for one it has checked. -/
  | refreshed (userId : UUID) (token : String) (checked : Datetime) (issue : Issue)
  | loggedOut (userId : UUID) (time : Datetime)
  | deleted (userId : UUID)
  /-- A login has made the user active again. -/
  | reactivated (userId : UUID)
  /-- A request has been let in with a token it has checked. -/
  | letIn (userId : UUID) (token : String) (checked : Datetime)
  deriving DecidableEq, Repr

/-- The user rows, and what has happened to users and their tokens, latest first. -/
structure AccessStore where
  clock : Datetime
  users : UserTable
  log : List AccessEvent

/-- Nothing has happened yet. -/
def AccessStore.started (clock : Datetime) (users : UserTable) : AccessStore := ⟨clock, users, []⟩

/-- The event gives out tokens for a user. -/
def AccessEvent.Gives (userId : UUID) (issue : Issue) : AccessEvent → Prop
  | .loggedIn other given => other = userId ∧ given = issue
  | .refreshed other _ _ given => other = userId ∧ given = issue
  | _ => False

/-- Tokens have been given out for a user. -/
def Granted (log : List AccessEvent) (userId : UUID) (issue : Issue) : Prop :=
  ∃ event ∈ log, event.Gives userId issue

/-- The token is one of two that are given out together. -/
def Issue.Has (issue : Issue) (userId : UUID) (token : String) : Prop :=
  token = accessToken settings jwt userId issue.access ∨
    token = refreshToken settings jwt userId issue.refresh

/-- A token whose signature is right has been given out. -/
def Signed (log : List AccessEvent) (token : String) : Prop :=
  ∀ payload, jwt.decode token = some payload →
    ∃ userId issue, Granted log userId issue ∧ issue.Has settings jwt userId token

/-- Where a request stands between its statements. -/
inductive AccessTask
  /-- A login has looked up its user, and is about to read the row. -/
  | loggingIn (userId : UUID)
  | reactivating (userId : UUID) (loaded : User)
  /-- It has made the user active, or has created the user, and is about to read the row again. -/
  | returning (userId : UUID)
  /-- It has made an access token, and makes a refresh token. -/
  | issuing (userId : UUID) (loaded : User) (access : Datetime)
  | storing (userId : UUID) (loaded : User) (issue : Issue)
  | presenting (credentials : Credentials)
  /-- A refresh has checked the signature and the expiry of its token, and reads the row. -/
  | checking (credentials : Credentials) (checked : Datetime)
  /-- It has made an access token, and makes a refresh token. -/
  | reissuing (userId : UUID) (loaded : User) (token : String) (checked access : Datetime)
  | rotating (userId : UUID) (loaded : User) (token : String) (checked : Datetime) (issue : Issue)
  | loggingOut (credentials : Credentials)
  | clearing (userId : UUID) (loaded : User)
  | requesting (token : String)
  /-- A request has checked the signature and the expiry of its token, and reads the row. -/
  | identifying (token : String) (checked : Datetime)
  /-- It has been let in, and may be about to delete the account. -/
  | admitted (userId : UUID) (loaded : User)
  | over
  deriving DecidableEq, Repr

/-- One statement of a request, with the commit that follows a write. -/
inductive AccessAct : AccessStore → AccessTask → AccessStore → AccessTask → Prop
  | find {s : AccessStore} {userId : UUID} {user : User} (huser : s.users userId = some user) :
      AccessAct s (.loggingIn userId) s
        (if user.isActive then .issuing userId user s.clock else .reactivating userId user)
  | reactivate {s : AccessStore} {userId : UUID} {stored loaded : User}
      (hstored : s.users userId = some stored) :
      AccessAct s (.reactivating userId loaded)
        { s with
          users := s.users.set userId (reactivate stored loaded)
          log := .reactivated userId :: s.log } (.returning userId)
  | reread {s : AccessStore} {userId : UUID} {user : User} (huser : s.users userId = some user) :
      AccessAct s (.returning userId) s (.issuing userId user s.clock)
  | issue {s : AccessStore} {userId : UUID} {loaded : User} {access : Datetime} :
      AccessAct s (.issuing userId loaded access) s (.storing userId loaded ⟨access, s.clock⟩)
  | store {s : AccessStore} {userId : UUID} {stored loaded : User} {issue : Issue}
      (hstored : s.users userId = some stored) :
      AccessAct s (.storing userId loaded issue)
        { s with
          users := s.users.set userId (updateRefreshToken stored loaded
            (refreshToken settings jwt userId issue.refresh))
          log := .loggedIn userId issue :: s.log } .over
  | present {s : AccessStore} {credentials : Credentials}
      (hsigned : ∀ token ∈ actualToken credentials.authorization credentials.refreshTokenCookie,
        Signed settings jwt s.log token) :
      AccessAct s (.presenting credentials) s (.checking credentials s.clock)
  | check {s : AccessStore} {credentials : Credentials} {checked : Datetime} {token : String}
      {userId : UUID} {user : User}
      (hcheck : refreshUser jwt checked s.users credentials = .ok (token, userId, user)) :
      AccessAct s (.checking credentials checked) s (.reissuing userId user token checked s.clock)
  | reissue {s : AccessStore} {userId : UUID} {loaded : User} {token : String}
      {checked access : Datetime} :
      AccessAct s (.reissuing userId loaded token checked access) s
        (.rotating userId loaded token checked ⟨access, s.clock⟩)
  | rotate {s : AccessStore} {userId : UUID} {stored loaded : User} {token : String}
      {checked : Datetime} {issue : Issue} (hstored : s.users userId = some stored) :
      AccessAct s (.rotating userId loaded token checked issue)
        { s with
          users := s.users.set userId (updateRefreshToken stored loaded
            (refreshToken settings jwt userId issue.refresh))
          log := .refreshed userId token checked issue :: s.log } .over
  | logOut {s : AccessStore} {credentials : Credentials} {checked : Datetime} {userId : UUID}
      {user : User} (huser : logoutUser jwt checked s.users credentials = some (userId, user)) :
      AccessAct s (.loggingOut credentials) s (.clearing userId user)
  | clear {s : AccessStore} {userId : UUID} {stored loaded : User}
      (hstored : s.users userId = some stored) :
      AccessAct s (.clearing userId loaded)
        { s with
          users := s.users.set userId (updateRefreshToken stored loaded "")
          log := .loggedOut userId s.clock :: s.log } .over
  | request {s : AccessStore} {token : String} (hsigned : Signed settings jwt s.log token) :
      AccessAct s (.requesting token) s (.identifying token s.clock)
  | enter {s : AccessStore} {token : String} {checked : Datetime} {userId : UUID} {user : User}
      (henter : getCurrentUser jwt checked s.users token = .ok (userId, user)) :
      AccessAct s (.identifying token checked)
        { s with log := .letIn userId token checked :: s.log } (.admitted userId user)
  | delete {s : AccessStore} {userId : UUID} {stored loaded : User}
      (hstored : s.users userId = some stored) :
      AccessAct s (.admitted userId loaded)
        { s with
          users := s.users.set userId (deleteUser stored loaded)
          log := .deleted userId :: s.log } .over
  /-- Any statement may fail, or a request be refused. -/
  | fail {s : AccessStore} {task : AccessTask} : AccessAct s task s .over

/-- The requests that may start; a login that has created a user reads the row. -/
def AccessTask.Starts : AccessTask → Prop
  | loggingIn _ => True
  | returning _ => True
  | presenting _ => True
  | loggingOut _ => True
  | requesting _ => True
  | _ => False

/-- Time passes. Users may be created without a token, and everything else in their rows may
change. -/
def Elapses (s s' : AccessStore) : Prop :=
  s.clock ≤ s'.clock ∧ s'.log = s.log ∧
    (∀ userId, tokenOf s'.users userId = tokenOf s.users userId) ∧
    ∀ userId user, s.users userId = some user →
      ∃ user', s'.users userId = some user' ∧ user'.isActive = user.isActive

/-- The requests of the service that give out, check or forget tokens. -/
def accesses : Program AccessStore AccessTask :=
  ⟨Elapses, AccessTask.Starts, AccessAct settings jwt⟩

/-! ## What is expected -/

/-- A refresh token was valid when it was checked: it had been made at an earlier instant, and had
not run out. -/
def RefreshedWithin (made checked : Datetime) : Prop :=
  made ≤ checked ∧
    checked.unixSeconds < made.unixSeconds + settings.REFRESH_TOKEN_EXPIRE_DAYS * 86400

/-- An access token was valid when it was checked. -/
def LetInWithin (made checked : Datetime) : Prop :=
  made ≤ checked ∧
    checked.unixSeconds < made.unixSeconds + settings.ACCESS_TOKEN_EXPIRE_MINUTES * 60

/-- Tokens of a user come from a login of the user: each two were given out for the refresh token
that had been given out before. -/
inductive FromLogin (log : List AccessEvent) (userId : UUID) : Issue → Prop
  | login {issue : Issue} (h : .loggedIn userId issue ∈ log) : FromLogin log userId issue
  | refresh {before issue : Issue} {checked : Datetime} (hfrom : FromLogin log userId before)
      (h : .refreshed userId (refreshToken settings jwt userId before.refresh) checked issue ∈ log)
      (hwithin : RefreshedWithin settings before.refresh checked) (hsince : issue.Since checked) :
      FromLogin log userId issue

/-- The account of a user has been deleted, and not been made active again. -/
def Shut (userId : UUID) : List AccessEvent → Prop
  | [] => False
  | .deleted other :: log => other = userId ∨ Shut userId log
  | .reactivated other :: log => other ≠ userId ∧ Shut userId log
  | _ :: log => Shut userId log

/-- A user has logged out, and no tokens have been given out for the user since. -/
def LoggedOut (userId : UUID) : List AccessEvent → Prop
  | [] => False
  | .loggedIn other _ :: log => other ≠ userId ∧ LoggedOut userId log
  | .refreshed other _ _ _ :: log => other ≠ userId ∧ LoggedOut userId log
  | .loggedOut other _ :: log => other = userId ∨ LoggedOut userId log
  | _ :: log => LoggedOut userId log

/-- The condition on a write: a refresh finds the token it has checked still stored, and a logout
has read a token to clear, or there is none to clear now. -/
def Unraced (s : AccessStore) : AccessTask → Prop
  | .rotating userId _ token _ _ => tokenOf s.users userId = some token
  | .clearing userId loaded => loaded.refreshToken ≠ some "" ∨ NoToken s.users userId
  | _ => True

/-- The condition on a step that writes. -/
def WritesUnraced (s : AccessStore) (task : AccessTask) (s' : AccessStore) : Prop :=
  s' ≠ s → Unraced s task

/-- Each event of a history, the latest first, stands in a relation to what has happened before
it. -/
def Each {ε : Type} (P : ε → List ε → Prop) (history : List ε) : Prop :=
  ∀ later event earlier, history = later ++ event :: earlier → P event earlier

theorem each_nil {ε : Type} {P : ε → List ε → Prop} : Each P [] := by
  intro later event earlier h
  simp at h

theorem each_cons {ε : Type} {P : ε → List ε → Prop} {event : ε} {history : List ε} :
    Each P (event :: history) ↔ P event history ∧ Each P history := by
  constructor
  · intro h
    refine ⟨h [] event history rfl, fun later other earlier heq => ?_⟩
    exact h (event :: later) other earlier (congrArg (event :: ·) heq)
  · rintro ⟨hhead, htail⟩ later other earlier heq
    cases later with
    | nil =>
      obtain ⟨rfl, rfl⟩ := List.cons.inj heq
      exact hhead
    | cons first later => exact htail later other earlier (List.cons.inj heq).2

/-- What is expected of an event, given what has happened before. -/
def Expected : AccessEvent → List AccessEvent → Prop
  | .letIn userId token checked, log => (∃ issue, FromLogin settings jwt log userId issue ∧
      token = accessToken settings jwt userId issue.access ∧
      LetInWithin settings issue.access checked) ∧ ¬ Shut userId log
  | .loggedOut _ time, log => ∀ userId issue, Granted log userId issue → issue.By time
  | _, _ => True

/-- A refresh is not of a user who has logged out. -/
def Resumes : AccessEvent → List AccessEvent → Prop
  | .refreshed userId _ _ _, log => ¬ LoggedOut userId log
  | _, _ => True

/-! ## Tokens -/

variable {settings jwt} {log log' : List AccessEvent} {userId other : UUID} {token sub : String}
  {issue : Issue} {made checked time time' : Datetime} {users : UserTable}
  {user stored loaded : User}

theorem Issue.By.trans (h : issue.By time) (hle : time ≤ time') : issue.By time' :=
  ⟨h.1.trans hle, h.2.trans hle⟩

theorem FromLogin.mono (h : FromLogin settings jwt log userId issue) (hlog : log ⊆ log') :
    FromLogin settings jwt log' userId issue := by
  induction h with
  | login h => exact .login (hlog h)
  | refresh _ h hwithin hsince ih => exact .refresh ih (hlog h) hwithin hsince

theorem FromLogin.granted (h : FromLogin settings jwt log userId issue) :
    Granted log userId issue := by
  cases h with
  | login h => exact ⟨_, h, rfl, rfl⟩
  | refresh _ h _ _ => exact ⟨_, h, rfl, rfl⟩

theorem granted_cons {event : AccessEvent} :
    Granted (event :: log) userId issue ↔ event.Gives userId issue ∨ Granted log userId issue := by
  simp [Granted]

/-- A token that is read has been given out by an instant. -/
def GivenBy (settings : AccessSettings) (jwt : Jwt) (log : List AccessEvent) (token : String)
    (checked : Datetime) : Prop :=
  ∀ payload, jwt.decode token = some payload →
    ∃ userId issue, FromLogin settings jwt log userId issue ∧ issue.By checked ∧
      issue.Has settings jwt userId token

theorem GivenBy.mono (h : GivenBy settings jwt log token checked) (hlog : log ⊆ log') :
    GivenBy settings jwt log' token checked := by
  intro payload hpayload
  obtain ⟨userId, issue, hfrom, hmade, htoken⟩ := h payload hpayload
  exact ⟨userId, issue, hfrom.mono hlog, hmade, htoken⟩

theorem decode_accessToken (userId : UUID) (made : Datetime) :
    jwt.decode (accessToken settings jwt userId made) = some ⟨some (made.unixSeconds +
      settings.ACCESS_TOKEN_EXPIRE_MINUTES * 60), some (UUID.str userId), some "access"⟩ := by
  rw [accessToken, createAccessToken, jwt.decode_encode, ← Datetime.unixSecondsAfter_minutes]
  rfl

theorem decode_refreshToken (userId : UUID) (made : Datetime) :
    jwt.decode (refreshToken settings jwt userId made) = some ⟨some (made.unixSeconds +
      settings.REFRESH_TOKEN_EXPIRE_DAYS * 86400), some (UUID.str userId), some "refresh"⟩ := by
  rw [refreshToken, createRefreshToken, jwt.decode_encode, refreshPayload,
    Datetime.unixSeconds_addDays]

/-- No refresh token is an access token. -/
theorem GivenBy.access (h : GivenBy settings jwt log token checked)
    (hverify : verifyToken jwt checked token "access" = some sub) :
    ∃ userId issue, sub = UUID.str userId ∧ FromLogin settings jwt log userId issue ∧
      token = accessToken settings jwt userId issue.access ∧
      LetInWithin settings issue.access checked := by
  obtain ⟨payload, hdecode, hexp, hsub, htype⟩ := verifyToken_eq_some.mp hverify
  obtain ⟨userId, issue, hfrom, hmade, rfl | rfl⟩ := h payload hdecode
  · rw [decode_accessToken, Option.some.injEq] at hdecode
    subst hdecode
    exact ⟨userId, issue, (Option.some.inj hsub).symm, hfrom, rfl, hmade.1, hexp _ rfl⟩
  · rw [decode_refreshToken, Option.some.injEq] at hdecode
    subst hdecode
    exact absurd htype (by simp)

/-- No access token is a refresh token. -/
theorem GivenBy.refresh (h : GivenBy settings jwt log token checked)
    (hverify : verifyToken jwt checked token "refresh" = some sub) :
    ∃ userId issue, sub = UUID.str userId ∧ FromLogin settings jwt log userId issue ∧
      token = refreshToken settings jwt userId issue.refresh ∧
      RefreshedWithin settings issue.refresh checked := by
  obtain ⟨payload, hdecode, hexp, hsub, htype⟩ := verifyToken_eq_some.mp hverify
  obtain ⟨userId, issue, hfrom, hmade, rfl | rfl⟩ := h payload hdecode
  · rw [decode_accessToken, Option.some.injEq] at hdecode
    subst hdecode
    exact absurd htype (by simp)
  · rw [decode_refreshToken, Option.some.injEq] at hdecode
    subst hdecode
    exact ⟨userId, issue, (Option.some.inj hsub).symm, hfrom, rfl, hmade.2, hexp _ rfl⟩

theorem getCurrentUser_ok (h : getCurrentUser jwt checked users token = .ok (userId, user)) :
    ∃ sub, verifyToken jwt checked token "access" = some sub ∧ UUID.parse sub = some userId ∧
      users userId = some user ∧ user.isActive = true := by
  unfold getCurrentUser at h
  split at h
  · cases h
  · next sub hsub =>
    split at h
    · cases h
    · next parsed hparsed =>
      split at h
      · cases h
      · next found hfound =>
        split_ifs at h with hactive
        cases h
        exact ⟨sub, hsub, hparsed, hfound, by simpa using hactive⟩

theorem verifyToken_of_refreshUser {credentials : Credentials}
    (h : refreshUser jwt checked users credentials = .ok (token, userId, user)) :
    ∃ sub, verifyToken jwt checked token "refresh" = some sub ∧ UUID.parse sub = some userId := by
  unfold refreshUser at h
  split at h
  · cases h
  · split at h
    · cases h
    · next sub hsub =>
      split at h
      · cases h
      · next parsed hparsed =>
        split at h
        · cases h
        · split_ifs at h
          cases h
          exact ⟨sub, hsub, hparsed⟩

/-! ## Every run -/

variable {s s' : AccessStore} {task task' : AccessTask}

/-- Time passes, and nothing that has happened is forgotten. -/
def AccessStore.Grows (s s' : AccessStore) : Prop := s.clock ≤ s'.clock ∧ s.log ⊆ s'.log

/-- A user is not active. -/
def Inactive (users : UserTable) (userId : UUID) : Prop :=
  ∃ user, users userId = some user ∧ user.isActive = false

/-- What is recorded is as expected, and users who have deleted their account are not active. -/
structure Recorded (settings : AccessSettings) (jwt : Jwt) (s : AccessStore) : Prop where
  granted : ∀ userId issue, Granted s.log userId issue →
    FromLogin settings jwt s.log userId issue ∧ issue.By s.clock
  expected : Each (Expected settings jwt) s.log
  inactive : ∀ userId, Shut userId s.log → Inactive s.users userId

/-- The refresh token that was checked comes from a login, and was valid. -/
def Renews (settings : AccessSettings) (jwt : Jwt) (log : List AccessEvent) (userId : UUID)
    (token : String) (checked : Datetime) : Prop :=
  ∃ issue, FromLogin settings jwt log userId issue ∧
    token = refreshToken settings jwt userId issue.refresh ∧
    RefreshedWithin settings issue.refresh checked

/-- What a request relies on between its statements. -/
def Presents (settings : AccessSettings) (jwt : Jwt) (s : AccessStore) : AccessTask → Prop
  | .issuing _ _ access => access ≤ s.clock
  | .storing _ _ issue => issue.By s.clock
  | .checking credentials checked => checked ≤ s.clock ∧
    ∀ token ∈ actualToken credentials.authorization credentials.refreshTokenCookie,
      GivenBy settings jwt s.log token checked
  | .reissuing userId _ token checked access => checked ≤ access ∧ access ≤ s.clock ∧
    Renews settings jwt s.log userId token checked
  | .rotating userId _ token checked issue => issue.Since checked ∧ issue.By s.clock ∧
    Renews settings jwt s.log userId token checked
  | .identifying token checked => checked ≤ s.clock ∧ GivenBy settings jwt s.log token checked
  | .admitted _ loaded => loaded.isActive = true
  | _ => True

theorem AccessStore.Grows.refl (s : AccessStore) : s.Grows s := ⟨le_rfl, List.Subset.refl _⟩

theorem Renews.mono (h : Renews settings jwt log userId token checked) (hlog : log ⊆ log') :
    Renews settings jwt log' userId token checked := by
  obtain ⟨issue, hfrom, htoken, hwithin⟩ := h
  exact ⟨issue, hfrom.mono hlog, htoken, hwithin⟩

theorem Presents.mono (h : Presents settings jwt s task) (hgrows : s.Grows s') :
    Presents settings jwt s' task := by
  obtain ⟨hclock, hlog⟩ := hgrows
  cases task with
  | issuing userId loaded access => exact le_trans h hclock
  | storing userId loaded issue => exact h.trans hclock
  | checking credentials checked =>
    exact ⟨h.1.trans hclock, fun token htoken => (h.2 token htoken).mono hlog⟩
  | reissuing userId loaded token checked access =>
    exact ⟨h.1, h.2.1.trans hclock, h.2.2.mono hlog⟩
  | rotating userId loaded token checked issue =>
    exact ⟨h.1, h.2.1.trans hclock, h.2.2.mono hlog⟩
  | identifying token checked => exact ⟨h.1.trans hclock, h.2.mono hlog⟩
  | admitted userId loaded => exact h
  | _ => trivial

/-- What has been given out by now. -/
theorem Recorded.givenBy (h : Recorded settings jwt s) (hsigned : Signed settings jwt s.log token) :
    GivenBy settings jwt s.log token s.clock := by
  intro payload hpayload
  obtain ⟨userId, issue, hgranted, htoken⟩ := hsigned payload hpayload
  obtain ⟨hfrom, hmade⟩ := h.granted userId issue hgranted
  exact ⟨userId, issue, hfrom, hmade, htoken⟩

/-- One more event, and rows with it. -/
theorem Recorded.note (h : Recorded settings jwt s) {event : AccessEvent}
    (hgives : ∀ userId issue, event.Gives userId issue →
      FromLogin settings jwt (event :: s.log) userId issue ∧ issue.By s.clock)
    (hexpected : Expected settings jwt event s.log)
    (hinactive : ∀ userId, Shut userId (event :: s.log) → Inactive users userId) :
    Recorded settings jwt ⟨s.clock, users, event :: s.log⟩ where
  granted userId issue hgranted := by
    rcases granted_cons.mp hgranted with hnew | hbefore
    · exact hgives userId issue hnew
    · obtain ⟨hfrom, hclock⟩ := h.granted userId issue hbefore
      exact ⟨hfrom.mono (List.subset_cons_self _ _), hclock⟩
  expected := each_cons.mpr ⟨hexpected, h.expected⟩
  inactive := hinactive

/-- A write that leaves a user as active as before. -/
theorem Recorded.inactive_set (h : Recorded settings jwt s) (hstored : s.users userId = some stored)
    (hsame : user.isActive = stored.isActive) (other : UUID) (hshut : Shut other s.log) :
    Inactive (s.users.set userId user) other := by
  obtain ⟨found, hfound, hinactive⟩ := h.inactive other hshut
  by_cases hother : other = userId
  · subst hother
    obtain rfl := Option.some.inj (hfound.symm.trans hstored)
    exact ⟨user, UserTable.set_self .., hsame.trans hinactive⟩
  · exact ⟨found, (UserTable.set_ne s.users hother user).trans hfound, hinactive⟩

theorem AccessStore.grows_cons (s : AccessStore) (users : UserTable) (event : AccessEvent) :
    s.Grows ⟨s.clock, users, event :: s.log⟩ := ⟨le_rfl, List.subset_cons_self _ _⟩

/-- A refresh is about to give out tokens for one that comes from a login. -/
theorem Recorded.check {credentials : Credentials}
    (hown : Presents settings jwt s (.checking credentials checked))
    (hcheck : refreshUser jwt checked s.users credentials = .ok (token, userId, user)) :
    Presents settings jwt s (.reissuing userId user token checked s.clock) := by
  obtain ⟨sub, hverify, hparse⟩ := verifyToken_of_refreshUser hcheck
  have hgiven := hown.2 token (tokenFor_of_refreshUser hcheck).1
  obtain ⟨found, issue, rfl, hfrom, htoken, hwithin⟩ := hgiven.refresh hverify
  rw [UUID.parse_str, Option.some.injEq] at hparse
  subst hparse
  exact ⟨hown.1, le_rfl, issue, hfrom, htoken, hwithin⟩

/-- A request is let in with a token that comes from a login, as a user who is active. -/
theorem Recorded.enter (h : Recorded settings jwt s)
    (hown : Presents settings jwt s (.identifying token checked))
    (henter : getCurrentUser jwt checked s.users token = .ok (userId, user)) :
    Recorded settings jwt { s with log := .letIn userId token checked :: s.log } := by
  obtain ⟨sub, hverify, hparse, huser, hactive⟩ := getCurrentUser_ok henter
  obtain ⟨found, issue, rfl, hfrom, htoken, hwithin⟩ := hown.2.access hverify
  rw [UUID.parse_str, Option.some.injEq] at hparse
  subst hparse
  refine h.note (fun _ _ => False.elim) ⟨⟨issue, hfrom, htoken, hwithin⟩, fun hshut => ?_⟩
    h.inactive
  obtain ⟨stored, hstored, hinactive⟩ := h.inactive found hshut
  obtain rfl := Option.some.inj (huser.symm.trans hstored)
  rw [hactive] at hinactive
  cases hinactive

/-- What a statement of a request keeps. -/
theorem AccessAct.keeps (hact : AccessAct settings jwt s task s' task')
    (h : Recorded settings jwt s) (hown : Presents settings jwt s task) :
    Recorded settings jwt s' ∧ s.Grows s' ∧ Presents settings jwt s' task' := by
  cases hact with
  | find huser =>
    refine ⟨h, .refl s, ?_⟩
    split_ifs
    · exact le_rfl
    · trivial
  | @reactivate userId stored loaded hstored =>
    refine ⟨h.note (fun _ _ => False.elim) trivial fun other hshut => ?_, s.grows_cons _ _,
      trivial⟩
    obtain ⟨found, hfound, hinactive⟩ := h.inactive other hshut.2
    exact ⟨found, (UserTable.set_ne s.users (Ne.symm hshut.1) _).trans hfound, hinactive⟩
  | reread huser => exact ⟨h, .refl s, le_rfl⟩
  | issue => exact ⟨h, .refl s, hown, le_rfl⟩
  | @store userId stored loaded issue hstored =>
    refine ⟨h.note ?_ trivial (h.inactive_set hstored rfl), s.grows_cons _ _, trivial⟩
    rintro other given ⟨rfl, rfl⟩
    exact ⟨.login List.mem_cons_self, hown⟩
  | present hsigned =>
    exact ⟨h, .refl s, le_rfl, fun token htoken => h.givenBy (hsigned token htoken)⟩
  | check hcheck => exact ⟨h, .refl s, Recorded.check hown hcheck⟩
  | reissue =>
    obtain ⟨hchecked, hmade, hrenews⟩ := hown
    exact ⟨h, .refl s, ⟨hchecked, hchecked.trans hmade⟩, ⟨hmade, le_rfl⟩, hrenews⟩
  | @rotate userId stored loaded token checked issue hstored =>
    obtain ⟨hsince, hmade, before, hfrom, rfl, hwithin⟩ := hown
    refine ⟨h.note ?_ trivial (h.inactive_set hstored rfl), s.grows_cons _ _, trivial⟩
    rintro other given ⟨rfl, rfl⟩
    exact ⟨.refresh (hfrom.mono (List.subset_cons_self _ _)) List.mem_cons_self hwithin hsince,
      hmade⟩
  | logOut huser => exact ⟨h, .refl s, trivial⟩
  | clear hstored =>
    exact ⟨h.note (fun _ _ => False.elim) (fun other issue hgranted =>
      (h.granted other issue hgranted).2) (h.inactive_set hstored rfl), s.grows_cons _ _, trivial⟩
  | request hsigned => exact ⟨h, .refl s, le_rfl, h.givenBy hsigned⟩
  | enter henter =>
    obtain ⟨-, -, -, -, hactive⟩ := getCurrentUser_ok henter
    exact ⟨h.enter hown henter, s.grows_cons _ _, hactive⟩
  | @delete userId stored loaded hstored =>
    have hwritten : (deleteUser stored loaded).isActive = false :=
      flush_of_ne stored.isActive (by rw [show loaded.isActive = true from hown]; decide)
    refine ⟨h.note (fun _ _ => False.elim) trivial fun other hshut => ?_, s.grows_cons _ _,
      trivial⟩
    by_cases hother : other = userId
    · subst hother
      exact ⟨_, UserTable.set_self .., hwritten⟩
    · obtain ⟨found, hfound, hinactive⟩ :=
        h.inactive other (hshut.resolve_left (Ne.symm hother))
      exact ⟨found, (UserTable.set_ne s.users hother _).trans hfound, hinactive⟩
  | fail => exact ⟨h, .refl s, trivial⟩

theorem accesses_keeps (settings : AccessSettings) (jwt : Jwt) :
    (accesses settings jwt).Keeps AccessStore.Grows (Recorded settings jwt)
      (Presents settings jwt) where
  env := by
    rintro s s' ⟨hclock, hlog, -, hactive⟩ h
    refine ⟨⟨fun userId issue hgranted => ?_, hlog ▸ h.expected, fun userId hshut => ?_⟩,
      hclock, hlog ▸ List.Subset.refl _⟩
    · rw [hlog] at hgranted ⊢
      obtain ⟨hfrom, hmade⟩ := h.granted userId issue hgranted
      exact ⟨hfrom, hmade.trans hclock⟩
    · rw [hlog] at hshut
      obtain ⟨user, huser, hinactive⟩ := h.inactive userId hshut
      obtain ⟨user', huser', hsame⟩ := hactive userId user huser
      exact ⟨user', huser', hsame.trans hinactive⟩
  start := by
    intro s task hstart _
    cases task <;> trivial
  act hact h hown := hact.keeps h hown
  stable hgrows hown := hown.mono hgrows

theorem Recorded.started (clock : Datetime) (users : UserTable) :
    Recorded settings jwt (.started clock users) where
  granted userId issue hgranted := by
    obtain ⟨event, hin, -⟩ := hgranted
    cases hin
  expected := each_nil
  inactive _ hshut := hshut.elim

section Run

variable {clock : Datetime} {p : Pool AccessStore AccessTask} {later mid earlier : List AccessEvent}

theorem recorded_of_reachable
    (h : Pool.Reachable (accesses settings jwt) (.started clock users) p) :
    Recorded settings jwt p.shared :=
  ((accesses_keeps settings jwt).of_reachable (.started clock users) h).1

/-- Whoever is let in as a user has an access token made within its time, and given out by a login
of the user, or for a refresh token given out before that had not run out, and so on back to a
login of the user. -/
theorem fromLogin_of_reachable
    (h : Pool.Reachable (accesses settings jwt) (.started clock users) p)
    (hin : .letIn userId token checked ∈ p.shared.log) :
    ∃ issue, FromLogin settings jwt p.shared.log userId issue ∧
      token = accessToken settings jwt userId issue.access ∧
      LetInWithin settings issue.access checked := by
  obtain ⟨later, earlier, hlog⟩ := List.append_of_mem hin
  obtain ⟨⟨issue, hfrom, htoken, hwithin⟩, -⟩ :=
    (recorded_of_reachable h).expected later _ earlier hlog
  refine ⟨issue, hfrom.mono fun event hevent => ?_, htoken, hwithin⟩
  rw [hlog]
  exact List.mem_append_right later (List.mem_cons_of_mem _ hevent)

/-- A user who has deleted the account is not let in, whatever tokens are left, before a login has
made the user active again. -/
theorem reactivated_of_reachable
    (h : Pool.Reachable (accesses settings jwt) (.started clock users) p)
    (hlog : p.shared.log =
      later ++ .letIn userId token checked :: (mid ++ .deleted userId :: earlier)) :
    .reactivated userId ∈ mid := by
  obtain ⟨-, hopen⟩ := (recorded_of_reachable h).expected later _ _ hlog
  by_contra hnone
  refine hopen ?_
  clear hopen hlog
  induction mid with
  | nil => exact .inl rfl
  | cons event mid ih =>
    rw [List.mem_cons, not_or] at hnone
    have hshut := ih hnone.2
    cases event with
    | deleted other => exact .inr hshut
    | reactivated other => exact ⟨fun heq => hnone.1 (heq ▸ rfl), hshut⟩
    | _ => exact hshut

end Run

/-! ## Logouts -/

/-- No refresh is of a user who has logged out, and none of these users has a token. -/
structure Settled (s : AccessStore) : Prop where
  resumes : Each Resumes s.log
  noToken : ∀ userId, LoggedOut userId s.log → NoToken s.users userId

/-- A refresh that is about to give out tokens has checked one. -/
def BringsToken : AccessTask → Prop
  | .reissuing _ _ token _ _ => token ≠ ""
  | .rotating _ _ token _ _ => token ≠ ""
  | _ => True

theorem noToken_set (hnone : ∀ token ∈ user.refreshToken, token = "") :
    NoToken (users.set userId user) userId := fun token htoken =>
  hnone token (by rwa [tokenOf_set] at htoken)

theorem noToken_set_ne (h : NoToken users other) (hother : other ≠ userId) (user : User) :
    NoToken (users.set userId user) other := fun token htoken =>
  h token (by rwa [tokenOf_set_ne users hother] at htoken)

/-- What a statement of a request keeps whose write is unraced. -/
theorem Settled.act (h : Settled s) (hown : BringsToken task) (hwrites : WritesUnraced s task s')
    (hact : AccessAct settings jwt s task s' task') : Settled s' ∧ BringsToken task' := by
  cases hact with
  | find huser =>
    refine ⟨h, ?_⟩
    split_ifs <;> trivial
  | @reactivate userId stored loaded hstored =>
    refine ⟨⟨each_cons.mpr ⟨trivial, h.resumes⟩, fun other hout => ?_⟩, trivial⟩
    have hnone := h.noToken other hout
    by_cases hother : other = userId
    · subst hother
      exact noToken_set fun token htoken => hnone token ((tokenOf_of_some hstored).trans htoken)
    · exact noToken_set_ne hnone hother _
  | reread huser => exact ⟨h, trivial⟩
  | issue => exact ⟨h, trivial⟩
  | store hstored =>
    exact ⟨⟨each_cons.mpr ⟨trivial, h.resumes⟩, fun other hout =>
      noToken_set_ne (h.noToken other hout.2) (Ne.symm hout.1) _⟩, trivial⟩
  | present hsigned => exact ⟨h, trivial⟩
  | check hcheck => exact ⟨h, (refreshUser_ok hcheck).1⟩
  | reissue => exact ⟨h, hown⟩
  | @rotate userId _ _ token _ _ hstored =>
    have hunraced : tokenOf s.users userId = some token :=
      hwrites fun hsame => List.cons_ne_self _ _ (congrArg AccessStore.log hsame)
    refine ⟨⟨each_cons.mpr ⟨fun hout => hown (h.noToken _ hout _ hunraced), h.resumes⟩,
      fun other hout => noToken_set_ne (h.noToken other hout.2) (Ne.symm hout.1) _⟩, trivial⟩
  | logOut huser => exact ⟨h, trivial⟩
  | @clear userId stored loaded hstored =>
    have hunraced : loaded.refreshToken ≠ some "" ∨ NoToken s.users userId :=
      hwrites fun hsame => List.cons_ne_self _ _ (congrArg AccessStore.log hsame)
    refine ⟨⟨each_cons.mpr ⟨trivial, h.resumes⟩, fun other hout => ?_⟩, trivial⟩
    by_cases hother : other = userId
    · subst hother
      exact noToken_set (flush_noToken hstored (by simp) hunraced)
    · exact noToken_set_ne (h.noToken other (hout.resolve_left (Ne.symm hother))) hother _
  | request hsigned => exact ⟨h, trivial⟩
  | enter henter => exact ⟨⟨each_cons.mpr ⟨trivial, h.resumes⟩, h.noToken⟩, trivial⟩
  | @delete userId stored loaded hstored =>
    refine ⟨⟨each_cons.mpr ⟨trivial, h.resumes⟩, fun other hout => ?_⟩, trivial⟩
    have hnone := h.noToken other hout
    by_cases hother : other = userId
    · subst hother
      exact noToken_set (flush_noToken hstored (by simp) (.inr hnone))
    · exact noToken_set_ne hnone hother _
  | fail => exact ⟨h, trivial⟩

theorem restricted_keeps (settings : AccessSettings) (jwt : Jwt) :
    ((accesses settings jwt).restricted WritesUnraced).Keeps (fun _ _ => True) Settled
      fun _ task => BringsToken task where
  env := by
    rintro s s' ⟨-, hlog, htokens, -⟩ h
    refine ⟨⟨hlog ▸ h.resumes, fun userId hout => ?_⟩, trivial⟩
    rw [NoToken, htokens]
    exact h.noToken userId (hlog ▸ hout)
  start := by
    intro s task hstart _
    cases task <;> trivial
  act hact h hown := by
    obtain ⟨hsettled, hbrings⟩ := h.act hown hact.1 hact.2
    exact ⟨hsettled, trivial, hbrings⟩
  stable _ hown := hown

/-- After a logout, and without a login, no tokens are given out. -/
theorem not_granted_of_loggedOut {time : Datetime} {mid earlier : List AccessEvent}
    (hresumes : Each Resumes (mid ++ .loggedOut userId time :: earlier))
    (hnone : ∀ issue, .loggedIn userId issue ∉ mid) :
    LoggedOut userId (mid ++ .loggedOut userId time :: earlier) ∧
      ∀ issue, ¬ Granted mid userId issue := by
  induction mid with
  | nil =>
    refine ⟨.inl rfl, ?_⟩
    rintro issue ⟨event, hin, -⟩
    cases hin
  | cons event mid ih =>
    obtain ⟨hhead, htail⟩ := each_cons.mp hresumes
    obtain ⟨hout, hgranted⟩ := ih htail fun issue hin => hnone issue (List.mem_cons_of_mem _ hin)
    cases event with
    | loggedIn other given =>
      have hother : other ≠ userId := fun heq => hnone given (heq ▸ List.mem_cons_self)
      exact ⟨⟨hother, hout⟩, fun issue h =>
        (granted_cons.mp h).elim (fun heq => hother heq.1) (hgranted issue)⟩
    | refreshed other token checked given =>
      have hother : other ≠ userId := fun heq => hhead (heq ▸ hout)
      exact ⟨⟨hother, hout⟩, fun issue h =>
        (granted_cons.mp h).elim (fun heq => hother heq.1) (hgranted issue)⟩
    | loggedOut other time =>
      exact ⟨.inr hout, fun issue h => (granted_cons.mp h).elim id (hgranted issue)⟩
    | _ => exact ⟨hout, fun issue h => (granted_cons.mp h).elim id (hgranted issue)⟩

theorem granted_append {later earlier : List AccessEvent} :
    Granted (later ++ earlier) userId issue ↔
      Granted later userId issue ∨ Granted earlier userId issue := by
  simp only [Granted, List.mem_append, or_and_right, exists_or]

/-- Where every write is unraced: after a logout, and without another login, nobody is let in as
the user once the access tokens given out before have run out. -/
theorem expired_of_reachable {clock time : Datetime} {p : Pool AccessStore AccessTask}
    {later mid earlier : List AccessEvent}
    (h : Pool.Reachable ((accesses settings jwt).restricted WritesUnraced) (.started clock users) p)
    (hlog : p.shared.log =
      later ++ .letIn userId token checked :: (mid ++ .loggedOut userId time :: earlier))
    (hnone : ∀ issue, .loggedIn userId issue ∉ mid) :
    checked.unixSeconds < time.unixSeconds + settings.ACCESS_TOKEN_EXPIRE_MINUTES * 60 := by
  have hexpected := (recorded_of_reachable h.of_restricted).expected
  have hsettled : Settled p.shared :=
    ((restricted_keeps settings jwt).of_reachable ⟨each_nil, fun _ => False.elim⟩ h).1
  obtain ⟨⟨issue, hfrom, -, -, hwithin⟩, -⟩ := hexpected later _ _ hlog
  -- The token was given out before the logout.
  have hafter : Each Resumes (mid ++ .loggedOut userId time :: earlier) := by
    intro later' event earlier' heq
    refine hsettled.resumes (later ++ .letIn userId token checked :: later') event earlier' ?_
    rw [hlog, heq, List.append_assoc]
    rfl
  have hmade : issue.By time := by
    rcases granted_append.mp hfrom.granted with hmid | hbefore
    · exact absurd hmid ((not_granted_of_loggedOut hafter hnone).2 issue)
    · refine hexpected (later ++ .letIn userId token checked :: mid) (.loggedOut userId time)
        earlier ?_ userId issue ((granted_cons.mp hbefore).resolve_left id)
      rw [hlog, List.append_assoc]
      rfl
  exact hwithin.trans_le (by have hmono := Datetime.unixSeconds_mono hmade.1; omega)

/-! ### A user -/

/-- Refresh tokens last for 30 days, access tokens for 30 minutes. -/
def usualTimes : AccessSettings := ⟨⟨30⟩, 30⟩

/-- A table with one user. -/
def account (isActive : Bool) (token : Option String) : UserTable :=
  UserTable.set (fun _ => none) 7 { signedOut with isActive, refreshToken := token }

/-- The requests, with every write unraced. -/
abbrev usualAccesses : Program AccessStore AccessTask :=
  (accesses usualTimes plainJwt).restricted WritesUnraced

/-- A request of a user who is active is let in with a token that is valid. -/
theorem getCurrentUser_of_verified
    (hverify : verifyToken jwt checked token "access" = some (UUID.str userId))
    (huser : users userId = some user) (hactive : user.isActive = true) :
    getCurrentUser jwt checked users token = .ok (userId, user) := by
  simp [getCurrentUser, hverify, UUID.parse_str, huser, hactive]

section Account

variable (isActive : Bool) (stored : Option String) (clock : Datetime) (log : List AccessEvent)

theorem account_self : account isActive stored 7 =
    some { signedOut with isActive, refreshToken := stored } := UserTable.set_self ..

theorem set_account (isActive' : Bool) (token : Option String) : (account isActive stored).set 7
    { signedOut with isActive := isActive', refreshToken := token } = account isActive' token :=
  Function.update_idem ..

/-- A login that has read the row of an active user gives out tokens. -/
theorem runs_issue : usualAccesses.Runs
    (⟨clock, account true stored, log⟩,
      .issuing 7 { signedOut with refreshToken := stored } clock)
    (⟨clock, account true (some (refreshToken usualTimes plainJwt 7 clock)),
      .loggedIn 7 ⟨clock, clock⟩ :: log⟩, .over) := by
  have hact : AccessAct usualTimes plainJwt ⟨clock, account true stored, log⟩
      (.storing 7 { signedOut with refreshToken := stored } ⟨clock, clock⟩) _ .over :=
    .store (account_self true stored)
  rw [updateRefreshToken, flush_self, set_account] at hact
  exact .step ⟨fun _ => trivial, .issue⟩ (.last ⟨fun _ => trivial, hact⟩)

/-- An active user logs in. -/
theorem runs_logIn : usualAccesses.Runs (⟨clock, account true stored, log⟩, .loggingIn 7)
    (⟨clock, account true (some (refreshToken usualTimes plainJwt 7 clock)),
      .loggedIn 7 ⟨clock, clock⟩ :: log⟩, .over) :=
  .step ⟨fun _ => trivial, .find (account_self true stored)⟩ (runs_issue stored clock log)

/-- A user who is not active logs in. -/
theorem runs_logInAgain : usualAccesses.Runs (⟨clock, account false stored, log⟩, .loggingIn 7)
    (⟨clock, account true (some (refreshToken usualTimes plainJwt 7 clock)),
      .loggedIn 7 ⟨clock, clock⟩ :: .reactivated 7 :: log⟩, .over) := by
  have hact : AccessAct usualTimes plainJwt ⟨clock, account false stored, log⟩
      (.reactivating 7 { signedOut with isActive := false, refreshToken := stored }) _
      (.returning 7) := .reactivate (account_self false stored)
  rw [reactivate, flush_self, set_account] at hact
  refine .step ⟨fun _ => trivial, .find (account_self false stored)⟩
    (.step ⟨fun _ => trivial, hact⟩ ?_)
  exact .step ⟨fun _ => trivial, .reread (account_self true stored)⟩ (runs_issue stored clock _)

variable {log} {given : Issue}

/-- A request is let in. -/
theorem runs_request (hgranted : Granted log 7 given)
    (hwithin : clock.unixSeconds < given.access.unixSeconds + 30 * 60) :
    usualAccesses.Runs
      (⟨clock, account true stored, log⟩,
        .requesting (accessToken usualTimes plainJwt 7 given.access))
      (⟨clock, account true stored,
          .letIn 7 (accessToken usualTimes plainJwt 7 given.access) clock :: log⟩,
        .admitted 7 { signedOut with refreshToken := stored }) := by
  have hverify : verifyToken plainJwt clock (accessToken usualTimes plainJwt 7 given.access)
      "access" = some (UUID.str 7) :=
    verifyToken_eq_some.mpr ⟨_, decode_accessToken 7 given.access,
      by simpa [usualTimes] using hwithin, rfl, rfl⟩
  exact .step ⟨fun _ => trivial, .request fun _ _ => ⟨7, given, hgranted, .inl rfl⟩⟩
    (.last ⟨fun _ => trivial,
      .enter (getCurrentUser_of_verified hverify (account_self true stored) rfl)⟩)

/-- The user deletes the account. -/
theorem act_delete : usualAccesses.act ⟨clock, account true stored, log⟩
    (.admitted 7 { signedOut with refreshToken := stored })
    ⟨clock, account false none, .deleted 7 :: log⟩ .over := by
  have hact : AccessAct usualTimes plainJwt ⟨clock, account true stored, log⟩
      (.admitted 7 { signedOut with refreshToken := stored }) _ .over :=
    .delete (account_self true stored)
  rw [deleteUser, flush_self, set_account] at hact
  exact ⟨fun _ => trivial, hact⟩

/-- The user logs out with the refresh token. -/
theorem runs_logOut {made : Datetime} (hstored : stored ≠ some "")
    (hwithin : clock.unixSeconds < made.unixSeconds + 30 * 86400) :
    usualAccesses.Runs
      (⟨clock, account true stored, log⟩,
        .loggingOut ⟨none, some (refreshToken usualTimes plainJwt 7 made)⟩)
      (⟨clock, account true (some ""), .loggedOut 7 clock :: log⟩, .over) := by
  have hvalid : clock.unixSeconds <
      (made.addDays usualTimes.toSessionSettings.REFRESH_TOKEN_EXPIRE_DAYS).unixSeconds := by
    rw [Datetime.unixSeconds_addDays]
    exact hwithin
  have hact : AccessAct usualTimes plainJwt ⟨clock, account true stored, log⟩
      (.clearing 7 { signedOut with refreshToken := stored }) _ .over :=
    .clear (account_self true stored)
  rw [updateRefreshToken, flush_self, set_account] at hact
  exact .step ⟨fun _ => trivial, .logOut (logoutUser_made (account_self true stored)
    (plainJwt_ne _) rfl hvalid)⟩ (.last ⟨fun _ => .inl hstored, hact⟩)

end Account

/-- Tokens made at an instant in a morning. -/
def morning : Issue := ⟨.utc 2026 1 10 9, .utc 2026 1 10 9⟩

/-- A login in the morning. -/
abbrev firstLogin : AccessEvent := .loggedIn 7 morning

/-- A request with the access token of that login. -/
abbrev firstRequest : AccessEvent :=
  .letIn 7 (accessToken usualTimes plainJwt 7 morning.access) morning.access

/-- The user has logged in and made a request. -/
theorem reachable_request : Pool.Reachable usualAccesses
    (.started morning.access (account true none))
    ⟨⟨morning.access, account true (some (refreshToken usualTimes plainJwt 7 morning.access)),
        [firstRequest, firstLogin]⟩,
      [.admitted 7 { signedOut with
          refreshToken := some (refreshToken usualTimes plainJwt 7 morning.access) }, .over]⟩ := by
  have hlogin := (runs_logIn none morning.access []).reachable trivial .refl
  have hgranted : Granted [firstLogin] 7 morning := ⟨_, List.mem_cons_self, rfl, rfl⟩
  exact (runs_request _ morning.access hgranted (by decide)).reachable trivial hlogin

/-- The user is let in with the token of the login. -/
theorem fromLogin_of_reachable_request : ∃ issue,
    FromLogin usualTimes plainJwt [firstRequest, firstLogin] 7 issue ∧
      accessToken usualTimes plainJwt 7 morning.access =
        accessToken usualTimes plainJwt 7 issue.access ∧
      LetInWithin usualTimes issue.access morning.access :=
  fromLogin_of_reachable reachable_request.of_restricted List.mem_cons_self

/-- The user deletes the account, logs in again, and is let in with the old token: the login has
made the user active again. -/
theorem reactivated_of_reachable_again : ∃ p mid,
    Pool.Reachable (accesses usualTimes plainJwt) (.started morning.access (account true none)) p ∧
      p.shared.log = firstRequest :: (mid ++ .deleted 7 :: [firstRequest, firstLogin]) ∧
      .reactivated 7 ∈ mid := by
  have hdeleted : Pool.Reachable usualAccesses (.started morning.access (account true none)) _ :=
    (Program.Runs.last (act_delete _ morning.access)).reachable_middle [] [.over] reachable_request
  have hlogin := (runs_logInAgain none morning.access _).reachable trivial hdeleted
  have hgranted : Granted [firstLogin, .reactivated 7, .deleted 7, firstRequest, firstLogin] 7
      morning := ⟨_, List.mem_cons_self, rfl, rfl⟩
  have hagain := (runs_request _ morning.access hgranted (by decide)).reachable trivial hlogin
  have hlog : [firstRequest, firstLogin, .reactivated 7, .deleted 7, firstRequest, firstLogin] =
      [] ++ firstRequest :: ([firstLogin, .reactivated 7] ++
        .deleted 7 :: [firstRequest, firstLogin]) := rfl
  exact ⟨_, _, hagain.of_restricted, hlog, reactivated_of_reachable hagain.of_restricted hlog⟩

/-- Twenty minutes later. -/
def midMorning : Datetime := ⟨morning.access.date, (9 * 60 + 20) * 60 * 1000000, by decide⟩

/-- A request with the access token of the morning. -/
abbrev lateRequest : AccessEvent :=
  .letIn 7 (accessToken usualTimes plainJwt 7 morning.access) midMorning

/-- The user logs out, and is let in with the old token twenty minutes later, within its time. -/
theorem expired_of_reachable_loggedOut : ∃ p,
    Pool.Reachable usualAccesses (.started morning.access (account true none)) p ∧
      p.shared.log = [lateRequest, .loggedOut 7 morning.access, firstLogin] ∧
      midMorning.unixSeconds <
        morning.access.unixSeconds + usualTimes.ACCESS_TOKEN_EXPIRE_MINUTES * 60 := by
  have hlogin := (runs_logIn none morning.access []).reachable trivial
    (.refl : Pool.Reachable usualAccesses (.started morning.access (account true none)) _)
  have hne : some (refreshToken usualTimes plainJwt 7 morning.access) ≠ some "" := fun heq =>
    plainJwt_ne _ (Option.some.inj heq)
  have hwithin : morning.access.unixSeconds < morning.access.unixSeconds + 30 * 86400 := by decide
  have hlogout := (runs_logOut _ morning.access hne hwithin).reachable trivial hlogin
  have hgranted : Granted [.loggedOut 7 morning.access, firstLogin] 7 morning :=
    ⟨_, List.mem_cons_of_mem _ List.mem_cons_self, rfl, rfl⟩
  have hclock : morning.access.ticks ≤ midMorning.ticks := by decide
  have helapses : Elapses ⟨morning.access, account true (some ""), _⟩
      ⟨midMorning, account true (some ""), [.loggedOut 7 morning.access, firstLogin]⟩ :=
    ⟨hclock, rfl, fun _ => rfl, fun _ user huser => ⟨user, huser, rfl⟩⟩
  have hpassed := hlogout.tail (.env _ helapses)
  have hlate := (runs_request _ midMorning hgranted (by decide)).reachable trivial hpassed
  have hlog : [lateRequest, .loggedOut 7 morning.access, firstLogin] =
      [] ++ lateRequest :: ([] ++ .loggedOut 7 morning.access :: [firstLogin]) := rfl
  exact ⟨_, hlate, hlog, expired_of_reachable hlate hlog (by simp)⟩

end Logit.Auth

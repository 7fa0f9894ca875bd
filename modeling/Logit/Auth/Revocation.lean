import Logit.Auth.Refresh

/-!
# Refresh tokens that have been replaced

A refresh token loses its power by another value in its user's row: `/auth/refresh` compares
the token it is brought with the stored one, and writes the row only if they are the same when
it looks. `/auth/logout` does not compare. So a token that has been replaced still ends the
session that replaced it, and apart from that only a refresh that others overtake writes over a
token that is not its own.

## Main definitions

* `bearing` — the requests, each with the token it was brought
* `Spares` — a step after which the stored tokens are the same, unless the token is stored
* `Harmless` — where a write spares

## Main results

* `stored_of_check` — a refresh writes only if its token was stored when it looked
* `spares_iff_harmless` — in every run, which steps spare
-/

namespace Logit.Auth

open Calendar Concurrency Python Security Users

variable {settings : SessionSettings} {jwt : Jwt} {s s' : TokenStore} {task task' : SignInTask}
  {token : String} {userId : UUID}

/-! ## Requests and their tokens -/

/-- The refresh token a request is brought. -/
def SignInTask.presented : SignInTask → Option String
  | .presenting credentials =>
    actualToken credentials.authorization credentials.refreshTokenCookie
  | .loggingOut credentials =>
    actualToken credentials.authorization credentials.refreshTokenCookie
  | _ => none

/-- The requests of `signIns`, each with the token it was brought. -/
def bearing (settings : SessionSettings) (jwt : Jwt) :
    Program TokenStore (Option String × SignInTask) where
  env := OtherWrites
  start := fun t => t.2.Starts ∧ t.1 = t.2.presented
  act := fun s t s' t' => SignInAct settings jwt s t.2 s' t'.2 ∧ t'.1 = t.1

/-- A token says that it is a user's. -/
def TokenFor (jwt : Jwt) (token : String) (userId : UUID) : Prop :=
  ∃ sub, subjectOf jwt token = some sub ∧ UUID.parse sub = some userId

/-- Unless the token is the one stored for its user, all stored tokens are as before. -/
def Spares (jwt : Jwt) (token : String) (s s' : TokenStore) : Prop :=
  ∀ userId, TokenFor jwt token userId → tokenOf s.users userId ≠ some token →
    ∀ other, tokenOf s'.users other = tokenOf s.users other

/-- A refresh about to write finds its token still stored, or would write what is there; a
logout finds its token stored, or finds or has loaded that there is none. -/
def Harmless (settings : SessionSettings) (jwt : Jwt) (token : String) (s : TokenStore) :
    SignInTask → Prop
  | .rotating userId _ _ now => tokenOf s.users userId = some token ∨
      createRefreshToken settings jwt now (UUID.str userId) = token ∨
      tokenOf s.users userId = some (createRefreshToken settings jwt now (UUID.str userId))
  | .clearing userId loaded => tokenOf s.users userId = some token ∨
      loaded.refreshToken = some "" ∨ tokenOf s.users userId = some ""
  | _ => True

/-! ## What a request has looked at -/

theorem TokenFor.unique {other : UUID} (h : TokenFor jwt token userId)
    (hother : TokenFor jwt token other) : userId = other := by
  obtain ⟨sub, hsub, hparse⟩ := h
  obtain ⟨sub', hsub', hparse'⟩ := hother
  obtain rfl := Option.some.inj (hsub.symm.trans hsub')
  exact Option.some.inj (hparse.symm.trans hparse')

theorem subjectOf_of_verifyToken {now : Datetime} {type sub : String}
    (h : verifyToken jwt now token type = some sub) : subjectOf jwt token = some sub := by
  unfold verifyToken at h
  split at h
  · cases h
  · next payload hpayload =>
    rw [subjectOf, hpayload, Option.bind_some]
    cases hsub : payload.sub with
    | none =>
      rw [hsub] at h
      split_ifs at h
    | some subject =>
      rw [hsub] at h
      simp only at h
      split_ifs at h
      exact h

theorem tokenFor_of_refreshUser {now : Datetime} {users : UserTable} {credentials : Credentials}
    {user : User} (h : refreshUser jwt now users credentials = .ok (token, userId, user)) :
    actualToken credentials.authorization credentials.refreshTokenCookie = some token ∧
      TokenFor jwt token userId := by
  unfold refreshUser at h
  split at h
  · cases h
  · next presented hpresented =>
    split at h
    · cases h
    · next sub hsub =>
      split at h
      · cases h
      · next parsed hparsed =>
        split at h
        · cases h
        · split_ifs at h
          obtain ⟨rfl, rfl, -⟩ : presented = token ∧ parsed = userId ∧ _ = user := by simpa using h
          exact ⟨hpresented, sub, subjectOf_of_verifyToken hsub, hparsed⟩

theorem tokenFor_of_logoutUser {now : Datetime} {users : UserTable} {credentials : Credentials}
    {user : User} (h : logoutUser jwt now users credentials = some (userId, user)) :
    ∃ token, actualToken credentials.authorization credentials.refreshTokenCookie = some token ∧
      TokenFor jwt token userId := by
  simp only [logoutUser, Option.bind_eq_bind, Option.bind_eq_some_iff, Option.pure_def,
    Option.some.injEq, Prod.mk.injEq] at h
  obtain ⟨token, htoken, sub, hsub, parsed, hparsed, _, -, rfl, -⟩ := h
  exact ⟨token, htoken, sub, subjectOf_of_verifyToken hsub, hparsed⟩

/-- A refresh gets to its write only if the token it was brought was stored when it looked. -/
theorem stored_of_check {credentials : Credentials} {loaded : User} {checked : String}
    {now : Datetime}
    (h : SignInAct settings jwt s (.presenting credentials) s'
      (.rotating userId loaded checked now)) :
    (SignInTask.presenting credentials).presented = some checked ∧
      tokenOf s.users userId = some checked ∧ s' = s := by
  cases h with
  | check hcheck =>
    obtain ⟨-, huser, htoken, -⟩ := refreshUser_ok hcheck
    exact ⟨(tokenFor_of_refreshUser hcheck).1, (tokenOf_of_some huser).trans htoken, rfl⟩

/-- What a request carries with the token it was brought. -/
def Carries (jwt : Jwt) (presented : Option String) : SignInTask → Prop
  | .rotating userId loaded token _ =>
    presented = some token ∧ TokenFor jwt token userId ∧ loaded.refreshToken = some token
  | .clearing userId _ => ∃ token, presented = some token ∧ TokenFor jwt token userId
  | .presenting credentials => presented = (SignInTask.presenting credentials).presented
  | .loggingOut credentials => presented = (SignInTask.loggingOut credentials).presented
  | .signingIn _ => presented = none
  | .storing _ _ _ => presented = none
  | .authenticating _ => presented = none
  | .deleting _ _ => presented = none
  | .over => True

theorem Carries.act {presented : Option String} (h : Carries jwt presented task)
    (hact : SignInAct settings jwt s task s' task') : Carries jwt presented task' := by
  cases hact with
  | read now huser => exact h
  | check hcheck =>
    obtain ⟨hpresented, hfor⟩ := tokenFor_of_refreshUser hcheck
    obtain ⟨-, -, htoken, -⟩ := refreshUser_ok hcheck
    exact ⟨h.trans hpresented, hfor, htoken⟩
  | logOut huser =>
    obtain ⟨token, hpresented, hfor⟩ := tokenFor_of_logoutUser huser
    exact ⟨token, h.trans hpresented, hfor⟩
  | authenticate huser hactive => exact h
  | _ => trivial

theorem carries_of_reachable {users : UserTable} {p : Pool TokenStore (Option String × SignInTask)}
    (h : Pool.Reachable (bearing settings jwt) (.start users) p) :
    ∀ t ∈ p.tasks, Carries jwt t.1 t.2 := by
  induction h with
  | refl => exact fun _ ht => absurd ht List.not_mem_nil
  | tail _ hstep ih =>
    cases hstep with
    | env ts henv => exact ih
    | @start t s ts hstart =>
      refine List.forall_mem_cons.mpr ⟨?_, ih⟩
      obtain ⟨presented, task⟩ := t
      obtain ⟨hstarts, hpresented⟩ := hstart
      cases task with
      | rotating userId loaded token now => exact hstarts.elim
      | clearing userId loaded => exact hstarts.elim
      | _ => first | exact hpresented | trivial
    | @act _ _ t t' before after hact =>
      have hthis := ih t (List.mem_append_right before List.mem_cons_self)
      refine forall_mem_middle (q := fun t => Carries jwt t.1 t.2) ih (fun _ _ hu => hu) fun _ => ?_
      rw [hact.2]
      exact hthis.act hact.1

/-! ## What a write changes -/

/-- A write of one column leaves all stored tokens when it leaves this user's. -/
theorem forall_tokenOf_set {users : UserTable} {user : User} :
    (∀ other, tokenOf (users.set userId user) other = tokenOf users other) ↔
      user.refreshToken = tokenOf users userId := by
  constructor
  · intro h
    exact (tokenOf_set users userId user).symm.trans (h userId)
  · intro h other
    by_cases hother : other = userId
    · rw [hother, tokenOf_set, h]
    · exact tokenOf_set_ne users hother user

theorem flush_eq_iff {α : Type} [DecidableEq α] (stored loaded assigned : α) :
    flush stored loaded assigned = stored ↔ assigned = loaded ∨ stored = assigned := by
  unfold flush
  split_ifs with h
  · simp [h]
  · simp [h, eq_comm]

/-- A step that spares is one after which all tokens are the same or which has found its token. -/
theorem spares_iff_of_tokenFor (hfor : TokenFor jwt token userId) :
    Spares jwt token s s' ↔ tokenOf s.users userId = some token ∨
      ∀ other, tokenOf s'.users other = tokenOf s.users other := by
  constructor
  · intro hspares
    exact (em _).imp_right (hspares userId hfor)
  · rintro (hstored | hall) other hother hne
    · exact absurd (hfor.unique hother ▸ hstored) hne
    · exact hall

theorem spares_iff_of_ne (hcarries : Carries jwt (some token) task)
    (hact : SignInAct settings jwt s task s' task') (hne : s'.users ≠ s.users) :
    Spares jwt token s s' ↔ Harmless settings jwt token s task := by
  cases hact with
  | store hstored => cases hcarries
  | rotate hstored =>
    obtain ⟨hsame, hfor, hloaded⟩ := hcarries
    obtain rfl := Option.some.inj hsame
    rw [spares_iff_of_tokenFor hfor, forall_tokenOf_set, tokenOf_of_some hstored,
      updateRefreshToken, flush_eq_iff, hloaded, Option.some.injEq]
    simp only [Harmless, tokenOf_of_some hstored]
  | clear hstored =>
    obtain ⟨_, hsame, hfor⟩ := hcarries
    obtain rfl := Option.some.inj hsame
    rw [spares_iff_of_tokenFor hfor, forall_tokenOf_set, tokenOf_of_some hstored,
      updateRefreshToken, flush_eq_iff]
    simp only [Harmless, tokenOf_of_some hstored, eq_comm (a := some "")]
  | delete hstored => cases hcarries
  | _ => exact absurd rfl hne

/-- In every run, whatever requests come between, a step of a request that was brought a token
other than the one stored leaves all stored tokens just when it changes no row or is harmless. -/
theorem spares_iff_harmless {users : UserTable} {p : Pool TokenStore (Option String × SignInTask)}
    (h : Pool.Reachable (bearing settings jwt) (.start users) p)
    (htask : (some token, task) ∈ p.tasks) (hact : SignInAct settings jwt p.shared task s' task') :
    Spares jwt token p.shared s' ↔
      s'.users = p.shared.users ∨ Harmless settings jwt token p.shared task := by
  have hcarries : Carries jwt (some token) task := carries_of_reachable h _ htask
  by_cases hsame : s'.users = p.shared.users
  · exact ⟨fun _ => .inl hsame, fun _ _ _ _ _ => by rw [hsame]⟩
  · rw [or_iff_right hsame]
    exact spares_iff_of_ne hcarries hact hsame

/-! ## A logout with an old token -/

/-- What `signIns` does, it does whatever token was brought. -/
theorem bearing_runs {guard : TokenStore → SignInTask → TokenStore → Prop}
    (presented : Option String)
    (h : ((signIns settings jwt).restricted guard).Runs (s, task) (s', task')) :
    (bearing settings jwt).Runs (s, (presented, task)) (s', (presented, task')) :=
  h.lift (fun a : TokenStore × SignInTask => (a.1, (presented, a.2))) fun _ _ hact => ⟨hact.2, rfl⟩

/-- A logout that brings a token that has not expired finds the user. -/
theorem logoutUser_made {users : UserTable} {user : User} {made now : Datetime}
    (huser : users userId = some user) (hne : token ≠ "")
    (hmade : token = createRefreshToken settings jwt made (UUID.str userId))
    (hexp : now.unixSeconds < (made.addDays settings.REFRESH_TOKEN_EXPIRE_DAYS).unixSeconds) :
    logoutUser jwt now users ⟨none, some token⟩ = some (userId, user) := by
  have hverify : verifyToken jwt now token "refresh" = some (UUID.str userId) :=
    hmade ▸ verifyToken_createRefreshToken hexp
  have hpresented : actualToken none (some token) = some token :=
    Option.filter_eq_some_iff.mpr ⟨rfl, by simp [hne]⟩
  simp [logoutUser, hpresented, hverify, UUID.parse_str, huser]

/-- A request to log out has looked at the row. -/
theorem reachable_clearing {users : UserTable} {history : List TokenEvent}
    {tasks : List (Option String × SignInTask)} (stored : Option String) (made now : Datetime)
    (hexp : now.unixSeconds < made.unixSeconds + 30 * 86400)
    (hrun : Pool.Reachable (bearing ⟨30⟩ plainJwt) (.start users)
      ⟨⟨holding stored, history⟩, tasks⟩) :
    Pool.Reachable (bearing ⟨30⟩ plainJwt) (.start users) ⟨⟨holding stored, history⟩,
      (some (tokenMade made), .clearing 7 { signedOut with refreshToken := stored }) :: tasks⟩ := by
  have hpresented : actualToken none (some (tokenMade made)) = some (tokenMade made) :=
    Option.filter_eq_some_iff.mpr ⟨rfl, by simp [tokenMade_ne_empty]⟩
  have hvalid : now.unixSeconds < (made.addDays 30).unixSeconds := by
    rw [Datetime.unixSeconds_addDays]
    exact hexp
  have hact : SignInAct ⟨30⟩ plainJwt ⟨holding stored, history⟩
      (.loggingOut ⟨none, some (tokenMade made)⟩) ⟨holding stored, history⟩
      (.clearing 7 { signedOut with refreshToken := stored }) :=
    .logOut (logoutUser_made (holding_self stored) (tokenMade_ne_empty made) rfl hvalid)
  have hlook : (bearing ⟨30⟩ plainJwt).Runs
      (⟨holding stored, history⟩,
        (some (tokenMade made), .loggingOut ⟨none, some (tokenMade made)⟩))
      (⟨holding stored, history⟩,
        (some (tokenMade made), .clearing 7 { signedOut with refreshToken := stored })) :=
    Program.Runs.last ⟨hact, rfl⟩
  exact hlook.reachable ⟨trivial, hpresented.symm⟩ hrun

/-- A token brought after a logout changes nothing. -/
theorem spares_iff_harmless_loggedOut : ∃ s', SignInAct ⟨30⟩ plainJwt (.start (holding (some "")))
    (.clearing 7 { signedOut with refreshToken := some "" }) s' .over ∧
      Spares plainJwt (tokenMade (.utc 2026 1 10 9)) (.start (holding (some ""))) s' := by
  have hstart : Pool.Reachable (bearing ⟨30⟩ plainJwt) (.start (holding (some "")))
      ⟨.start (holding (some "")), []⟩ := .refl
  have hreach := reachable_clearing (some "") (.utc 2026 1 10 9) (.utc 2026 1 10 11) (by decide)
    hstart
  have hact : SignInAct ⟨30⟩ plainJwt (.start (holding (some "")))
      (.clearing 7 { signedOut with refreshToken := some "" }) _ .over :=
    .clear (holding_self (some ""))
  exact ⟨_, hact, (spares_iff_harmless hreach List.mem_cons_self hact).mpr (.inr (.inr (.inl rfl)))⟩

/-- Two logins, and a logout with the token of the first: it ends the session of the second. -/
theorem not_spares : ∃ p s', Pool.Reachable (bearing ⟨30⟩ plainJwt) (.start (holding none)) p ∧
    (some (tokenMade (.utc 2026 1 10 9)), SignInTask.clearing 7
      { signedOut with refreshToken := some (tokenMade (.utc 2026 1 10 10)) }) ∈ p.tasks ∧
    SignInAct ⟨30⟩ plainJwt p.shared (.clearing 7
      { signedOut with refreshToken := some (tokenMade (.utc 2026 1 10 10)) }) s' .over ∧
    ¬ Spares plainJwt (tokenMade (.utc 2026 1 10 9)) p.shared s' := by
  have hfirst := (bearing_runs none (runs_login_holding (fun _ _ _ => True) [] none
    (.utc 2026 1 10 9) trivial fun _ => trivial)).reachable ⟨trivial, rfl⟩ .refl
  have hsecond := (bearing_runs none (runs_login_holding (fun _ _ _ => True) [] _
    (.utc 2026 1 10 10) trivial fun _ => trivial)).reachable ⟨trivial, rfl⟩ hfirst
  have hreach := reachable_clearing _ (.utc 2026 1 10 9) (.utc 2026 1 10 11) (by decide) hsecond
  have hact : SignInAct ⟨30⟩ plainJwt ⟨holding (some (tokenMade (.utc 2026 1 10 10))), []⟩
      (.clearing 7 { signedOut with refreshToken := some (tokenMade (.utc 2026 1 10 10)) })
      _ .over :=
    .clear (holding_self _)
  refine ⟨_, _, hreach, List.mem_cons_self, hact, fun hspares => ?_⟩
  have hne : tokenMade (.utc 2026 1 10 10) ≠ tokenMade (.utc 2026 1 10 9) :=
    createRefreshToken_ne (by decide)
  have hfor : TokenFor plainJwt (tokenMade (.utc 2026 1 10 9)) 7 :=
    ⟨_, subjectOf_createRefreshToken .., UUID.parse_str 7⟩
  have hkept := hspares 7 hfor (by
    rw [tokenOf_holding]
    exact fun heq => hne (Option.some.inj heq)) 7
  rw [updateRefreshToken, flush_self, tokenOf_set, tokenOf_holding] at hkept
  exact tokenMade_ne_empty _ (Option.some.inj hkept).symm

end Logit.Auth

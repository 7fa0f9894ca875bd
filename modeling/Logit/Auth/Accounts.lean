import Logit.Concurrency.Pool
import Logit.Tokens.SignupBonus
import Logit.Users.Model

/-!
# Accounts

A login with Google or Apple is given the user that holds the e-mail the provider
attests, or a new one. The e-mail of a user may be changed by a profile update, and the
provider's own id is looked at only where two logins create a user at once.

Any number of requests run at once, one database statement of one of them at a time,
and each may fail at any point.

## Main definitions

* `OAuthUserCreate` — what a provider attests of a login
* `Directory` — the users, their tokens, and what has happened to accounts
* `Task`, `Act`, `accounts` — the requests, and their steps
* `Effect` — what a step means for e-mails and identities
* `Sound` — what every run keeps of them

## Main results

* `Act.effect` — every step has one of the effects
* `Sound.effect` — every effect keeps the accounts sound
-/

namespace Logit.Auth

open Calendar Concurrency Python Tokens Users

/-- What a provider attests of a login, as a user is created from it. -/
structure OAuthUserCreate where
  email : String
  fullName : Option String
  oauthProvider : OAuthProvider
  oauthProviderId : String
  profileImageUrl : Option String
  deriving DecidableEq, Repr

/-- The identity a provider attests. -/
def OAuthUserCreate.identity (login : OAuthUserCreate) : OAuthProvider × String :=
  (login.oauthProvider, login.oauthProviderId)

/-- `User.oauth_provider == provider, User.oauth_provider_id == provider_id`. -/
def HasIdentity (user : User) (identity : OAuthProvider × String) : Prop :=
  user.oauthProvider = some identity.1 ∧ user.oauthProviderId = some identity.2

/-- What has happened to accounts. -/
inductive Event
  /-- A login has created a user. -/
  | created (login : OAuthUserCreate) (userId : UUID)
  /-- A login has been given a user there was. -/
  | returned (login : OAuthUserCreate) (userId : UUID)
  /-- A profile update has given a user another e-mail. -/
  | moved (userId : UUID) (email : String)
  deriving DecidableEq, Repr

/-- The login of an event, and the user it was given. -/
def Event.login? : Event → Option (OAuthUserCreate × UUID)
  | .created login userId => some (login, userId)
  | .returned login userId => some (login, userId)
  | .moved _ _ => none

/-- The logins of a history, and the users they were given. -/
def loginsOf (history : List Event) : List (OAuthUserCreate × UUID) :=
  history.filterMap Event.login?

/-- The users, their tokens, and what has happened to accounts, latest first. -/
structure Directory where
  users : UserTable
  tokens : UUID → Option UserToken
  transactions : List TokenTransaction
  history : List Event

/-- Nobody has logged in yet. -/
def Directory.empty : Directory := ⟨fun _ => none, fun _ => none, [], []⟩

/-- A user holds an e-mail. -/
def Directory.Holds (d : Directory) (email : String) (userId : UUID) : Prop :=
  ∃ user, d.users userId = some user ∧ user.email = email

/-- `create_oauth_user`: the row a login creates, active and with the terms agreed to. -/
def createOauthUser (now : Datetime) (login : OAuthUserCreate) : User where
  email := login.email
  fullName := login.fullName
  isActive := true
  oauthProvider := some login.oauthProvider
  oauthProviderId := some login.oauthProviderId
  profileImageUrl := login.profileImageUrl
  termsAgreed := true
  termsAgreedAt := some now
  phone := none
  referralCode := none
  referredByUserId := none
  refreshToken := none

/-- A login reactivates the user it has found. -/
def reactivate (stored loaded : User) : User :=
  { stored with isActive := flush stored.isActive loaded.isActive true }

/-- A call of the token service, and its commit. -/
def Directory.call (d : Directory) (call : TokenCall) : Directory :=
  { d with
    tokens := Function.update d.tokens call.userId (some (call.run (d.tokens call.userId)).1)
    transactions := d.transactions ++ (call.run (d.tokens call.userId)).2 }

/-- What a signed-in user asks for. -/
inductive ProfileRequest
  | update (userIn : UserUpdate)
  | delete
  deriving DecidableEq, Repr

/-- Where a request stands between two of its statements. -/
inductive Task
  /-- A login is about to look up its e-mail. -/
  | finding (login : OAuthUserCreate)
  /-- It has found nobody and is about to create a user. -/
  | creating (login : OAuthUserCreate)
  /-- Another request has taken the e-mail since. -/
  | resolving (login : OAuthUserCreate)
  /-- It has found an inactive user. -/
  | reactivating (userId : UUID) (loaded : User)
  /-- It is about to read its user again. -/
  | refreshing (userId : UUID) (isNewUser : Bool)
  /-- It is about to store a refresh token. -/
  | generating (userId : UUID) (loaded : User) (isNewUser : Bool)
  /-- A request of a signed-in user is about to read the user. -/
  | authenticating (userId : UUID) (request : ProfileRequest)
  /-- It has found an active user. -/
  | writing (userId : UUID) (loaded : User) (request : ProfileRequest)
  /-- The token service is about to be called. -/
  | calling (call : TokenCall)
  | over

/-- One statement of a request, with the commit that follows a write. -/
inductive Act : Directory → Task → Directory → Task → Prop
  | found {d : Directory} {login : OAuthUserCreate} {userId : UUID} {user : User}
      (huser : d.users userId = some user) (hemail : user.email = login.email) :
      Act d (.finding login) { d with history := .returned login userId :: d.history }
        (if user.isActive then .generating userId user false else .reactivating userId user)
  | notFound {d : Directory} {login : OAuthUserCreate}
      (hnobody : ∀ userId, ¬ d.Holds login.email userId) :
      Act d (.finding login) d (.creating login)
  | reactivate {d : Directory} {userId : UUID} {stored loaded : User}
      (hstored : d.users userId = some stored) :
      Act d (.reactivating userId loaded)
        { d with users := d.users.set userId (reactivate stored loaded) }
        (.refreshing userId false)
  /-- The new id is unused, and so is the e-mail. -/
  | create {d : Directory} {login : OAuthUserCreate} {userId : UUID} (now : Datetime)
      (hnew : d.users userId = none) (hunique : ∀ other, ¬ d.Holds login.email other)
      (hfits : (createOauthUser now login).Fits) :
      Act d (.creating login)
        { d with
          users := d.users.set userId (createOauthUser now login)
          history := .created login userId :: d.history }
        (.refreshing userId true)
  | conflict {d : Directory} {login : OAuthUserCreate} {other : UUID}
      (htaken : d.Holds login.email other) : Act d (.creating login) d (.resolving login)
  /-- Any user of the identity may be the first found; if there is none, the login fails. -/
  | resolve {d : Directory} {login : OAuthUserCreate} {userId : UUID} {existing : User}
      (hexisting : d.users userId = some existing)
      (hidentity : HasIdentity existing login.identity) :
      Act d (.resolving login) { d with history := .returned login userId :: d.history }
        (.generating userId existing false)
  | refresh {d : Directory} {userId : UUID} {user : User} {isNewUser : Bool}
      (huser : d.users userId = some user) :
      Act d (.refreshing userId isNewUser) d (.generating userId user isNewUser)
  /-- The bonus of a new user is committed with the refresh token. -/
  | generate {d : Directory} {userId : UUID} {stored loaded : User} {isNewUser : Bool}
      (refreshToken : String) (clock : Clock) (hstored : d.users userId = some stored) :
      Act d (.generating userId loaded isNewUser)
        { (if isNewUser then d.call ⟨userId, clock, .grantSignupBonus⟩ else d) with
          users := d.users.set userId (updateRefreshToken stored loaded refreshToken) }
        .over
  | authenticate {d : Directory} {userId : UUID} {user : User} {request : ProfileRequest}
      (huser : d.users userId = some user) (hactive : user.isActive = true) :
      Act d (.authenticating userId request) d (.writing userId user request)
  | update {d : Directory} {userId : UUID} {stored loaded updated : User} {userIn : UserUpdate}
      (hstored : d.users userId = some stored)
      (hupdated : updateUser stored loaded userIn = some updated)
      (hunique : ∀ other, other ≠ userId → ¬ d.Holds updated.email other)
      (hfits : updated.Fits) :
      Act d (.writing userId loaded (.update userIn))
        { d with
          users := d.users.set userId updated
          history :=
            if updated.email = stored.email then d.history
            else .moved userId updated.email :: d.history }
        .over
  | delete {d : Directory} {userId : UUID} {stored loaded : User}
      (hstored : d.users userId = some stored) :
      Act d (.writing userId loaded .delete)
        { d with users := d.users.set userId (deleteUser stored loaded) } .over
  | call {d : Directory} {call : TokenCall} : Act d (.calling call) (d.call call) .over
  /-- Any statement may fail, or be refused. -/
  | fail {d : Directory} {task : Task} : Act d task d .over

/-- The signup bonus is recorded by `grant_signup_bonus` alone. -/
def Plain (call : TokenCall) : Prop :=
  .signupBonus ∈ call.function.types → call.function = .grantSignupBonus

/-- The requests that may start. -/
def Starts : Task → Prop
  | .finding _ => True
  | .authenticating _ _ => True
  | .calling call => Plain call
  | _ => False

/-- The requests of the service. -/
def accounts : Program Directory Task := ⟨fun _ _ => False, Starts, Act⟩

/-! ## What a step does to accounts -/

variable {d d' : Directory} {task task' : Task}

/-- The e-mail of a user, and what the provider has attested of the user. -/
def cardOf (user : User) : String × Option OAuthProvider × Option String :=
  (user.email, user.oauthProvider, user.oauthProviderId)

/-- The e-mail and the identity of a user, by the user's id. -/
def card (users : UserTable) (userId : UUID) :
    Option (String × Option OAuthProvider × Option String) := (users userId).map cardOf

theorem holds_iff {email : String} {userId : UUID} :
    d.Holds email userId ↔ ∃ identity, card d.users userId = some (email, identity) := by
  constructor
  · rintro ⟨user, huser, rfl⟩
    exact ⟨_, by rw [card, huser]; rfl⟩
  · rintro ⟨identity, hcard⟩
    obtain ⟨user, huser, hcardOf⟩ := Option.map_eq_some_iff.mp hcard
    exact ⟨user, huser, congrArg Prod.fst hcardOf⟩

theorem holds_congr (h : ∀ userId, card d'.users userId = card d.users userId) {email : String}
    {userId : UUID} : d'.Holds email userId ↔ d.Holds email userId := by
  rw [holds_iff, holds_iff, h]

/-- What a step means for the e-mails and identities of users. -/
inductive Effect (d : Directory) (task : Task) (d' : Directory) : Prop
  | silent (hcards : ∀ userId, card d'.users userId = card d.users userId)
      (hhistory : d'.history = d.history)
  | found {login : OAuthUserCreate} {userId : UUID} (htask : task = .finding login)
      (hholds : d.Holds login.email userId)
      (hcards : ∀ userId, card d'.users userId = card d.users userId)
      (hhistory : d'.history = .returned login userId :: d.history)
  | resolved {login : OAuthUserCreate} {userId : UUID} {user : User}
      (htask : task = .resolving login) (huser : d.users userId = some user)
      (hidentity : HasIdentity user login.identity)
      (hcards : ∀ userId, card d'.users userId = card d.users userId)
      (hhistory : d'.history = .returned login userId :: d.history)
  | created {login : OAuthUserCreate} {userId : UUID} (htask : task = .creating login)
      (hunique : ∀ other, ¬ d.Holds login.email other)
      (hcard : card d'.users userId =
        some (login.email, some login.oauthProvider, some login.oauthProviderId))
      (hothers : ∀ other, other ≠ userId → card d'.users other = card d.users other)
      (hhistory : d'.history = .created login userId :: d.history)
  | moved {userId : UUID} {email old : String} {identity : Option OAuthProvider × Option String}
      (hold : card d.users userId = some (old, identity))
      (hcard : card d'.users userId = some (email, identity))
      (hunique : ∀ other, other ≠ userId → ¬ d.Holds email other)
      (hothers : ∀ other, other ≠ userId → card d'.users other = card d.users other)
      (hhistory : d'.history = .moved userId email :: d.history)

theorem card_eq {users : UserTable} {userId : UUID} {user : User}
    (huser : users userId = some user) : card users userId = some (cardOf user) := by
  rw [card, huser]
  rfl

theorem card_set_ne {users : UserTable} {userId other : UUID} (h : other ≠ userId) (user : User) :
    card (users.set userId user) other = card users other := by
  rw [card, card, UserTable.set_ne users h]

/-- A write that leaves a user's e-mail and identity. -/
theorem card_set_same {users : UserTable} {stored user : User} {userId : UUID}
    (hstored : users userId = some stored) (hcard : cardOf user = cardOf stored) (other : UUID) :
    card (users.set userId user) other = card users other := by
  by_cases hother : other = userId
  · rw [hother, card_eq (users.set_self userId user), card_eq hstored, hcard]
  · exact card_set_ne hother user

theorem cardOf_reactivate (stored loaded : User) :
    cardOf (reactivate stored loaded) = cardOf stored := rfl

theorem cardOf_updateRefreshToken (stored loaded : User) (refreshToken : String) :
    cardOf (updateRefreshToken stored loaded refreshToken) = cardOf stored := rfl

theorem cardOf_deleteUser (stored loaded : User) :
    cardOf (deleteUser stored loaded) = cardOf stored := rfl

theorem cardOf_updateUser {stored loaded updated : User} {userIn : UserUpdate}
    (h : updateUser stored loaded userIn = some updated) :
    cardOf updated = (updated.email, (cardOf stored).2) := by
  unfold updateUser at h
  split at h
  · cases h
  · obtain rfl := Option.some.inj h
    rfl

theorem Act.effect (h : Act d task d' task') : Effect d task d' := by
  cases h with
  | found huser hemail => exact .found rfl ⟨_, huser, hemail⟩ (fun _ => rfl) rfl
  | notFound => exact .silent (fun _ => rfl) rfl
  | reactivate hstored =>
    exact .silent (card_set_same hstored (cardOf_reactivate ..)) rfl
  | create now hnew hunique =>
    exact .created rfl hunique (card_eq (UserTable.set_self ..))
      (fun _ hother => card_set_ne hother _) rfl
  | conflict => exact .silent (fun _ => rfl) rfl
  | resolve hexisting hidentity => exact .resolved rfl hexisting hidentity (fun _ => rfl) rfl
  | refresh => exact .silent (fun _ => rfl) rfl
  | generate refreshToken clock hstored =>
    rename_i isNewUser
    refine .silent (card_set_same hstored (cardOf_updateRefreshToken ..)) ?_
    cases isNewUser <;> rfl
  | authenticate => exact .silent (fun _ => rfl) rfl
  | update hstored hupdated hunique hfits =>
    rename_i userId stored loaded updated userIn
    have hcard := cardOf_updateUser hupdated
    by_cases hemail : updated.email = stored.email
    · -- The e-mail stays.
      have hsame : cardOf updated = cardOf stored := by
        rw [hcard, hemail]
        rfl
      exact .silent (card_set_same hstored hsame) (if_pos hemail)
    · refine .moved (card_eq hstored) ?_ hunique (fun _ hother => card_set_ne hother _)
        (if_neg hemail)
      rw [card_eq (UserTable.set_self ..), hcard]
      rfl
  | delete hstored => exact .silent (card_set_same hstored (cardOf_deleteUser ..)) rfl
  | call => exact .silent (fun _ => rfl) rfl
  | fail => exact .silent (fun _ => rfl) rfl

/-! ## What every step keeps -/

/-- No two users hold an e-mail; and of every user there is the login that has created it, whose
identity it has, and whose e-mail it has if no update has given it the one it has. -/
structure Sound (d : Directory) : Prop where
  unique : ∀ email userId other, d.Holds email userId → d.Holds email other → userId = other
  origin : ∀ userId email identity, card d.users userId = some (email, identity) →
    ∃ login, .created login userId ∈ d.history ∧
      identity = (some login.oauthProvider, some login.oauthProviderId) ∧
      (email = login.email ∨ .moved userId email ∈ d.history)

theorem Sound.empty : Sound .empty where
  unique := by
    rintro email userId other ⟨user, huser, -⟩
    cases huser
  origin := by
    intro userId email identity hcard
    cases hcard

namespace Sound

theorem of_cards (h : Sound d) (hcards : ∀ userId, card d'.users userId = card d.users userId)
    (hhistory : ∀ event ∈ d.history, event ∈ d'.history) : Sound d' where
  unique email userId other hholds hother := by
    rw [holds_congr hcards] at hholds hother
    exact h.unique email userId other hholds hother
  origin userId email identity hcard := by
    rw [hcards] at hcard
    obtain ⟨login, hcreated, hidentity, hemail⟩ := h.origin userId email identity hcard
    exact ⟨login, hhistory _ hcreated, hidentity, hemail.imp_right (hhistory _)⟩

/-- One user's card is written, with an e-mail nobody else holds. -/
theorem of_card (h : Sound d) {userId : UUID} {email : String}
    {identity : Option OAuthProvider × Option String}
    (hcard : card d'.users userId = some (email, identity))
    (hunique : ∀ other, other ≠ userId → ¬ d.Holds email other)
    (hothers : ∀ other, other ≠ userId → card d'.users other = card d.users other)
    (hhistory : ∀ event ∈ d.history, event ∈ d'.history)
    (horigin : ∃ login, .created login userId ∈ d'.history ∧
      identity = (some login.oauthProvider, some login.oauthProviderId) ∧
      (email = login.email ∨ .moved userId email ∈ d'.history)) : Sound d' := by
  have hold : ∀ {other email'}, other ≠ userId → d'.Holds email' other → d.Holds email' other := by
    intro other email' hother hholds
    rwa [holds_iff, hothers other hother, ← holds_iff] at hholds
  have hnew : ∀ {email'}, d'.Holds email' userId → email' = email := by
    intro email' hholds
    obtain ⟨_, hcard'⟩ := holds_iff.mp hholds
    exact congrArg Prod.fst (Option.some.inj (hcard'.symm.trans hcard))
  constructor
  · intro email' first second hfirst hsecond
    by_cases hfirstId : first = userId
    · subst hfirstId
      obtain rfl := hnew hfirst
      by_contra hne
      exact hunique second (Ne.symm hne) (hold (Ne.symm hne) hsecond)
    · by_cases hsecondId : second = userId
      · subst hsecondId
        obtain rfl := hnew hsecond
        exact absurd (hold hfirstId hfirst) (hunique first hfirstId)
      · exact h.unique email' first second (hold hfirstId hfirst) (hold hsecondId hsecond)
  · intro other email' identity' hcard'
    by_cases hother : other = userId
    · subst hother
      obtain ⟨rfl, rfl⟩ := Prod.mk.inj (Option.some.inj (hcard.symm.trans hcard'))
      exact horigin
    · rw [hothers other hother] at hcard'
      obtain ⟨login, hcreated, hidentity, hemail⟩ := h.origin other email' identity' hcard'
      exact ⟨login, hhistory _ hcreated, hidentity, hemail.imp_right (hhistory _)⟩

/-- Every step keeps the invariant. -/
theorem effect (h : Sound d) (heffect : Effect d task d') : Sound d' := by
  cases heffect with
  | silent hcards hhistory => exact h.of_cards hcards fun _ hevent => hhistory ▸ hevent
  | found htask hholds hcards hhistory =>
    exact h.of_cards hcards fun _ hevent => hhistory ▸ List.mem_cons_of_mem _ hevent
  | resolved htask huser hidentity hcards hhistory =>
    exact h.of_cards hcards fun _ hevent => hhistory ▸ List.mem_cons_of_mem _ hevent
  | @created login userId htask hunique hcard hothers hhistory =>
    refine h.of_card hcard (fun other _ => hunique other) hothers
      (fun _ hevent => hhistory ▸ List.mem_cons_of_mem _ hevent) ⟨login, ?_, rfl, .inl rfl⟩
    rw [hhistory]
    exact List.mem_cons_self
  | @moved userId email old identity hold hcard hunique hothers hhistory =>
    obtain ⟨login, hcreated, hidentity, -⟩ := h.origin userId old identity hold
    refine h.of_card hcard hunique hothers
      (fun _ hevent => hhistory ▸ List.mem_cons_of_mem _ hevent) ⟨login, ?_, hidentity, .inr ?_⟩
    · rw [hhistory]
      exact List.mem_cons_of_mem _ hcreated
    · rw [hhistory]
      exact List.mem_cons_self

/-- Of a user with an identity there is a login of it that has created the user. -/
theorem created_of_hasIdentity (h : Sound d) {userId : UUID} {user : User}
    {identity : OAuthProvider × String} (huser : d.users userId = some user)
    (hidentity : HasIdentity user identity) :
    ∃ login, .created login userId ∈ d.history ∧ login.identity = identity := by
  obtain ⟨login, hcreated, hcard, -⟩ := h.origin userId _ _ (card_eq huser)
  obtain ⟨hprovider, hproviderId⟩ := Prod.mk.inj hcard
  refine ⟨login, hcreated, Prod.ext ?_ ?_⟩
  · exact Option.some.inj (hprovider.symm.trans hidentity.1)
  · exact Option.some.inj (hproviderId.symm.trans hidentity.2)

end Sound

end Logit.Auth

import Logit.Auth.Accounts

/-!
# Identities and their accounts

An identity keeps its account as long as the account keeps the e-mail the provider
attests, and an e-mail leads to an account made with it as long as no profile update has
put it on another. Nothing in the code enforces either.

## Main definitions

* `OneAccount`, `Attested` — what is expected of logins
* `KeepsEmail`, `KeepsOrigin` — where a step of a login meets it

## Main results

* `oneAccount_of_reachable` — while accounts keep the e-mails their identities attest, an
  identity has one account and one signup bonus
* `attested_of_reachable` — while no profile update puts an attested e-mail on another
  account, a login is given an account made with its e-mail
-/

namespace Logit.Auth

open Calendar Concurrency Python Tokens Users

/-! ## What is expected of logins -/

/-- All logins of an identity have been given one user. -/
def SameUser (history : List Event) : Prop :=
  ∀ login ∈ loginsOf history, ∀ other ∈ loginsOf history,
    login.1.identity = other.1.identity → login.2 = other.2

/-- Of each identity: all its logins are given one user, and the users they are given have had
at most one signup bonus. -/
structure OneAccount (d : Directory) : Prop where
  same : SameUser d.history
  bonus : ∀ identity, (d.transactions.countP fun tx => tx.type = .signupBonus ∧
    ∃ login ∈ loginsOf d.history, login.1.identity = identity ∧ login.2 = tx.userId) ≤ 1

/-- A login that has been given a user there was has been given one made with its e-mail. -/
def Attested (d : Directory) : Prop :=
  ∀ login userId, .returned login userId ∈ d.history →
    ∃ origin, .created origin userId ∈ d.history ∧ origin.email = login.email

/-- A step gives a login a user. -/
def Gives (d d' : Directory) (login : OAuthUserCreate) (userId : UUID) : Prop :=
  ∃ event, d'.history = event :: d.history ∧ event.login? = some (login, userId)

/-- A login that finds or creates a user does so while the users its identity has been given
before hold the e-mail it attests. After a conflict it is given the user of its identity. -/
def KeepsEmail (d : Directory) (task : Task) (d' : Directory) : Prop :=
  ∀ login userId, Gives d d' login userId → task ≠ .resolving login →
    ∀ earlier ∈ loginsOf d.history, earlier.1.identity = login.identity →
      d.Holds login.email earlier.2

/-- A login finds its e-mail on a user that has not been given it by a profile update, or was made
with it; and where it is given the user of its identity, the identity has made users with it. -/
def KeepsOrigin (d : Directory) (task : Task) (d' : Directory) : Prop :=
  ∀ login userId, Gives d d' login userId →
    (task = .finding login → .moved userId login.email ∈ d.history →
      ∃ origin, .created origin userId ∈ d.history ∧ origin.email = login.email) ∧
    (task = .resolving login → ∀ origin other, .created origin other ∈ d.history →
      origin.identity = login.identity → origin.email = login.email)

variable {d d' : Directory} {task task' : Task}

/-! ## One account -/

@[simp] theorem loginsOf_cons (event : Event) (history : List Event) :
    loginsOf (event :: history) = event.login?.toList ++ loginsOf history := by
  cases event <;> rfl

theorem mem_loginsOf_of_created {login : OAuthUserCreate} {userId : UUID} {history : List Event}
    (h : .created login userId ∈ history) : (login, userId) ∈ loginsOf history :=
  List.mem_filterMap.mpr ⟨_, h, rfl⟩

/-- A login that is given the user of all earlier logins of its identity. -/
theorem SameUser.cons {event : Event} {history : List Event} {login : OAuthUserCreate}
    {userId : UUID} (h : SameUser history) (hevent : event.login? = some (login, userId))
    (hnew : ∀ earlier ∈ loginsOf history, earlier.1.identity = login.identity →
      earlier.2 = userId) : SameUser (event :: history) := by
  intro first hfirst second hsecond hidentity
  rw [loginsOf_cons, hevent] at hfirst hsecond
  rcases List.mem_cons.mp hfirst with rfl | hfirst
  · rcases List.mem_cons.mp hsecond with rfl | hsecond
    · rfl
    · exact (hnew second hsecond hidentity.symm).symm
  · rcases List.mem_cons.mp hsecond with rfl | hsecond
    · exact hnew first hfirst hidentity
    · exact h first hfirst second hsecond hidentity

theorem sameUser_effect (hsound : Sound d) (h : SameUser d.history) (hkeeps : KeepsEmail d task d')
    (heffect : Effect d task d') : SameUser d'.history := by
  cases heffect with
  | silent hcards hhistory => rwa [hhistory]
  | @found login userId htask hholds hcards hhistory =>
    subst htask
    rw [hhistory]
    refine h.cons rfl fun earlier hearlier hidentity => ?_
    have hkept := hkeeps login userId ⟨_, hhistory, rfl⟩ nofun earlier hearlier hidentity
    exact hsound.unique _ _ _ hkept hholds
  | @resolved login userId user htask huser hidentity hcards hhistory =>
    subst htask
    rw [hhistory]
    obtain ⟨origin, hcreated, horigin⟩ := hsound.created_of_hasIdentity huser hidentity
    refine h.cons rfl fun earlier hearlier hsame => ?_
    exact h earlier hearlier _ (mem_loginsOf_of_created hcreated) (hsame.trans horigin.symm)
  | @created login userId htask hunique hcard hothers hhistory =>
    subst htask
    rw [hhistory]
    refine h.cons rfl fun earlier hearlier hidentity => ?_
    have hkept := hkeeps login userId ⟨_, hhistory, rfl⟩ nofun earlier hearlier hidentity
    exact absurd hkept (hunique _)
  | moved hold hcard hunique hothers hhistory =>
    rw [hhistory]
    exact h

/-! ## One signup bonus -/

/-- The calls of the token service are ones that may start. -/
def Typed : Task → Prop
  | .calling call => Plain call
  | _ => True

theorem Typed.of_starts (h : Starts task) : Typed task := by
  cases task with
  | calling call => exact h
  | _ => trivial

theorem Act.typed (h : Act d task d' task') : Typed task' := by
  cases h with
  | found huser hemail => split_ifs <;> trivial
  | _ => trivial

/-- The bonuses of every user are counted in the user's token row. -/
def BonusCounted (d : Directory) : Prop :=
  ∀ userId, bonusesOf userId d.transactions ≤ (hasBonus (d.tokens userId)).toNat

theorem BonusCounted.call (h : BonusCounted d) {call : TokenCall} (hplain : Plain call) :
    BonusCounted (d.call call) := by
  intro userId
  have hcounted := h userId
  by_cases huser : userId = call.userId
  · subst huser
    have hbonus := TokenCall.run_bonus hplain (d.tokens call.userId)
    simp only [Directory.call, bonusesOf_append, Function.update_self]
    omega
  · have hnone : bonusesOf userId (call.run (d.tokens call.userId)).2 = 0 := by
      refine List.countP_eq_zero.mpr fun tx htx => ?_
      have howned := (call.run_balanced (d.tokens call.userId)).owned tx htx
      simp [howned, Ne.symm huser]
    simp only [Directory.call, bonusesOf_append, Function.update_of_ne huser, hnone, Nat.add_zero]
    exact hcounted

theorem BonusCounted.act (h : BonusCounted d) (htyped : Typed task) (hact : Act d task d' task') :
    BonusCounted d' := by
  cases hact with
  | @generate userId stored loaded isNewUser refreshToken clock hstored =>
    cases isNewUser with
    | false => exact h
    | true => exact h.call fun _ => rfl
  | call => exact h.call htyped
  | _ => exact h

/-- An identity whose logins are given one user has had as many bonuses as that user. -/
theorem OneAccount.of_sameUser (hsame : SameUser d.history) (hcounted : BonusCounted d) :
    OneAccount d := by
  refine ⟨hsame, fun identity => ?_⟩
  by_cases hlogin : ∃ login ∈ loginsOf d.history, login.1.identity = identity
  · obtain ⟨login, hmem, hidentity⟩ := hlogin
    refine le_trans ?_ ((hcounted login.2).trans (Bool.toNat_le _))
    refine List.countP_mono_left fun tx _ htx => ?_
    obtain ⟨htype, other, hother, hotherIdentity, huser⟩ := of_decide_eq_true htx
    have heq : login.2 = other.2 :=
      hsame login hmem other hother (hidentity.trans hotherIdentity.symm)
    exact decide_eq_true ⟨by rw [heq, huser], htype⟩
  · refine (List.countP_eq_zero.mpr fun tx _ htx => ?_).le.trans (Nat.zero_le 1)
    obtain ⟨-, login, hmem, hidentity, -⟩ := of_decide_eq_true htx
    exact hlogin ⟨login, hmem, hidentity⟩

/-! ## Runs -/

/-- What holds in every run: accounts are sound, bonuses counted and requests typed. -/
structure Kept (p : Pool Directory Task) : Prop where
  sound : Sound p.shared
  counted : BonusCounted p.shared
  typed : ∀ task ∈ p.tasks, Typed task

theorem Kept.step {guard : Directory → Task → Directory → Prop} {p p' : Pool Directory Task}
    (h : Kept p) (hstep : Pool.Step (accounts.restricted guard) p p') : Kept p' := by
  cases hstep with
  | env ts henv => cases henv
  | start s ts hstart =>
    refine ⟨h.sound, h.counted, fun task htask => ?_⟩
    rcases List.mem_cons.mp htask with rfl | htask
    · exact Typed.of_starts hstart
    · exact h.typed task htask
  | act before after hact =>
    have htyped := h.typed _ (List.mem_append_right before List.mem_cons_self)
    exact ⟨h.sound.effect hact.2.effect, h.counted.act htyped hact.2,
      forall_mem_middle h.typed (fun _ _ hother => hother) fun _ => hact.2.typed⟩

/-- In a run in which every login that finds or creates a user attests an e-mail that the users
its identity has been given before hold, an identity has one account and one signup bonus. -/
theorem oneAccount_of_reachable {p : Pool Directory Task}
    (h : Pool.Reachable (accounts.restricted KeepsEmail) .empty p) : OneAccount p.shared := by
  have hinv : Kept p ∧ SameUser p.shared.history := by
    -- By induction on the run; a login is given the user its identity has been given before.
    induction h with
    | refl => exact ⟨⟨.empty, fun _ => Nat.zero_le _, by simp⟩, by simp [SameUser, loginsOf,
        Directory.empty]⟩
    | tail hrun hstep ih =>
      refine ⟨ih.1.step hstep, ?_⟩
      cases hstep with
      | env ts henv => cases henv
      | start s ts hstart => exact ih.2
      | act before after hact => exact sameUser_effect ih.1.sound ih.2 hact.1 hact.2.effect
  exact .of_sameUser hinv.2 hinv.1.counted

theorem attested_effect (hsound : Sound d) (h : Attested d) (hkeeps : KeepsOrigin d task d')
    (heffect : Effect d task d') : Attested d' := by
  have hbefore : ∀ {event}, d'.history = event :: d.history → ∀ login userId,
      .returned login userId ∈ d.history →
        ∃ origin, .created origin userId ∈ d'.history ∧ origin.email = login.email := by
    intro event hhistory login userId hreturned
    obtain ⟨origin, hcreated, hemail⟩ := h login userId hreturned
    exact ⟨origin, hhistory ▸ List.mem_cons_of_mem _ hcreated, hemail⟩
  intro login userId hreturned
  cases heffect with
  | silent hcards hhistory =>
    rw [hhistory] at hreturned ⊢
    exact h login userId hreturned
  | @found found foundId htask hholds hcards hhistory =>
    subst htask
    rw [hhistory] at hreturned
    rcases List.mem_cons.mp hreturned with hnew | hold
    · obtain ⟨rfl, rfl⟩ := Event.returned.inj hnew
      obtain ⟨identity, hcard⟩ := holds_iff.mp hholds
      -- The e-mail is still that of the creation, or an update has put it there.
      have horigin : ∃ origin, .created origin userId ∈ d.history ∧ origin.email = login.email := by
        obtain ⟨origin, hcreated, -, hemail | hmoved⟩ := hsound.origin _ _ _ hcard
        · exact ⟨origin, hcreated, hemail.symm⟩
        · exact (hkeeps login userId ⟨_, hhistory, rfl⟩).1 rfl hmoved
      obtain ⟨origin, hcreated, hemail⟩ := horigin
      exact ⟨origin, hhistory ▸ List.mem_cons_of_mem _ hcreated, hemail⟩
    · exact hbefore hhistory login userId hold
  | @resolved resolved resolvedId user htask huser hidentity hcards hhistory =>
    subst htask
    rw [hhistory] at hreturned
    rcases List.mem_cons.mp hreturned with hnew | hold
    · obtain ⟨rfl, rfl⟩ := Event.returned.inj hnew
      obtain ⟨origin, hcreated, horigin⟩ := hsound.created_of_hasIdentity huser hidentity
      exact ⟨origin, hhistory ▸ List.mem_cons_of_mem _ hcreated,
        (hkeeps login userId ⟨_, hhistory, rfl⟩).2 rfl origin userId hcreated horigin⟩
    · exact hbefore hhistory login userId hold
  | created htask hunique hcard hothers hhistory =>
    rw [hhistory] at hreturned
    rcases List.mem_cons.mp hreturned with hnew | hold
    · cases hnew
    · exact hbefore hhistory login userId hold
  | moved hold hcard hunique hothers hhistory =>
    rw [hhistory] at hreturned
    rcases List.mem_cons.mp hreturned with hnew | hold
    · cases hnew
    · exact hbefore hhistory login userId hold

/-- In a run in which no profile update has put the e-mail a login attests on the user that
holds it, a login is given an existing user only if the user was created by a login that attested
the same e-mail. -/
theorem attested_of_reachable {p : Pool Directory Task}
    (h : Pool.Reachable (accounts.restricted KeepsOrigin) .empty p) : Attested p.shared := by
  have hinv : Kept p ∧ Attested p.shared := by
    -- By induction on the run; what a login is given has been created with its e-mail.
    induction h with
    | refl => exact ⟨⟨.empty, fun _ => Nat.zero_le _, by simp⟩, by simp [Attested, Directory.empty]⟩
    | tail hrun hstep ih =>
      refine ⟨ih.1.step hstep, ?_⟩
      cases hstep with
      | env ts henv => cases henv
      | start s ts hstart => exact ih.2
      | act before after hact => exact attested_effect ih.1.sound ih.2 hact.1 hact.2.effect
  exact hinv.2

/-! ## Whole requests -/

section Requests

variable {guard : Directory → Task → Directory → Prop} {ts : List Task} {login : OAuthUserCreate}
  {userId : UUID} {user : User}

/-- The user a login has created, signed in. -/
def signedUp (login : OAuthUserCreate) : User :=
  { createOauthUser (.utc 2026 1 10 9) login with refreshToken := some "token" }

/-- The guard lets through what gives no login a user. -/
def Lax (guard : Directory → Task → Directory → Prop) : Prop :=
  ∀ d task d', (∀ login userId, ¬ Gives d d' login userId) → guard d task d'

theorem Lax.of_history (hguard : Lax guard) (h : d'.history = d.history) : guard d task d' := by
  refine hguard d task d' ?_
  rintro login userId ⟨event, hhistory, -⟩
  exact List.cons_ne_self event d.history (hhistory.symm.trans h)

theorem Lax.of_moved (hguard : Lax guard) {email : String}
    (h : d'.history = .moved userId email :: d.history) : guard d task d' := by
  refine hguard d task d' ?_
  rintro login userId ⟨event, hhistory, hlogin⟩
  obtain rfl := (List.cons.inj (hhistory.symm.trans h)).1
  cases hlogin

/-- A login that has found nobody creates a user. -/
theorem exists_create (hguard : Lax guard)
    (hcreating : ∀ d', d'.history = .created login userId :: d.history →
      guard d (.creating login) d')
    (hnobody : ∀ userId, ¬ d.Holds login.email userId) (hnew : d.users userId = none)
    (hfits : (createOauthUser (.utc 2026 1 10 9) login).Fits) :
    ∃ d', (accounts.restricted guard).Runs (d, .creating login) (d', .over) ∧
      d'.users = d.users.set userId (signedUp login) ∧
      d'.history = .created login userId :: d.history := by
  let created : Directory := { d with
    users := d.users.set userId (createOauthUser (.utc 2026 1 10 9) login)
    history := .created login userId :: d.history }
  have hstored : created.users userId = some (createOauthUser (.utc 2026 1 10 9) login) :=
    UserTable.set_self ..
  have hgenerate : Act created
      (.generating userId (createOauthUser (.utc 2026 1 10 9) login) true) _ .over :=
    .generate "token" (fun _ => .utc 2026 1 10 9) hstored
  refine ⟨_, .step ⟨hcreating _ rfl, .create _ hnew hnobody hfits⟩
    (.step ⟨?_, .refresh hstored⟩ (.last ⟨?_, hgenerate⟩)), Function.update_idem .., rfl⟩
  · exact hguard.of_history rfl
  · exact hguard.of_history rfl

/-- A login with a new e-mail creates a user. -/
theorem exists_signUp (hguard : Lax guard)
    (hcreating : ∀ d', d'.history = .created login userId :: d.history →
      guard d (.creating login) d')
    (hnobody : ∀ userId, ¬ d.Holds login.email userId) (hnew : d.users userId = none)
    (hfits : (createOauthUser (.utc 2026 1 10 9) login).Fits) :
    ∃ d', (accounts.restricted guard).Runs (d, .finding login) (d', .over) ∧
      d'.users = d.users.set userId (signedUp login) ∧
      d'.history = .created login userId :: d.history := by
  obtain ⟨d', hruns, husers, hhistory⟩ := exists_create hguard hcreating hnobody hnew hfits
  exact ⟨d', .step ⟨hguard.of_history rfl, .notFound hnobody⟩ hruns, husers, hhistory⟩

/-- A login with the e-mail of an active user is given that user. -/
theorem exists_logIn (hguard : Lax guard)
    (hfinding : ∀ d', d'.history = .returned login userId :: d.history →
      guard d (.finding login) d')
    (huser : d.users userId = some user) (hemail : user.email = login.email)
    (hactive : user.isActive = true) :
    ∃ d', (accounts.restricted guard).Runs (d, .finding login) (d', .over) ∧
      d'.history = .returned login userId :: d.history := by
  have hfind := Act.found huser hemail
  rw [if_pos hactive] at hfind
  have hgenerate : Act { d with history := .returned login userId :: d.history }
      (.generating userId user false) _ .over :=
    .generate "token" (fun _ => .utc 2026 1 10 9) huser
  refine ⟨_, .step ⟨hfinding _ rfl, hfind⟩ (.last ⟨?_, hgenerate⟩), rfl⟩
  exact hguard.of_history rfl

/-- A signed-in user may take any e-mail that nobody holds. -/
theorem exists_changeEmail (hguard : Lax guard) (huser : d.users userId = some user)
    (hactive : user.isActive = true) {email : String} (hnobody : ∀ other, ¬ d.Holds email other)
    (hfits : { user with email := email }.Fits) :
    ∃ d', (accounts.restricted guard).Runs
        (d, .authenticating userId (.update ⟨.value email, .unset, .unset⟩)) (d', .over) ∧
      d'.users = d.users.set userId { user with email := email } ∧
      d'.history = .moved userId email :: d.history := by
  have hne : email ≠ user.email := fun heq => hnobody userId ⟨user, huser, heq.symm⟩
  have hupdated : updateUser user user ⟨.value email, .unset, .unset⟩ =
      some { user with email := email } := by
    simp [updateUser, Given.replacing, flush, hne]
  have hupdate := Act.update huser hupdated (fun other _ => hnobody other) hfits
  rw [if_neg hne] at hupdate
  refine ⟨_, .step ⟨?_, .authenticate huser hactive⟩ (.last ⟨?_, hupdate⟩), rfl, rfl⟩
  · exact hguard.of_history rfl
  · exact hguard.of_moved rfl

end Requests

theorem lax_true : Lax fun _ _ _ => True := fun _ _ _ _ => trivial

theorem lax_keepsEmail : Lax KeepsEmail :=
  fun _ _ _ h login userId hgives => absurd hgives (h login userId)

theorem lax_keepsOrigin : Lax KeepsOrigin :=
  fun _ _ _ h login userId hgives => absurd hgives (h login userId)

/-- A login with Google. -/
def googleLogin (providerId email : String) : OAuthUserCreate :=
  ⟨email, none, .google, providerId, none⟩

theorem not_holds_empty (email : String) (userId : UUID) :
    ¬ Directory.empty.Holds email userId := by
  rintro ⟨user, huser, -⟩
  cases huser

/-- With one user there is, only that user's e-mail is held. -/
theorem not_holds_of_set {userId : UUID} {user : User}
    (husers : d.users = Directory.empty.users.set userId user) {email : String}
    (hne : user.email ≠ email) (other : UUID) : ¬ d.Holds email other := by
  rintro ⟨found, hfound, hemail⟩
  rw [husers] at hfound
  by_cases hown : other = userId
  · rw [hown, UserTable.set_self] at hfound
    obtain rfl := Option.some.inj hfound
    exact hne hemail
  · rw [UserTable.set_ne _ hown] at hfound
    cases hfound

/-- The first login there is creates a user. -/
theorem exists_reachable_signUp {guard : Directory → Task → Directory → Prop}
    (login : OAuthUserCreate) (hguard : Lax guard)
    (hcreating : ∀ d', d'.history = [.created login 1] → guard .empty (.creating login) d')
    (hfits : (createOauthUser (.utc 2026 1 10 9) login).Fits) :
    ∃ d, Pool.Reachable (accounts.restricted guard) .empty ⟨d, [.over]⟩ ∧
      d.users = Directory.empty.users.set 1 (signedUp login) ∧ d.history = [.created login 1] := by
  have hnew : Directory.empty.users 1 = none := rfl
  obtain ⟨d, hacts, husers, hhistory⟩ :=
    exists_signUp hguard hcreating (not_holds_empty login.email) hnew hfits
  exact ⟨d, hacts.reachable trivial .refl, husers, hhistory⟩

/-- The first logins of an identity are made at once and both find nobody; one creates the user,
whose e-mail is changed before the other, whose insertion has failed, is given the user. -/
theorem oneAccount_of_reachable_again : ∃ p,
    Pool.Reachable (accounts.restricted KeepsEmail) .empty p ∧
    p.shared.history = [.returned (googleLogin "g-1" "a@x.kr") 1, .moved 1 "b@x.kr",
      .created (googleLogin "g-1" "a@x.kr") 1] ∧ OneAccount p.shared := by
  let login := googleLogin "g-1" "a@x.kr"
  have hfits : (createOauthUser (.utc 2026 1 10 9) login).Fits :=
    ⟨by decide, by simp [createOauthUser, login, googleLogin]⟩
  have hnobody := not_holds_empty login.email
  have hnew : Directory.empty.users 1 = none := rfl
  have hstart : Pool.Reachable (accounts.restricted KeepsEmail) .empty
      ⟨.empty, [.finding login, .finding login]⟩ :=
    (Relation.ReflTransGen.single (.start Directory.empty [] trivial)).tail (.start _ _ trivial)
  have hfind : (accounts.restricted KeepsEmail).Runs (Directory.empty, .finding login)
      (Directory.empty, .creating login) := .last ⟨lax_keepsEmail.of_history rfl, .notFound hnobody⟩
  have hfirst := hfind.reachable_middle [] [.finding login] hstart
  have hboth := hfind.reachable_middle [.creating login] [] hfirst
  have hcreating : ∀ d' : Directory, d'.history = .created login 1 :: Directory.empty.history →
      KeepsEmail .empty (.creating login) d' :=
    fun _ _ _ _ _ _ _ hearlier => absurd hearlier List.not_mem_nil
  obtain ⟨d, hcreate, husers, hhistory⟩ :=
    exists_create lax_keepsEmail hcreating hnobody hnew hfits
  have huser : d.users 1 = some (signedUp login) := by rw [husers, UserTable.set_self]
  have hcreated := hcreate.reachable_middle [] [.creating login] hboth
  have hconflict : (accounts.restricted KeepsEmail).Runs (d, .creating login)
      (d, .resolving login) :=
    .last ⟨lax_keepsEmail.of_history rfl, .conflict ⟨_, huser, rfl⟩⟩
  have hresolving := hconflict.reachable_middle [.over] [] hcreated
  have hunused := not_holds_of_set husers (by decide : (signedUp login).email ≠ "b@x.kr")
  obtain ⟨d', hmove, husers', hhistory'⟩ :=
    exists_changeEmail lax_keepsEmail huser rfl hunused ⟨by decide, hfits.fullName⟩
  have hmoved := hmove.reachable trivial hresolving
  have huser' : d'.users 1 = some { signedUp login with email := "b@x.kr" } := by
    rw [husers', UserTable.set_self]
  have hresolve : (accounts.restricted KeepsEmail).Runs (d', .resolving login)
      ({ d' with history := .returned login 1 :: d'.history },
        .generating 1 { signedUp login with email := "b@x.kr" } false) := by
    refine .last ⟨?_, .resolve huser' ⟨rfl, rfl⟩⟩
    rintro other userId ⟨event, hevent, hlogin⟩ hnot
    obtain rfl := (List.cons.inj hevent).1
    obtain ⟨rfl, -⟩ := Prod.mk.inj (Option.some.inj hlogin)
    exact absurd rfl hnot
  have hrun := hresolve.reachable_middle [.over, .over] [] hmoved
  refine ⟨_, hrun, ?_, oneAccount_of_reachable hrun⟩
  change .returned login 1 :: d'.history = _
  rw [hhistory', hhistory]
  rfl

/-- A user signs up and takes an e-mail nobody holds. -/
theorem exists_reachable_moved (login : OAuthUserCreate) (email : String)
    (hfits : (createOauthUser (.utc 2026 1 10 9) login).Fits) (hne : login.email ≠ email)
    (hmoved : { signedUp login with email := email }.Fits) :
    ∃ d, Pool.Reachable (accounts.restricted fun _ _ _ => True) .empty ⟨d, [.over, .over]⟩ ∧
      d.users = Directory.empty.users.set 1 { signedUp login with email := email } ∧
      d.history = [.moved 1 email, .created login 1] := by
  obtain ⟨d, hrun, husers, hhistory⟩ :=
    exists_reachable_signUp login lax_true (fun _ _ => trivial) hfits
  have huser : d.users 1 = some (signedUp login) := by rw [husers, UserTable.set_self]
  have hnobody := not_holds_of_set husers (show (signedUp login).email ≠ email from hne)
  obtain ⟨d', hacts, husers', hhistory'⟩ := exists_changeEmail lax_true huser rfl hnobody hmoved
  refine ⟨d', hacts.reachable trivial hrun, ?_, by rw [hhistory', hhistory]⟩
  rw [husers', husers]
  exact Function.update_idem ..

/-- Between two logins of an identity the e-mail of its account is changed. -/
theorem not_oneAccount_of_reachable :
    ¬ ∀ p : Pool Directory Task, Pool.Reachable accounts .empty p → OneAccount p.shared := by
  intro h
  have hfits : (createOauthUser (.utc 2026 1 10 9) (googleLogin "g-1" "a@x.kr")).Fits :=
    ⟨by decide, by simp [createOauthUser, googleLogin]⟩
  obtain ⟨d, hrun, husers, hhistory⟩ :=
    exists_reachable_moved _ "b@x.kr" hfits (by decide) ⟨by decide, hfits.fullName⟩
  have hnobody := not_holds_of_set husers (by decide : "b@x.kr" ≠ "a@x.kr")
  have hnew : d.users 2 = none := by
    rw [husers, UserTable.set_ne _ (by decide)]
    rfl
  obtain ⟨d', hacts, -, hhistory'⟩ := exists_signUp lax_true (fun _ _ => trivial) hnobody hnew hfits
  have hone := h _ (hacts.reachable trivial hrun).of_restricted
  have hsame := hone.same (googleLogin "g-1" "a@x.kr", 1)
    (by simp [hhistory', hhistory, Event.login?]) (googleLogin "g-1" "a@x.kr", 2)
    (by simp [hhistory', Event.login?]) rfl
  exact absurd hsame (by decide)

/-- The login of a user whose e-mail nobody else has taken. -/
theorem attested_of_reachable_again : ∃ p,
    Pool.Reachable (accounts.restricted KeepsOrigin) .empty p ∧
      .returned (googleLogin "g-1" "a@x.kr") 1 ∈ p.shared.history ∧ Attested p.shared := by
  obtain ⟨d, hrun, husers, hhistory⟩ :=
    exists_reachable_signUp (googleLogin "g-1" "a@x.kr") lax_keepsOrigin
      (fun _ _ _ _ _ => ⟨Task.noConfusion, Task.noConfusion⟩)
      ⟨by decide, by simp [createOauthUser, googleLogin]⟩
  have huser : d.users 1 = some (signedUp (googleLogin "g-1" "a@x.kr")) := by
    rw [husers, UserTable.set_self]
  have hagain : ∀ d' : Directory,
      d'.history = .returned (googleLogin "g-1" "a@x.kr") 1 :: d.history →
        KeepsOrigin d (.finding (googleLogin "g-1" "a@x.kr")) d' := by
    refine fun _ _ login userId _ => ⟨fun _ hmoved => ?_, Task.noConfusion⟩
    rw [hhistory] at hmoved
    cases List.mem_singleton.mp hmoved
  obtain ⟨d', hacts, hhistory'⟩ := exists_logIn lax_keepsOrigin hagain huser rfl rfl
  have hreach := hacts.reachable trivial hrun
  exact ⟨_, hreach, hhistory' ▸ List.mem_cons_self, attested_of_reachable hreach⟩

/-- A user takes the e-mail of someone who has no account yet, and holds the account that person
is given. -/
theorem not_attested_of_reachable :
    ¬ ∀ p : Pool Directory Task, Pool.Reachable accounts .empty p → Attested p.shared := by
  intro h
  have hfits : (createOauthUser (.utc 2026 1 10 9) (googleLogin "g-9" "b@x.kr")).Fits :=
    ⟨by decide, by simp [createOauthUser, googleLogin]⟩
  obtain ⟨d, hrun, husers, hhistory⟩ :=
    exists_reachable_moved _ "a@x.kr" hfits (by decide) ⟨by decide, hfits.fullName⟩
  have huser :
      d.users 1 = some { signedUp (googleLogin "g-9" "b@x.kr") with email := "a@x.kr" } := by
    rw [husers, UserTable.set_self]
  have hemail : ({ signedUp (googleLogin "g-9" "b@x.kr") with email := "a@x.kr" } : User).email =
      (googleLogin "g-1" "a@x.kr").email := rfl
  obtain ⟨d', hacts, hhistory'⟩ := exists_logIn lax_true (fun _ _ => trivial) huser hemail rfl
  obtain ⟨origin, hcreated, hemail⟩ := h _ (hacts.reachable trivial hrun).of_restricted
    (googleLogin "g-1" "a@x.kr") 1 (hhistory' ▸ List.mem_cons_self)
  rw [hhistory', hhistory] at hcreated
  obtain rfl : origin = googleLogin "g-9" "b@x.kr" := by simpa using hcreated
  exact absurd hemail (by decide)

end Logit.Auth

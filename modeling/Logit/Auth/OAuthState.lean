import Mathlib.Data.List.Count
import Logit.Concurrency.Pool
import Logit.Users.Model

/-!
# States and nonces of web logins

A web login sends the browser to the provider with a state, which the callback must bring
back; Redis keeps the state until a callback takes it. A login with Apple also makes a nonce,
which it keeps under the state and expects in the ID token. Both providers keep their states
under the same keys, and a state without a nonce makes the callback skip the check. So every
login through Apple's callback is bound to its nonce as long as it takes no state of Google's
login out of Redis.

## Main definitions

* `createOauthState`, `verifyOauthState` — the value kept under a state, and what it is read as
* `verifyAppleIdToken`, `appleOauthFlow` — the checks of a login with Apple
* `OAuthStore`, `WebTask`, `WebAct` — Redis, the requests, and their steps
* `NonceChecked` — each login through Apple's callback has consumed a state of its own, and
  brings the nonce made with it

## Main results

* `nonceChecked_of_reachable` — while Apple's callback takes no state of Google, the nonce is
  checked
-/

namespace Logit.Auth

open Concurrency Users

/-! ## The state -/

inductive OAuthException
  | oauthError (detail : String)
  | invalidTokenError (detail : String)
  deriving DecidableEq, Repr

/-- A text that `secrets.token_urlsafe(32)` may return. -/
def TokenUrlsafe (text : String) : Prop :=
  text.length = 43 ∧ ∀ c ∈ text.toList, c.isAlphanum ∨ c = '-' ∨ c = '_'

/-- What `_create_oauth_state` keeps under the state: `nonce or "1"`. -/
def createOauthState (nonce : Option String) : String := (nonce.filter (· ≠ "")).getD "1"

/-- What `_verify_oauth_state` makes of what was kept. -/
def verifyOauthState (data : Option String) : Except OAuthException (Option String) :=
  match data.filter (· ≠ "") with
  | none => .error (.oauthError "Invalid or expired OAuth state.")
  | some value => .ok (if value ≠ "1" then some value else none)

/-- What a token says that its library has verified; claims that are no texts count as none. -/
structure IdTokenClaims where
  sub : Option String
  email : Option String
  nonce : Option String
  deriving DecidableEq, Repr

/-- Python's truth value of a claim. -/
def present (claim : Option String) : Bool := claim.any (· ≠ "")

/-- `_verify_apple_id_token`, where `decode` stands for the library with Apple's keys. -/
def verifyAppleIdToken (decode : String → Except String IdTokenClaims) (idToken : String)
    (nonce : Option String) : Except OAuthException IdTokenClaims :=
  match decode idToken with
  | .error e => .error (.invalidTokenError s!"Invalid Apple ID token: {e}")
  | .ok decoded =>
    if present nonce ∧ decoded.nonce ≠ nonce then
      .error (.invalidTokenError "Invalid nonce in Apple ID token")
    else if !present decoded.sub ∨ !present decoded.email then
      .error (.invalidTokenError "id_token missing sub or email")
    else .ok decoded

/-- Apple's answer to an authorization code. -/
inductive TokenResponse
  | refused
  | answered (idToken : Option String)
  deriving DecidableEq, Repr

/-- `apple_oauth_flow` up to the user it logs in. -/
def appleOauthFlow (decode : String → Except String IdTokenClaims) (response : TokenResponse)
    (nonce : Option String) : Except OAuthException IdTokenClaims :=
  match response with
  | .refused => .error (.oauthError "Failed to exchange authorization code with Apple")
  | .answered idToken =>
    match idToken.filter (· ≠ "") with
    | none => .error (.oauthError "No id_token in response from Apple")
    | some idToken => verifyAppleIdToken decode idToken nonce

/-- A state made with a nonce is read as that nonce. -/
theorem verifyOauthState_createOauthState {nonce : String} (h : TokenUrlsafe nonce) :
    verifyOauthState (some (createOauthState (some nonce))) = .ok (some nonce) := by
  have hempty : nonce ≠ "" := by
    rintro rfl
    exact absurd h.1 (by decide)
  have hone : nonce ≠ "1" := by
    rintro rfl
    exact absurd h.1 (by decide)
  simp [verifyOauthState, createOauthState, Option.filter, hempty, hone]

/-- A login that expects a nonce gets it. -/
theorem nonce_of_appleOauthFlow {decode : String → Except String IdTokenClaims}
    {response : TokenResponse} {nonce : String} {claims : IdTokenClaims}
    (h : appleOauthFlow decode response (some nonce) = .ok claims) (hne : nonce ≠ "") :
    claims.nonce = some nonce := by
  unfold appleOauthFlow at h
  split at h
  · cases h
  · split at h
    · cases h
    · unfold verifyAppleIdToken at h
      split at h
      · cases h
      · split_ifs at h with hnonce
        cases h
        by_contra hdiffers
        exact hnonce ⟨by simp [present, hne], hdiffers⟩

/-! ## Runs -/

inductive WebEvent
  /-- A login page has been asked for. -/
  | created (provider : OAuthProvider) (state : String) (nonce : Option String)
  /-- A callback has taken a state out of Redis. -/
  | consumed (state : String)
  /-- Apple's callback has logged in the user these claims are about. -/
  | loggedIn (state : String) (claims : IdTokenClaims)
  deriving DecidableEq, Repr

/-- What Redis keeps under the states, and what has happened, latest first. -/
structure OAuthStore where
  states : String → Option String
  history : List WebEvent

/-- A store without states. -/
def OAuthStore.empty : OAuthStore := ⟨fun _ => none, []⟩

/-- A login page is asked for. -/
def OAuthStore.create (s : OAuthStore) (provider : OAuthProvider) (state : String)
    (nonce : Option String) : OAuthStore where
  states := Function.update s.states state (some (createOauthState nonce))
  history := .created provider state nonce :: s.history

/-- `GETDEL` of a state that is there. -/
def OAuthStore.consume (s : OAuthStore) (state : String) : OAuthStore where
  states := Function.update s.states state none
  history := .consumed state :: s.history

/-- No login page has been given a state. -/
def Undrawn (history : List WebEvent) (state : String) : Prop :=
  ∀ provider nonce, .created provider state nonce ∉ history

/-- Where a request stands. -/
inductive WebTask
  | googleLogin
  | appleLogin
  | googleCallback (state : String)
  | appleCallback (state : String)
  /-- Apple's callback has consumed its state, and is about to exchange the code. -/
  | exchanging (state : String) (nonce : Option String)
  | over
  deriving DecidableEq, Repr

/-- One step of a request. What Google's callback does with its user is left out. -/
inductive WebAct : OAuthStore → WebTask → OAuthStore → WebTask → Prop
  | googleLogin {s : OAuthStore} {state : String} (hstate : TokenUrlsafe state)
      (hnew : Undrawn s.history state) :
      WebAct s .googleLogin (s.create .google state none) .over
  | appleLogin {s : OAuthStore} {state nonce : String} (hstate : TokenUrlsafe state)
      (hnonce : TokenUrlsafe nonce) (hnew : Undrawn s.history state) :
      WebAct s .appleLogin (s.create .apple state (some nonce)) .over
  | googleVerify {s : OAuthStore} {state : String} {nonce : Option String}
      (h : verifyOauthState (s.states state) = .ok nonce) :
      WebAct s (.googleCallback state) (s.consume state) .over
  | appleVerify {s : OAuthStore} {state : String} {nonce : Option String}
      (h : verifyOauthState (s.states state) = .ok nonce) :
      WebAct s (.appleCallback state) (s.consume state) (.exchanging state nonce)
  | logIn {s : OAuthStore} {state : String} {nonce : Option String}
      {decode : String → Except String IdTokenClaims} {response : TokenResponse}
      {claims : IdTokenClaims}
      (h : appleOauthFlow decode response nonce = .ok claims) :
      WebAct s (.exchanging state nonce)
        { s with history := .loggedIn state claims :: s.history } .over
  /-- Any step may fail, or be refused. -/
  | fail {s : OAuthStore} {task : WebTask} : WebAct s task s .over

/-- States expire. -/
def Expires (s s' : OAuthStore) : Prop :=
  s'.history = s.history ∧ ∀ state, s'.states state = s.states state ∨ s'.states state = none

def WebTask.Starts : WebTask → Prop
  | .exchanging _ _ => False
  | .over => False
  | _ => True

/-- The web logins of the service. -/
def webLogins : Program OAuthStore WebTask := ⟨Expires, WebTask.Starts, WebAct⟩

/-- A state is one of Apple's login, made with a nonce, and has been consumed just once. -/
def Bound (history : List WebEvent) (state nonce : String) : Prop :=
  .created .apple state (some nonce) ∈ history ∧
    (∀ provider other, .created provider state other ∈ history →
      provider = .apple ∧ other = some nonce) ∧
    history.count (.consumed state) = 1

/-- Every login through Apple's callback brings the nonce made with the state that it, and
nothing else, has consumed. -/
def NonceChecked (history : List WebEvent) : Prop :=
  ∀ state claims, .loggedIn state claims ∈ history →
    ∃ nonce, Bound history state nonce ∧ claims.nonce = some nonce

/-- The condition on a step: a state that Apple's callback takes out of Redis is not one of
Google's login. -/
def OwnState (s : OAuthStore) (task : WebTask) (s' : OAuthStore) : Prop :=
  ∀ state, task = .appleCallback state → s' = s.consume state →
    ∀ nonce, .created .google state nonce ∉ s.history

/-! ## What is kept in Redis -/

variable {s s' : OAuthStore} {task task' : WebTask} {state nonce : String}
  {history : List WebEvent}

/-- Each state was given to one login page and is kept until it is consumed, which no state is
twice; and Apple's logins have a nonce. -/
structure Traced (s : OAuthStore) : Prop where
  kept : ∀ state value, s.states state = some value → .consumed state ∉ s.history ∧
    ∃ provider nonce, .created provider state nonce ∈ s.history ∧ value = createOauthState nonce
  single : ∀ state provider provider' nonce nonce', .created provider state nonce ∈ s.history →
    .created provider' state nonce' ∈ s.history → provider = provider' ∧ nonce = nonce'
  drawn : ∀ state nonce, .created .apple state nonce ∈ s.history →
    ∃ text, nonce = some text ∧ TokenUrlsafe text
  consumed : ∀ state, .consumed state ∈ s.history → ¬ Undrawn s.history state

theorem Traced.empty : Traced .empty where
  kept _ _ h := by cases h
  single _ _ _ _ _ h := absurd h List.not_mem_nil
  drawn _ _ h := absurd h List.not_mem_nil
  consumed _ h := absurd h List.not_mem_nil

theorem Traced.create (h : Traced s) {provider : OAuthProvider} {state : String}
    {nonce : Option String} (hnew : Undrawn s.history state)
    (hnonce : provider = .apple → ∃ text, nonce = some text ∧ TokenUrlsafe text) :
    Traced (s.create provider state nonce) where
  kept other value hvalue := by
    by_cases hother : other = state
    · subst hother
      have hsame : createOauthState nonce = value := by
        simpa [OAuthStore.create] using hvalue
      refine ⟨?_, provider, nonce, List.mem_cons_self, hsame.symm⟩
      intro hconsumed
      have hold : .consumed other ∈ s.history := by simpa [OAuthStore.create] using hconsumed
      exact h.consumed other hold hnew
    · have hold : s.states other = some value := by
        simpa [OAuthStore.create, hother] using hvalue
      obtain ⟨hfree, provider', nonce', hcreated, hsame⟩ := h.kept other value hold
      refine ⟨?_, provider', nonce', List.mem_cons_of_mem _ hcreated, hsame⟩
      simpa [OAuthStore.create] using hfree
  single other first second nonce' nonce'' hfirst hsecond := by
    simp only [OAuthStore.create, List.mem_cons, WebEvent.created.injEq] at hfirst hsecond
    rcases hfirst with ⟨rfl, rfl, rfl⟩ | hfirst
    · rcases hsecond with ⟨rfl, -, rfl⟩ | hsecond
      · exact ⟨rfl, rfl⟩
      · exact absurd hsecond (hnew _ _)
    · rcases hsecond with ⟨rfl, rfl, rfl⟩ | hsecond
      · exact absurd hfirst (hnew _ _)
      · exact h.single other _ _ _ _ hfirst hsecond
  drawn other nonce' hcreated := by
    simp only [OAuthStore.create, List.mem_cons, WebEvent.created.injEq] at hcreated
    rcases hcreated with ⟨rfl, -, rfl⟩ | hcreated
    · exact hnonce rfl
    · exact h.drawn other nonce' hcreated
  consumed other hconsumed hundrawn := by
    have hold : .consumed other ∈ s.history := by simpa [OAuthStore.create] using hconsumed
    exact h.consumed other hold fun provider' nonce' hcreated =>
      hundrawn provider' nonce' (List.mem_cons_of_mem _ hcreated)

theorem Traced.consume (h : Traced s) {state value : String}
    (hkept : s.states state = some value) : Traced (s.consume state) where
  kept other value' hvalue := by
    have hother : other ≠ state := by
      rintro rfl
      simp [OAuthStore.consume] at hvalue
    have hold : s.states other = some value' := by
      simpa [OAuthStore.consume, hother] using hvalue
    obtain ⟨hfree, provider, nonce, hcreated, hsame⟩ := h.kept other value' hold
    refine ⟨?_, provider, nonce, List.mem_cons_of_mem _ hcreated, hsame⟩
    simpa [OAuthStore.consume, hother] using hfree
  single other first second nonce nonce' hfirst hsecond := by
    refine h.single other first second nonce nonce' ?_ ?_
    · simpa [OAuthStore.consume] using hfirst
    · simpa [OAuthStore.consume] using hsecond
  drawn other nonce hcreated := h.drawn other nonce (by simpa [OAuthStore.consume] using hcreated)
  consumed other hconsumed hundrawn := by
    have hbefore : Undrawn s.history other := fun provider nonce hcreated =>
      hundrawn provider nonce (List.mem_cons_of_mem _ hcreated)
    simp only [OAuthStore.consume, List.mem_cons, WebEvent.consumed.injEq] at hconsumed
    rcases hconsumed with rfl | hold
    · obtain ⟨-, provider, nonce, hcreated, -⟩ := h.kept other value hkept
      exact hbefore provider nonce hcreated
    · exact h.consumed other hold hbefore

/-! ## Bound states -/

theorem Bound.create (h : Bound history state nonce) {provider : OAuthProvider} {other : String}
    {made : Option String} (hnew : Undrawn history other) :
    Bound (.created provider other made :: history) state nonce := by
  obtain ⟨hcreated, hsingle, hcount⟩ := h
  refine ⟨List.mem_cons_of_mem _ hcreated, fun provider' made' hmade => ?_, ?_⟩
  · simp only [List.mem_cons, WebEvent.created.injEq] at hmade
    rcases hmade with ⟨rfl, rfl, rfl⟩ | hold
    · exact absurd hcreated (hnew _ _)
    · exact hsingle provider' made' hold
  · rwa [List.count_cons_of_ne (by simp)]

theorem Bound.consume (h : Bound history state nonce) {other : String}
    (hfree : .consumed other ∉ history) : Bound (.consumed other :: history) state nonce := by
  obtain ⟨hcreated, hsingle, hcount⟩ := h
  have hconsumed : .consumed state ∈ history := List.count_pos_iff.mp (by omega)
  have hne : other ≠ state := by
    rintro rfl
    exact hfree hconsumed
  refine ⟨List.mem_cons_of_mem _ hcreated, fun provider made hmade => ?_, ?_⟩
  · exact hsingle provider made (by simpa using hmade)
  · rwa [List.count_cons_of_ne (by simpa using hne)]

theorem Bound.logIn (h : Bound history state nonce) (other : String) (claims : IdTokenClaims) :
    Bound (.loggedIn other claims :: history) state nonce := by
  obtain ⟨hcreated, hsingle, hcount⟩ := h
  refine ⟨List.mem_cons_of_mem _ hcreated, fun provider made hmade => ?_, ?_⟩
  · exact hsingle provider made (by simpa using hmade)
  · rwa [List.count_cons_of_ne (by simp)]

/-- A state that is read has been kept. -/
theorem exists_kept {read : Option String} (h : verifyOauthState (s.states state) = .ok read) :
    ∃ value, s.states state = some value := by
  cases hkept : s.states state with
  | some value => exact ⟨value, rfl⟩
  | none =>
    rw [hkept] at h
    cases h

/-- What has been bound stays so. -/
theorem WebAct.bound (hact : WebAct s task s' task') (htraced : Traced s)
    (h : Bound s.history state nonce) : Bound s'.history state nonce := by
  cases hact with
  | googleLogin hstate hnew => exact h.create hnew
  | appleLogin hstate hnonce hnew => exact h.create hnew
  | googleVerify hverify =>
    obtain ⟨value, hkept⟩ := exists_kept hverify
    exact h.consume (htraced.kept _ _ hkept).1
  | appleVerify hverify =>
    obtain ⟨value, hkept⟩ := exists_kept hverify
    exact h.consume (htraced.kept _ _ hkept).1
  | logIn hflow => exact h.logIn _ _
  | fail => exact h

theorem Traced.act (h : Traced s) (hact : WebAct s task s' task') : Traced s' := by
  cases hact with
  | googleLogin hstate hnew => exact h.create hnew (by simp)
  | appleLogin hstate hnonce hnew => exact h.create hnew fun _ => ⟨_, rfl, hnonce⟩
  | googleVerify hverify =>
    obtain ⟨value, hkept⟩ := exists_kept hverify
    exact h.consume hkept
  | appleVerify hverify =>
    obtain ⟨value, hkept⟩ := exists_kept hverify
    exact h.consume hkept
  | logIn hflow =>
    refine ⟨fun state value hvalue => ?_, fun state first second nonce nonce' hfirst hsecond => ?_,
      fun state nonce hcreated => ?_, fun state hconsumed hundrawn => ?_⟩
    · obtain ⟨hfree, provider, nonce, hcreated, hsame⟩ := h.kept state value hvalue
      exact ⟨by simpa using hfree, provider, nonce, List.mem_cons_of_mem _ hcreated, hsame⟩
    · exact h.single state first second nonce nonce' (by simpa using hfirst)
        (by simpa using hsecond)
    · exact h.drawn state nonce (by simpa using hcreated)
    · exact h.consumed state (by simpa using hconsumed) fun provider nonce hcreated =>
        hundrawn provider nonce (List.mem_cons_of_mem _ hcreated)
  | fail => exact h

/-- Apple's callback has read the nonce made with its state. -/
def ReadsNonce (history : List WebEvent) : WebTask → Prop
  | .exchanging state nonce => ∃ text, nonce = some text ∧ text ≠ "" ∧ Bound history state text
  | _ => True

theorem ReadsNonce.of_starts (h : task.Starts) : ReadsNonce history task := by
  cases task with
  | exchanging state nonce => exact h.elim
  | _ => trivial

/-- A state that Apple's callback consumes is one of Apple's login, and is bound. -/
theorem bound_of_verify (h : Traced s)
    (hown : OwnState s (.appleCallback state) (s.consume state)) {read : Option String}
    (hverify : verifyOauthState (s.states state) = .ok read) :
    ReadsNonce (s.consume state).history (.exchanging state read) := by
  obtain ⟨value, hkept⟩ := exists_kept hverify
  obtain ⟨hfree, provider, made, hcreated, rfl⟩ := h.kept state value hkept
  have hprovider : provider = .apple := by
    cases provider with
    | apple => rfl
    | google => exact absurd hcreated (hown state rfl rfl made)
  subst hprovider
  obtain ⟨text, rfl, htext⟩ := h.drawn state made hcreated
  rw [hkept, verifyOauthState_createOauthState htext] at hverify
  have hread : some text = read := Except.ok.inj hverify
  refine ⟨text, hread.symm, ?_, List.mem_cons_of_mem _ hcreated,
    fun provider other hother => ?_, ?_⟩
  · rintro rfl
    exact absurd htext.1 (by decide)
  · have hold : .created provider state other ∈ s.history := by
      simpa [OAuthStore.consume] using hother
    exact h.single state provider .apple other (some text) hold hcreated
  · rw [OAuthStore.consume, List.count_cons_self, List.count_eq_zero.mpr hfree]

theorem ReadsNonce.mono {task : WebTask} (h : ReadsNonce s.history task)
    (hbound : ∀ state nonce, Bound s.history state nonce → Bound s'.history state nonce) :
    ReadsNonce s'.history task := by
  cases task with
  | exchanging state nonce =>
    obtain ⟨text, htext, hne, hstate⟩ := h
    exact ⟨text, htext, hne, hbound state text hstate⟩
  | _ => trivial

/-- A step of a request that meets the condition. -/
theorem NonceChecked.act (h : NonceChecked s.history) (htraced : Traced s)
    (hreads : ReadsNonce s.history task) (hown : OwnState s task s')
    (hact : WebAct s task s' task') :
    NonceChecked s'.history ∧ ReadsNonce s'.history task' := by
  have hbound : ∀ state nonce, Bound s.history state nonce → Bound s'.history state nonce :=
    fun _ _ => hact.bound htraced
  have hold : ∀ state claims, .loggedIn state claims ∈ s.history →
      ∃ nonce, Bound s'.history state nonce ∧ claims.nonce = some nonce := by
    intro state claims hlogin
    obtain ⟨nonce, hstate, hnonce⟩ := h state claims hlogin
    exact ⟨nonce, hbound state nonce hstate, hnonce⟩
  cases hact with
  | googleLogin hstate hnew =>
    exact ⟨fun state claims hlogin =>
        hold state claims (by simpa [OAuthStore.create] using hlogin),
      trivial⟩
  | appleLogin hstate hnonce hnew =>
    exact ⟨fun state claims hlogin =>
        hold state claims (by simpa [OAuthStore.create] using hlogin),
      trivial⟩
  | googleVerify hverify =>
    exact ⟨fun state claims hlogin =>
        hold state claims (by simpa [OAuthStore.consume] using hlogin),
      trivial⟩
  | appleVerify hverify =>
    exact ⟨fun state claims hlogin =>
        hold state claims (by simpa [OAuthStore.consume] using hlogin),
      bound_of_verify htraced hown hverify⟩
  | @logIn state nonce decode response claims hflow =>
    refine ⟨fun other claims' hlogin => ?_, trivial⟩
    simp only [List.mem_cons, WebEvent.loggedIn.injEq] at hlogin
    rcases hlogin with ⟨rfl, rfl⟩ | hlogin
    · -- The login that is new expects the nonce it has read.
      obtain ⟨text, rfl, hne, hstate⟩ := hreads
      exact ⟨text, hbound _ _ hstate, nonce_of_appleOauthFlow hflow hne⟩
    · exact hold other claims' hlogin
  | fail => exact ⟨hold, trivial⟩

/-- In a run in which Apple's callback takes no state of Google's login out of Redis, every login
through that callback has consumed a state that Apple's login made and nobody consumed before,
and its ID token carries the nonce made with the state. -/
theorem nonceChecked_of_reachable {p : Pool OAuthStore WebTask}
    (h : Pool.Reachable (webLogins.restricted OwnState) .empty p) :
    NonceChecked p.shared.history := by
  have hinv : Traced p.shared ∧ NonceChecked p.shared.history ∧
      ∀ task ∈ p.tasks, ReadsNonce p.shared.history task := by
    induction h with
    | refl =>
      exact ⟨.empty, fun _ _ hlogin => absurd hlogin List.not_mem_nil, fun _ htask =>
        absurd htask List.not_mem_nil⟩
    | tail _ hstep ih =>
      obtain ⟨htraced, hchecked, hreads⟩ := ih
      cases hstep with
      | env ts henv =>
        obtain ⟨hhistory, hstates⟩ := henv
        rw [hhistory]
        refine ⟨⟨fun state value hvalue => ?_, ?_, ?_, ?_⟩, hchecked, hreads⟩
        · -- A state that has not expired is kept as before.
          rcases hstates state with hsame | hgone
          · rw [hhistory]
            exact htraced.kept state value (hsame ▸ hvalue)
          · exact absurd (hgone.symm.trans hvalue) (by simp)
        · rw [hhistory]
          exact htraced.single
        · rw [hhistory]
          exact htraced.drawn
        · rw [hhistory]
          exact htraced.consumed
      | start s ts hstart =>
        exact ⟨htraced, hchecked, List.forall_mem_cons.mpr ⟨.of_starts hstart, hreads⟩⟩
      | act before after hact =>
        obtain ⟨hown, hact⟩ := hact
        have hthis := hreads _ (List.mem_append_right before List.mem_cons_self)
        obtain ⟨hchecked', hthis'⟩ := hchecked.act htraced hthis hown hact
        exact ⟨htraced.act hact, hchecked', forall_mem_middle hreads
          (fun task _ htask => htask.mono fun _ _ => hact.bound htraced) fun _ => hthis'⟩
  exact hinv.2.1

/-! ## A state brought to either callback -/

/-- A text that may be drawn. -/
def drawnOf (c : Char) : String := String.ofList (List.replicate 43 c)

theorem tokenUrlsafe_drawnOf {c : Char} (h : c.isAlphanum = true) : TokenUrlsafe (drawnOf c) := by
  refine ⟨?_, fun d hd => ?_⟩
  · rw [drawnOf, String.length_ofList, List.length_replicate]
  · rw [drawnOf, String.toList_ofList] at hd
    exact .inl (List.eq_of_mem_replicate hd ▸ h)

theorem create_states (s : OAuthStore) (provider : OAuthProvider) (state : String)
    (nonce : Option String) :
    (s.create provider state nonce).states state = some (createOauthState nonce) :=
  Function.update_self ..

/-- A user's claims in a token made for a nonce. -/
def claimsWith (nonce : Option String) : IdTokenClaims := ⟨some "apple-1", some "a@x.kr", nonce⟩

section Run

variable (guard : OAuthStore → WebTask → OAuthStore → Prop) (claims : IdTokenClaims)

/-- A state that is kept is brought to Apple's callback with a token that passes the checks. -/
theorem runs_appleCallback {s : OAuthStore} {state : String} {read : Option String}
    (hverify : verifyOauthState (s.states state) = .ok read)
    (hflow : appleOauthFlow (fun _ => .ok claims) (.answered (some "token")) read = .ok claims)
    (hbring : guard s (.appleCallback state) (s.consume state))
    (hexchange : ∀ s', guard (s.consume state) (.exchanging state read) s') :
    (webLogins.restricted guard).Runs (s, .appleCallback state)
      ({ s.consume state with
          history := .loggedIn state claims :: (s.consume state).history }, .over) :=
  .step ⟨hbring, .appleVerify hverify⟩ (.last ⟨hexchange _, .logIn hflow⟩)

end Run

theorem not_mem_history_empty (event : WebEvent) : event ∉ OAuthStore.empty.history :=
  List.not_mem_nil

/-- A store that has given one state to Google's login, which has expired. -/
def lapsed : OAuthStore := ⟨fun _ => none, [.created .google (drawnOf 'c') none]⟩

/-- The expired state is brought to Apple's callback, which refuses it. -/
theorem reachable_lapsed :
    Pool.Reachable (webLogins.restricted OwnState) .empty ⟨lapsed, [.over, .over]⟩ := by
  have hlogin : (webLogins.restricted OwnState).Runs (.empty, .googleLogin)
      (OAuthStore.empty.create .google (drawnOf 'c') none, .over) :=
    .last ⟨nofun, .googleLogin (tokenUrlsafe_drawnOf rfl) fun _ _ => not_mem_history_empty _⟩
  have hexpired : Pool.Reachable (webLogins.restricted OwnState) .empty ⟨lapsed, [.over]⟩ :=
    (hlogin.reachable trivial .refl).tail (.env [WebTask.over] ⟨rfl, fun _ => .inr rfl⟩)
  have hrefused : (webLogins.restricted OwnState).Runs (lapsed, .appleCallback (drawnOf 'c'))
      (lapsed, .over) := by
    refine .last ⟨fun state _ hconsumed => ?_, .fail⟩
    exact absurd (congrArg (·.history.length) hconsumed) (by simp [OAuthStore.consume])
  exact hrefused.reachable trivial hexpired

/-- A login with Apple and its callback, after a callback with an expired state of Google. -/
theorem nonceChecked_of_reachable_apple : ∃ p,
    Pool.Reachable (webLogins.restricted OwnState) .empty p ∧
      .created .google (drawnOf 'c') none ∈ p.shared.history ∧
      .loggedIn (drawnOf 'a') (claimsWith (some (drawnOf 'b'))) ∈ p.shared.history ∧
      NonceChecked p.shared.history := by
  have hundrawn : Undrawn lapsed.history (drawnOf 'a') := by
    intro provider nonce hcreated
    cases List.mem_singleton.mp hcreated
  have hlogin : (webLogins.restricted OwnState).Runs (lapsed, .appleLogin)
      (lapsed.create .apple (drawnOf 'a') (some (drawnOf 'b')), .over) :=
    .last ⟨nofun, .appleLogin (tokenUrlsafe_drawnOf rfl) (tokenUrlsafe_drawnOf rfl) hundrawn⟩
  have hverify : verifyOauthState ((lapsed.create .apple (drawnOf 'a')
      (some (drawnOf 'b'))).states (drawnOf 'a')) = .ok (some (drawnOf 'b')) := by
    rw [create_states]
    exact verifyOauthState_createOauthState (tokenUrlsafe_drawnOf rfl)
  have hown : OwnState (lapsed.create .apple (drawnOf 'a') (some (drawnOf 'b')))
      (.appleCallback (drawnOf 'a')) ((lapsed.create .apple (drawnOf 'a')
        (some (drawnOf 'b'))).consume (drawnOf 'a')) := by
    rintro state ⟨⟩ - nonce hcreated
    rcases List.mem_cons.mp hcreated with hsame | hold
    · cases hsame
    · exact hundrawn _ _ hold
  have hcallback := (runs_appleCallback OwnState (claimsWith (some (drawnOf 'b'))) hverify
    (by decide +kernel) hown fun _ => nofun).reachable trivial
    (hlogin.reachable trivial reachable_lapsed)
  refine ⟨_, hcallback, ?_, List.mem_cons_self, nonceChecked_of_reachable hcallback⟩
  simp [OAuthStore.consume, OAuthStore.create, lapsed]

/-- A state of Google's login is brought to Apple's callback, with a token for any nonce. -/
theorem not_nonceChecked : ∃ p : Pool OAuthStore WebTask, Pool.Reachable webLogins .empty p ∧
    ¬ NonceChecked p.shared.history := by
  have hlogin : (webLogins.restricted fun _ _ _ => True).Runs (.empty, .googleLogin)
      (OAuthStore.empty.create .google (drawnOf 'a') none, .over) :=
    .last ⟨trivial, .googleLogin (tokenUrlsafe_drawnOf rfl) fun _ _ => not_mem_history_empty _⟩
  have hverify : verifyOauthState ((OAuthStore.empty.create .google (drawnOf 'a') none).states
      (drawnOf 'a')) = .ok none := by
    rw [create_states]
    rfl
  have hcallback := (runs_appleCallback (fun _ _ _ => True) (claimsWith (some "stolen")) hverify
    (by decide +kernel) trivial fun _ => trivial).reachable trivial (hlogin.reachable trivial .refl)
  refine ⟨_, hcallback.of_restricted, fun hchecked => ?_⟩
  obtain ⟨nonce, ⟨hcreated, -, -⟩, -⟩ := hchecked (drawnOf 'a') _ List.mem_cons_self
  simp [OAuthStore.consume, OAuthStore.create, OAuthStore.empty] at hcreated

end Logit.Auth

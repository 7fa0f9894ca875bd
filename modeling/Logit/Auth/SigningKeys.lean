import Logit.Auth.OAuthState

/-!
# Signing keys of the providers

An ID token names the key it is signed with, and the provider publishes its keys at an
endpoint. The service keeps the document it was last given for an hour, asks again when a
token names a key that is not in it, and falls back on what it has when the endpoint refuses.
Logins overlap: the clock is read before the endpoint is asked, and the answer is written to
the cache when it comes, whatever other logins have written since.

## Main definitions

* `JwksCache.lookup`, `JwksCache.receive` — what is returned without a request, and what is
  done with a response
* `findKid`, `KeyTask.look` — the search for the key of a token, and the second try
* `verifyIdToken` — the checks of an ID token with a key
* `KeyServer`, `KeyTask`, `KeyAct` — the caches and endpoints, logins, and their steps
* `SignedRecently`, `Unpublished`, `FailsEmpty` — what is expected of logins

## Main results

* `signedRecently_of_reachable` — a login is checked with a key its provider has published
  less than an hour before it came, or the endpoint has refused to answer since
* `unpublished_of_reachable` — a login whose key is not found has been let down by the endpoint
* `failsEmpty_of_reachable` — no login fails for want of a document while there is one
-/

namespace Logit.Auth

open Concurrency Users

variable {μ κ : Type*}

/-! ## Documents of keys -/

/-- An entry of a document of keys, with the material a key is made from. -/
structure JwkData (μ : Type*) where
  kid : Option String
  material : μ
  deriving DecidableEq, Repr

/-- A document of keys: `{}`, or an object that may have `keys`. -/
inductive Jwks (μ : Type*)
  | empty
  | members (keys : Option (List (JwkData μ)))
  deriving DecidableEq, Repr

/-- Python's truth value of a document. -/
def Jwks.truthy : Jwks μ → Bool
  | .empty => false
  | .members _ => true

/-- `jwks_data.get("keys", [])`. -/
def Jwks.keys : Jwks μ → List (JwkData μ)
  | .members (some keys) => keys
  | _ => []

/-- The first entry with a `kid`. -/
def findKid (kid : Option String) (document : Jwks μ) : Option (JwkData μ) :=
  document.keys.find? fun entry => entry.kid = kid

/-! ## The cache -/

/-- An hour, in the nanoseconds of the monotonic clock. -/
def JWKS_CACHE_TTL : ℤ := 3600 * 1000000000

/-- `_google_jwks_cache` with `_google_jwks_fetched_at`, and the same for Apple. -/
structure JwksCache (μ : Type*) where
  document : Option (Jwks μ)
  fetchedAt : ℤ
  deriving DecidableEq, Repr

/-- The document that is held, unless it counts as false. -/
def JwksCache.held (cache : JwksCache μ) : Option (Jwks μ) := cache.document.filter Jwks.truthy

/-- `_get_google_jwks` and `_get_apple_jwks` up to their request: what they return without it. -/
def JwksCache.lookup (cache : JwksCache μ) (forceRefresh : Bool) (now : ℤ) : Option (Jwks μ) :=
  if !forceRefresh ∧ now - cache.fetchedAt < JWKS_CACHE_TTL then cache.held else none

/-- An endpoint's answer: a document with status 200, or another status. -/
inductive JwksResponse (μ : Type*)
  | document (document : Jwks μ)
  | refused
  deriving DecidableEq, Repr

def jwksFailure : OAuthProvider → String
  | .google => "Failed to fetch Google JWKS"
  | .apple => "Failed to fetch Apple JWKS"

/-- The rest of `_get_google_jwks` and `_get_apple_jwks`, which have read the clock at `now`. -/
def JwksCache.receive (provider : OAuthProvider) (cache : JwksCache μ) (now : ℤ) :
    JwksResponse μ → Except OAuthException (Jwks μ) × JwksCache μ
  | .document document => (.ok document, ⟨some document, now⟩)
  | .refused =>
    match cache.held with
    | some document => (.ok document, cache)
    | none => (.error (.oauthError (jwksFailure provider)), cache)

/-! ## ID tokens -/

/-- What the service uses of its library for tokens. -/
structure JwtLibrary (μ κ : Type*) where
  /-- The `kid` of a token's header, or what is wrong with the header. -/
  getUnverifiedHeader : String → Except String (Option String)
  /-- `PyJWK(key_data)`. -/
  pyJwk : JwkData μ → Option κ
  /-- Whether `jwt.decode` may return claims for a key, audiences, issuers and a token. -/
  Decodes : κ → List String → List String → String → IdTokenClaims → Prop

structure ClientIds where
  googleClientId : Option String
  googleIosClientId : Option String
  googleAndroidClientId : Option String
  appleClientId : Option String
  appleBundleId : Option String
  deriving DecidableEq, Repr

def allowedAudiences (ids : ClientIds) : OAuthProvider → List String
  | .google => [ids.googleClientId, ids.googleIosClientId, ids.googleAndroidClientId].filterMap
      (Option.filter (· ≠ ""))
  | .apple => [ids.appleClientId, ids.appleBundleId].filterMap (Option.filter (· ≠ ""))

def issuers : OAuthProvider → List String
  | .google => ["https://accounts.google.com", "accounts.google.com"]
  | .apple => ["https://appleid.apple.com"]

def providerName : OAuthProvider → String
  | .google => "Google"
  | .apple => "Apple"

/-- `_verify_google_id_token`, where `decode` stands for the library with the key. -/
def verifyGoogleIdToken (decode : String → Except String IdTokenClaims) (idToken : String) :
    Except OAuthException IdTokenClaims :=
  match decode idToken with
  | .error e => .error (.invalidTokenError s!"Invalid Google ID token: {e}")
  | .ok decoded =>
    if !present decoded.sub ∨ !present decoded.email then
      .error (.invalidTokenError "Google ID token missing sub or email")
    else .ok decoded

/-- The checks of an ID token by its provider. -/
def verifyIdToken (decode : String → Except String IdTokenClaims) (provider : OAuthProvider)
    (idToken : String) (nonce : Option String) : Except OAuthException IdTokenClaims :=
  match provider with
  | .google => verifyGoogleIdToken decode idToken
  | .apple => verifyAppleIdToken decode idToken nonce

theorem present_of_not_missing {claims : IdTokenClaims}
    (h : ¬ (!present claims.sub ∨ !present claims.email)) :
    present claims.sub ∧ present claims.email := by
  simpa [not_or] using h

/-- A token that passes has been decoded, and names its user and an e-mail. -/
theorem decoded_of_verifyIdToken {decode : String → Except String IdTokenClaims}
    {provider : OAuthProvider} {idToken : String} {nonce : Option String} {claims : IdTokenClaims}
    (h : verifyIdToken decode provider idToken nonce = .ok claims) :
    decode idToken = .ok claims ∧ present claims.sub ∧ present claims.email := by
  cases provider with
  | google =>
    simp only [verifyIdToken, verifyGoogleIdToken] at h
    split at h
    · cases h
    · rename_i decoded hdecode
      split_ifs at h with hmissing
      cases h
      exact ⟨hdecode, present_of_not_missing hmissing⟩
  | apple =>
    simp only [verifyIdToken, verifyAppleIdToken] at h
    split at h
    · cases h
    · rename_i decoded hdecode
      split_ifs at h with hnonce hmissing
      cases h
      exact ⟨hdecode, present_of_not_missing hmissing⟩

/-! ## Runs -/

inductive KeyEvent (μ : Type*)
  /-- An endpoint has answered with the document it publishes. -/
  | served (provider : OAuthProvider) (time : ℤ) (document : Jwks μ)
  /-- An endpoint has answered with another status than 200. -/
  | refused (provider : OAuthProvider) (time : ℤ)
  /-- A document has been written to the cache. -/
  | stored (provider : OAuthProvider) (document : Jwks μ)
  /-- A login has failed for want of a document. -/
  | failed (provider : OAuthProvider)
  deriving DecidableEq, Repr

/-- The monotonic clock, what the endpoints publish, the caches of a process, and what has
happened, latest first. -/
structure KeyServer (μ : Type*) where
  clock : ℤ
  published : OAuthProvider → Jwks μ
  caches : OAuthProvider → JwksCache μ
  history : List (KeyEvent μ)

/-- A process that has just started. -/
def KeyServer.started (clock : ℤ) (published : OAuthProvider → Jwks μ) : KeyServer μ :=
  ⟨clock, published, fun _ => ⟨none, 0⟩, []⟩

def KeyServer.note (s : KeyServer μ) (event : KeyEvent μ) : KeyServer μ :=
  { s with history := event :: s.history }

/-- A response is written to the cache. -/
def KeyServer.receive (s : KeyServer μ) (provider : OAuthProvider) (asked : ℤ)
    (response : JwksResponse μ) : KeyServer μ where
  clock := s.clock
  published := s.published
  caches := Function.update s.caches provider
    ((s.caches provider).receive provider asked response).2
  history :=
    match response with
    | .document document => .stored provider document :: s.history
    | .refused => s.history

/-- A login with an ID token. -/
structure KeyLogin where
  provider : OAuthProvider
  idToken : String
  nonce : Option String
  deriving DecidableEq, Repr

inductive LoginFailure
  | raised (e : OAuthException)
  /-- Any exception that is not one of the service. -/
  | unhandled
  deriving DecidableEq, Repr

def noMatchingKey (provider : OAuthProvider) : LoginFailure :=
  .raised (.invalidTokenError s!"No matching key found in {providerName provider} JWKS")

/-- Where a login stands. It has come at `since`, when it has first read the clock, and has
last asked the endpoint at `asked`. -/
inductive KeyTask (μ : Type*)
  | arriving (login : KeyLogin)
  | asking (login : KeyLogin) (kid : Option String) (since asked : ℤ) (forced : Bool)
  | answering (login : KeyLogin) (kid : Option String) (since asked : ℤ) (forced : Bool)
      (response : JwksResponse μ)
  | holding (login : KeyLogin) (since : ℤ) (entry : JwkData μ)
  | verified (login : KeyLogin) (since : ℤ) (entry : JwkData μ) (claims : IdTokenClaims)
  | failed (login : KeyLogin) (since : ℤ) (failure : LoginFailure)
  deriving DecidableEq, Repr

/-- The login that is not over yet, and when it has come. -/
def KeyTask.pending : KeyTask μ → Option (KeyLogin × ℤ)
  | .asking login _ since _ _ => some (login, since)
  | .answering login _ since _ _ _ => some (login, since)
  | .holding login since _ => some (login, since)
  | _ => none

/-- `_find_jwks_key` with a document: the key is found, or the endpoint is asked again, which
is done once. -/
def KeyTask.look (login : KeyLogin) (kid : Option String) (since now : ℤ) (forced : Bool)
    (document : Jwks μ) : KeyTask μ :=
  match findKid kid document with
  | some entry => .holding login since entry
  | none =>
    if forced then .failed login since (noMatchingKey login.provider)
    else .asking login kid since now true

section Steps

variable (library : JwtLibrary μ κ) (ids : ClientIds)

/-- One step of a login, from one of its awaits to the next. -/
inductive KeyAct : KeyServer μ → KeyTask μ → KeyServer μ → KeyTask μ → Prop
  | unreadable {s : KeyServer μ} {login : KeyLogin}
      {e : String} (h : library.getUnverifiedHeader login.idToken = .error e) :
      KeyAct s (.arriving login) s (.failed login s.clock (.raised (.invalidTokenError
        s!"Invalid {providerName login.provider} ID token: {e}")))
  | hit {s : KeyServer μ} {login : KeyLogin} {kid : Option String} {document : Jwks μ}
      (hkid : library.getUnverifiedHeader login.idToken = .ok kid)
      (h : (s.caches login.provider).lookup false s.clock = some document) :
      KeyAct s (.arriving login) s (.look login kid s.clock s.clock false document)
  | miss {s : KeyServer μ} {login : KeyLogin} {kid : Option String}
      (hkid : library.getUnverifiedHeader login.idToken = .ok kid)
      (h : (s.caches login.provider).lookup false s.clock = none) :
      KeyAct s (.arriving login) s (.asking login kid s.clock s.clock false)
  | serve {s : KeyServer μ} {login : KeyLogin} {kid : Option String} {since asked : ℤ}
      {forced : Bool} :
      KeyAct s (.asking login kid since asked forced)
        (s.note (.served login.provider s.clock (s.published login.provider)))
        (.answering login kid since asked forced (.document (s.published login.provider)))
  | refuse {s : KeyServer μ} {login : KeyLogin} {kid : Option String} {since asked : ℤ}
      {forced : Bool} :
      KeyAct s (.asking login kid since asked forced)
        (s.note (.refused login.provider s.clock))
        (.answering login kid since asked forced .refused)
  | receive {s : KeyServer μ} {login : KeyLogin} {kid : Option String} {since asked : ℤ}
      {forced : Bool} {response : JwksResponse μ} {document : Jwks μ}
      (h : ((s.caches login.provider).receive login.provider asked response).1 = .ok document) :
      KeyAct s (.answering login kid since asked forced response)
        (s.receive login.provider asked response)
        (.look login kid since s.clock forced document)
  | giveUp {s : KeyServer μ} {login : KeyLogin} {kid : Option String} {since asked : ℤ}
      {forced : Bool} {response : JwksResponse μ} {e : OAuthException}
      (h : ((s.caches login.provider).receive login.provider asked response).1 = .error e) :
      KeyAct s (.answering login kid since asked forced response)
        ((s.receive login.provider asked response).note (.failed login.provider))
        (.failed login since (.raised e))
  | verify {s : KeyServer μ} {login : KeyLogin} {since : ℤ} {entry : JwkData μ} {key : κ}
      {decode : String → Except String IdTokenClaims} {claims : IdTokenClaims}
      (hkey : library.pyJwk entry = some key)
      (hdecode : ∀ claims, decode login.idToken = .ok claims → library.Decodes key
        (allowedAudiences ids login.provider) (issuers login.provider) login.idToken claims)
      (h : verifyIdToken decode login.provider login.idToken login.nonce = .ok claims) :
      KeyAct s (.holding login since entry) s (.verified login since entry claims)
  | refuseToken {s : KeyServer μ} {login : KeyLogin} {since : ℤ} {entry : JwkData μ}
      {decode : String → Except String IdTokenClaims} {e : OAuthException}
      (h : verifyIdToken decode login.provider login.idToken login.nonce = .error e) :
      KeyAct s (.holding login since entry) s (.failed login since (.raised e))
  /-- A request may break off, and an entry may make no key. -/
  | breakOff {s : KeyServer μ} {task : KeyTask μ} {login : KeyLogin} {since : ℤ}
      (h : task.pending = some (login, since)) :
      KeyAct s task s (.failed login since .unhandled)

/-- Time passes, and the providers change their keys. -/
def Rotates (s s' : KeyServer μ) : Prop :=
  s.clock ≤ s'.clock ∧ s'.caches = s.caches ∧ s'.history = s.history

def KeyTask.Starts : KeyTask μ → Prop
  | .arriving _ => True
  | _ => False

/-- The logins with ID tokens that one process serves. -/
def keyLogins : Program (KeyServer μ) (KeyTask μ) := ⟨Rotates, KeyTask.Starts, KeyAct library ids⟩

end Steps

/-! ## What is expected of logins -/

section Expected

variable (library : JwtLibrary μ κ) (ids : ClientIds)

/-- An endpoint has refused to answer at `since` or later. -/
def RefusedSince (s : KeyServer μ) (provider : OAuthProvider) (since : ℤ) : Prop :=
  ∃ time, since ≤ time ∧ .refused provider time ∈ s.history

/-- A provider has published a document less than an hour before `since`, or later; or it has
published it some time, and refused to answer since. -/
def Recent (s : KeyServer μ) (provider : OAuthProvider) (since : ℤ) (document : Jwks μ) : Prop :=
  ∃ time, .served provider time document ∈ s.history ∧
    (since - JWKS_CACHE_TTL < time ∨ RefusedSince s provider since)

/-- The key of an ID token that has been let in is the one its header names, from a recent
document of its provider, and the token has been decoded with it for one of the service's
clients. -/
def SignedRecently (s : KeyServer μ) (login : KeyLogin) (since : ℤ) (entry : JwkData μ)
    (claims : IdTokenClaims) : Prop :=
  library.getUnverifiedHeader login.idToken = .ok entry.kid ∧
    (∃ document, Recent s login.provider since document ∧ entry ∈ document.keys) ∧
    (∃ key, library.pyJwk entry = some key ∧ library.Decodes key
      (allowedAudiences ids login.provider) (issuers login.provider) login.idToken claims) ∧
    present claims.sub ∧ present claims.email

/-- Since a login has come, its provider has refused to answer or published a document without
the key its token names. -/
def Unpublished (s : KeyServer μ) (login : KeyLogin) (since : ℤ) : Prop :=
  RefusedSince s login.provider since ∨
    ∃ kid document time, library.getUnverifiedHeader login.idToken = .ok kid ∧ since ≤ time ∧
      .served login.provider time document ∈ s.history ∧ findKid kid document = none

end Expected

/-- The document an event has written to a provider's cache. -/
def KeyEvent.stored? (provider : OAuthProvider) : KeyEvent μ → Option (Jwks μ)
  | .stored other document => if other = provider then some document else none
  | _ => none

/-- The document that has been written to a provider's cache last, unless it counts as false. -/
def lastStored (provider : OAuthProvider) (history : List (KeyEvent μ)) : Option (Jwks μ) :=
  (history.findSome? (KeyEvent.stored? provider)).filter Jwks.truthy

/-- Where a login fails for want of a document, the last one written was `{}`, or there was
none. -/
def FailsEmpty (history : List (KeyEvent μ)) : Prop :=
  ∀ provider later earlier, history = later ++ .failed provider :: earlier →
    lastStored provider earlier = none

/-! ## What the caches hold -/

variable {library : JwtLibrary μ κ} {ids : ClientIds} {s s' : KeyServer μ} {task task' : KeyTask μ}
  {provider : OAuthProvider} {since : ℤ} {document : Jwks μ}

/-- Time passes, and nothing that has happened is forgotten. -/
def Grows (s s' : KeyServer μ) : Prop := s.clock ≤ s'.clock ∧ s.history ⊆ s'.history

theorem Grows.refl (s : KeyServer μ) : Grows s s := ⟨le_refl _, List.Subset.refl _⟩

theorem RefusedSince.mono (h : RefusedSince s provider since) (hgrows : Grows s s') :
    RefusedSince s' provider since := by
  obtain ⟨time, htime, hrefused⟩ := h
  exact ⟨time, htime, hgrows.2 hrefused⟩

theorem Recent.mono (h : Recent s provider since document) (hgrows : Grows s s') :
    Recent s' provider since document := by
  obtain ⟨time, hserved, hrecent⟩ := h
  exact ⟨time, hgrows.2 hserved, hrecent.imp_right fun hrefused => hrefused.mono hgrows⟩

/-- Each cache holds what has been written last, which the endpoint has published not before
the instant the cache has for it. -/
structure Cached (s : KeyServer μ) : Prop where
  served : ∀ provider document, (s.caches provider).document = some document →
    ∃ time, (s.caches provider).fetchedAt ≤ time ∧ .served provider time document ∈ s.history
  last : ∀ provider, (s.caches provider).held = lastStored provider s.history
  fails : FailsEmpty s.history

theorem Cached.started (clock : ℤ) (published : OAuthProvider → Jwks μ) :
    Cached (.started clock published) where
  served _ _ h := by cases h
  last _ := rfl
  fails _ later _ h := by
    cases later <;> cases h

/-- A response that is on its way has been given at `asked` or later. -/
def Given (s : KeyServer μ) (provider : OAuthProvider) (asked : ℤ) : JwksResponse μ → Prop
  | .document document => ∃ time, asked ≤ time ∧ .served provider time document ∈ s.history
  | .refused => RefusedSince s provider asked

/-- What is known of a login where it stands. -/
def Known (library : JwtLibrary μ κ) (ids : ClientIds) (s : KeyServer μ) : KeyTask μ → Prop
  | .arriving _ => True
  | .asking login kid since asked _ =>
    library.getUnverifiedHeader login.idToken = .ok kid ∧ since ≤ asked ∧ asked ≤ s.clock
  | .answering login kid since asked _ response =>
    library.getUnverifiedHeader login.idToken = .ok kid ∧ since ≤ asked ∧ asked ≤ s.clock ∧
      Given s login.provider asked response
  | .holding login since entry => library.getUnverifiedHeader login.idToken = .ok entry.kid ∧
      ∃ document, Recent s login.provider since document ∧ entry ∈ document.keys
  | .verified login since entry claims => SignedRecently library ids s login since entry claims
  | .failed login since failure =>
    failure = noMatchingKey login.provider → Unpublished library s login since

theorem lastStored_cons (provider : OAuthProvider) (event : KeyEvent μ)
    (history : List (KeyEvent μ)) (h : event.stored? provider = none) :
    lastStored provider (event :: history) = lastStored provider history := by
  simp [lastStored, h]

theorem lastStored_stored (provider : OAuthProvider) (document : Jwks μ)
    (history : List (KeyEvent μ)) :
    lastStored provider (.stored provider document :: history) =
      (some document).filter Jwks.truthy := by
  simp [lastStored, KeyEvent.stored?]

theorem FailsEmpty.cons {event : KeyEvent μ} {history : List (KeyEvent μ)}
    (h : FailsEmpty history)
    (hevent : ∀ provider, event = .failed provider → lastStored provider history = none) :
    FailsEmpty (event :: history) := by
  intro provider later earlier heq
  cases later with
  | nil =>
    rw [List.nil_append, List.cons.injEq] at heq
    rw [← heq.2]
    exact hevent provider heq.1
  | cons latest later =>
    rw [List.cons_append, List.cons.injEq] at heq
    exact h provider later earlier heq.2

/-- An event that writes nothing. -/
theorem Cached.note (h : Cached s) {event : KeyEvent μ}
    (hstored : ∀ provider, event.stored? provider = none)
    (hfailed : ∀ provider, event = .failed provider → (s.caches provider).held = none) :
    Cached (s.note event) where
  served provider document hdocument := by
    obtain ⟨time, htime, hserved⟩ := h.served provider document hdocument
    exact ⟨time, htime, List.mem_cons_of_mem _ hserved⟩
  last provider := by
    rw [KeyServer.note, lastStored_cons provider event _ (hstored provider)]
    exact h.last provider
  fails := h.fails.cons fun provider heq => (h.last provider).symm.trans (hfailed provider heq)

/-- A response is written to the cache of its provider. -/
theorem Cached.receive (h : Cached s) {asked : ℤ} {response : JwksResponse μ}
    (hgiven : Given s provider asked response) : Cached (s.receive provider asked response) := by
  cases response with
  | refused =>
    have hsame : ((s.caches provider).receive provider asked .refused).2 = s.caches provider := by
      cases hheld : (s.caches provider).held <;> simp [JwksCache.receive, hheld]
    have hserver : s.receive provider asked .refused = s := by
      simp [KeyServer.receive, hsame]
    rwa [hserver]
  | document document =>
    obtain ⟨time, htime, hserved⟩ := hgiven
    refine ⟨fun other held hheld => ?_, fun other => ?_, h.fails.cons fun _ heq => by cases heq⟩
    · by_cases hother : other = provider
      · subst hother
        simp only [KeyServer.receive, JwksCache.receive, Function.update_self,
          Option.some.injEq] at hheld ⊢
        subst hheld
        exact ⟨time, htime, List.mem_cons_of_mem _ hserved⟩
      · simp only [KeyServer.receive, Function.update_of_ne hother] at hheld ⊢
        obtain ⟨time', htime', hserved'⟩ := h.served other held hheld
        exact ⟨time', htime', List.mem_cons_of_mem _ hserved'⟩
    · by_cases hother : other = provider
      · subst hother
        simp only [KeyServer.receive, JwksCache.receive, Function.update_self]
        rw [lastStored_stored]
        rfl
      · have hstored : KeyEvent.stored? other (.stored provider document) = none := by
          simp [KeyEvent.stored?, Ne.symm hother]
        simp only [KeyServer.receive, Function.update_of_ne hother]
        rw [lastStored_cons other _ _ hstored]
        exact h.last other

/-! ## What logins are given -/

/-- A document that is returned without a request is recent. -/
theorem recent_of_lookup (h : Cached s)
    (hlookup : (s.caches provider).lookup false s.clock = some document) :
    Recent s provider s.clock document := by
  unfold JwksCache.lookup at hlookup
  split_ifs at hlookup with hfresh
  obtain ⟨time, htime, hserved⟩ :=
    h.served provider document (Option.eq_some_of_filter_eq_some hlookup)
  exact ⟨time, hserved, .inl (by omega)⟩

/-- A document that is returned after a request is recent. -/
theorem recent_of_receive (h : Cached s) {asked : ℤ} {response : JwksResponse μ}
    (hgiven : Given s provider asked response) (hsince : since ≤ asked)
    (hreceive : ((s.caches provider).receive provider asked response).1 = .ok document) :
    Recent s provider since document := by
  cases response with
  | document given =>
    cases hreceive
    obtain ⟨time, htime, hserved⟩ := hgiven
    have hpositive : 0 < JWKS_CACHE_TTL := by decide
    exact ⟨time, hserved, .inl (by omega)⟩
  | refused =>
    obtain ⟨time, htime, hrefused⟩ := hgiven
    simp only [JwksCache.receive] at hreceive
    split at hreceive
    · rename_i held hheld
      cases hreceive
      obtain ⟨time', -, hserved⟩ :=
        h.served provider document (Option.eq_some_of_filter_eq_some hheld)
      exact ⟨time', hserved, .inr ⟨time, hsince.trans htime, hrefused⟩⟩
    · cases hreceive

theorem findKid_eq_some {kid : Option String} {entry : JwkData μ}
    (h : findKid kid document = some entry) : entry.kid = kid ∧ entry ∈ document.keys :=
  ⟨by simpa using List.find?_some h, List.mem_of_find?_eq_some h⟩

/-- The message for a key that is not found is no other message of a login. -/
theorem ne_noMatchingKey {message : String} (h : message.toList.head? ≠ some 'N') :
    LoginFailure.raised (.invalidTokenError message) ≠ noMatchingKey provider := by
  intro heq
  rw [noMatchingKey, LoginFailure.raised.injEq, OAuthException.invalidTokenError.injEq] at heq
  rw [heq] at h
  cases provider <;> exact h (by decide +kernel)

theorem ne_noMatchingKey_of_verifyIdToken {decode : String → Except String IdTokenClaims}
    {other : OAuthProvider} {idToken : String} {nonce : Option String} {e : OAuthException}
    (h : verifyIdToken decode other idToken nonce = .error e) :
    LoginFailure.raised e ≠ noMatchingKey provider := by
  cases other with
  | google =>
    simp only [verifyIdToken, verifyGoogleIdToken] at h
    split at h
    · cases h
      exact ne_noMatchingKey (by simp [String.toList_append, toString])
    · split_ifs at h
      cases h
      exact ne_noMatchingKey (by decide)
  | apple =>
    simp only [verifyIdToken, verifyAppleIdToken] at h
    split at h
    · cases h
      exact ne_noMatchingKey (by simp [String.toList_append, toString])
    · split_ifs at h
      · cases h
        exact ne_noMatchingKey (by decide)
      · cases h
        exact ne_noMatchingKey (by decide)

/-- A search in a recent document. -/
theorem known_look {login : KeyLogin} {kid : Option String} {forced : Bool}
    (hkid : library.getUnverifiedHeader login.idToken = .ok kid) (hsince : since ≤ s.clock)
    (hrecent : Recent s login.provider since document)
    (hforced : forced = true → findKid kid document = none → Unpublished library s login since) :
    Known library ids s (.look login kid since s.clock forced document) := by
  unfold KeyTask.look
  split
  · rename_i entry hentry
    obtain ⟨hsame, hmem⟩ := findKid_eq_some hentry
    exact ⟨hsame ▸ hkid, document, hrecent, hmem⟩
  · rename_i hmissing
    split_ifs with hsecond
    · exact fun _ => hforced hsecond hmissing
    · exact ⟨hkid, hsince, le_refl _⟩

/-- What a login learns from a second request. -/
theorem unpublished_of_receive {login : KeyLogin} {kid : Option String} {asked : ℤ}
    {response : JwksResponse μ} (hkid : library.getUnverifiedHeader login.idToken = .ok kid)
    (hsince : since ≤ asked) (hgiven : Given s login.provider asked response)
    (hreceive : ((s.caches login.provider).receive login.provider asked response).1 = .ok document)
    (hmissing : findKid kid document = none) : Unpublished library s login since := by
  cases response with
  | document given =>
    cases hreceive
    obtain ⟨time, htime, hserved⟩ := hgiven
    exact .inr ⟨kid, document, time, hkid, hsince.trans htime, hserved, hmissing⟩
  | refused =>
    obtain ⟨time, htime, hrefused⟩ := hgiven
    exact .inl ⟨time, hsince.trans htime, hrefused⟩

theorem Unpublished.mono {login : KeyLogin} (h : Unpublished library s login since)
    (hgrows : Grows s s') : Unpublished library s' login since := by
  refine h.imp (fun hrefused => hrefused.mono hgrows) ?_
  rintro ⟨kid, document, time, hkid, htime, hserved, hmissing⟩
  exact ⟨kid, document, time, hkid, htime, hgrows.2 hserved, hmissing⟩

theorem Given.mono {asked : ℤ} {response : JwksResponse μ} (h : Given s provider asked response)
    (hgrows : Grows s s') : Given s' provider asked response := by
  cases response with
  | document document =>
    obtain ⟨time, htime, hserved⟩ := h
    exact ⟨time, htime, hgrows.2 hserved⟩
  | refused => exact RefusedSince.mono h hgrows

theorem SignedRecently.mono {login : KeyLogin} {entry : JwkData μ} {claims : IdTokenClaims}
    (h : SignedRecently library ids s login since entry claims) (hgrows : Grows s s') :
    SignedRecently library ids s' login since entry claims := by
  obtain ⟨hkid, ⟨document, hrecent, hmem⟩, hdecoded⟩ := h
  exact ⟨hkid, ⟨document, hrecent.mono hgrows, hmem⟩, hdecoded⟩

theorem Known.mono (h : Known library ids s task) (hgrows : Grows s s') :
    Known library ids s' task := by
  cases task with
  | arriving login => trivial
  | asking login kid since asked forced =>
    obtain ⟨hkid, hsince, hasked⟩ := h
    exact ⟨hkid, hsince, hasked.trans hgrows.1⟩
  | answering login kid since asked forced response =>
    obtain ⟨hkid, hsince, hasked, hgiven⟩ := h
    exact ⟨hkid, hsince, hasked.trans hgrows.1, hgiven.mono hgrows⟩
  | holding login since entry =>
    obtain ⟨hkid, document, hrecent, hmem⟩ := h
    exact ⟨hkid, document, hrecent.mono hgrows, hmem⟩
  | verified login since entry claims => exact SignedRecently.mono h hgrows
  | failed login since failure => exact fun hfailure => (h hfailure).mono hgrows

theorem grows_note (s : KeyServer μ) (event : KeyEvent μ) : Grows s (s.note event) :=
  ⟨le_refl _, List.subset_cons_self _ _⟩

theorem grows_receive (s : KeyServer μ) (provider : OAuthProvider) (asked : ℤ)
    (response : JwksResponse μ) : Grows s (s.receive provider asked response) := by
  refine ⟨le_refl _, ?_⟩
  cases response with
  | document document => exact List.subset_cons_self _ _
  | refused => exact List.Subset.refl _

/-- A login that gives up has found no document in its cache. -/
theorem held_of_giveUp {asked : ℤ} {response : JwksResponse μ} {e : OAuthException}
    (h : ((s.caches provider).receive provider asked response).1 = .error e) :
    e = .oauthError (jwksFailure provider) ∧ response = .refused ∧
      (s.caches provider).held = none := by
  cases response with
  | document document => cases h
  | refused =>
    simp only [JwksCache.receive] at h
    split at h
    · cases h
    · rename_i hheld
      cases h
      exact ⟨rfl, rfl, hheld⟩

/-- What a step of a login keeps. -/
theorem KeyAct.keeps (hact : KeyAct library ids s task s' task') (hcached : Cached s)
    (hknown : Known library ids s task) :
    Cached s' ∧ Grows s s' ∧ Known library ids s' task' := by
  cases hact with
  | unreadable h =>
    refine ⟨hcached, .refl s, fun hfailure => absurd hfailure (ne_noMatchingKey ?_)⟩
    simp [String.toList_append, toString]
  | hit hkid h =>
    exact ⟨hcached, .refl s, known_look hkid (le_refl _) (recent_of_lookup hcached h)
      fun hforced => by cases hforced⟩
  | miss hkid h => exact ⟨hcached, .refl s, hkid, le_refl _, le_refl _⟩
  | serve =>
    obtain ⟨hkid, hsince, hasked⟩ := hknown
    exact ⟨hcached.note (fun _ => rfl) (fun _ heq => by cases heq), grows_note s _, hkid, hsince,
      hasked, s.clock, hasked, List.mem_cons_self⟩
  | refuse =>
    obtain ⟨hkid, hsince, hasked⟩ := hknown
    exact ⟨hcached.note (fun _ => rfl) (fun _ heq => by cases heq), grows_note s _, hkid, hsince,
      hasked, s.clock, hasked, List.mem_cons_self⟩
  | @receive login kid since asked forced response document h =>
    obtain ⟨hkid, hsince, hasked, hgiven⟩ := hknown
    have hgrows := grows_receive s login.provider asked response
    refine ⟨hcached.receive hgiven, hgrows, ?_⟩
    exact known_look hkid (hsince.trans hasked)
      ((recent_of_receive hcached hgiven hsince h).mono hgrows) fun _ hmissing =>
        (unpublished_of_receive hkid hsince hgiven h hmissing).mono hgrows
  | @giveUp login kid since asked forced response e h =>
    obtain ⟨hkid, hsince, hasked, hgiven⟩ := hknown
    obtain ⟨rfl, rfl, hheld⟩ := held_of_giveUp h
    have hreceived := hcached.receive hgiven
    refine ⟨hreceived.note (fun _ => rfl) fun provider heq => ?_,
      ⟨le_refl _, List.subset_cons_self _ _⟩, fun hfailure => by cases hfailure⟩
    cases heq
    simp [KeyServer.receive, JwksCache.receive, hheld]
  | verify hkey hdecode h =>
    obtain ⟨hkid, hrecent⟩ := hknown
    obtain ⟨hdecoded, hpresent⟩ := decoded_of_verifyIdToken h
    exact ⟨hcached, .refl s, hkid, hrecent, ⟨_, hkey, hdecode _ hdecoded⟩, hpresent⟩
  | refuseToken h =>
    exact ⟨hcached, .refl s, fun hfailure =>
      absurd hfailure (ne_noMatchingKey_of_verifyIdToken h)⟩
  | breakOff h => exact ⟨hcached, .refl s, fun hfailure => by cases hfailure⟩

theorem keyLogins_keeps (library : JwtLibrary μ κ) (ids : ClientIds) :
    (keyLogins library ids).Keeps Grows Cached (Known library ids) where
  env henv hcached := by
    obtain ⟨hclock, hcaches, hhistory⟩ := henv
    refine ⟨⟨?_, ?_, ?_⟩, hclock, by rw [hhistory]; exact List.Subset.refl _⟩
    · rw [hcaches, hhistory]
      exact hcached.served
    · rw [hcaches, hhistory]
      exact hcached.last
    · rw [hhistory]
      exact hcached.fails
  start {_ task} hstart _ := by
    cases task with
    | arriving login => trivial
    | _ => cases hstart
  act hact hcached hknown := hact.keeps hcached hknown
  stable hgrows hknown := hknown.mono hgrows

/-! ## Main results -/

section Run

/-- One token, signed with the key named `k1`. -/
def oneToken : JwtLibrary String String where
  getUnverifiedHeader token :=
    if token = "token" then .ok (some "k1") else .error "Not enough segments"
  pyJwk entry := some entry.material
  Decodes key audiences issuers token claims := key = "rsa" ∧ "logit" ∈ audiences ∧
    "accounts.google.com" ∈ issuers ∧ token = "token" ∧ claims = ⟨some "1", some "a@x.kr", none⟩

def oneClient : ClientIds := ⟨some "logit", none, none, none, none⟩

def tokenLogin : KeyLogin := ⟨.google, "token", none⟩

/-- Both providers publish the same entries. -/
def publishing (entries : List (JwkData String)) : OAuthProvider → Jwks String :=
  fun _ => .members (some entries)

/-- The first login of a process asks the endpoint, and looks for its key in the answer. -/
theorem runs_arriving (entries : List (JwkData String)) : ∃ s : KeyServer String,
    s.clock = 0 ∧ s.published = publishing entries ∧
      (keyLogins oneToken oneClient).Runs (.started 0 (publishing entries), .arriving tokenLogin)
        (s, .look tokenLogin (some "k1") 0 0 false (.members (some entries))) :=
  ⟨_, rfl, rfl, .step (.miss rfl rfl) (.step .serve (.last (.receive rfl)))⟩

end Run

/-- An ID token that has been let in is signed with the key it names, from a document its
provider has published less than an hour before the login came, or later; the age of the
document has no bound only where the endpoint has refused to answer since the login came. The
token has been decoded with that key for one of the service's clients and the provider's
issuers, and names its user and an e-mail. -/
theorem signedRecently_of_reachable {clock : ℤ} {published : OAuthProvider → Jwks μ}
    {p : Pool (KeyServer μ) (KeyTask μ)}
    (h : Pool.Reachable (keyLogins library ids) (.started clock published) p) {login : KeyLogin}
    {since : ℤ} {entry : JwkData μ} {claims : IdTokenClaims}
    (hverified : .verified login since entry claims ∈ p.tasks) :
    SignedRecently library ids p.shared login since entry claims :=
  ((keyLogins_keeps library ids).of_reachable (.started clock published) h).2 _ hverified

/-- A login whose key is in the document that the endpoint answers. -/
theorem signedRecently_of_reachable_token : ∃ p,
    Pool.Reachable (keyLogins oneToken oneClient)
        (.started 0 (publishing [⟨some "k1", "rsa"⟩])) p ∧
      SignedRecently oneToken oneClient p.shared tokenLogin 0 ⟨some "k1", "rsa"⟩
      ⟨some "1", some "a@x.kr", none⟩ := by
  obtain ⟨s, -, -, hrun⟩ := runs_arriving [⟨some "k1", "rsa"⟩]
  have hverify : KeyAct oneToken oneClient s
      (.look tokenLogin (some "k1") 0 0 false (.members (some [⟨some "k1", "rsa"⟩]))) s
      (.verified tokenLogin 0 ⟨some "k1", "rsa"⟩ ⟨some "1", some "a@x.kr", none⟩) := by
    refine @KeyAct.verify _ _ oneToken oneClient s tokenLogin 0 _ "rsa"
      (fun _ => .ok ⟨some "1", some "a@x.kr", none⟩) _ rfl ?_ (by decide)
    rintro claims hclaims
    cases hclaims
    exact ⟨rfl, by decide, by decide, rfl, rfl⟩
  have hreach := (hrun.act hverify).reachable trivial .refl
  exact ⟨_, hreach, signedRecently_of_reachable hreach List.mem_cons_self⟩

/-- An ID token is turned away for a key that is not found only where the endpoint, at some
instant since the login came, has refused to answer or published no such key. So a provider
may change its keys at any time. -/
theorem unpublished_of_reachable {clock : ℤ} {published : OAuthProvider → Jwks μ}
    {p : Pool (KeyServer μ) (KeyTask μ)}
    (h : Pool.Reachable (keyLogins library ids) (.started clock published) p) {login : KeyLogin}
    {since : ℤ} (hfailed : .failed login since (noMatchingKey login.provider) ∈ p.tasks) :
    Unpublished library p.shared login since :=
  ((keyLogins_keeps library ids).of_reachable (.started clock published) h).2 _ hfailed rfl

/-- A login whose key is not published, at its first try and at its second. -/
theorem unpublished_of_reachable_token : ∃ p,
    Pool.Reachable (keyLogins oneToken oneClient) (.started 0 (publishing [])) p ∧
      Unpublished oneToken p.shared tokenLogin 0 := by
  obtain ⟨s, hclock, hpublished, hrun⟩ := runs_arriving []
  have hserve : KeyAct oneToken oneClient s
      (.look tokenLogin (some "k1") 0 0 false (.members (some []))) _ _ := .serve
  have hreceive := @KeyAct.receive _ _ oneToken oneClient
    (s.note (.served .google s.clock (s.published .google))) tokenLogin (some "k1") 0 0 true
    (.document (s.published .google)) _ rfl
  rw [hpublished] at hreceive hserve
  have hreach := ((hrun.act hserve).act hreceive).reachable trivial .refl
  exact ⟨_, hreach, unpublished_of_reachable hreach List.mem_cons_self⟩

/-- No login fails for want of a document of keys after one with members has been received,
unless a later one was `{}`: an endpoint that refuses leaves the last document in place. -/
theorem failsEmpty_of_reachable {clock : ℤ} {published : OAuthProvider → Jwks μ}
    {p : Pool (KeyServer μ) (KeyTask μ)}
    (h : Pool.Reachable (keyLogins library ids) (.started clock published) p) :
    FailsEmpty p.shared.history :=
  ((keyLogins_keeps library ids).of_reachable (.started clock published) h).1.fails

/-- The endpoint refuses the first login of a process. -/
theorem failsEmpty_of_reachable_refused : ∃ p,
    Pool.Reachable (keyLogins oneToken oneClient) (.started 0 (publishing [])) p ∧
      .failed .google ∈ p.shared.history ∧ FailsEmpty p.shared.history := by
  have hrun : (keyLogins oneToken oneClient).Runs
      (.started 0 (publishing []), .arriving tokenLogin) _ :=
    .step (.miss rfl rfl) (.step .refuse (.last (.giveUp rfl)))
  have hreach := hrun.reachable trivial .refl
  exact ⟨_, hreach, List.mem_cons_self, failsEmpty_of_reachable hreach⟩

end Logit.Auth

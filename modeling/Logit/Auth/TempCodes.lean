import Logit.Auth.OAuthState
import Logit.Python.Json

/-!
# Codes of finished logins

A callback that has logged a user in keeps the tokens in Redis for a minute, as JSON under a
code it sends to the browser, and `/auth/token` gives the tokens to whoever brings the code.
The states of logins that are not finished are kept in the same Redis, and both routes take
any text as a code or a state. The keys have different prefixes, the code is drawn at random,
and taking a value deletes it.

## Main definitions

* `LoginResult` — what a login returns, and its text
* `exchangeToken` — `/auth/token` with what Redis has returned
* `CodeStore`, `CodeTask`, `CodeAct` — Redis, the requests, and their steps
* `HandedOver` — what is expected of `/auth/token`

## Main results

* `exchangeToken_text` — what is kept is answered as it was
* `handedOver_of_reachable` — the tokens of a login are given out at most once, within a
  minute, and for its own code
-/

namespace Logit.Auth

open Concurrency Python Python.Json

/-! ## The value -/

/-- What `_generate_tokens_for_user` returns. -/
structure LoginResult where
  isNewUser : Bool
  accessToken : String
  refreshToken : String
  deriving DecidableEq, Repr

def LoginResult.toDict (result : LoginResult) : Dict :=
  [("is_new_user", .bool result.isNewUser), ("access_token", .str result.accessToken),
    ("refresh_token", .str result.refreshToken)]

/-- `json.dumps(result)`. -/
def LoginResult.text (result : LoginResult) : String := dumps true result.toDict

inductive Platform
  | web
  | mobile
  deriving DecidableEq, Repr

/-- An answer of `/auth/token`: its body, and the cookie it sets. -/
structure ExchangeResponse where
  content : Dict
  refreshCookie : Option Scalar
  deriving DecidableEq, Repr

inductive ExchangeError
  | raised (e : OAuthException)
  | jsonDecodeError
  | keyError (key : String)
  deriving DecidableEq, Repr

def invalidCode : ExchangeError := .raised (.oauthError "Invalid or expired code.")

/-- `token_data[key]`. -/
def item (tokenData : Dict) (key : String) : Except ExchangeError Scalar :=
  match tokenData.get key with
  | some value => .ok value
  | none => .error (.keyError key)

/-- `exchange_token` with what Redis has returned for its code. -/
def exchangeToken (data : Option String) (platform : Platform) :
    Except ExchangeError ExchangeResponse :=
  match data.filter (· ≠ "") with
  | none => .error invalidCode
  | some data =>
    match loads data with
    | none => .error .jsonDecodeError
    | some tokenData => do
      let isNewUser ← item tokenData "is_new_user"
      let accessToken ← item tokenData "access_token"
      let refreshToken ← item tokenData "refresh_token"
      match platform with
      | .mobile => return ⟨[("is_new_user", isNewUser), ("access_token", accessToken),
          ("refresh_token", refreshToken)], none⟩
      | .web => return ⟨[("is_new_user", isNewUser), ("access_token", accessToken)],
          some refreshToken⟩

/-- The answer with the tokens of a login. -/
def LoginResult.response (result : LoginResult) : Platform → ExchangeResponse
  | .mobile => ⟨result.toDict, none⟩
  | .web => ⟨result.toDict.take 2, some (.str result.refreshToken)⟩

theorem LoginResult.text_ne (result : LoginResult) : result.text ≠ "" := by
  intro h
  have hchars := congrArg String.toList h
  rw [text, dumps, String.toList_ofList] at hchars
  cases hchars

/-- What is kept for a login is answered as it was. -/
theorem exchangeToken_text (result : LoginResult) (platform : Platform) :
    exchangeToken (some result.text) platform = .ok (result.response platform) := by
  have hdata : (some result.text).filter (· ≠ "") = some result.text := by
    simp [Option.filter, result.text_ne]
  have hkeys : (result.toDict.map Prod.fst).Nodup := by
    simp only [LoginResult.toDict, List.map_cons, List.map_nil]
    decide
  have hloads : loads result.text = some result.toDict := loads_dumps true hkeys
  simp only [exchangeToken, hdata, hloads]
  cases platform <;> rfl

theorem exchangeToken_none (platform : Platform) :
    exchangeToken none platform = .error invalidCode := rfl

/-! ## Redis -/

/-- Values and the instants their keys expire at, in milliseconds. -/
abbrev Redis := String → Option (String × ℤ)

def tempKey (code : String) : String := "oauth:temp:" ++ code

def stateKey (state : String) : String := "oauth:state:" ++ state

theorem tempKey_injective : Function.Injective tempKey := by
  intro code other h
  have hchars := congrArg String.toList h
  rw [tempKey, tempKey, String.toList_append, String.toList_append] at hchars
  exact String.toList_inj.mp (List.append_cancel_left hchars)

theorem stateKey_ne_tempKey (state code : String) : stateKey state ≠ tempKey code := by
  intro h
  have hchars := congrArg (fun text => text.toList.take 11) h
  simp [stateKey, tempKey, String.toList_append] at hchars

/-- `SET key value EX seconds`. -/
def Redis.set (redis : Redis) (key value : String) (now seconds : ℤ) : Redis :=
  Function.update redis key (some (value, now + seconds * 1000))

/-- `GETDEL key`: the value, unless it has expired. -/
def Redis.get (redis : Redis) (key : String) (now : ℤ) : Option String :=
  ((redis key).filter (now < ·.2)).map Prod.fst

def Redis.del (redis : Redis) (key : String) : Redis := Function.update redis key none

/-- States are kept apart from codes. -/
theorem Redis.set_stateKey (redis : Redis) (state value : String) (now seconds : ℤ)
    (code : String) :
    redis.set (stateKey state) value now seconds (tempKey code) = redis (tempKey code) :=
  Function.update_of_ne (Ne.symm (stateKey_ne_tempKey state code)) _ _

theorem Redis.del_stateKey (redis : Redis) (state code : String) :
    redis.del (stateKey state) (tempKey code) = redis (tempKey code) :=
  Function.update_of_ne (Ne.symm (stateKey_ne_tempKey state code)) _ _

/-! ## Runs -/

inductive CodeEvent
  /-- A callback has kept the result of a login under a code. -/
  | stored (code : String) (result : LoginResult) (time : ℤ)
  /-- `/auth/token` has answered a code. -/
  | exchanged (code : String) (platform : Platform) (time : ℤ)
      (answer : Except ExchangeError ExchangeResponse)

/-- Redis and its clock, and what has happened, latest first. -/
structure CodeStore where
  clock : ℤ
  redis : Redis
  history : List CodeEvent

def CodeStore.started (clock : ℤ) : CodeStore := ⟨clock, fun _ => none, []⟩

/-- No callback has drawn a code. -/
def Unused (history : List CodeEvent) (code : String) : Prop :=
  ∀ result time, .stored code result time ∉ history

def CodeStore.store (s : CodeStore) (code : String) (result : LoginResult) : CodeStore where
  clock := s.clock
  redis := s.redis.set (tempKey code) result.text s.clock 60
  history := .stored code result s.clock :: s.history

def CodeStore.exchange (s : CodeStore) (code : String) (platform : Platform) : CodeStore where
  clock := s.clock
  redis := s.redis.del (tempKey code)
  history := .exchanged code platform s.clock
    (exchangeToken (s.redis.get (tempKey code) s.clock) platform) :: s.history

/-- A request that is about to use Redis. -/
inductive CodeTask
  /-- A login page with its nonce. -/
  | creatingState (nonce : Option String)
  /-- A callback with a state. -/
  | verifyingState (state : String)
  /-- A callback that has logged its user in. -/
  | redirecting (result : LoginResult)
  | exchanging (code : String) (platform : Platform)
  | over
  deriving DecidableEq, Repr

/-- The step of a request that uses Redis. What comes between a callback's state and its login is
left out: a callback may have any result. -/
inductive CodeAct : CodeStore → CodeTask → CodeStore → CodeTask → Prop
  | createState {s : CodeStore} {nonce : Option String} (state : String) :
      CodeAct s (.creatingState nonce)
        { s with redis := s.redis.set (stateKey state) (createOauthState nonce) s.clock 300 } .over
  | verifyState {s : CodeStore} {state : String} {nonce : Option String}
      (h : verifyOauthState (s.redis.get (stateKey state) s.clock) = .ok nonce)
      (result : LoginResult) :
      CodeAct s (.verifyingState state) { s with redis := s.redis.del (stateKey state) }
        (.redirecting result)
  | refuseState {s : CodeStore} {state : String} :
      CodeAct s (.verifyingState state) { s with redis := s.redis.del (stateKey state) } .over
  | store {s : CodeStore} {result : LoginResult} {code : String} (hcode : TokenUrlsafe code)
      (hnew : Unused s.history code) :
      CodeAct s (.redirecting result) (s.store code result) .over
  | exchange {s : CodeStore} {code : String} {platform : Platform} :
      CodeAct s (.exchanging code platform) (s.exchange code platform) .over
  | fail {s : CodeStore} {task : CodeTask} : CodeAct s task s .over

/-- Time passes, and keys are lost. -/
def Loses (s s' : CodeStore) : Prop :=
  s.clock ≤ s'.clock ∧ s'.history = s.history ∧
    ∀ key, s'.redis key = s.redis key ∨ s'.redis key = none

def CodeTask.Starts : CodeTask → Prop
  | .redirecting _ => False
  | .over => False
  | _ => True

/-- The requests of web logins that use Redis. -/
def codeRequests : Program CodeStore CodeTask := ⟨Loses, CodeTask.Starts, CodeAct⟩

/-! ## What is expected -/

/-- Whether `/auth/token` has given out the tokens that are kept under a code. -/
def CodeEvent.gives (code : String) : CodeEvent → Bool
  | .exchanged other _ _ (.ok _) => other = code
  | _ => false

/-- What `/auth/token` gives out for a code are the tokens of the login whose callback has drawn
the code, less than a minute ago; it gives them out once, and otherwise says that the code is
invalid or has expired. -/
structure HandedOver (history : List CodeEvent) : Prop where
  own : ∀ code platform time response, .exchanged code platform time (.ok response) ∈ history →
    ∃ result stored, .stored code result stored ∈ history ∧ stored ≤ time ∧
      time < stored + 60 * 1000 ∧ response = result.response platform
  single : ∀ code result result' stored stored', .stored code result stored ∈ history →
    .stored code result' stored' ∈ history → result = result' ∧ stored = stored'
  once : ∀ code, history.countP (CodeEvent.gives code) ≤ 1
  refused : ∀ code platform time e, .exchanged code platform time (.error e) ∈ history →
    e = invalidCode

/-! ## What Redis keeps -/

variable {s s' : CodeStore} {task task' : CodeTask} {code : String} {history : List CodeEvent}

/-- Each code that is kept has the text of its login's result, and has not been exchanged. -/
structure CodesKept (s : CodeStore) : Prop where
  kept : ∀ code value expiry, s.redis (tempKey code) = some (value, expiry) →
    s.history.countP (CodeEvent.gives code) = 0 ∧ ∃ result stored,
      .stored code result stored ∈ s.history ∧ stored ≤ s.clock ∧
        expiry = stored + 60 * 1000 ∧ value = result.text
  handed : HandedOver s.history

theorem CodesKept.started (clock : ℤ) : CodesKept (.started clock) where
  kept _ _ _ h := by cases h
  handed :=
    { own := fun _ _ _ _ h => absurd h List.not_mem_nil
      single := fun _ _ _ _ _ h => absurd h List.not_mem_nil
      once := fun _ => Nat.zero_le 1
      refused := fun _ _ _ _ h => absurd h List.not_mem_nil }

/-- A code that has been exchanged has been drawn. -/
theorem HandedOver.countP_of_unused (h : HandedOver history) (hcode : Unused history code) :
    history.countP (CodeEvent.gives code) = 0 := by
  rw [List.countP_eq_zero]
  intro event hevent hgives
  cases event with
  | stored other result time => cases hgives
  | exchanged other platform time answer =>
    cases answer with
    | error e => cases hgives
    | ok response =>
      obtain rfl : other = code := of_decide_eq_true hgives
      obtain ⟨result, stored, hstored, -⟩ := h.own _ _ _ _ hevent
      exact hcode result stored hstored

/-- A code is refused. -/
theorem HandedOver.refuse (h : HandedOver history) (code : String) (platform : Platform)
    (time : ℤ) : HandedOver (.exchanged code platform time (.error invalidCode) :: history) where
  own other platform' time' response hmem := by
    obtain ⟨result, stored, hstored, hkept⟩ :=
      h.own other platform' time' response (by simpa using hmem)
    exact ⟨result, stored, List.mem_cons_of_mem _ hstored, hkept⟩
  single other first second stored stored' hfirst hsecond :=
    h.single other first second stored stored' (by simpa using hfirst) (by simpa using hsecond)
  once other := by
    rw [List.countP_cons_of_neg (by simp [CodeEvent.gives])]
    exact h.once other
  refused other platform' time' e hmem := by
    rcases List.mem_cons.mp hmem with heq | hmem
    · cases heq
      rfl
    · exact h.refused other platform' time' e hmem

/-- The tokens of a login are given out for a code that has not been exchanged. -/
theorem HandedOver.give (h : HandedOver history)
    (hcount : history.countP (CodeEvent.gives code) = 0) (platform : Platform)
    {result : LoginResult} {stored time : ℤ}
    (hstored : .stored code result stored ∈ history) (hbefore : stored ≤ time)
    (hfresh : time < stored + 60 * 1000) :
    HandedOver (.exchanged code platform time (.ok (result.response platform)) :: history) where
  own other platform' time' response hmem := by
    rcases List.mem_cons.mp hmem with heq | hmem
    · cases heq
      exact ⟨result, stored, List.mem_cons_of_mem _ hstored, hbefore, hfresh, rfl⟩
    · obtain ⟨old, stored', hold, hkept⟩ := h.own other platform' time' response hmem
      exact ⟨old, stored', List.mem_cons_of_mem _ hold, hkept⟩
  single other first second time' time'' hfirst hsecond :=
    h.single other first second time' time'' (by simpa using hfirst) (by simpa using hsecond)
  once other := by
    by_cases hother : other = code
    · subst hother
      rw [List.countP_cons_of_pos (by simp [CodeEvent.gives]), hcount]
    · rw [List.countP_cons_of_neg (by simpa [CodeEvent.gives] using Ne.symm hother)]
      exact h.once other
  refused other platform' time' e hmem := h.refused other platform' time' e (by simpa using hmem)

/-- Codes are lost, and nothing else happens to them. -/
theorem CodesKept.of_redis (h : CodesKept s) (hclock : s.clock ≤ s'.clock)
    (hhistory : s'.history = s.history)
    (hredis : ∀ code, s'.redis (tempKey code) = s.redis (tempKey code) ∨
      s'.redis (tempKey code) = none) : CodesKept s' where
  kept code value expiry hvalue := by
    rcases hredis code with hsame | hgone
    · obtain ⟨hcount, result, stored, hstored, hbefore, hkept⟩ :=
        h.kept code value expiry (hsame ▸ hvalue)
      rw [hhistory]
      exact ⟨hcount, result, stored, hstored, hbefore.trans hclock, hkept⟩
    · exact absurd (hgone.symm.trans hvalue) (by simp)
  handed := hhistory ▸ h.handed

theorem CodesKept.store (h : CodesKept s) (hcode : Unused s.history code) (result : LoginResult) :
    CodesKept (s.store code result) where
  kept other value expiry hvalue := by
    rw [CodeStore.store, List.countP_cons_of_neg (by simp [CodeEvent.gives])]
    by_cases hother : other = code
    · subst hother
      simp only [CodeStore.store, Redis.set, Function.update_self, Option.some.injEq,
        Prod.mk.injEq] at hvalue
      exact ⟨h.handed.countP_of_unused hcode, result, s.clock, List.mem_cons_self, le_refl _,
        hvalue.2.symm, hvalue.1.symm⟩
    · have hkey : tempKey other ≠ tempKey code := fun heq => hother (tempKey_injective heq)
      simp only [CodeStore.store, Redis.set, Function.update_of_ne hkey] at hvalue
      obtain ⟨hcount, old, stored, hstored, hkept⟩ := h.kept other value expiry hvalue
      exact ⟨hcount, old, stored, List.mem_cons_of_mem _ hstored, hkept⟩
  handed :=
    { own := fun other platform time response hmem => by
        obtain ⟨old, stored, hstored, hkept⟩ :=
          h.handed.own other platform time response (by simpa [CodeStore.store] using hmem)
        exact ⟨old, stored, List.mem_cons_of_mem _ hstored, hkept⟩
      single := fun other first second time time' hfirst hsecond => by
        simp only [CodeStore.store, List.mem_cons, CodeEvent.stored.injEq] at hfirst hsecond
        rcases hfirst with ⟨rfl, rfl, rfl⟩ | hfirst
        · rcases hsecond with ⟨-, rfl, rfl⟩ | hsecond
          · exact ⟨rfl, rfl⟩
          · exact absurd hsecond (hcode _ _)
        · rcases hsecond with ⟨rfl, rfl, rfl⟩ | hsecond
          · exact absurd hfirst (hcode _ _)
          · exact h.handed.single other first second time time' hfirst hsecond
      once := fun other => by
        rw [CodeStore.store, List.countP_cons_of_neg (by simp [CodeEvent.gives])]
        exact h.handed.once other
      refused := fun other platform time e hmem =>
        h.handed.refused other platform time e (by simpa [CodeStore.store] using hmem) }

/-- What `/auth/token` answers while the codes are kept: the tokens of a login that has not been
exchanged, or that the code is invalid. -/
theorem CodesKept.answer (h : CodesKept s) (code : String) (platform : Platform) :
    exchangeToken (s.redis.get (tempKey code) s.clock) platform = .error invalidCode ∨
      s.history.countP (CodeEvent.gives code) = 0 ∧ ∃ result stored,
        .stored code result stored ∈ s.history ∧ stored ≤ s.clock ∧
          s.clock < stored + 60 * 1000 ∧
          exchangeToken (s.redis.get (tempKey code) s.clock) platform =
            .ok (result.response platform) := by
  cases hread : s.redis.get (tempKey code) s.clock with
  | none => exact .inl (exchangeToken_none platform)
  | some value =>
    obtain ⟨entry, hentry, rfl⟩ := Option.map_eq_some_iff.mp hread
    obtain ⟨hentry, hfresh⟩ := Option.filter_eq_some_iff.mp hentry
    obtain ⟨hcount, result, stored, hstored, hbefore, hexpiry, htext⟩ :=
      h.kept code entry.1 entry.2 hentry
    rw [decide_eq_true_eq, hexpiry] at hfresh
    rw [htext]
    exact .inr ⟨hcount, result, stored, hstored, hbefore, hfresh,
      exchangeToken_text result platform⟩

theorem CodesKept.exchange (h : CodesKept s) (code : String) (platform : Platform) :
    CodesKept (s.exchange code platform) where
  kept other value expiry hvalue := by
    have hother : other ≠ code := by
      rintro rfl
      simp [CodeStore.exchange, Redis.del] at hvalue
    have hkey : tempKey other ≠ tempKey code := fun heq => hother (tempKey_injective heq)
    simp only [CodeStore.exchange, Redis.del, Function.update_of_ne hkey] at hvalue
    obtain ⟨hcount, result, stored, hstored, hkept⟩ := h.kept other value expiry hvalue
    refine ⟨?_, result, stored, List.mem_cons_of_mem _ hstored, hkept⟩
    rw [CodeStore.exchange, List.countP_cons_of_neg, hcount]
    cases exchangeToken (s.redis.get (tempKey code) s.clock) platform <;>
      simp [CodeEvent.gives, Ne.symm hother]
  handed := by
    rcases h.answer code platform with hrefused | ⟨hcount, result, stored, hstored, hbefore, hfresh,
      hgiven⟩
    · rw [CodeStore.exchange, hrefused]
      exact h.handed.refuse code platform s.clock
    · rw [CodeStore.exchange, hgiven]
      exact h.handed.give hcount platform hstored hbefore hfresh

theorem CodesKept.setState (h : CodesKept s) (state value : String) (seconds : ℤ) :
    CodesKept { s with redis := s.redis.set (stateKey state) value s.clock seconds } :=
  h.of_redis (le_refl _) rfl fun code =>
    .inl (Redis.set_stateKey s.redis state value s.clock seconds code)

theorem CodesKept.delState (h : CodesKept s) (state : String) :
    CodesKept { s with redis := s.redis.del (stateKey state) } :=
  h.of_redis (le_refl _) rfl fun code => .inl (Redis.del_stateKey s.redis state code)

/-- What a step of a request keeps. -/
theorem CodeAct.kept (hact : CodeAct s task s' task') (h : CodesKept s) : CodesKept s' := by
  cases hact with
  | createState state => exact h.setState state _ 300
  | verifyState hverify result => exact h.delState _
  | refuseState => exact h.delState _
  | store hcode hnew => exact h.store hnew _
  | exchange => exact h.exchange _ _
  | fail => exact h

theorem codeRequests_keeps :
    codeRequests.Keeps (fun _ _ => True) CodesKept (fun _ _ => True) where
  env henv h := by
    obtain ⟨hclock, hhistory, hredis⟩ := henv
    exact ⟨h.of_redis hclock hhistory fun code => hredis (tempKey code), trivial⟩
  start _ _ := trivial
  act hact h _ := ⟨hact.kept h, trivial, trivial⟩
  stable _ _ := trivial

/-- Whatever callbacks, states and codes run together: the tokens of a login are given out at most
once, within a minute, and only for the code its callback has drawn; and every other code is
answered as invalid. -/
theorem handedOver_of_reachable {clock : ℤ} {p : Pool CodeStore CodeTask}
    (h : Pool.Reachable codeRequests (.started clock) p) : HandedOver p.shared.history :=
  (codeRequests_keeps.of_reachable (.started clock) h).1.handed

theorem Redis.get_set (redis : Redis) (key value : String) {now seconds later : ℤ}
    (h : later < now + seconds * 1000) :
    (redis.set key value now seconds).get key later = some value := by
  simp [Redis.get, Redis.set, h]

theorem Redis.get_del (redis : Redis) (key : String) (now : ℤ) :
    (redis.del key).get key now = none := by
  simp [Redis.get, Redis.del]

/-- A result of a login that is given out once. -/
theorem count_exchange_twice (s : CodeStore) (code : String) (result : LoginResult) :
    (((s.store code result).exchange code .web).exchange code .mobile).history.countP
      (CodeEvent.gives code) = s.history.countP (CodeEvent.gives code) + 1 := by
  have hfirst : (s.store code result).redis.get (tempKey code) s.clock = some result.text :=
    Redis.get_set _ _ _ (by omega)
  have hsecond : ((s.store code result).exchange code .web).redis.get (tempKey code) s.clock =
      none := Redis.get_del ..
  simp only [CodeStore.exchange, CodeStore.store] at hfirst hsecond ⊢
  rw [hsecond, hfirst, exchangeToken_none, exchangeToken_text]
  rw [List.countP_cons_of_neg (by simp [CodeEvent.gives]),
    List.countP_cons_of_pos (by simp [CodeEvent.gives]),
    List.countP_cons_of_neg (by simp [CodeEvent.gives])]

theorem runs_exchange (s : CodeStore) (code : String) (platform : Platform) :
    codeRequests.Runs (s, .exchanging code platform) (s.exchange code platform, .over) :=
  .last .exchange

/-- Redis after a login page. -/
def pageStore : CodeStore :=
  { CodeStore.started 0 with
    redis :=
      (CodeStore.started 0).redis.set (stateKey (drawnOf 's')) (createOauthState none) 0 300 }

/-- A login page, its callback, and two requests with the code. -/
theorem handedOver_of_reachable_twice : ∃ p, Pool.Reachable codeRequests (.started 0) p ∧
    p.shared.history.countP (CodeEvent.gives (drawnOf 'a')) = 1 ∧ HandedOver p.shared.history := by
  have hpage : codeRequests.Runs (.started 0, .creatingState none) (pageStore, .over) :=
    .last (.createState (drawnOf 's'))
  have hverify : verifyOauthState (pageStore.redis.get (stateKey (drawnOf 's')) pageStore.clock) =
      .ok none := by
    rw [pageStore, Redis.get_set _ _ _ (by decide)]
    rfl
  have hcallback : codeRequests.Runs (pageStore, .verifyingState (drawnOf 's')) _ :=
    .step (.verifyState hverify ⟨true, "access", "refresh"⟩)
      (.last (@CodeAct.store _ _ (drawnOf 'a') (tokenUrlsafe_drawnOf rfl)
        fun _ _ h => absurd h List.not_mem_nil))
  have hlogin := hcallback.reachable trivial (hpage.reachable trivial .refl)
  have hrun := (runs_exchange _ (drawnOf 'a') .mobile).reachable trivial
    ((runs_exchange _ (drawnOf 'a') .web).reachable trivial hlogin)
  exact ⟨_, hrun, count_exchange_twice _ (drawnOf 'a') _, handedOver_of_reachable hrun⟩

end Logit.Auth

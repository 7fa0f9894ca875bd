import Logit.Calendar.Datetime

/-!
# Session tokens

The tokens of signed-in users. The library that signs them is a parameter: what the
development uses of it is that a token it has signed is read back as what was signed.

## Main definitions

* `Jwt` — the library, with the secret and the algorithm of the settings
* `createAccessToken`, `createRefreshToken` — the tokens of a subject
* `verifyToken` — the subject of a token
-/

namespace Logit.Security

open Calendar

/-- What a token says, by the fields the service reads; the expiry is in whole seconds. -/
structure Payload where
  exp : Option ℤ
  sub : Option String
  type : Option String
  deriving DecidableEq, Repr

/-- PyJWT, with a secret and an algorithm. Signing is a function of the payload. -/
structure Jwt where
  encode : Payload → String
  /-- The payload of a token, if its signature is right. -/
  decode : String → Option Payload
  decode_encode : ∀ payload, decode (encode payload) = some payload

theorem Jwt.encode_injective (jwt : Jwt) : Function.Injective jwt.encode := by
  intro first second h
  have hdecode := congrArg jwt.decode h
  rw [jwt.decode_encode, jwt.decode_encode] at hdecode
  exact Option.some.inj hdecode

/-- The settings a refresh token depends on. -/
structure SessionSettings where
  REFRESH_TOKEN_EXPIRE_DAYS : ℕ

/-- The settings an access token depends on. -/
structure AccessSettings extends SessionSettings where
  ACCESS_TOKEN_EXPIRE_MINUTES : ℕ

/-- What an access token says; it lasts as long as is asked for, or as the settings say. -/
def accessPayload (settings : AccessSettings) (now : Datetime) (subject : String)
    (expiresDelta : Option ℤ) : Payload :=
  -- A `timedelta` of no length counts as none.
  let delta := (expiresDelta.filter (· ≠ 0)).getD
    (settings.ACCESS_TOKEN_EXPIRE_MINUTES * 60 * 1000000)
  ⟨some (now.unixSecondsAfter delta), some subject, some "access"⟩

/-- Creates an access token; a length is in microseconds. -/
def createAccessToken (settings : AccessSettings) (jwt : Jwt) (now : Datetime) (subject : String)
    (expiresDelta : Option ℤ) : String :=
  jwt.encode (accessPayload settings now subject expiresDelta)

variable (settings : SessionSettings) (jwt : Jwt) (now : Datetime)

/-- What a refresh token says. -/
def refreshPayload (subject : String) : Payload :=
  ⟨some (now.addDays settings.REFRESH_TOKEN_EXPIRE_DAYS).unixSeconds, some subject, some "refresh"⟩

/-- Creates a refresh token. -/
def createRefreshToken (subject : String) : String :=
  jwt.encode (refreshPayload settings now subject)

/-- The subject of a token, if the token is valid and of a type. -/
def verifyToken (token tokenType : String) : Option String :=
  match jwt.decode token with
  | none => none
  | some payload =>
    -- Reading a token includes the check of its expiry.
    if payload.exp.any (· ≤ now.unixSeconds) then none
    else match payload.sub with
      | none => none
      | some sub => if payload.type ≠ some tokenType then none else some sub

/-- A token is valid where it is read, has not run out and says what it should. -/
theorem verifyToken_eq_some {jwt : Jwt} {now : Datetime} {token tokenType sub : String} :
    verifyToken jwt now token tokenType = some sub ↔ ∃ payload, jwt.decode token = some payload ∧
      (∀ exp ∈ payload.exp, now.unixSeconds < exp) ∧ payload.sub = some sub ∧
      payload.type = some tokenType := by
  unfold verifyToken
  cases jwt.decode token with
  | none => simp
  | some payload =>
    obtain ⟨exp, subject, type⟩ := payload
    cases exp <;> cases subject <;> simp <;> grind

end Logit.Security

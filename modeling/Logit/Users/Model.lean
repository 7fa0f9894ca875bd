import Logit.Calendar.Datetime
import Logit.Python.Given
import Logit.Python.Uuid

/-!
# Users

The rows of the user table and the functions of the user service that write them. A
request reads a row, changes the object it has read and writes back the columns it
has changed; another request may have changed the row in between. So a function that
writes is given the row as it is stored and as it was loaded.

## Main definitions

* `User`, `OAuthProvider`, `UserUpdate` — a user, the providers, a partial update
* `flush` — what writing an object leaves in a column
* `updateUser`, `updateRefreshToken`, `deleteUser` — the writes of the service
* `User.Fits` — the lengths the columns take
-/

namespace Logit.Users

open Calendar Python

inductive OAuthProvider
  | google
  | apple
  deriving DecidableEq, Repr

/-- A user; the table is keyed by the id. -/
structure User where
  email : String
  fullName : Option String
  isActive : Bool
  oauthProvider : Option OAuthProvider
  oauthProviderId : Option String
  profileImageUrl : Option String
  termsAgreed : Bool
  termsAgreedAt : Option Datetime
  phone : Option String
  referralCode : Option String
  referredByUserId : Option String
  refreshToken : Option String
  deriving DecidableEq, Repr

/-- The user table. -/
abbrev UserTable := UUID → Option User

/-- A partial update of a profile. -/
structure UserUpdate where
  email : Given String
  fullName : Given String
  phone : Given String
  deriving DecidableEq, Repr

/-- The texts fit their columns. -/
structure User.Fits (user : User) : Prop where
  email : user.email.length ≤ 255
  fullName : ∀ name ∈ user.fullName, name.length ≤ 255

/-- The table after a user has been written. -/
def UserTable.set (users : UserTable) (userId : UUID) (user : User) : UserTable :=
  Function.update users userId (some user)

@[simp] theorem UserTable.set_self (users : UserTable) (userId : UUID) (user : User) :
    users.set userId user userId = some user := Function.update_self ..

theorem UserTable.set_ne (users : UserTable) {userId other : UUID} (h : other ≠ userId)
    (user : User) : users.set userId user other = users other := Function.update_of_ne h ..

/-! ## Writes -/

/-- What is left in a column of an object that has been assigned to: only a value that differs
from the loaded one is written. -/
def flush {α : Type} [DecidableEq α] (stored loaded assigned : α) : α :=
  if assigned = loaded then stored else assigned

theorem flush_cases {α : Type} [DecidableEq α] (stored loaded assigned : α) :
    flush stored loaded assigned = stored ∨ flush stored loaded assigned = assigned := by
  unfold flush
  split_ifs
  · exact .inl rfl
  · exact .inr rfl

/-- A column that has been changed is written. -/
theorem flush_of_ne {α : Type} [DecidableEq α] (stored : α) {loaded assigned : α}
    (h : assigned ≠ loaded) : flush stored loaded assigned = assigned := if_neg h

/-- Nobody else has written the column. -/
@[simp] theorem flush_self {α : Type} [DecidableEq α] (loaded assigned : α) :
    flush loaded loaded assigned = assigned := by
  unfold flush
  split_ifs with h
  · exact h.symm
  · rfl

variable (stored loaded : User)

/-- Updates a profile; `none` where the e-mail is null, which its column does not take. -/
def updateUser (userIn : UserUpdate) : Option User :=
  match userIn.email.replacing (some loaded.email) with
  | none => none
  | some email => some { stored with
      email := flush stored.email loaded.email email
      fullName := flush stored.fullName loaded.fullName
        (userIn.fullName.replacing loaded.fullName)
      phone := flush stored.phone loaded.phone (userIn.phone.replacing loaded.phone) }

/-- Stores a refresh token. -/
def updateRefreshToken (refreshToken : String) : User :=
  { stored with
    refreshToken := flush stored.refreshToken loaded.refreshToken (some refreshToken) }

/-- Deactivates a user and forgets the refresh token; the row and its provider stay. -/
def deleteUser : User :=
  { stored with
    isActive := flush stored.isActive loaded.isActive false
    refreshToken := flush stored.refreshToken loaded.refreshToken none }

end Logit.Users

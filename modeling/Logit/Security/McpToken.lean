import Logit.Calendar.Datetime

/-!
# MCP tokens

The token that gives an MCP client access, signed with a secret of its own. The
encoding of the claims is a parameter: nothing in this development depends on it.

## Main definitions

* `createMcpToken` — the token of a subject, until an expiry
-/

namespace Logit.Security

open Calendar

/-- The settings the token depends on. -/
structure McpSettings where
  MCP_JWT_SECRET : String
  MCP_TOKEN_EXPIRE_DAYS : ℕ

/-- What a token is made of. -/
structure McpClaims where
  exp : Datetime
  sub : String
  deriving DecidableEq, Repr

/-- Signs claims with a secret. -/
abbrev JwtEncode := McpClaims → String → String

/-- The MCP token of a subject; without an expiry, tokens last for the configured days.
`none` where the secret is missing and the source raises `ValueError`. -/
def createMcpToken (settings : McpSettings) (encode : JwtEncode) (now : Datetime)
    (subject : String) (expiresAt : Option Datetime) : Option String :=
  if settings.MCP_JWT_SECRET = "" then none
  else
    let expire := expiresAt.getD (now.addDays settings.MCP_TOKEN_EXPIRE_DAYS)
    some (encode ⟨expire, subject⟩ settings.MCP_JWT_SECRET)

end Logit.Security

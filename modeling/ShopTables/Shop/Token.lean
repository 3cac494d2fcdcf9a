import ShopTables.Api.Error
import ShopTables.Config.Basic
import ShopTables.Json.Form
import ShopTables.Shop.Calendar

/-!
# Access tokens

Every request but the one for a token carries a token. The shop gives one for credentials and may
say for how many seconds it is good; it is used until thirty seconds before that.
-/

namespace ShopTables

/-- A token, and when it expires, if it does. -/
structure AccessToken where
  text : String
  expires : Option Instant
  deriving DecidableEq

namespace AccessToken

/-- How long before its end a token is no longer used. -/
def margin : Int := 30 * Calendar.second

def isFresh (now : Instant) (t : AccessToken) : Bool := t.expires.all fun e => now + margin < e

/-- When a token given now for a number of seconds expires. One that is given for longer than any
span of time does not; one that would expire beyond the calendar is refused. -/
def expiry (now : Instant) (seconds : Option Int) : Except TokenFault (Option Instant) :=
  match seconds.bind Calendar.span? with
  | none => .ok none
  | some span =>
    match Calendar.after? now span with
    | some e => .ok (some e)
    | none => .error .beyondCalendar

end AccessToken

/-- What the shop answers when asked for a token. -/
structure TokenAnswer where
  text : String
  /-- For how many seconds the token is good. -/
  seconds : Option Int
  deriving DecidableEq

namespace TokenAnswer

/-- Reads an answer. The token is required; the seconds are a number of 64 bits with sign. -/
def read? (body : List UInt8) : Option TokenAnswer := do
  match ← Json.Form.read? ["access_token", "expires_in"] (← Json.Outline.read? body) with
  | [text, seconds] =>
    return {
      text := ← Json.Form.string? none text
      seconds :=
        ← Json.Form.optionalInt? (-9223372036854775808) 9223372036854775807 seconds }
  | _ => none

end TokenAnswer

/-- What asks for a token: an integration names itself, a user comes through the administration. -/
def Credentials.toJson : Credentials → Json
  | .client id secret =>
    .object [("client_id", .string id), ("client_secret", .string secret),
      ("grant_type", .string "client_credentials")]
  | .user name password =>
    .object [("client_id", .string "administration"), ("grant_type", .string "password"),
      ("password", .string password), ("scopes", .string "write"), ("username", .string name)]

end ShopTables

import ShopTables.Api.Request
import ShopTables.Files

/-!
# What can go wrong between here and the shop

Each cause is a constructor, and each wording is in `ApiError.message`. Failures to reach the shop
or to be served by it are of the transport class; an answer that is not the expected document is of
the decode class.
-/

namespace ShopTables

/-- What a configuration lacks. -/
inductive ConfigFault where
  | emptyUrl
  | noCredentials
  | noPartitions
  deriving DecidableEq

def ConfigFault.message : ConfigFault → String
  | .emptyUrl => "url must not be empty"
  | .noCredentials => "admin_api needs client_id/client_secret or username/password"
  | .noPartitions => "adapter.partitions must be at least 1"

/-- Why there is no access token. -/
inductive TokenFault where
  /-- The shop refused the credentials. -/
  | refused (status : Nat) (body : String)
  /-- The shop's answer is no token. -/
  | unreadable
  /-- The token would last longer than the calendar. -/
  | beyondCalendar
  deriving DecidableEq

def TokenFault.message : TokenFault → String
  | .refused status body => "token endpoint returned " ++ toString status ++ ": " ++ body
  | .unreadable => "invalid token response: not a token document"
  | .beyondCalendar => "the token expires beyond the end of the calendar"

/-- What can go wrong between here and the shop. -/
inductive ApiError where
  /-- The exchange itself failed. -/
  | transport (reason : String)
  /-- The shop answered with an error status. -/
  | status (method : Method) (path : String) (code : Nat) (body : String)
  /-- The statement was cancelled. -/
  | cancelled
  /-- An answer, or a saved one, is not the expected document. -/
  | decode
  /-- A body cannot be written as a document. -/
  | encode
  /-- A file cannot be opened. -/
  | io (fault : FileFault)
  /-- A configuration is not the expected document. -/
  | yaml
  | invalidConfig (fault : ConfigFault)
  | token (fault : TokenFault)
  deriving DecidableEq

namespace ApiError

def message : ApiError → String
  | .transport reason => "transport error: " ++ reason
  | .status method path code body =>
    method.name ++ " " ++ path ++ " failed with status " ++ toString code ++ ": " ++ body
  | .cancelled => "request cancelled"
  | .decode => "decode error: not the expected document"
  | .encode => "encode error: key must be a string"
  | .io fault => "I/O error: " ++ fault.message
  | .yaml => "YAML error: not a configuration"
  | .invalidConfig fault => "invalid config: " ++ fault.message
  | .token fault => "authentication failed: " ++ fault.message

/-- Did the shop fail to be reached or to serve? -/
def isTransport : ApiError → Bool
  | .transport _ | .status _ _ _ _ | .cancelled | .token _ => true
  | _ => false

/-- Was an answer not the expected document? -/
def isDecode : ApiError → Bool
  | .decode => true
  | _ => false

end ApiError

end ShopTables

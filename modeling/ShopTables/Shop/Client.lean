import ShopTables.Api.Basic
import ShopTables.Shop.Network
import ShopTables.Shop.Token

/-!
# The client of a shop

A client sends requests over a network, each with a token that it asks for when it has none that is
fresh. Whether the statement is cancelled is looked at twice: before anything is sent, and when the
shop has refused a request, since a cancelled statement need not explain itself.
-/

namespace ShopTables

/-- A client of a shop. -/
structure ShopClient (ω : Type) where
  /-- The shop's address. -/
  baseUrl : String
  credentials : Credentials
  /-- The last token that the shop gave. -/
  token : Option AccessToken := none
  network : ω

namespace ShopClient

variable {ω : Type} [Network ω]

/-- The client for a configuration. Nothing is sent yet. -/
def ofConfig (config : ShopConfig) (network : ω) : Except ApiError (ShopClient ω) := do
  config.validate
  return { baseUrl := config.baseUrl, credentials := ← config.credentials, network }

def url (c : ShopClient ω) (path : String) : String := c.baseUrl ++ path

def exchange (r : Outgoing) : Step ApiError (ShopClient ω) Reply :=
  ((Network.exchange r).mapError .transport).within (·.network) fun network c =>
    { c with network }

def isCancelled (ctx : Context) : Step ApiError (ShopClient ω) Bool :=
  return Network.isCancelled ctx (← get).network

/-! ### Tokens -/

def tokenRequest (c : ShopClient ω) : Outgoing where
  method := .post
  url := c.url tokenPath
  contentType := some "application/json"
  body := some c.credentials.toJson.bytes

/-- What an answer to the request for a token gives. -/
def tokenOf (now : Instant) (reply : Reply) : Except TokenFault AccessToken :=
  if reply.isSuccess then
    match TokenAnswer.read? reply.body with
    | some answer => do
      return { text := answer.text, expires := ← AccessToken.expiry now answer.seconds }
    | none => .error .unreadable
  else .error (.refused reply.status (String.ofList (Text.Utf8.lossy reply.body)))

def fetchToken : Step ApiError (ShopClient ω) AccessToken := do
  let reply ← exchange (← get).tokenRequest
  Step.ofExcept ((tokenOf (Network.now (← get).network) reply).mapError .token)

/-- The token that is kept, if it is fresh. -/
def freshToken? (c : ShopClient ω) : Option AccessToken :=
  c.token.filter (·.isFresh (Network.now c.network))

/-- The text of a fresh token: the one that is kept, or a new one, which is kept from now on. -/
def bearer : Step ApiError (ShopClient ω) String := do
  match (← get).freshToken? with
  | some t => return t.text
  | none =>
    let t ← fetchToken
    modify fun c => { c with token := some t }
    return t.text

/-! ### Requests -/

/-- Can a text be sent in a header? Controls other than a tab cannot. -/
def isHeaderText (s : String) : Bool :=
  s.toList.all fun c => c == '\t' || (32 ≤ c.toNat && c.toNat != 127)

def outgoing (c : ShopClient ω) (token : String) (r : Request) : Outgoing where
  method := r.method
  url := c.url r.path
  authorization := some ("Bearer " ++ token)
  contentType := r.body.map fun _ => "application/json"
  body := r.body

def send (ctx : Context) (r : Request) : Step ApiError (ShopClient ω) (List UInt8) := do
  if ← isCancelled ctx then throw .cancelled
  let token ← bearer
  unless isHeaderText token do throw (.transport "the token cannot be sent in a header")
  let reply ← exchange ((← get).outgoing token r)
  if reply.isSuccess then return reply.body
  if ← isCancelled ctx then throw .cancelled
  throw (.status r.method r.path reply.status (String.ofList (Text.Utf8.lossy reply.body)))

end ShopClient

instance {ω : Type} [Network ω] : Api (ShopClient ω) := ⟨ShopClient.send⟩

end ShopTables

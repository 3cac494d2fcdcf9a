import ShopTables.Api.Request
import ShopTables.Context
import ShopTables.Shop.Calendar

/-!
# The network

What lies between a client and the shop: it carries requests and answers, has a clock, and knows
which statements have been cancelled by others. All of this may change while an answer is waited
for, so it is one state that every exchange changes.
-/

namespace ShopTables

/-- A request on its way. -/
structure Outgoing where
  method : Method
  url : String
  authorization : Option String := none
  contentType : Option String := none
  accept : String := "application/json"
  body : Option (List UInt8) := none
  deriving DecidableEq

/-- An answer of the shop. -/
structure Reply where
  status : Nat
  body : List UInt8
  deriving DecidableEq

/-- Does an answer say that the request was served? -/
def Reply.isSuccess (r : Reply) : Bool := 200 ≤ r.status && r.status ≤ 299

/-- A state that carries requests to the shop. -/
class Network (ω : Type) where
  /-- Sends a request and waits for the answer; fails with the reason if none comes. -/
  exchange : Outgoing → Step String ω Reply
  /-- What the clock shows. -/
  now : ω → Instant
  /-- Is a statement cancelled? -/
  isCancelled : Context → ω → Bool

/-! ### No network -/

/-- A network on which the shop cannot be reached. -/
structure Unreachable where
  /-- What the clock shows. -/
  clock : Instant := 0
  /-- The statements that are cancelled. -/
  cancelled : List Context := []

namespace Unreachable

def cancel (ctx : Context) (n : Unreachable) : Unreachable :=
  { n with cancelled := ctx :: n.cancelled }

instance : Network Unreachable where
  exchange _ := throw "the shop cannot be reached"
  now n := n.clock
  isCancelled ctx n := n.cancelled.contains ctx

end Unreachable

end ShopTables

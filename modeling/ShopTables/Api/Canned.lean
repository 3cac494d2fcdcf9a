import ShopTables.Api.Basic

/-!
# Canned answers

A `CannedApi` answers each request with what was set for its method and path, and records the
requests it received, in order. Requests of cancelled statements are not received.
-/

namespace ShopTables

/-- An answer that was set. -/
inductive CannedAnswer where
  | body (bytes : List UInt8)
  | status (code : Nat)
  deriving DecidableEq

/-- Answers by method and path, and the requests received. -/
structure CannedApi where
  /-- The answers set, the latest first. -/
  answers : List ((Method × String) × CannedAnswer) := []
  /-- The requests received, in order. -/
  requests : List Request := []
  /-- The statements that are cancelled. -/
  cancelled : List Context := []

namespace CannedApi

def set (a : CannedApi) (method : Method) (path : String) (answer : CannedAnswer) : CannedApi :=
  { a with answers := ((method, path), answer) :: a.answers }

def answer? (a : CannedApi) (method : Method) (path : String) : Option CannedAnswer :=
  (a.answers.find? fun p => p.1 == (method, path)).map (·.2)

def respond (a : CannedApi) (method : Method) (path : String) (body : List UInt8) : CannedApi :=
  a.set method path (.body body)

def fail (a : CannedApi) (method : Method) (path : String) (code : Nat) : CannedApi :=
  a.set method path (.status code)

/-- Answers batches of changes with an empty object, and nothing else. -/
def start : CannedApi := ({} : CannedApi).respond .post syncPath (Json.object []).bytes

def withSchema (a : CannedApi) (schema : Json) : CannedApi :=
  a.respond .get schemaPath schema.bytes

/-- How many records there are in a list of them. -/
def countOf : Json → Nat
  | .array items => items.length
  | _ => 0

def withSearch (a : CannedApi) (entity : String) (records : Json) : CannedApi :=
  a.respond .post (searchPath entity)
    (Json.object [("data", records), ("total", Json.ofInt (countOf records))]).bytes

def cancel (a : CannedApi) (ctx : Context) : CannedApi :=
  { a with cancelled := ctx :: a.cancelled }

def isCancelled (a : CannedApi) (ctx : Context) : Bool := a.cancelled.contains ctx

def requestsTo (a : CannedApi) (path : String) : List Request :=
  a.requests.filter (·.path == path)

def reply (a : CannedApi) (r : Request) : Except ApiError (List UInt8) :=
  match a.answer? r.method r.path with
  | some (.body bytes) => .ok bytes
  | some (.status code) => .error (.status r.method r.path code "")
  | none => .error (.status r.method r.path 404 "no canned response")

def send (ctx : Context) (r : Request) : Step ApiError CannedApi (List UInt8) :=
  Step.ofFn fun a =>
    if a.isCancelled ctx then (.error .cancelled, a)
    else (a.reply r, { a with requests := a.requests ++ [r] })

end CannedApi

instance : Api CannedApi := ⟨CannedApi.send⟩

end ShopTables

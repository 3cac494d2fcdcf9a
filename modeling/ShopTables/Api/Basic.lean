import ShopTables.Api.Error
import ShopTables.Context

/-!
# Calls to the shop

Whatever answers requests is an `Api`: its state changes with each request, and remembers which
statements are cancelled. The calls built on `send` read the answer as a document; what a document
must look like is given by a reading function.
-/

namespace ShopTables

/-- A state that answers requests. A request of a cancelled statement fails as cancelled. -/
class Api (σ : Type) where
  send : Context → Request → Step ApiError σ (List UInt8)

namespace Api

variable {σ α : Type} [Api σ]

def decode (read? : List UInt8 → Option α) (body : List UInt8) : Step ApiError σ α :=
  match read? body with
  | some a => return a
  | none => throw .decode

def encode (p : Payload) : Step ApiError σ (List UInt8) :=
  match p.bytes? with
  | some bytes => return bytes
  | none => throw .encode

def getJson (ctx : Context) (path : String) (read? : List UInt8 → Option α) :
    Step ApiError σ α := do
  decode read? (← send ctx ⟨.get, path, none⟩)

/-- Posts a body, if there is one, and reads the answer. -/
def postJson (ctx : Context) (path : String) (body : Option Payload)
    (read? : List UInt8 → Option α) : Step ApiError σ α := do
  let bytes ← body.mapM encode
  decode read? (← send ctx ⟨.post, path, bytes⟩)

def postUnit (ctx : Context) (path : String) (body : Payload) : Step ApiError σ Unit := do
  let bytes ← encode body
  let _ ← send ctx ⟨.post, path, some bytes⟩
  return ()

end Api

end ShopTables

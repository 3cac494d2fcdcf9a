import ShopTables.Api.Canned
import ShopTables.Proofs.Step
import ShopTables.Shop.Client

/-!
# Recorded shops — which requests arrive

A `Recorded` shop answers as the shop inside it does, and keeps every request made of it, in order,
but for those of cancelled statements. That these change nothing and fail as cancelled is what a
`CancellableApi` promises, and both the canned answers and the client keep this promise.
-/

namespace ShopTables

/-- A state that answers requests and tells which statements are cancelled. -/
class CancellableApi (τ : Type) extends Api τ where
  isCancelled : Context → τ → Bool
  send_cancelled (ctx : Context) (r : Request) (a : τ) (h : isCancelled ctx a = true) :
    (Api.send ctx r).runFrom a = (.error .cancelled, a)

/-- A shop and the requests it received, in order. -/
structure Recorded (τ : Type) where
  shop : τ
  received : List Request := []

namespace Recorded

variable {τ : Type} [CancellableApi τ]

/-- Is a statement cancelled? -/
def isCancelled (ctx : Context) (a : Recorded τ) : Bool := CancellableApi.isCancelled ctx a.shop

/-- The requests that were received for a path. -/
def requestsTo (path : String) (a : Recorded τ) : List Request :=
  a.received.filter (·.path == path)

/-- Answers as the shop does, and keeps the request unless the statement is cancelled. -/
def send (ctx : Context) (r : Request) : Step ApiError (Recorded τ) (List UInt8) :=
  Step.ofFn fun a =>
    let (answer, shop) := (Api.send ctx r).runFrom a.shop
    (answer, ⟨shop, a.received ++ if a.isCancelled ctx then [] else [r]⟩)

instance : Api (Recorded τ) := ⟨send⟩

theorem runFrom_send (ctx : Context) (r : Request) (a : Recorded τ) :
    (Api.send ctx r).runFrom a
      = (((Api.send ctx r).runFrom a.shop).1,
          ⟨((Api.send ctx r).runFrom a.shop).2,
            a.received ++ if a.isCancelled ctx then [] else [r]⟩) := rfl

/-- A request that was answered was received. -/
theorem received_of_ok {ctx : Context} {r : Request} {a a' : Recorded τ} {bytes : List UInt8}
    (h : (Api.send ctx r).runFrom a = (.ok bytes, a')) : a'.received = a.received ++ [r] := by
  rw [runFrom_send] at h
  obtain ⟨hanswer, rfl⟩ := Prod.mk.inj h
  cases hcancelled : a.isCancelled ctx with
  | true =>
    rw [CancellableApi.send_cancelled ctx r a.shop hcancelled] at hanswer
    cases hanswer
  | false => rw [if_neg Bool.false_ne_true]

end Recorded

/-! ### Shops that can be recorded -/

instance : CancellableApi CannedApi where
  isCancelled ctx a := a.isCancelled ctx
  send_cancelled ctx r a h := by
    show CannedApi.send ctx r a = _
    show (if a.isCancelled ctx then _ else _) = _
    rw [if_pos h]

instance {ω : Type} [Network ω] : CancellableApi (ShopClient ω) where
  isCancelled ctx c := Network.isCancelled ctx c.network
  send_cancelled ctx r c h := by
    show (ShopClient.send ctx r).runFrom c = _
    have hlook : (ShopClient.isCancelled ctx).runFrom c
        = (.ok (Network.isCancelled ctx c.network), c) := rfl
    rw [ShopClient.send, Step.runFrom_bind_of_ok hlook, h]
    rfl

/-! ### Calls on any shop -/

namespace Api

variable {σ α : Type} [Api σ]

omit [Api σ] in
theorem runFrom_encode_document (v : Json) (a : σ) :
    (encode (.document v)).runFrom a = (.ok v.bytes, a) := rfl

/-- Posting a document sends its bytes. -/
theorem runFrom_postUnit (ctx : Context) (path : String) (v : Json) (a : σ) :
    (postUnit ctx path (.document v)).runFrom a
      = (((send ctx ⟨.post, path, some v.bytes⟩).runFrom a).1.map fun _ => (),
          ((send ctx ⟨.post, path, some v.bytes⟩).runFrom a).2) := by
  rw [postUnit, Step.runFrom_bind_of_ok (runFrom_encode_document v a), Step.runFrom_bind]
  rcases (send ctx ⟨.post, path, some v.bytes⟩).runFrom a with ⟨r, a'⟩
  cases r with
  | ok bytes => rfl
  | error e => rfl

/-- What an answer reads as. -/
def readAnswer (read? : List UInt8 → Option α) :
    Except ApiError (List UInt8) → Except ApiError α
  | .error e => .error e
  | .ok bytes =>
    match read? bytes with
    | none => .error .decode
    | some v => .ok v

omit [Api σ] in
/-- Reading what a step gives changes nothing more. -/
theorem runFrom_bind_decode (x : Step ApiError σ (List UInt8)) (read? : List UInt8 → Option α)
    (a : σ) :
    (x >>= decode read?).runFrom a = (readAnswer read? (x.runFrom a).1, (x.runFrom a).2) := by
  rw [Step.runFrom_bind]
  rcases x.runFrom a with ⟨r, a'⟩
  cases r with
  | error e => rfl
  | ok bytes =>
    dsimp only
    rw [decode, readAnswer]
    cases read? bytes with
    | none => rfl
    | some v => rfl

/-- Getting a document makes one request, and reads its answer. -/
theorem runFrom_getJson (ctx : Context) (path : String) (read? : List UInt8 → Option α) (a : σ) :
    (getJson ctx path read?).runFrom a
      = (readAnswer read? ((send ctx ⟨.get, path, none⟩).runFrom a).1,
          ((send ctx ⟨.get, path, none⟩).runFrom a).2) :=
  runFrom_bind_decode _ read? a

/-- Posting without a body makes one request, and reads its answer. -/
theorem runFrom_postJson (ctx : Context) (path : String) (read? : List UInt8 → Option α) (a : σ) :
    (postJson ctx path none read?).runFrom a
      = (readAnswer read? ((send ctx ⟨.post, path, none⟩).runFrom a).1,
          ((send ctx ⟨.post, path, none⟩).runFrom a).2) := by
  have hnone : (Option.mapM encode none : Step ApiError σ (Option (List UInt8))).runFrom a
      = (.ok none, a) := rfl
  rw [postJson, Step.runFrom_bind_of_ok hnone]
  exact runFrom_bind_decode _ read? a

end Api

end ShopTables

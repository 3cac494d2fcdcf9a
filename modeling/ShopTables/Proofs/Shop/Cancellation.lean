import ShopTables.Proofs.Shop.Tokens

/-!
# Requests of cancelled statements

```
    look -- ask for a token, if none is fresh --> send the request --> look, if it was refused
                      ^
                      nobody looks again before the request goes out
```

Whoever holds the context of a statement may cancel it at any moment, so also while the shop is
asked for a token. A statement that is cancelled already sends nothing any more
(`ShopClient.runAll_of_cancelled`). What the shop has answered to a request counts, and a cancelled
statement gets no reason for a refusal (`ShopClient.runFrom_send_of_serves`). So a statement is
honoured at whatever moment it is cancelled, except for one: while the shop is asked for a token
(`ShopClient.honours_iff`).
-/

namespace ShopTables

/-- The requests that were sent for statements, in order. Only a request for a token carries
none. -/
def Logged.apiRequests {ω : Type} (n : Logged ω) : List Outgoing :=
  (n.exchanges.map (·.request)).filter (·.authorization.isSome)

namespace ShopClient

variable {ω : Type} [Network ω] (ctx : Context) (q : Request) (c : ShopClient (Logged ω))

/-- Is the statement cancelled before its request can have gone out? Either at once, or by the time
the shop has answered the request for a token. -/
def CancelledInTime : Prop :=
  Network.isCancelled ctx c.network = true
    ∨ c.freshToken? = none ∧ Network.isCancelled ctx (c.after c.tokenRequest).network = true

/-- The exchange of the request itself, among those that sending it adds. -/
def Serves (x : Exchange) : Prop :=
  ∃ added, ((send ctx q).runFrom c).2.network.exchanges = c.network.exchanges ++ added
    ∧ x ∈ added ∧ x.request.authorization.isSome = true

/-- Is the statement honoured if it is cancelled? -/
structure Honours : Prop where
  /-- If it is cancelled in time, its request does not go out, and it fails as cancelled. -/
  inTime : c.CancelledInTime ctx → ((send ctx q).runFrom c).1 = .error .cancelled
    ∧ ((send ctx q).runFrom c).2.network.apiRequests = c.network.apiRequests
  /-- If it is cancelled while the shop answers the request, what the shop has served counts, and
  otherwise it fails as cancelled. -/
  late : ∀ x reply, Serves ctx q c x → x.answer = .ok reply → ¬ c.CancelledInTime ctx →
    Network.isCancelled ctx ((send ctx q).runFrom c).2.network = true →
      ((send ctx q).runFrom c).1 = if reply.isSuccess then .ok reply.body else .error .cancelled

/-! ### Once a token is there -/

variable {ctx q c} {token : String}

/-- What a token is used for adds the exchange of the request, if it goes out. -/
theorem exchanges_sendWith (ctx : Context) (q : Request) (c : ShopClient (Logged ω))
    (token : String) : ((sendWith ctx q token).runFrom c).2.network.exchanges
      = c.network.exchanges
        ++ if isHeaderText token then [c.exchanged (c.outgoing token q)] else [] := by
  obtain ⟨result, hrun, -⟩ := c.runFrom_sendWith ctx q token
  rw [hrun, carry]
  split_ifs
  · rw [after_exchanges]
  · rw [List.append_nil]

/-- The answer to the one exchange that is added decides. -/
theorem runFrom_sendWith_of_mem {added : List Exchange}
    (hadded : ((sendWith ctx q token).runFrom c).2.network.exchanges = c.network.exchanges ++ added)
    {x : Exchange} (hx : x ∈ added) {reply : Reply} (hanswer : x.answer = .ok reply) :
    ((sendWith ctx q token).runFrom c).1 = outcome q
      (Network.isCancelled ctx ((sendWith ctx q token).runFrom c).2.network) reply := by
  rw [exchanges_sendWith] at hadded
  obtain rfl := List.append_cancel_left hadded
  split_ifs at hx with hheader
  · obtain rfl := List.mem_singleton.mp hx
    rw [runFrom_sendWith_of_answer _ ctx hheader hanswer]
  · cases hx

/-! ### Getting a token -/

/-- A statement that runs sends its request with the token that is kept, or with a new one, or fails
for want of one. -/
theorem runFrom_send_cases (h : Network.isCancelled ctx c.network = false) :
    (∃ t, c.freshToken? = some t
      ∧ (send ctx q).runFrom c = (sendWith ctx q t.text).runFrom c)
    ∨ c.freshToken? = none
      ∧ ((∃ t, (send ctx q).runFrom c = (sendWith ctx q t.text).runFrom (c.granted t))
        ∨ ∃ e, e ≠ .cancelled ∧ (send ctx q).runFrom c = (.error e, c.after c.tokenRequest)) := by
  rw [c.runFrom_send_of_running q h]
  cases hfresh : c.freshToken? with
  | some t => exact .inl ⟨t, rfl, Step.runFrom_bind_of_ok (c.runFrom_bearer_of_some hfresh)⟩
  | none =>
    have hbearer := c.runFrom_bearer_of_none hfresh
    refine .inr ⟨rfl, ?_⟩
    obtain ⟨a, expires, -, -, hfetch⟩ | ⟨-, e, hne, hfetch⟩ := c.runFrom_fetchToken
    · rw [Step.runFrom_bind_of_ok hfetch] at hbearer
      have hgranted : bearer.runFrom c = (.ok a.text, c.granted ⟨a.text, expires⟩) := hbearer
      exact .inl ⟨⟨a.text, expires⟩, Step.runFrom_bind_of_ok hgranted⟩
    · rw [Step.runFrom_bind_of_error hfetch] at hbearer
      exact .inr ⟨e, hne, Step.runFrom_bind_of_error hbearer⟩

/-! ### Cancelled statements -/

/-- Once a statement is cancelled, nothing goes out for it any more, whatever it still asks for: all
its requests fail as cancelled. -/
theorem runAll_of_cancelled {turns : List (Turn ω)} (hctx : ∀ t ∈ turns, t.ctx = ctx)
    (hstays : ∀ t ∈ turns, ∀ n : ω, Network.isCancelled ctx n = true →
      Network.isCancelled ctx (t.meanwhile n) = true)
    (h : Network.isCancelled ctx c.network = true) :
    (runAll Turn.run turns c).1 = turns.map (fun _ => .error .cancelled)
      ∧ (runAll Turn.run turns c).2.network.exchanges = c.network.exchanges := by
  -- each request leaves the client as it was, so the statement is cancelled when the next comes
  induction turns generalizing c with
  | nil => exact ⟨rfl, rfl⟩
  | cons t turns ih =>
    have hstart : Network.isCancelled ctx (t.start c).network = true :=
      hstays t List.mem_cons_self c.network.network h
    have hrun : t.run c = (.error .cancelled, t.start c) := by
      rw [Turn.run, hctx t List.mem_cons_self]
      exact runFrom_send_of_cancelled _ t.request hstart
    obtain ⟨hresults, hexchanges⟩ := ih (fun t ht => hctx t (List.mem_cons_of_mem _ ht))
      (fun t ht => hstays t (List.mem_cons_of_mem _ ht)) hstart
    rw [runAll, hrun]
    exact ⟨congrArg (_ :: ·) hresults, hexchanges⟩

/-- Whenever the statement is cancelled, an answer to the request itself counts: what was served is
given, and a cancelled statement gets no reason for a refusal. -/
theorem runFrom_send_of_serves {x : Exchange} {reply : Reply} (hserves : Serves ctx q c x)
    (hanswer : x.answer = .ok reply) :
    ((send ctx q).runFrom c).1
      = outcome q (Network.isCancelled ctx ((send ctx q).runFrom c).2.network) reply := by
  obtain ⟨added, hadded, hx, hauthorized⟩ := hserves
  cases hcancelled : Network.isCancelled ctx c.network with
  | true =>
    rw [runFrom_send_of_cancelled _ q hcancelled] at hadded
    obtain rfl := List.append_right_eq_self.mp hadded.symm
    cases hx
  | false =>
    obtain ⟨t, -, hsend⟩ | ⟨-, ⟨t, hsend⟩ | ⟨e, -, hsend⟩⟩ := runFrom_send_cases (q := q) hcancelled
    · rw [hsend] at hadded ⊢
      exact runFrom_sendWith_of_mem hadded hx hanswer
    · -- the first exchange is that of the token, which is not `x`
      rw [hsend] at hadded ⊢
      rw [exchanges_sendWith, granted_exchanges, List.append_assoc] at hadded
      obtain rfl := List.append_cancel_left hadded
      rcases List.mem_cons.mp hx with rfl | hx
      · cases hauthorized
      · exact runFrom_sendWith_of_mem (exchanges_sendWith ctx q (c.granted t) t.text) hx hanswer
    · rw [hsend, after_exchanges] at hadded
      obtain rfl := List.append_cancel_left hadded
      obtain rfl := List.mem_singleton.mp hx
      cases hauthorized

/-- A request that is sent goes out for the statement. -/
theorem apiRequests_sendWith (ctx : Context) (q : Request) (c : ShopClient (Logged ω))
    (token : String) : ((sendWith ctx q token).runFrom c).2.network.apiRequests
      = c.network.apiRequests ++ if isHeaderText token then [c.outgoing token q] else [] := by
  rw [Logged.apiRequests, exchanges_sendWith, List.map_append, List.filter_append]
  split_ifs <;> rfl

/-- A statement that is cancelled while the shop is asked for a token is not honoured: its request
goes out, or it fails for another reason. -/
theorem not_honoured_while_asking (h : Network.isCancelled ctx c.network = false)
    (hfresh : c.freshToken? = none)
    (hasked : ((send ctx q).runFrom c).2.network.apiRequests = c.network.apiRequests) :
    ((send ctx q).runFrom c).1 ≠ .error .cancelled := by
  obtain ⟨t, hkept, -⟩ | ⟨-, ⟨t, hsend⟩ | ⟨e, hne, hsend⟩⟩ := runFrom_send_cases (q := q) h
  · cases hfresh.symm.trans hkept
  · rw [hsend] at hasked ⊢
    have hgranted : (c.granted t).network.apiRequests = c.network.apiRequests := by
      rw [Logged.apiRequests, granted_exchanges, List.map_append, List.filter_append]
      exact List.append_nil _
    rw [apiRequests_sendWith, hgranted] at hasked
    have hheader : isHeaderText t.text = false := by
      by_contra hheader
      rw [if_pos (Bool.not_eq_false _ ▸ hheader)] at hasked
      cases List.append_right_eq_self.mp hasked
    rw [runFrom_sendWith_of_not_header _ ctx q hheader]
    exact nofun
  · rw [hsend]
    exact fun he => hne (Except.error.inj he)

/-- Cancelled statements. Whatever the shop answers, and at whatever moment the statement is
cancelled, sending a request for it honours that, but for one moment: a statement that runs when it
is sent and is cancelled while the shop is asked for a token is not honoured. -/
theorem honours_iff (ctx : Context) (q : Request) (c : ShopClient (Logged ω)) :
    Honours ctx q c ↔ ¬ (Network.isCancelled ctx c.network = false
      ∧ c.freshToken? = none
      ∧ Network.isCancelled ctx (c.after c.tokenRequest).network = true) := by
  constructor
  · rintro h ⟨hrunning, hfresh, hcancelled⟩
    obtain ⟨hresult, hrequests⟩ := h.inTime (.inr ⟨hfresh, hcancelled⟩)
    exact not_honoured_while_asking hrunning hfresh hrequests hresult
  · refine fun h => ⟨fun hinTime => ?_, fun x reply hserves hanswer _ hcancelled => ?_⟩
    · have hcancelled : Network.isCancelled ctx c.network = true := by
        by_contra hrunning
        have hrunning := Bool.eq_false_iff.mpr hrunning
        rcases hinTime with hcancelled | hasking
        · cases hrunning.symm.trans hcancelled
        · exact h ⟨hrunning, hasking⟩
      rw [runFrom_send_of_cancelled _ q hcancelled]
      exact ⟨rfl, rfl⟩
    · rw [runFrom_send_of_serves hserves hanswer, hcancelled]
      rfl

end ShopClient

/-- A shop that serves everything. Every statement is cancelled by someone else while the shop is
asked for a token. -/
structure Hasty where
  cancelled : Bool := false

namespace Hasty

instance : Network Hasty where
  exchange r := Step.ofFn fun n =>
    if r.authorization = none then
      (.ok ⟨200, (TokenAnswer.document "tok" 3600).bytes⟩, ⟨true⟩)
    else (.ok ⟨200, []⟩, n)
  now _ := 0
  isCancelled _ n := n.cancelled

/-- A client that has no token yet. -/
def client : ShopClient (Logged Hasty) where
  baseUrl := "http://s"
  credentials := .client "i" "s"
  network := ⟨{}, []⟩

def request : Request := ⟨.get, "/api/ok", none⟩

/-- The statement is cancelled while the shop is asked for a token, but its request goes out, and is
served. -/
theorem cancelled_while_asking :
    Network.isCancelled ⟨"q"⟩ client.network = false
      ∧ Network.isCancelled ⟨"q"⟩ (client.after client.tokenRequest).network = true
      ∧ ((ShopClient.send ⟨"q"⟩ request).runFrom client).1 = .ok []
      ∧ ((ShopClient.send ⟨"q"⟩ request).runFrom client).2.network.apiRequests
        = [client.outgoing "tok" request]
      ∧ ¬ ShopClient.Honours ⟨"q"⟩ request client := by
  have htoken : ShopClient.tokenOf 0 ⟨200, (TokenAnswer.document "tok" 3600).bytes⟩
      = .ok ⟨"tok", some (3600 * Calendar.second)⟩ :=
    ShopClient.tokenOf_document "tok" (by decide) (by decide) rfl
  have hheader : ShopClient.isHeaderText "tok" = true := by decide +kernel
  have hsend : (ShopClient.send ⟨"q"⟩ request).runFrom client
      = (.ok [], (client.granted ⟨"tok", some (3600 * Calendar.second)⟩).after
          (client.outgoing "tok" request)) :=
    ShopClient.runFrom_send_granted (c := client) rfl rfl rfl htoken hheader rfl rfl
  have hresult : ((ShopClient.send ⟨"q"⟩ request).runFrom client).1 = .ok [] :=
    congrArg Prod.fst hsend
  refine ⟨rfl, rfl, hresult, congrArg (·.2.network.apiRequests) hsend, fun h => ?_⟩
  obtain ⟨hcancelled, -⟩ := h.inTime (.inr ⟨rfl, rfl⟩)
  cases hresult.symm.trans hcancelled

end Hasty

end ShopTables

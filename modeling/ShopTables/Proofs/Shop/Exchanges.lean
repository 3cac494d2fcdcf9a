import ShopTables.Proofs.Json.Forms
import ShopTables.Proofs.Step
import ShopTables.Shop.Client

/-!
# What goes over the network

A `Logged` network carries requests as the network inside it does, and keeps every exchange, in
order. Over such a network a request makes at most two of them: one for a token, if none is kept
that is fresh, and then one that carries the token (`Sent`, `sent_send`). What these two have to
look like, and when a token was given, is written out apart from the client
(`Outgoing.AsksForToken`, `Outgoing.Carries`, `Exchange.Gives`).
-/

namespace ShopTables

/-- A request that went over a network, what came back, and what the clock showed then. -/
structure Exchange where
  request : Outgoing
  answer : Except String Reply
  time : Instant

/-- The token that was given, if one was asked for and one that can be kept came. Only a request
for a token carries none. -/
def Exchange.token? (x : Exchange) : Option TokenAnswer :=
  match x.request.authorization, x.answer with
  | none, .ok reply =>
    match ShopClient.tokenOf x.time reply with
    | .ok _ => TokenAnswer.read? reply.body
    | .error _ => none
  | _, _ => none

/-! ### Tokens that can be kept -/

namespace TokenAnswer

variable {a : TokenAnswer} {given : Instant}

/-- Is the token given for a span of time that ends beyond the calendar? -/
def Overruns (a : TokenAnswer) (given : Instant) : Prop :=
  ∃ n ∈ a.seconds, (-Calendar.longestSpan ≤ n ∧ n ≤ Calendar.longestSpan)
    ∧ ¬ (Calendar.first ≤ given + n * Calendar.second
      ∧ given + n * Calendar.second ≤ Calendar.last)

theorem expiry_of_span {n : Int} (h : -Calendar.longestSpan ≤ n ∧ n ≤ Calendar.longestSpan) :
    AccessToken.expiry given (some n)
      = if Calendar.first ≤ given + n * Calendar.second
          ∧ given + n * Calendar.second ≤ Calendar.last then
          .ok (some (given + n * Calendar.second))
        else .error .beyondCalendar := by
  have hspan : Calendar.span? n = some (n * Calendar.second) := if_pos h
  rw [AccessToken.expiry, Option.bind_some, hspan]
  dsimp only
  rw [Calendar.after?]
  split_ifs <;> rfl

theorem expiry_of_not_span {n : Int}
    (h : ¬ (-Calendar.longestSpan ≤ n ∧ n ≤ Calendar.longestSpan)) :
    AccessToken.expiry given (some n) = .ok none := by
  have hspan : Calendar.span? n = none := if_neg h
  rw [AccessToken.expiry, Option.bind_some, hspan]

/-- A token whose end is no instant cannot be kept. -/
theorem expiry_of_overruns (h : a.Overruns given) :
    AccessToken.expiry given a.seconds = .error .beyondCalendar := by
  obtain ⟨n, hn, hspan, hbeyond⟩ := h
  rw [show a.seconds = some n from hn, expiry_of_span hspan, if_neg hbeyond]

/-- Any other token can. -/
theorem exists_expiry_of_not_overruns (h : ¬ a.Overruns given) :
    ∃ expires, AccessToken.expiry given a.seconds = .ok expires := by
  cases hseconds : a.seconds with
  | none => exact ⟨none, rfl⟩
  | some n =>
    by_cases hspan : -Calendar.longestSpan ≤ n ∧ n ≤ Calendar.longestSpan
    · rw [expiry_of_span hspan, if_pos (by_contra fun hbeyond => h ⟨n, hseconds, hspan, hbeyond⟩)]
      exact ⟨_, rfl⟩
    · exact ⟨none, expiry_of_not_span hspan⟩

/-- When a token expires that is given for a number of seconds that is no span of time, or a
span. -/
theorem expiry_cases {expires : Option Instant}
    (h : AccessToken.expiry given a.seconds = .ok expires) :
    expires = none ∧ (∀ n ∈ a.seconds, ¬ (-Calendar.longestSpan ≤ n ∧ n ≤ Calendar.longestSpan))
      ∨ ∃ n ∈ a.seconds, (-Calendar.longestSpan ≤ n ∧ n ≤ Calendar.longestSpan)
        ∧ expires = some (given + n * Calendar.second) := by
  cases hseconds : a.seconds with
  | none =>
    rw [hseconds] at h
    exact .inl ⟨(Except.ok.inj h).symm, nofun⟩
  | some n =>
    rw [hseconds] at h
    by_cases hspan : -Calendar.longestSpan ≤ n ∧ n ≤ Calendar.longestSpan
    · rw [expiry_of_span hspan] at h
      split_ifs at h
      exact .inr ⟨n, rfl, hspan, (Except.ok.inj h).symm⟩
    · rw [expiry_of_not_span hspan] at h
      refine .inl ⟨(Except.ok.inj h).symm, fun m hm => ?_⟩
      obtain rfl := Option.some.inj hm
      exact hspan

end TokenAnswer

/-- Did an exchange give this token, and can it be kept? It was asked for with no token, and the
answer says that the request was served, and for how long the token is good. -/
structure Exchange.Gives (x : Exchange) (a : TokenAnswer) : Prop where
  authorization : x.request.authorization = none
  answer : ∃ reply, x.answer = .ok reply ∧ 200 ≤ reply.status ∧ reply.status ≤ 299
    ∧ TokenAnswer.read? reply.body = some a
  kept : ¬ a.Overruns x.time

theorem Reply.isSuccess_iff {r : Reply} : r.isSuccess = true ↔ 200 ≤ r.status ∧ r.status ≤ 299 := by
  rw [isSuccess, Bool.and_eq_true, decide_eq_true_iff, decide_eq_true_iff]

namespace ShopClient

variable {given : Instant} {reply : Reply}

theorem tokenOf_of_read {a : TokenAnswer} (hsuccess : reply.isSuccess = true)
    (hread : TokenAnswer.read? reply.body = some a) :
    tokenOf given reply = (AccessToken.expiry given a.seconds).map (⟨a.text, ·⟩) := by
  rw [tokenOf, if_pos hsuccess, hread]
  dsimp only
  cases AccessToken.expiry given a.seconds with
  | ok expires => rfl
  | error fault => rfl

/-- A token is made of an answer that was served and read. -/
theorem exists_of_tokenOf_ok {t : AccessToken} (h : tokenOf given reply = .ok t) :
    reply.isSuccess = true ∧ ∃ a expires, TokenAnswer.read? reply.body = some a
      ∧ AccessToken.expiry given a.seconds = .ok expires ∧ t = ⟨a.text, expires⟩ := by
  rw [tokenOf] at h
  split at h
  · rename_i hsuccess
    split at h
    · rename_i a hread
      cases hexpiry : AccessToken.expiry given a.seconds with
      | error fault =>
        rw [hexpiry] at h
        cases h
      | ok expires =>
        rw [hexpiry] at h
        exact ⟨hsuccess, a, expires, hread, hexpiry, (Except.ok.inj h).symm⟩
    · cases h
  · cases h

end ShopClient

/-- The token that is found in a log is the one that was given. -/
theorem Exchange.token?_eq_some_iff {x : Exchange} {a : TokenAnswer} :
    x.token? = some a ↔ x.Gives a := by
  constructor
  · intro h
    rw [token?] at h
    split at h
    · rename_i reply hnone hanswer
      split at h
      · rename_i t hof
        obtain ⟨hsuccess, a', expires, hread, hexpiry, -⟩ := ShopClient.exists_of_tokenOf_ok hof
        obtain rfl := Option.some.inj (hread.symm.trans h)
        obtain ⟨hlow, hhigh⟩ := Reply.isSuccess_iff.mp hsuccess
        refine ⟨hnone, ⟨reply, hanswer, hlow, hhigh, hread⟩, fun hover => ?_⟩
        rw [TokenAnswer.expiry_of_overruns hover] at hexpiry
        cases hexpiry
      · cases h
    · cases h
  · rintro ⟨hnone, ⟨reply, hanswer, hlow, hhigh, hread⟩, hkept⟩
    obtain ⟨expires, hexpiry⟩ := TokenAnswer.exists_expiry_of_not_overruns hkept
    have hof : ShopClient.tokenOf x.time reply
        = (AccessToken.expiry x.time a.seconds).map (⟨a.text, ·⟩) :=
      ShopClient.tokenOf_of_read (Reply.isSuccess_iff.mpr ⟨hlow, hhigh⟩) hread
    rw [hexpiry] at hof
    rw [token?, hnone, hanswer]
    dsimp only
    rw [hof]
    exact hread

/-! ### Logs -/

/-- A network and its exchanges, in order. -/
structure Logged (ω : Type) where
  network : ω
  exchanges : List Exchange := []

namespace Logged

variable {ω : Type} [Network ω]

/-- Carries a request as the network does, and keeps the exchange. -/
def exchange (r : Outgoing) : Step String (Logged ω) Reply :=
  Step.ofFn fun n =>
    let (answer, network) := (Network.exchange r).runFrom n.network
    (answer, ⟨network, n.exchanges ++ [⟨r, answer, Network.now network⟩]⟩)

instance : Network (Logged ω) where
  exchange := exchange
  now n := Network.now n.network
  isCancelled ctx n := Network.isCancelled ctx n.network

omit [Network ω] in
/-- The requests to an address, in order. -/
def requestsTo (url : String) (n : Logged ω) : List Outgoing :=
  (n.exchanges.map (·.request)).filter (·.url == url)

end Logged

/-- A client starts with no token. -/
theorem ShopClient.eq_of_ofConfig {ω : Type} {config : ShopConfig} {network : ω} {c : ShopClient ω}
    (h : ofConfig config network = .ok c) : ∃ credentials,
      c = { baseUrl := config.baseUrl, credentials, network } := by
  cases hvalid : config.validate with
  | error e =>
    rw [ofConfig, hvalid] at h
    cases h
  | ok u =>
    cases hcredentials : config.credentials with
    | error e =>
      rw [ofConfig, hvalid, hcredentials] at h
      cases h
    | ok credentials =>
      rw [ofConfig, hvalid, hcredentials] at h
      exact ⟨credentials, (Except.ok.inj h).symm⟩

/-! ### Requests on their way -/

/-- Does a request on its way carry a request to a shop, with a token? -/
structure Outgoing.Carries (r : Outgoing) (baseUrl : String) (q : Request) (token : String) :
    Prop where
  method : r.method = q.method
  url : r.url = baseUrl ++ q.path
  authorization : r.authorization = some ("Bearer " ++ token)
  contentType : r.contentType = q.body.map fun _ => "application/json"
  accept : r.accept = "application/json"
  body : r.body = q.body

/-- Does a request on its way ask a shop for a token? An integration names itself and its secret; a
user comes through the administration. -/
structure Outgoing.AsksForToken (r : Outgoing) (baseUrl : String) (credentials : Credentials) :
    Prop where
  method : r.method = .post
  url : r.url = baseUrl ++ "/api/oauth/token"
  authorization : r.authorization = none
  contentType : r.contentType = some "application/json"
  accept : r.accept = "application/json"
  client : ∀ id secret, credentials = .client id secret → r.body.bind Json.read?
    = some (.object [("client_id", .string id), ("client_secret", .string secret),
        ("grant_type", .string "client_credentials")])
  user : ∀ name password, credentials = .user name password → r.body.bind Json.read?
    = some (.object [("client_id", .string "administration"), ("grant_type", .string "password"),
        ("password", .string password), ("scopes", .string "write"), ("username", .string name)])

namespace ShopClient

variable {ω : Type}

theorem carries_outgoing (c : ShopClient ω) (token : String) (q : Request) :
    (c.outgoing token q).Carries c.baseUrl q token :=
  ⟨rfl, rfl, rfl, rfl, rfl, rfl⟩

theorem asksForToken_tokenRequest (c : ShopClient ω) :
    c.tokenRequest.AsksForToken c.baseUrl c.credentials where
  method := rfl
  url := rfl
  authorization := rfl
  contentType := rfl
  accept := rfl
  client := by
    intro id secret hclient
    have hsorted : KeyList.Sorted
        [("client_id", id), ("client_secret", secret), ("grant_type", "client_credentials")] :=
      List.pairwise_map.mp (by decide : List.Pairwise (· < ·)
        ["client_id", "client_secret", "grant_type"])
    rw [tokenRequest, hclient]
    exact Json.read?_texts hsorted
  user := by
    intro name password huser
    have hsorted : KeyList.Sorted [("client_id", "administration"), ("grant_type", "password"),
        ("password", password), ("scopes", "write"), ("username", name)] :=
      List.pairwise_map.mp (by decide : List.Pairwise (· < ·)
        ["client_id", "grant_type", "password", "scopes", "username"])
    rw [tokenRequest, huser]
    exact Json.read?_texts hsorted

/-! ### One exchange -/

variable [Network ω]

/-- What an exchange adds to the log. -/
def exchanged (c : ShopClient (Logged ω)) (r : Outgoing) : Exchange :=
  let (answer, network) := (Network.exchange r).runFrom c.network.network
  ⟨r, answer, Network.now network⟩

/-- The client after an exchange. -/
def after (c : ShopClient (Logged ω)) (r : Outgoing) : ShopClient (Logged ω) :=
  { c with network := ((Logged.exchange r).runFrom c.network).2 }

variable (c : ShopClient (Logged ω)) (r : Outgoing)

@[simp] theorem after_exchanges :
    (c.after r).network.exchanges = c.network.exchanges ++ [c.exchanged r] := rfl

@[simp] theorem exchanged_request : (c.exchanged r).request = r := rfl

theorem runFrom_exchange :
    (exchange r).runFrom c = ((c.exchanged r).answer.mapError .transport, c.after r) := rfl

/-- What a request that carries a token gives is no token. -/
@[simp] theorem token?_exchanged_outgoing (token : String) (q : Request) :
    (c.exchanged (c.outgoing token q)).token? = none := rfl

/-! ### Asking for a token -/

/-- A token is made of what was answered. -/
theorem runFrom_fetchToken_of_answer {reply : Reply}
    (hanswer : (c.exchanged c.tokenRequest).answer = .ok reply) :
    fetchToken.runFrom c
      = ((tokenOf (c.exchanged c.tokenRequest).time reply).mapError .token,
          c.after c.tokenRequest) := by
  have hrun := c.runFrom_exchange c.tokenRequest
  rw [hanswer] at hrun
  exact (Step.runFrom_bind_of_ok hrun).trans rfl

/-- Asking for a token gives the one that the exchange shows, or fails, but not as cancelled. -/
theorem runFrom_fetchToken :
    (∃ a expires, (c.exchanged c.tokenRequest).token? = some a
      ∧ AccessToken.expiry (c.exchanged c.tokenRequest).time a.seconds = .ok expires
      ∧ fetchToken.runFrom c = (.ok ⟨a.text, expires⟩, c.after c.tokenRequest))
    ∨ (c.exchanged c.tokenRequest).token? = none
      ∧ ∃ e, e ≠ .cancelled ∧ fetchToken.runFrom c = (.error e, c.after c.tokenRequest) := by
  cases hanswer : (c.exchanged c.tokenRequest).answer with
  | error reason =>
    have hrun := c.runFrom_exchange c.tokenRequest
    rw [hanswer] at hrun
    refine .inr ⟨?_, .transport reason, nofun, (Step.runFrom_bind_of_error hrun).trans rfl⟩
    rw [Exchange.token?, hanswer]
    rfl
  | ok reply =>
    have hmade := c.runFrom_fetchToken_of_answer hanswer
    have htoken : (c.exchanged c.tokenRequest).token?
        = match tokenOf (c.exchanged c.tokenRequest).time reply with
          | .ok _ => TokenAnswer.read? reply.body
          | .error _ => none := by
      rw [Exchange.token?, hanswer]
      rfl
    cases hof : tokenOf (c.exchanged c.tokenRequest).time reply with
    | error fault =>
      rw [hof] at htoken hmade
      exact .inr ⟨htoken, .token fault, nofun, hmade⟩
    | ok t =>
      rw [hof] at htoken hmade
      obtain ⟨-, a, expires, hread, hexpires, rfl⟩ := exists_of_tokenOf_ok hof
      exact .inl ⟨a, expires, htoken.trans hread, hexpires, hmade⟩

/-! ### Sending a request -/

/-- The client after a token was used for a request: one that cannot stand in a header is not
sent. -/
def carry (text : String) (q : Request) (c : ShopClient (Logged ω)) : ShopClient (Logged ω) :=
  if isHeaderText text then c.after (c.outgoing text q) else c

/-- The client after a token was given to it. -/
def granted (c : ShopClient (Logged ω)) (t : AccessToken) : ShopClient (Logged ω) :=
  { c.after c.tokenRequest with token := some t }

@[simp] theorem granted_exchanges (t : AccessToken) : (c.granted t).network.exchanges
    = c.network.exchanges ++ [c.exchanged c.tokenRequest] := rfl

/-- What a request does to a client, and what its sender gets. -/
inductive Sent (ctx : Context) (q : Request) (c : ShopClient (Logged ω)) :
    Except ApiError (List UInt8) × ShopClient (Logged ω) → Prop
  /-- For a cancelled statement nothing is sent. -/
  | cancelled (h : Network.isCancelled ctx c.network = true) : Sent ctx q c (.error .cancelled, c)
  /-- The request goes out with the token that is kept. -/
  | kept {t : AccessToken} {result : Except ApiError (List UInt8)}
      (h : Network.isCancelled ctx c.network = false) (hfresh : c.freshToken? = some t)
      (hok : ∀ bytes, result = .ok bytes → isHeaderText t.text = true) :
      Sent ctx q c (result, c.carry t.text q)
  /-- No token that is kept is fresh, and none is given. -/
  | refused {e : ApiError}
      (h : Network.isCancelled ctx c.network = false) (hfresh : c.freshToken? = none)
      (hnone : (c.exchanged c.tokenRequest).token? = none) :
      Sent ctx q c (.error e, c.after c.tokenRequest)
  /-- No token that is kept is fresh, and the request goes out with a new one. -/
  | renewed {a : TokenAnswer} {expires : Option Instant} {result : Except ApiError (List UInt8)}
      (h : Network.isCancelled ctx c.network = false) (hfresh : c.freshToken? = none)
      (htoken : (c.exchanged c.tokenRequest).token? = some a)
      (hexpires : AccessToken.expiry (c.exchanged c.tokenRequest).time a.seconds = .ok expires)
      (hok : ∀ bytes, result = .ok bytes → isHeaderText a.text = true) :
      Sent ctx q c (result, (c.granted ⟨a.text, expires⟩).carry a.text q)

/-- What follows once a token is there. -/
def sendWith (ctx : Context) (q : Request) (token : String) :
    Step ApiError (ShopClient (Logged ω)) (List UInt8) := do
  unless isHeaderText token do throw (.transport "the token cannot be sent in a header")
  let reply ← exchange ((← get).outgoing token q)
  if reply.isSuccess then return reply.body
  if ← isCancelled ctx then throw .cancelled
  throw (.status q.method q.path reply.status (String.ofList (Text.Utf8.lossy reply.body)))

/-- What the sender of a request gets from the shop's answer to it. -/
def outcome (q : Request) (cancelled : Bool) (reply : Reply) : Except ApiError (List UInt8) :=
  if reply.isSuccess then .ok reply.body
  else if cancelled then .error .cancelled
  else .error (.status q.method q.path reply.status (String.ofList (Text.Utf8.lossy reply.body)))

/-- With a token that cannot stand in a header, the request does not go out. -/
theorem runFrom_sendWith_of_not_header (ctx : Context) (q : Request) {token : String}
    (hheader : isHeaderText token = false) :
    (sendWith ctx q token).runFrom c
      = (.error (.transport "the token cannot be sent in a header"), c) := by
  rw [sendWith, hheader]
  rfl

theorem runFrom_sendWith_of_answer (ctx : Context) {q : Request} {token : String} {reply : Reply}
    (hheader : isHeaderText token = true)
    (hanswer : (c.exchanged (c.outgoing token q)).answer = .ok reply) :
    (sendWith ctx q token).runFrom c
      = (outcome q (Network.isCancelled ctx (c.after (c.outgoing token q)).network) reply,
          c.after (c.outgoing token q)) := by
  have hexchange := c.runFrom_exchange (c.outgoing token q)
  rw [hanswer] at hexchange
  rw [sendWith, hheader]
  show (exchange (c.outgoing token q) >>= _).runFrom c = _
  refine (Step.runFrom_bind_of_ok hexchange).trans ?_
  rw [outcome]
  cases hsuccess : reply.isSuccess with
  | true => rfl
  | false =>
    show ((if Network.isCancelled ctx (c.after (c.outgoing token q)).network then _ else _ :
      Step ApiError (ShopClient (Logged ω)) _).runFrom (c.after (c.outgoing token q))) = _
    cases Network.isCancelled ctx (c.after (c.outgoing token q)).network with
    | true => rfl
    | false => rfl

theorem runFrom_sendWith (ctx : Context) (q : Request) (token : String) :
    ∃ result, (sendWith ctx q token).runFrom c = (result, c.carry token q)
      ∧ ∀ bytes, result = .ok bytes → isHeaderText token = true := by
  cases hheader : isHeaderText token with
  | false =>
    refine ⟨.error (.transport "the token cannot be sent in a header"), ?_, nofun⟩
    rw [c.runFrom_sendWith_of_not_header ctx q hheader, carry, hheader]
    rfl
  | true =>
    have hcarry : c.carry token q = c.after (c.outgoing token q) := if_pos hheader
    rw [hcarry]
    cases hanswer : (c.exchanged (c.outgoing token q)).answer with
    | error reason =>
      have hexchange := c.runFrom_exchange (c.outgoing token q)
      rw [hanswer] at hexchange
      refine ⟨.error (.transport reason), ?_, nofun⟩
      rw [sendWith, hheader]
      show (exchange (c.outgoing token q) >>= _).runFrom c = _
      exact Step.runFrom_bind_of_error hexchange
    | ok reply => exact ⟨_, c.runFrom_sendWith_of_answer ctx hheader hanswer, fun _ _ => rfl⟩

theorem runFrom_send_of_cancelled {ctx : Context} (q : Request)
    (h : Network.isCancelled ctx c.network = true) :
    (send ctx q).runFrom c = (.error .cancelled, c) := by
  have hlook : (isCancelled ctx).runFrom c = (.ok (Network.isCancelled ctx c.network), c) := rfl
  rw [send, Step.runFrom_bind_of_ok hlook, h]
  rfl

theorem runFrom_send_of_running {ctx : Context} (q : Request)
    (h : Network.isCancelled ctx c.network = false) :
    (send ctx q).runFrom c = (bearer >>= sendWith ctx q).runFrom c := by
  have hlook : (isCancelled ctx).runFrom c = (.ok (Network.isCancelled ctx c.network), c) := rfl
  rw [send, Step.runFrom_bind_of_ok hlook, h]
  rfl

theorem runFrom_bearer_of_some {t : AccessToken} (h : c.freshToken? = some t) :
    bearer.runFrom c = (.ok t.text, c) := by
  have hget : (get : Step ApiError (ShopClient (Logged ω)) _).runFrom c = (.ok c, c) := rfl
  rw [bearer, Step.runFrom_bind_of_ok hget, h]
  rfl

/-- Without a fresh token, a new one is asked for and kept. -/
theorem runFrom_bearer_of_none (h : c.freshToken? = none) :
    bearer.runFrom c = (fetchToken >>= fun t => do
      modify fun c => { c with token := some t }
      return t.text).runFrom c := by
  have hget : (get : Step ApiError (ShopClient (Logged ω)) _).runFrom c = (.ok c, c) := rfl
  rw [bearer, Step.runFrom_bind_of_ok hget, h]

/-- A request is sent in one of the four ways. -/
theorem sent_send (ctx : Context) (q : Request) : Sent ctx q c ((send ctx q).runFrom c) := by
  cases hcancelled : Network.isCancelled ctx c.network with
  | true =>
    rw [c.runFrom_send_of_cancelled q hcancelled]
    exact .cancelled hcancelled
  | false =>
    rw [c.runFrom_send_of_running q hcancelled]
    cases hfresh : c.freshToken? with
    | some t =>
      obtain ⟨result, hrun, hok⟩ := c.runFrom_sendWith ctx q t.text
      rw [Step.runFrom_bind_of_ok (c.runFrom_bearer_of_some hfresh), hrun]
      exact .kept hcancelled hfresh hok
    | none =>
      have hbearer := c.runFrom_bearer_of_none hfresh
      obtain ⟨a, expires, htoken, hexpires, hfetch⟩ | ⟨hnone, e, -, hfetch⟩ := c.runFrom_fetchToken
      · rw [Step.runFrom_bind_of_ok hfetch] at hbearer
        have hgranted : bearer.runFrom c = (.ok a.text, c.granted ⟨a.text, expires⟩) := hbearer
        obtain ⟨result, hrun, hok⟩ :=
          (c.granted ⟨a.text, expires⟩).runFrom_sendWith ctx q a.text
        rw [Step.runFrom_bind_of_ok hgranted, hrun]
        exact .renewed hcancelled hfresh htoken hexpires hok
      · rw [Step.runFrom_bind_of_error hfetch] at hbearer
        rw [Step.runFrom_bind_of_error hbearer]
        exact .refused hcancelled hfresh hnone

/-- A request is answered when the shop gives a token and serves the request. -/
theorem runFrom_send_granted {c : ShopClient (Logged ω)} {ctx : Context} {q : Request}
    {given served : Reply} {t : AccessToken}
    (hrunning : Network.isCancelled ctx c.network = false) (hfresh : c.freshToken? = none)
    (hgiven : (c.exchanged c.tokenRequest).answer = .ok given)
    (htoken : tokenOf (c.exchanged c.tokenRequest).time given = .ok t)
    (hheader : isHeaderText t.text = true)
    (hserved : ((c.granted t).exchanged (c.outgoing t.text q)).answer = .ok served)
    (hsuccess : served.isSuccess = true) :
    (send ctx q).runFrom c = (.ok served.body, (c.granted t).after (c.outgoing t.text q)) := by
  have hfetch : fetchToken.runFrom c = (.ok t, c.after c.tokenRequest) := by
    rw [c.runFrom_fetchToken_of_answer hgiven, htoken]
    rfl
  have hbearer : bearer.runFrom c = (.ok t.text, c.granted t) := by
    rw [c.runFrom_bearer_of_none hfresh, Step.runFrom_bind_of_ok hfetch]
    rfl
  rw [c.runFrom_send_of_running q hrunning, Step.runFrom_bind_of_ok hbearer,
    (c.granted t).runFrom_sendWith_of_answer ctx hheader hserved, outcome, hsuccess]
  rfl

/-! ### Requests by address -/

omit [Network ω] in
theorem url_inj {c : ShopClient (Logged ω)} {path path' : String} :
    c.url path = c.url path' ↔ path = path' := by
  rw [url, url, String.append_right_inj]

theorem requestsTo_after (url : String) : (c.after r).network.requestsTo url
    = c.network.requestsTo url ++ if r.url = url then [r] else [] := by
  rw [Logged.requestsTo, after_exchanges, List.map_append, List.filter_append, List.map_singleton,
    exchanged_request, List.filter_cons]
  simp only [beq_iff_eq, List.filter_nil]
  rfl

theorem requestsTo_after_tokenRequest {path : String} (htoken : path ≠ tokenPath) :
    (c.after c.tokenRequest).network.requestsTo (c.url path)
      = c.network.requestsTo (c.url path) := by
  rw [requestsTo_after, tokenRequest, if_neg (mt url_inj.mp (Ne.symm htoken)), List.append_nil]

theorem requestsTo_carry (q : Request) (text path : String) :
    (c.carry text q).network.requestsTo (c.url path) = c.network.requestsTo (c.url path)
      ++ if isHeaderText text = true ∧ q.path = path then [c.outgoing text q] else [] := by
  rw [carry]
  split
  · rename_i hheader
    rw [requestsTo_after, outgoing]
    simp only [url_inj, hheader, true_and]
  · rename_i hheader
    rw [if_neg (mt And.left hheader), List.append_nil]

variable (ctx : Context) (q : Request)

/-- A client keeps to the shop's address. -/
theorem baseUrl_send : ((send ctx q).runFrom c).2.baseUrl = c.baseUrl := by
  have hsent := sent_send c ctx q
  generalize (send ctx q).runFrom c = out at hsent ⊢
  cases hsent with
  | cancelled => rfl
  | kept =>
    rw [carry]
    split <;> rfl
  | refused => rfl
  | renewed =>
    rw [carry]
    split <;> rfl

variable {path : String}

/-- Besides a token, a client asks only for what it is to ask for, and at most once. -/
theorem exists_requestsTo_send (htoken : path ≠ tokenPath) :
    ∃ sent, ((send ctx q).runFrom c).2.network.requestsTo (c.url path)
        = c.network.requestsTo (c.url path) ++ sent
      ∧ (q.path ≠ path → sent = [])
      ∧ (q.path = path → ∀ bytes, ((send ctx q).runFrom c).1 = .ok bytes →
        ∃ text, sent = [c.outgoing text q]) := by
  have hsent := sent_send c ctx q
  generalize (send ctx q).runFrom c = out at hsent ⊢
  cases hsent with
  | cancelled => exact ⟨[], (List.append_nil _).symm, fun _ => rfl, nofun⟩
  | @kept t result h hfresh hok =>
    exact ⟨_, c.requestsTo_carry q t.text path, fun hne => if_neg (mt And.right hne),
      fun heq bytes hbytes => ⟨t.text, if_pos ⟨hok bytes hbytes, heq⟩⟩⟩
  | refused =>
    refine ⟨[], ?_, fun _ => rfl, nofun⟩
    rw [c.requestsTo_after_tokenRequest htoken, List.append_nil]
  | @renewed a expires result h hfresh _ _ hok =>
    have hcarry : ((c.granted ⟨a.text, expires⟩).carry a.text q).network.requestsTo (c.url path)
        = c.network.requestsTo (c.url path)
          ++ if isHeaderText a.text = true ∧ q.path = path then [c.outgoing a.text q] else [] := by
      rw [← c.requestsTo_after_tokenRequest htoken]
      exact (c.granted ⟨a.text, expires⟩).requestsTo_carry q a.text path
    exact ⟨_, hcarry, fun hne => if_neg (mt And.right hne),
      fun heq bytes hbytes => ⟨a.text, if_pos ⟨hok bytes hbytes, heq⟩⟩⟩

theorem requestsTo_send_of_ne (htoken : path ≠ tokenPath) (hne : q.path ≠ path) :
    ((send ctx q).runFrom c).2.network.requestsTo (c.url path)
      = c.network.requestsTo (c.url path) := by
  obtain ⟨sent, hsent, hnone, -⟩ := exists_requestsTo_send c ctx q htoken
  rw [hsent, hnone hne, List.append_nil]

/-- A request that was served went out once. -/
theorem requestsTo_send_of_ok (htoken : q.path ≠ tokenPath) {bytes : List UInt8}
    (hok : ((send ctx q).runFrom c).1 = .ok bytes) :
    ∃ text, ((send ctx q).runFrom c).2.network.requestsTo (c.url q.path)
      = c.network.requestsTo (c.url q.path) ++ [c.outgoing text q] := by
  obtain ⟨sent, hsent, -, hone⟩ := exists_requestsTo_send c ctx q htoken
  obtain ⟨text, rfl⟩ := hone rfl bytes hok
  exact ⟨text, hsent⟩

end ShopClient

end ShopTables

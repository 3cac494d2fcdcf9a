import ShopTables.Proofs.Json.Forms
import ShopTables.Proofs.RowStore.Snapshot
import ShopTables.Proofs.Shop.Exchanges

/-!
# When tokens are asked for

A run is a sequence of `Turn`s, each of which sends one request, perhaps after something else has
happened. If every token that is given either outlasts the run or is as good as spent, then what
goes over the network is fixed by the tokens given so far (`Handled`): a token is asked for just
when none of them outlasts the run, and the request carries the last one (`sends_tokens`). That
one client keeps to this for a whole run rests on an invariant, `Knows`: the token it keeps is the
last that was given, and it is fresh just when some given token outlasts the run.
-/

namespace ShopTables

namespace TokenAnswer

/-- Is the token good for a day or longer, or without end? -/
def lasts (a : TokenAnswer) : Prop := ∀ n ∈ a.seconds, 86400 ≤ n

/-- Is the token good for no longer than the margin before its end? -/
def spent (a : TokenAnswer) : Prop := ∃ n ∈ a.seconds, 0 ≤ n ∧ n ≤ 30

/-- Is the text printable ASCII? -/
def isVisible (a : TokenAnswer) : Prop := ∀ ch ∈ a.text.toList, 32 ≤ ch.toNat ∧ ch.toNat ≤ 126

variable {a : TokenAnswer} {expires : Option Instant} {now n : Instant}

theorem isHeaderText_of_isVisible (h : a.isVisible) : ShopClient.isHeaderText a.text = true := by
  refine List.all_eq_true.mpr fun ch hch => ?_
  obtain ⟨hlow, hhigh⟩ := h ch hch
  have hne : ch.toNat ≠ 127 := by omega
  simp [hlow, hne]

/-- A token that lasts is fresh until a day later, but for the margin. -/
theorem isFresh_of_lasts (hlasts : a.lasts)
    (h : AccessToken.expiry now a.seconds = .ok expires)
    (hn : n + AccessToken.margin < now + 86400 * Calendar.second) :
    AccessToken.isFresh n ⟨a.text, expires⟩ = true := by
  obtain ⟨rfl, -⟩ | ⟨seconds, hseconds, -, rfl⟩ := expiry_cases h
  · rfl
  · have hday := hlasts seconds hseconds
    have hsecond : Calendar.second = 1000000000 := rfl
    rw [AccessToken.isFresh, Option.all_some, decide_eq_true_iff]
    rw [hsecond] at hn ⊢
    unfold Instant at *
    omega

/-- A spent token is never fresh. -/
theorem not_isFresh_of_spent (hspent : a.spent)
    (h : AccessToken.expiry now a.seconds = .ok expires) (hn : now ≤ n) :
    AccessToken.isFresh n ⟨a.text, expires⟩ = false := by
  obtain ⟨seconds, hseconds, hlow, hhigh⟩ := hspent
  obtain ⟨-, hspan⟩ | ⟨seconds', hseconds', -, rfl⟩ := expiry_cases h
  · refine absurd ⟨?_, ?_⟩ (hspan seconds hseconds)
    · show -9223372036854775 ≤ seconds
      omega
    · show seconds ≤ 9223372036854775
      omega
  · obtain rfl := Option.some.inj (hseconds.symm.trans hseconds')
    have hsecond : Calendar.second = 1000000000 := rfl
    have hmargin : AccessToken.margin = 30000000000 := rfl
    rw [AccessToken.isFresh, Option.all_some, decide_eq_false_iff_not]
    rw [hsecond, hmargin]
    unfold Instant at *
    omega

end TokenAnswer

/-! ### Runs of one client -/

/-- A clock that does not go back while an answer is waited for. -/
def SteadyClock (ω : Type) [Network ω] : Prop :=
  ∀ (r : Outgoing) (n : ω), Network.now n ≤ Network.now ((Network.exchange r).runFrom n).2

/-- A request that is sent on behalf of a statement, and what happens before it. -/
structure Turn (ω : Type) where
  meanwhile : ω → ω := id
  ctx : Context
  request : Request

/-- The tokens that exchanges gave. -/
def issued (log : List Exchange) : List TokenAnswer := log.filterMap Exchange.token?

variable {ω : Type} [Network ω]

namespace Turn

/-- The client when the request is about to be sent. -/
def start (t : Turn ω) (c : ShopClient (Logged ω)) : ShopClient (Logged ω) :=
  { c with network := { c.network with network := t.meanwhile c.network.network } }

def run (t : Turn ω) (c : ShopClient (Logged ω)) :
    Except ApiError (List UInt8) × ShopClient (Logged ω) :=
  (ShopClient.send t.ctx t.request).runFrom (t.start c)

end Turn

namespace ShopClient

/-- What a turn of a client `c` comes to: the result, and the client afterwards. The requests on
their way go to the shop of the client `shop`, and ask for tokens with its credentials. -/
inductive Handled (shop : ShopClient (Logged ω)) (t : Turn ω) (c : ShopClient (Logged ω)) :
    Except ApiError (List UInt8) × ShopClient (Logged ω) → Prop
  /-- For a cancelled statement nothing is sent. -/
  | cancelled (h : Network.isCancelled t.ctx (t.start c).network = true) :
      Handled shop t c (.error .cancelled, t.start c)
  /-- Some token that was given lasts: the request goes out with the last one. -/
  | carried {a : TokenAnswer} {x : Exchange} {c' : ShopClient (Logged ω)}
      {result : Except ApiError (List UInt8)}
      (h : Network.isCancelled t.ctx (t.start c).network = false)
      (hlasting : ∃ b ∈ issued c.network.exchanges, b.lasts)
      (hlatest : (issued c.network.exchanges).getLast? = some a)
      (hlog : c'.network.exchanges = c.network.exchanges ++ [x])
      (hx : x.request.Carries shop.baseUrl t.request a.text) : Handled shop t c (result, c')
  /-- No token that was given lasts, and none is given now: that is all. -/
  | refused {x : Exchange} {c' : ShopClient (Logged ω)} {e : ApiError}
      (h : Network.isCancelled t.ctx (t.start c).network = false)
      (hnone : ¬ ∃ b ∈ issued c.network.exchanges, b.lasts)
      (hlog : c'.network.exchanges = c.network.exchanges ++ [x])
      (hx : x.request.AsksForToken shop.baseUrl shop.credentials) (hgiven : ∀ a, ¬ x.Gives a)
      (hkept : c'.token = c.token) : Handled shop t c (.error e, c')
  /-- No token that was given lasts, but one is given now: the request goes out with it. -/
  | renewed {a : TokenAnswer} {x y : Exchange} {c' : ShopClient (Logged ω)}
      {result : Except ApiError (List UInt8)}
      (h : Network.isCancelled t.ctx (t.start c).network = false)
      (hnone : ¬ ∃ b ∈ issued c.network.exchanges, b.lasts)
      (hlog : c'.network.exchanges = c.network.exchanges ++ [x, y])
      (hx : x.request.AsksForToken shop.baseUrl shop.credentials) (hgiven : x.Gives a)
      (hy : y.request.Carries shop.baseUrl t.request a.text) : Handled shop t c (result, c')

/-- One client some exchanges after another. -/
structure Later (c c' : ShopClient (Logged ω)) : Prop where
  baseUrl : c'.baseUrl = c.baseUrl
  credentials : c'.credentials = c.credentials
  exchanges : c.network.exchanges <+: c'.network.exchanges
  now : Network.now c.network ≤ Network.now c'.network

namespace Later

theorem refl (c : ShopClient (Logged ω)) : Later c c :=
  ⟨rfl, rfl, List.prefix_refl _, Int.le_refl _⟩

theorem trans {c c' c'' : ShopClient (Logged ω)} (h : Later c c') (h' : Later c' c'') :
    Later c c'' where
  baseUrl := h'.baseUrl.trans h.baseUrl
  credentials := h'.credentials.trans h.credentials
  exchanges := h.exchanges.trans h'.exchanges
  now := Int.le_trans h.now h'.now

theorem after (hsteady : SteadyClock ω) (c : ShopClient (Logged ω)) (r : Outgoing) :
    Later c (c.after r) :=
  ⟨rfl, rfl, List.prefix_append _ _, hsteady r c.network.network⟩

theorem carry (hsteady : SteadyClock ω) (c : ShopClient (Logged ω)) (text : String)
    (q : Request) : Later c (c.carry text q) := by
  rw [ShopClient.carry]
  split
  · exact .after hsteady c _
  · exact .refl c

theorem granted (hsteady : SteadyClock ω) (c : ShopClient (Logged ω)) (t : AccessToken) :
    Later c (c.granted t) :=
  ⟨rfl, rfl, List.prefix_append _ _, hsteady c.tokenRequest c.network.network⟩

theorem sent (hsteady : SteadyClock ω) {ctx : Context} {q : Request} {c : ShopClient (Logged ω)}
    {out : Except ApiError (List UInt8) × ShopClient (Logged ω)} (h : Sent ctx q c out) :
    Later c out.2 := by
  cases h with
  | cancelled => exact .refl c
  | kept => exact .carry hsteady c _ q
  | refused => exact .after hsteady c _
  | renewed => exact (Later.granted hsteady c _).trans (.carry hsteady _ _ q)

theorem start {t : Turn ω} (hpause : ∀ n : ω, Network.now n ≤ Network.now (t.meanwhile n))
    (c : ShopClient (Logged ω)) : Later c (t.start c) :=
  ⟨rfl, rfl, List.prefix_refl _, hpause c.network.network⟩

theorem run (hsteady : SteadyClock ω) {t : Turn ω}
    (hpause : ∀ n : ω, Network.now n ≤ Network.now (t.meanwhile n))
    (c : ShopClient (Logged ω)) : Later c (t.run c).2 :=
  (Later.start hpause c).trans (.sent hsteady (sent_send (t.start c) t.ctx t.request))

theorem runAll (hsteady : SteadyClock ω) {turns : List (Turn ω)}
    (hpause : ∀ t ∈ turns, ∀ n : ω, Network.now n ≤ Network.now (t.meanwhile n))
    (c : ShopClient (Logged ω)) : Later c (ShopTables.runAll Turn.run turns c).2 := by
  induction turns generalizing c with
  | nil => exact .refl c
  | cons t turns ih =>
    exact (Later.run hsteady (hpause t List.mem_cons_self) c).trans
      (ih (fun t' ht' => hpause t' (List.mem_cons_of_mem _ ht')) _)

end Later

/-- Tokens that were given stay given. -/
theorem issued_subset {c c' : ShopClient (Logged ω)} (h : Later c c') :
    issued c.network.exchanges ⊆ issued c'.network.exchanges :=
  (h.exchanges.filterMap Exchange.token?).subset

/-! ### The invariant -/

/-- The token that a client keeps, against the tokens that were given, until the instant `stop`. -/
structure Knows (stop : Instant) (c : ShopClient (Logged ω)) : Prop where
  /-- The token that is kept is the last that was given. -/
  latest : c.token.map (·.text) = (issued c.network.exchanges).getLast?.map (·.text)
  fresh : (∃ b ∈ issued c.network.exchanges, b.lasts) →
    ∃ t, c.token = some t ∧ ∀ n, n ≤ stop → t.isFresh n = true
  stale : (¬ ∃ b ∈ issued c.network.exchanges, b.lasts) →
    ∀ t ∈ c.token, ∀ n, Network.now c.network ≤ n → t.isFresh n = false

namespace Knows

variable {stop : Instant} {c : ShopClient (Logged ω)}

/-- A client that was given no token keeps none. -/
theorem initial (htoken : c.token = none) (hlog : c.network.exchanges = []) : Knows stop c where
  latest := by
    rw [htoken, hlog]
    rfl
  fresh := by
    rintro ⟨b, hb, -⟩
    rw [hlog] at hb
    cases hb
  stale := by
    intro _ t ht
    rw [htoken] at ht
    cases ht

/-- What happens without a token changes nothing about the tokens. -/
theorem mono (hknows : Knows stop c) {c' : ShopClient (Logged ω)} (htoken : c'.token = c.token)
    (hissued : issued c'.network.exchanges = issued c.network.exchanges)
    (hnow : Network.now c.network ≤ Network.now c'.network) : Knows stop c' where
  latest := by rw [htoken, hissued, hknows.latest]
  fresh := by
    rw [htoken, hissued]
    exact hknows.fresh
  stale := by
    rw [htoken, hissued]
    exact fun hnone t ht n hn => hknows.stale hnone t ht n (Int.le_trans hnow hn)

/-- The token that is kept is fresh just when a token that was given lasts. -/
theorem freshToken?_eq (hknows : Knows stop c) (hstop : Network.now c.network ≤ stop) :
    (c.freshToken? = none ∧ ¬ ∃ b ∈ issued c.network.exchanges, b.lasts)
      ∨ (∃ t a, c.freshToken? = some t ∧ (issued c.network.exchanges).getLast? = some a
        ∧ a.text = t.text) ∧ ∃ b ∈ issued c.network.exchanges, b.lasts := by
  by_cases hlasting : ∃ b ∈ issued c.network.exchanges, b.lasts
  · obtain ⟨t, ht, hfresh⟩ := hknows.fresh hlasting
    have hlatest := hknows.latest
    rw [ht, Option.map_some] at hlatest
    obtain ⟨a, ha, htext⟩ := Option.map_eq_some_iff.mp hlatest.symm
    refine .inr ⟨⟨t, a, ?_, ha, htext⟩, hlasting⟩
    rw [freshToken?, ht, Option.filter_some, if_pos (hfresh _ hstop)]
  · refine .inl ⟨?_, hlasting⟩
    refine Option.filter_eq_none_iff.mpr fun t ht => ?_
    rw [hknows.stale hlasting t ht _ (Int.le_refl _)]
    exact Bool.false_ne_true

/-- What a client knows after it was given a token that lasts or is spent. -/
theorem granted (hsteady : SteadyClock ω) {a : TokenAnswer} {expires : Option Instant}
    (hnone : ¬ ∃ b ∈ issued c.network.exchanges, b.lasts)
    (hgiven : (c.exchanged c.tokenRequest).token? = some a)
    (hexpires : AccessToken.expiry (c.exchanged c.tokenRequest).time a.seconds = .ok expires)
    (hkind : a.lasts ∨ a.spent)
    (hshort : stop + AccessToken.margin
      < Network.now c.network + 86400 * Calendar.second) :
    Knows stop (c.granted ⟨a.text, expires⟩) := by
  have hnow : Network.now c.network ≤ (c.exchanged c.tokenRequest).time :=
    hsteady c.tokenRequest c.network.network
  have hissued : issued (c.granted ⟨a.text, expires⟩).network.exchanges
      = issued c.network.exchanges ++ [a] := by
    show issued (c.network.exchanges ++ [c.exchanged c.tokenRequest]) = _
    rw [issued, List.filterMap_append, List.filterMap_cons_some hgiven]
    rfl
  refine ⟨?_, ?_, ?_⟩
  · rw [hissued, List.getLast?_concat]
    rfl
  · rintro ⟨b, hb, hlasts⟩
    rw [hissued] at hb
    obtain hb | hb := List.mem_append.mp hb
    · exact absurd ⟨b, hb, hlasts⟩ hnone
    · obtain rfl := List.mem_singleton.mp hb
      refine ⟨_, rfl, fun n hn => TokenAnswer.isFresh_of_lasts hlasts hexpires ?_⟩
      unfold Instant at *
      omega
  · intro hstill t ht n hn
    obtain rfl := Option.some.inj ht
    refine TokenAnswer.not_isFresh_of_spent (hkind.resolve_left fun hlasts => ?_) hexpires hn
    refine hstill ⟨a, ?_, hlasts⟩
    rw [hissued]
    exact List.mem_append_right _ List.mem_cons_self

end Knows

/-! ### One turn, and runs of them -/

theorem Later.asksForToken {shop c : ShopClient (Logged ω)} (h : Later shop c) :
    c.tokenRequest.AsksForToken shop.baseUrl shop.credentials := by
  rw [← h.baseUrl, ← h.credentials]
  exact c.asksForToken_tokenRequest

theorem Later.carries {shop c : ShopClient (Logged ω)} (h : Later shop c) (text : String)
    (q : Request) : (c.outgoing text q).Carries shop.baseUrl q text := by
  rw [← h.baseUrl]
  exact c.carries_outgoing text q

theorem carry_of_isVisible {a : TokenAnswer} (h : a.isVisible) (c : ShopClient (Logged ω))
    (q : Request) : c.carry a.text q = c.after (c.outgoing a.text q) :=
  if_pos (TokenAnswer.isHeaderText_of_isVisible h)

theorem issued_append_outgoing (c : ShopClient (Logged ω)) (text : String) (q : Request) :
    issued (c.after (c.outgoing text q)).network.exchanges = issued c.network.exchanges := by
  rw [after_exchanges, issued, List.filterMap_append,
    List.filterMap_cons_none (token?_exchanged_outgoing c text q)]
  exact List.append_nil _

/-- A turn is handled, and what the client knows afterwards is in order again. -/
theorem handled_of_knows {stop : Instant} {shop c : ShopClient (Logged ω)} {t : Turn ω}
    (hsteady : SteadyClock ω) (hpause : ∀ n : ω, Network.now n ≤ Network.now (t.meanwhile n))
    (hshort : stop + AccessToken.margin < Network.now shop.network + 86400 * Calendar.second)
    (hshop : Later shop c) (hknows : Knows stop c)
    (hstop : Network.now (t.run c).2.network ≤ stop)
    (hissued : ∀ a ∈ issued (t.run c).2.network.exchanges, a.isVisible ∧ (a.lasts ∨ a.spent)) :
    Handled shop t c (t.run c) ∧ Knows stop (t.run c).2 := by
  have hstart : Later shop (t.start c) := hshop.trans (.start hpause c)
  have hknows₀ : Knows stop (t.start c) := hknows.mono rfl rfl (hpause _)
  have hsent : Sent t.ctx t.request (t.start c) (t.run c) := sent_send _ _ _
  have hlater : Later (t.start c) (t.run c).2 := .sent hsteady hsent
  have hnow : Network.now (t.start c).network ≤ stop := Int.le_trans hlater.now hstop
  have hlong : stop + AccessToken.margin
      < Network.now (t.start c).network + 86400 * Calendar.second := by
    have hfirst := hstart.now
    unfold Instant at *
    omega
  rcases hrun : t.run c with ⟨result, c'⟩
  rw [hrun] at hsent hlater hissued
  obtain ⟨hfresh, hnone⟩ | ⟨⟨t₀, a, hfresh, hlatest, htext⟩, hlasting⟩ :=
    hknows₀.freshToken?_eq hnow
  · -- nothing lasts, so a token is asked for
    cases hsent with
    | cancelled h => exact ⟨.cancelled h, hknows₀⟩
    | kept h hkept => cases hfresh.symm.trans hkept
    | refused h _ hgiven =>
      have hnothing : ∀ a, ¬ ((t.start c).exchanged (t.start c).tokenRequest).Gives a := by
        intro a hgives
        rw [Exchange.token?_eq_some_iff.mpr hgives] at hgiven
        cases hgiven
      refine ⟨.refused h hnone rfl hstart.asksForToken hnothing rfl, ?_⟩
      refine hknows₀.mono rfl ?_ hlater.now
      rw [after_exchanges, issued, List.filterMap_append, List.filterMap_cons_none hgiven]
      exact List.append_nil _
    | @renewed a expires result h _ hgiven hexpires _ =>
      -- the client between its two exchanges
      have hgranted : Later (t.start c) ((t.start c).granted ⟨a.text, expires⟩) :=
        .granted hsteady _ _
      have hmem : a ∈ issued ((t.start c).granted ⟨a.text, expires⟩).network.exchanges := by
        rw [granted_exchanges]
        exact List.mem_filterMap.mpr ⟨_, List.mem_append_right _ List.mem_cons_self, hgiven⟩
      have hcarried := Later.carry hsteady ((t.start c).granted ⟨a.text, expires⟩) a.text t.request
      obtain ⟨hvisible, hkind⟩ := hissued a (issued_subset hcarried hmem)
      have hknows₁ : Knows stop ((t.start c).granted ⟨a.text, expires⟩) :=
        .granted hsteady hnone hgiven hexpires hkind hlong
      rw [carry_of_isVisible hvisible] at hcarried ⊢
      have hlog := after_exchanges ((t.start c).granted ⟨a.text, expires⟩)
        (((t.start c).granted ⟨a.text, expires⟩).outgoing a.text t.request)
      rw [granted_exchanges, List.append_assoc] at hlog
      exact ⟨.renewed h hnone hlog hstart.asksForToken (Exchange.token?_eq_some_iff.mp hgiven)
          ((hstart.trans hgranted).carries a.text t.request),
        hknows₁.mono rfl (issued_append_outgoing _ _ _) hcarried.now⟩
  · -- the token that is kept is the last one, and still fresh
    cases hsent with
    | cancelled h => exact ⟨.cancelled h, hknows₀⟩
    | refused h hkept => cases hfresh.symm.trans hkept
    | renewed h hkept => cases hfresh.symm.trans hkept
    | @kept t₁ result h hkept _ =>
      obtain rfl := Option.some.inj (hfresh.symm.trans hkept)
      have hmem : a ∈ issued c.network.exchanges := List.mem_of_getLast? hlatest
      have hvisible : a.isVisible := (hissued a (issued_subset hlater hmem)).1
      rw [← htext, carry_of_isVisible hvisible] at hlater hissued ⊢
      exact ⟨.carried h hlasting hlatest rfl (hstart.carries _ _),
        hknows₀.mono rfl (issued_append_outgoing _ _ _) hlater.now⟩

/-- Every turn of a run is handled, from any client whose knowledge is in order. -/
theorem handled_of_runAll {stop : Instant} {shop : ShopClient (Logged ω)}
    (hsteady : SteadyClock ω)
    (hshort : stop + AccessToken.margin < Network.now shop.network + 86400 * Calendar.second)
    {before after : List (Turn ω)} {t : Turn ω} {c : ShopClient (Logged ω)}
    (hpause : ∀ t' ∈ before ++ t :: after, ∀ n : ω, Network.now n ≤ Network.now (t'.meanwhile n))
    (hstop : Network.now (runAll Turn.run (before ++ t :: after) c).2.network ≤ stop)
    (hissued : ∀ a ∈ issued (runAll Turn.run (before ++ t :: after) c).2.network.exchanges,
      a.isVisible ∧ (a.lasts ∨ a.spent))
    (hshop : Later shop c) (hknows : Knows stop c) :
    Handled shop t (runAll Turn.run before c).2 (t.run (runAll Turn.run before c).2) := by
  induction before generalizing c with
  | nil =>
    have hrest : Later (t.run c).2 (runAll Turn.run (t :: after) c).2 :=
      .runAll hsteady (fun t' ht' => hpause t' (List.mem_cons_of_mem _ ht')) _
    exact (handled_of_knows hsteady (hpause t List.mem_cons_self) hshort hshop hknows
      (Int.le_trans hrest.now hstop) fun a ha => hissued a (issued_subset hrest ha)).1
  | cons t' before ih =>
    have hpause' := hpause t' List.mem_cons_self
    have hrest : Later (t'.run c).2 (runAll Turn.run (t' :: before ++ t :: after) c).2 :=
      .runAll hsteady (fun t' ht' => hpause t' (List.mem_cons_of_mem _ ht')) _
    have hstep := (handled_of_knows hsteady hpause' hshort hshop hknows
      (Int.le_trans hrest.now hstop) fun a ha => hissued a (issued_subset hrest ha)).2
    exact ih (fun t' ht' => hpause t' (List.mem_cons_of_mem _ ht')) hstop hissued
      (hshop.trans (.run hsteady hpause' c)) hstep

/-- What goes over the network for each request of a run, if every token that is given lasts longer
than the run or is spent when it comes: nothing for a cancelled statement; a request for a token
just when no token was given that lasts; and then the request itself, once and with the last token,
unless no token came. -/
theorem sends_tokens {config : ShopConfig} {network : ω} {c : ShopClient (Logged ω)}
    (hc : ofConfig config ⟨network, []⟩ = .ok c) (turns : List (Turn ω))
    (hsteady : SteadyClock ω)
    (hpause : ∀ t ∈ turns, ∀ n : ω, Network.now n ≤ Network.now (t.meanwhile n))
    (hissued : ∀ a ∈ issued (runAll Turn.run turns c).2.network.exchanges,
      a.isVisible ∧ (a.lasts ∨ a.spent))
    (hshort : Network.now (runAll Turn.run turns c).2.network + AccessToken.margin
      < Network.now network + 86400 * Calendar.second) :
    ∀ before t after, turns = before ++ t :: after →
      Handled c t (runAll Turn.run before c).2 (t.run (runAll Turn.run before c).2) := by
  rintro before t after rfl
  obtain ⟨credentials, rfl⟩ := eq_of_ofConfig hc
  exact handled_of_runAll hsteady hshort hpause (Int.le_refl _) hissued (.refl _)
    (.initial rfl rfl)

/-! ### Tokens that a shop gives -/

variable {P : TokenAnswer → Prop}
  (hshop : ∀ (r : Outgoing) (n : ω) (reply : Reply), r.authorization = none →
    ((Network.exchange r).runFrom n).1 = .ok reply → ∀ a ∈ TokenAnswer.read? reply.body, P a)

include hshop

theorem forall_issued_after {c : ShopClient (Logged ω)} (r : Outgoing)
    (h : ∀ a ∈ issued c.network.exchanges, P a) :
    ∀ a ∈ issued (c.after r).network.exchanges, P a := by
  intro a ha
  rw [after_exchanges, issued, List.filterMap_append, List.mem_append] at ha
  obtain ha | ha := ha
  · exact h a ha
  · obtain ⟨x, hx, hgiven⟩ := List.mem_filterMap.mp ha
    obtain rfl := List.mem_singleton.mp hx
    obtain ⟨hnone, ⟨reply, hanswer, -, -, hread⟩, -⟩ := Exchange.token?_eq_some_iff.mp hgiven
    exact hshop r _ reply hnone hanswer a hread

theorem forall_issued_carry {c : ShopClient (Logged ω)} (text : String) (q : Request)
    (h : ∀ a ∈ issued c.network.exchanges, P a) :
    ∀ a ∈ issued (c.carry text q).network.exchanges, P a := by
  rw [carry]
  split
  · exact forall_issued_after hshop _ h
  · exact h

/-- If a shop gives tokens of one kind only, so are all that a run is given. -/
theorem forall_issued_runAll {turns : List (Turn ω)} {c : ShopClient (Logged ω)}
    (h : ∀ a ∈ issued c.network.exchanges, P a) :
    ∀ a ∈ issued (runAll Turn.run turns c).2.network.exchanges, P a := by
  induction turns generalizing c with
  | nil => exact h
  | cons t turns ih =>
    refine ih ?_
    have hsent : Sent t.ctx t.request (t.start c) (t.run c) := sent_send _ _ _
    generalize t.run c = out at hsent
    cases hsent with
    | cancelled => exact h
    | kept => exact forall_issued_carry hshop _ _ h
    | refused => exact forall_issued_after hshop _ h
    | renewed => exact forall_issued_carry hshop _ _ (forall_issued_after hshop _ h)

end ShopClient

namespace TokenAnswer

/-- What a shop answers that gives a token for some seconds. -/
def document (text : String) (seconds : Int) : Json :=
  .object [("access_token", .string text), ("expires_in", Json.ofInt seconds)]

/-- The answer is read as the token it gives. -/
theorem read?_document (text : String) {seconds : Int} (hlow : -9223372036854775808 ≤ seconds)
    (hhigh : seconds ≤ 9223372036854775807) :
    read? (document text seconds).bytes = some ⟨text, some seconds⟩ := by
  have hreadable : Json.Readable 1 (document text seconds) :=
    ⟨trivial, ⟨hlow, by omega⟩, trivial⟩
  have hfields : Json.Form.read? ["access_token", "expires_in"]
      (Json.outlineOf (document text seconds))
        = some [some (Json.outlineOf (.string text)),
            some (Json.outlineOf (Json.ofInt seconds))] := by
    rw [document, Json.Form.read?_outlineOf (by decide) (by simp)]
    rfl
  rw [read?, Json.outlineRead?_bytes hreadable, Option.bind_eq_bind, Option.bind_some, hfields,
    Option.bind_eq_bind, Option.bind_some]
  dsimp only
  rw [Json.Form.string?_outlineOf, Json.Form.optionalInt?_ofInt hlow hhigh hlow (by omega)]
  rfl

end TokenAnswer

/-- The token that is made of such an answer. -/
theorem ShopClient.tokenOf_document {now : Instant} (text : String) {seconds : Int}
    {expires : Option Instant} (hlow : -9223372036854775808 ≤ seconds)
    (hhigh : seconds ≤ 9223372036854775807)
    (hexpires : AccessToken.expiry now (some seconds) = .ok expires) :
    tokenOf now ⟨200, (TokenAnswer.document text seconds).bytes⟩ = .ok ⟨text, expires⟩ := by
  have hsuccess : Reply.isSuccess ⟨200, (TokenAnswer.document text seconds).bytes⟩ = true := rfl
  rw [tokenOf, if_pos hsuccess, TokenAnswer.read?_document text hlow hhigh]
  dsimp only
  rw [hexpires]
  rfl

/-- A shop that gives a token for ten seconds, then only tokens for a day, and serves nothing. Its
clock stands still. -/
structure Sparing where
  given : Nat := 0
  cancelled : List Context := []

namespace Sparing

/-- How many seconds the next token is good for. -/
def seconds (n : Sparing) : Int := if n.given = 0 then 10 else 86400

theorem seconds_eq (n : Sparing) : n.seconds = 10 ∨ n.seconds = 86400 := ite_eq_or_eq _ _ _

theorem seconds_range (n : Sparing) : 10 ≤ n.seconds ∧ n.seconds ≤ 86400 := by
  obtain h | h := n.seconds_eq <;> rw [h] <;> decide

instance : Network Sparing where
  exchange r := Step.ofFn fun n =>
    if r.authorization = none then
      (.ok ⟨200, (TokenAnswer.document "tok" n.seconds).bytes⟩, { n with given := n.given + 1 })
    else (.ok ⟨500, []⟩, n)
  now _ := 0
  isCancelled ctx n := n.cancelled.contains ctx

/-- Its tokens are spent at once or last. -/
theorem lasts_or_spent (r : Outgoing) (n : Sparing) (reply : Reply)
    (hnone : r.authorization = none) (h : ((Network.exchange r).runFrom n).1 = .ok reply) :
    ∀ a ∈ TokenAnswer.read? reply.body, a.isVisible ∧ (a.lasts ∨ a.spent) := by
  intro a ha
  have hanswer : ((Network.exchange r).runFrom n).1
      = .ok ⟨200, (TokenAnswer.document "tok" n.seconds).bytes⟩ :=
    congrArg Prod.fst (if_pos hnone)
  obtain rfl := Except.ok.inj (hanswer.symm.trans h)
  have hread : TokenAnswer.read? (TokenAnswer.document "tok" n.seconds).bytes
      = some ⟨"tok", some n.seconds⟩ := by
    obtain ⟨hlow, hhigh⟩ := n.seconds_range
    exact TokenAnswer.read?_document "tok" (Int.le_trans (by decide) hlow)
      (Int.le_trans hhigh (by decide))
  obtain rfl := Option.some.inj (hread.symm.trans ha)
  have hvisible : ∀ ch ∈ "tok".toList, 32 ≤ ch.toNat ∧ ch.toNat ≤ 126 := by simp
  refine ⟨hvisible, ?_⟩
  obtain hseconds | hseconds := n.seconds_eq
  · exact .inr ⟨n.seconds, rfl, by omega, by omega⟩
  · refine .inl fun m hm => ?_
    obtain rfl := Option.some.inj hm
    exact Int.le_of_eq hseconds.symm

/-- A request, another for a statement that is cancelled before it, and the first again twice. -/
def turns : List (Turn Sparing) :=
  let again : Turn Sparing := { ctx := ⟨"a"⟩, request := ⟨.get, "/api/product", none⟩ }
  let cancelled : Turn Sparing :=
    { meanwhile := fun n => { n with cancelled := [⟨"b"⟩] }, ctx := ⟨"b"⟩,
      request := again.request }
  [again, cancelled, again, again]

end Sparing

/-- Each of the four requests is handled. -/
theorem sends_tokens_sparing :
    ∃ c : ShopClient (Logged Sparing),
      ShopClient.ofConfig
          { url := "http://shop", adminApi := { clientId := "i", clientSecret := "s" } }
          ⟨{}, []⟩ = .ok c
        ∧ c.baseUrl = "http://shop" ∧ c.credentials = .client "i" "s"
        ∧ ∀ before t after, Sparing.turns = before ++ t :: after →
          ShopClient.Handled c t (runAll Turn.run before c).2
            (t.run (runAll Turn.run before c).2) := by
  have hc : ShopClient.ofConfig
      { url := "http://shop", adminApi := { clientId := "i", clientSecret := "s" } }
      (⟨{}, []⟩ : Logged Sparing)
        = .ok { baseUrl := "http://shop", credentials := .client "i" "s", network := ⟨{}, []⟩ } :=
    rfl
  refine ⟨_, hc, rfl, rfl, ShopClient.sends_tokens hc Sparing.turns (fun _ _ => Int.le_refl _)
    (fun _ _ _ => Int.le_refl _) (ShopClient.forall_issued_runAll Sparing.lasts_or_spent ?_) ?_⟩
  · exact List.forall_mem_nil _
  · show (0 : Int) + AccessToken.margin < 0 + 86400 * Calendar.second
    decide

end ShopTables

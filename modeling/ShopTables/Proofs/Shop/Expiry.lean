import ShopTables.Proofs.Shop.Tokens

/-!
# How long a token is kept

```
   no span of time  | a span, but no instant |  an instant: kept until then  | a span, but ...
  ---------------(-2^63 ms)---------------(first)-------------------------(last)-----(2^63 ms)--
    kept for ever           refused               exactly as was said           refused
```

The shop says for how many seconds a token is good, and that may be any number of 64 bits. Such a
number is a span of time only if its milliseconds fit 64 bits, and the end of the span is an
instant only if the calendar has it (`TokenAnswer.Overruns`). Where both hold, the token is fresh
just as long as the shop said, but for the margin (`TokenAnswer.GoodAt`); a token whose end is no
instant is refused, and one whose number is no span is fresh for ever
(`ShopClient.send_keeps_token`). The last is what the shop said if the number is positive, but not
if it is negative (`Boastful.unkept_promises`).
-/

namespace ShopTables

/-- Is an instant of the years 1970 to 2200? -/
def Calendar.IsPresent (t : Instant) : Prop := 0 ≤ t ∧ t < 7289654400 * second

instance (t : Instant) : Decidable (Calendar.IsPresent t) :=
  inferInstanceAs (Decidable (0 ≤ t ∧ t < 7289654400 * Calendar.second))

/-- The margin before the end of a token does not lead beyond the calendar. -/
theorem Calendar.after?_margin {now : Instant} (h : IsPresent now) :
    after? now AccessToken.margin = some (now + AccessToken.margin) := by
  refine if_pos ⟨?_, ?_⟩
  all_goals
    simp only [IsPresent, first, last, AccessToken.margin, second] at h ⊢
    unfold Instant at *
    omega

namespace TokenAnswer

variable {a : TokenAnswer} {given now : Instant}

/-- Is the token, given at one instant, still good at another, the margin apart? Seconds are counted
without bounds. -/
def GoodAt (a : TokenAnswer) (given now : Instant) : Prop :=
  ∀ n ∈ a.seconds, now + AccessToken.margin < given + n * Calendar.second

/-- Is the token given for less than any span of time? -/
def Underruns (a : TokenAnswer) : Prop := ∃ n ∈ a.seconds, n < -Calendar.longestSpan

/-! ### When a token expires -/

/-- A token that can be kept is fresh as long as it is good, or for ever if it was given for less
than any span of time. -/
theorem expiry_of_not_overruns (h : ¬ a.Overruns given) (hgiven : 0 ≤ given) :
    ∃ expires, AccessToken.expiry given a.seconds = .ok expires
      ∧ ∀ now, Calendar.IsPresent now →
        (AccessToken.isFresh now ⟨a.text, expires⟩ = true ↔ a.GoodAt given now ∨ a.Underruns) := by
  obtain ⟨expires, hexpiry⟩ := exists_expiry_of_not_overruns h
  refine ⟨expires, hexpiry, fun now hnow => ?_⟩
  obtain ⟨rfl, hspan⟩ | ⟨n, hn, hspan, rfl⟩ := expiry_cases hexpiry
  · -- seconds that are no span reach beyond all of the present, one way or the other
    refine iff_of_true rfl (or_iff_not_imp_right.mpr fun hunder n hn => ?_)
    have hlow : ¬ n < -Calendar.longestSpan := fun hlow => hunder ⟨n, hn, hlow⟩
    have hhigh := hspan n hn
    simp only [Calendar.IsPresent, Calendar.longestSpan, AccessToken.margin, Calendar.second]
      at hlow hhigh hnow ⊢
    unfold Instant at *
    omega
  · have hgood : a.GoodAt given now ↔ now + AccessToken.margin < given + n * Calendar.second := by
      have hsome : a.seconds = some n := hn
      simp only [GoodAt, hsome, Option.mem_some_iff, forall_eq']
    have hunder : ¬ a.Underruns := by
      rintro ⟨m, hm, hlow⟩
      obtain rfl := Option.some.inj (hn.symm.trans hm)
      exact absurd hspan.1 (Int.not_le.mpr hlow)
    rw [hgood, or_iff_left hunder]
    exact decide_eq_true_iff

end TokenAnswer

namespace ShopClient

variable {ω : Type} [Network ω]

/-! ### What a client keeps -/

/-- What a token is used for does not fail for want of one. -/
theorem runFrom_sendWith_ne_token (c : ShopClient (Logged ω)) (ctx : Context) (q : Request)
    (token : String) (fault : TokenFault) :
    ((sendWith ctx q token).runFrom c).1 ≠ .error (.token fault) := by
  cases hheader : isHeaderText token with
  | false =>
    rw [c.runFrom_sendWith_of_not_header ctx q hheader]
    rintro ⟨⟩
  | true =>
    cases hanswer : (c.exchanged (c.outgoing token q)).answer with
    | ok reply =>
      rw [c.runFrom_sendWith_of_answer ctx hheader hanswer, outcome]
      split_ifs <;> rintro ⟨⟩
    | error reason =>
      have hexchange := c.runFrom_exchange (c.outgoing token q)
      rw [hanswer] at hexchange
      have hsend : (sendWith ctx q token).runFrom c
          = (.error (.transport reason), c.after (c.outgoing token q)) := by
        rw [sendWith, hheader]
        show (exchange (c.outgoing token q) >>= _).runFrom c = _
        exact Step.runFrom_bind_of_error hexchange
      rw [hsend]
      rintro ⟨⟩

theorem carry_token (text : String) (q : Request) (c : ShopClient (Logged ω)) :
    (c.carry text q).token = c.token := by
  rw [carry]
  split_ifs <;> rfl

variable {c : ShopClient (Logged ω)} {ctx : Context} {q : Request} {reply : Reply} {a : TokenAnswer}

/-- A token that cannot be kept is as good as none. -/
theorem runFrom_send_of_expiry_error {fault : TokenFault}
    (hrunning : Network.isCancelled ctx c.network = false) (hfresh : c.freshToken? = none)
    (hanswer : (c.exchanged c.tokenRequest).answer = .ok reply)
    (hsuccess : reply.isSuccess = true) (hread : TokenAnswer.read? reply.body = some a)
    (hexpiry : AccessToken.expiry (c.exchanged c.tokenRequest).time a.seconds = .error fault) :
    (send ctx q).runFrom c = (.error (.token fault), c.after c.tokenRequest) := by
  have hfetch := c.runFrom_fetchToken_of_answer hanswer
  rw [tokenOf_of_read hsuccess hread, hexpiry] at hfetch
  have hbearer := c.runFrom_bearer_of_none hfresh
  rw [Step.runFrom_bind_of_error hfetch] at hbearer
  rw [c.runFrom_send_of_running q hrunning]
  exact Step.runFrom_bind_of_error hbearer

/-- A token that can be kept is kept, and used. -/
theorem runFrom_send_of_expiry_ok {expires : Option Instant}
    (hrunning : Network.isCancelled ctx c.network = false) (hfresh : c.freshToken? = none)
    (hanswer : (c.exchanged c.tokenRequest).answer = .ok reply)
    (hsuccess : reply.isSuccess = true) (hread : TokenAnswer.read? reply.body = some a)
    (hexpiry : AccessToken.expiry (c.exchanged c.tokenRequest).time a.seconds = .ok expires) :
    (send ctx q).runFrom c
      = (sendWith ctx q a.text).runFrom (c.granted ⟨a.text, expires⟩) := by
  have hfetch := c.runFrom_fetchToken_of_answer hanswer
  rw [tokenOf_of_read hsuccess hread, hexpiry] at hfetch
  have hbearer := c.runFrom_bearer_of_none hfresh
  rw [Step.runFrom_bind_of_ok hfetch] at hbearer
  have hgranted : bearer.runFrom c = (.ok a.text, c.granted ⟨a.text, expires⟩) := hbearer
  rw [c.runFrom_send_of_running q hrunning]
  exact Step.runFrom_bind_of_ok hgranted

/-- What becomes of a token that the shop gives. If it is good for a span of time that ends beyond
the calendar, the request fails, and for no other number of seconds does it fail so. Otherwise the
token is kept, and whether it is fresh can be asked at any instant of the present; the answer is as
the shop said, except that a token which is given for less than any span of time is always
fresh. -/
theorem send_keeps_token (hrunning : Network.isCancelled ctx c.network = false)
    (hfresh : c.freshToken? = none) (hanswer : (c.exchanged c.tokenRequest).answer = .ok reply)
    (hsuccess : reply.isSuccess = true) (hread : TokenAnswer.read? reply.body = some a)
    (hgiven : Calendar.IsPresent (c.exchanged c.tokenRequest).time) :
    (((send ctx q).runFrom c).1 = .error (.token .beyondCalendar)
        ↔ a.Overruns (c.exchanged c.tokenRequest).time)
      ∧ (¬ a.Overruns (c.exchanged c.tokenRequest).time →
        ∃ t, ((send ctx q).runFrom c).2.token = some t ∧ t.text = a.text
          ∧ ∀ now, Calendar.IsPresent now →
            Calendar.after? now AccessToken.margin = some (now + AccessToken.margin)
              ∧ (t.isFresh now = true
                ↔ a.GoodAt (c.exchanged c.tokenRequest).time now ∨ a.Underruns)) := by
  by_cases hover : a.Overruns (c.exchanged c.tokenRequest).time
  · rw [runFrom_send_of_expiry_error hrunning hfresh hanswer hsuccess hread
      (TokenAnswer.expiry_of_overruns hover)]
    exact ⟨iff_of_true rfl hover, fun h => absurd hover h⟩
  · obtain ⟨expires, hexpiry, hexact⟩ := TokenAnswer.expiry_of_not_overruns hover hgiven.1
    rw [runFrom_send_of_expiry_ok hrunning hfresh hanswer hsuccess hread hexpiry]
    refine ⟨iff_of_false (runFrom_sendWith_ne_token _ ctx q a.text _) hover, fun _ =>
      ⟨⟨a.text, expires⟩, ?_, rfl, fun now hnow => ⟨Calendar.after?_margin hnow, hexact now hnow⟩⟩⟩
    obtain ⟨result, hrun, -⟩ := (c.granted ⟨a.text, expires⟩).runFrom_sendWith ctx q a.text
    rw [hrun]
    exact carry_token a.text q _

end ShopClient

/-! ### Tokens with a given number of seconds -/

/-- A shop that serves everything. Its tokens are good for so many seconds, or so it says; its clock
stands still at the start of 1970. -/
structure Boastful where
  seconds : Int

namespace Boastful

instance : Network Boastful where
  exchange r := Step.ofFn fun n =>
    if r.authorization = none then (.ok ⟨200, (TokenAnswer.document "tok" n.seconds).bytes⟩, n)
    else (.ok ⟨200, []⟩, n)
  now _ := 0
  isCancelled _ _ := false

/-- A client of such a shop that has no token yet. -/
def client (seconds : Int) : ShopClient (Logged Boastful) where
  baseUrl := "http://s"
  credentials := .client "i" "s"
  network := ⟨⟨seconds⟩, []⟩

def request : Request := ⟨.get, "/api/ok", none⟩

/-- The token that such a shop gives. -/
def answer (seconds : Int) : TokenAnswer := ⟨"tok", some seconds⟩

theorem read?_answer (seconds : Int) (hlow : -9223372036854775808 ≤ seconds)
    (hhigh : seconds ≤ 9223372036854775807) :
    TokenAnswer.read? (TokenAnswer.document "tok" seconds).bytes = some (answer seconds) :=
  TokenAnswer.read?_document "tok" hlow hhigh

/-- A token for an hour is fresh until thirty seconds before the hour is over. -/
theorem send_keeps_token_hour :
    Network.isCancelled ⟨"q"⟩ (client 3600).network = false
      ∧ (client 3600).freshToken? = none
      ∧ ((client 3600).exchanged (client 3600).tokenRequest).answer
        = .ok ⟨200, (TokenAnswer.document "tok" 3600).bytes⟩
      ∧ TokenAnswer.read? (TokenAnswer.document "tok" 3600).bytes = some (answer 3600)
      ∧ Calendar.IsPresent 0
      ∧ ∃ t, ((ShopClient.send ⟨"q"⟩ request).runFrom (client 3600)).2.token = some t
        ∧ t.isFresh (3569 * Calendar.second) = true
        ∧ t.isFresh (3570 * Calendar.second) = false := by
  have hread := read?_answer 3600 (by decide) (by decide)
  have hpresent : Calendar.IsPresent 0 := by decide
  obtain ⟨-, hkept⟩ := @ShopClient.send_keeps_token Boastful _ (client 3600) ⟨"q"⟩ request
    ⟨200, (TokenAnswer.document "tok" 3600).bytes⟩ _ rfl rfl rfl rfl hread hpresent
  have hover : ¬ (answer 3600).Overruns 0 := by
    rintro ⟨n, hn, -, hbeyond⟩
    cases hn
    exact hbeyond (by decide)
  have hunder : ¬ (answer 3600).Underruns := by
    rintro ⟨n, hn, hlow⟩
    cases hn
    exact absurd hlow (by decide)
  obtain ⟨t, htoken, -, hexact⟩ := hkept hover
  refine ⟨rfl, rfl, rfl, hread, hpresent, t, htoken, ?_, ?_⟩
  · refine (hexact _ (by decide)).2.mpr (.inl fun n hn => ?_)
    cases hn
    decide
  · rw [← Bool.not_eq_true, (hexact _ (by decide)).2]
    rintro (hgood | h)
    · exact absurd (hgood 3600 rfl) (by decide)
    · exact hunder h

/-- What the shop said is not always kept to. A token for nine million billion seconds makes the
request fail, though a token that lasts longer than any span of time is good; and one that was over
long ago is fresh. -/
theorem unkept_promises :
    (((ShopClient.send ⟨"q"⟩ request).runFrom (client 9000000000000000)).1
        = .error (.token .beyondCalendar)
      ∧ (answer 9000000000000000).GoodAt 0 0)
    ∧ ∃ t, ((ShopClient.send ⟨"q"⟩ request).runFrom (client (-9223372036854776))).2.token = some t
      ∧ t.isFresh 0 = true
      ∧ ¬ (answer (-9223372036854776)).GoodAt 0 0 := by
  have hlong := read?_answer 9000000000000000 (by decide) (by decide)
  have hpast := read?_answer (-9223372036854776) (by decide) (by decide)
  refine ⟨⟨?_, fun n hn => ?_⟩, ⟨"tok", none⟩, ?_, rfl, fun hgood => ?_⟩
  · have hrun := @ShopClient.runFrom_send_of_expiry_error Boastful _ (client 9000000000000000)
      ⟨"q"⟩ request ⟨200, (TokenAnswer.document "tok" 9000000000000000).bytes⟩ _ .beyondCalendar
      rfl rfl rfl rfl hlong rfl
    rw [hrun]
  · cases hn
    decide
  · have hrun := @ShopClient.runFrom_send_of_expiry_ok Boastful _ (client (-9223372036854776))
      ⟨"q"⟩ request ⟨200, (TokenAnswer.document "tok" (-9223372036854776)).bytes⟩ _ none
      rfl rfl rfl rfl hpast rfl
    obtain ⟨result, hsent, -⟩ :=
      ((client (-9223372036854776)).granted ⟨"tok", none⟩).runFrom_sendWith ⟨"q"⟩ request "tok"
    rw [hrun]
    exact (congrArg (·.2.token) hsent).trans (ShopClient.carry_token "tok" request _)
  · exact absurd (hgood (-9223372036854776) rfl) (by decide)

end Boastful

end ShopTables

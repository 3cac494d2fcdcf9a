import ShopTables.Proofs.StatementCalls

/-!
# Whether a deleter is cleaned up

Whoever opens a deleter has to close it, and to discard its changes first if the statement failed
(`CleanedUp`). A statement does so whichever of the deletes fails, or the completion, and however
many rows there are; the one exception is a deleter that does not begin, which is neither discarded
nor closed (`Target.deleteMatching_cleanedUp_iff`).
-/

namespace ShopTables

variable {ε σ τ π δ α β : Type}

namespace StatementCall

/-- Is this a call of the deleter? -/
def onDeleter : StatementCall ε π → Bool
  | .begin _ | .delete _ _ | .complete _ | .discard _ _ | .close _ => true
  | _ => false

def isDiscard : StatementCall ε π → Bool
  | .discard _ _ => true
  | _ => false

def isClose : StatementCall ε π → Bool
  | .close _ => true
  | _ => false

/-- The error of a call by which the deleter begins, deletes or completes. -/
def statementError? : StatementCall ε π → Option ε
  | .begin r => errorOf? r
  | .delete _ r => errorOf? r
  | .complete r => errorOf? r
  | _ => none

theorem failure?_of_statementError? {c : StatementCall ε π} {e : ε}
    (h : c.statementError? = some e) : c.failure? = some e := by
  cases c <;> first | exact h | cases h

theorem onDeleter_of_statementError? {c : StatementCall ε π} {e : ε}
    (h : c.statementError? = some e) : c.onDeleter = true := by
  cases c <;> first | rfl | cases h

end StatementCall

open StatementCall (isDiscard isClose)

/-- The deleter is closed once, by the last call of all. -/
def ClosedLast (calls : List (StatementCall ε π)) : Prop :=
  calls.countP isClose = 1 ∧ ∃ r, calls.getLast? = some (.close r)

/-- After a call that failed the changes are discarded once, because of that failure, and the
deleter is closed after that. -/
def DiscardedFor (c : StatementCall ε π) (cause : ε) (calls : List (StatementCall ε π)) : Prop :=
  calls.countP isDiscard = 1 ∧ ∃ front r back r', calls = front ++ .discard cause r :: back
    ∧ c ∈ front ∧ .close r' ∈ back

/-- A deleter that was opened is closed, at last; and if it does not begin, does not delete a row or
does not complete, it discards, because of that failure. -/
structure CleanedUp (calls : List (StatementCall ε π)) : Prop where
  closed : .openDeleter (.ok ()) ∈ calls → ClosedLast calls
  discarded : ∀ c ∈ calls, ∀ cause, c.statementError? = some cause → DiscardedFor c cause calls

/-! ### Where calls of the deleter stand -/

/-- Of calls made one for each thing up to the first that fails, only the last can fail. -/
theorem UpToFailure.eq_error {note : α → Except ε β → StatementCall ε π} {as : List α}
    {calls : List (StatementCall ε π)} {r : Except ε (List β)} (h : UpToFailure note as calls r)
    (hnote : ∀ a r', (note a r').failure? = errorOf? r') {c : StatementCall ε π} (hc : c ∈ calls)
    {e : ε} (he : c.failure? = some e) : r = .error e := by
  induction h with
  | nil => cases hc
  | fails a as e' =>
    rw [List.mem_singleton.mp hc, hnote] at he
    rw [Option.some.inj he]
  | cons a b rest ih =>
    rcases List.mem_cons.mp hc with rfl | hc
    · rw [hnote] at he
      cases he
    · rw [ih hc]
      rfl

namespace BodyCalls

variable {rows : List Row} {calls : List (StatementCall ε π)} {r : Except ε Unit}

/-- Between beginning and closing there are only deletes and the completion. -/
theorem mem_cases (h : BodyCalls rows calls r) {c : StatementCall ε π} (hc : c ∈ calls) :
    (∃ row r', c = .delete row r') ∨ ∃ r', c = .complete r' := by
  cases h with
  | failed deletes => exact .inl (deletes.exists_note hc)
  | completed deletes r =>
    rcases List.mem_append.mp hc with hc | hc
    · exact .inl (deletes.exists_note hc)
    · exact .inr ⟨r, List.mem_singleton.mp hc⟩

theorem eq_error (h : BodyCalls rows calls r) {c : StatementCall ε π} (hc : c ∈ calls) {e : ε}
    (he : c.failure? = some e) : r = .error e := by
  cases h with
  | failed deletes =>
    rw [Except.error.inj (deletes.eq_error (fun _ _ => rfl) hc he)]
  | completed deletes r =>
    rcases List.mem_append.mp hc with hc | hc
    · cases deletes.eq_error (fun _ _ => rfl) hc he
    · rw [List.mem_singleton.mp hc] at he
      cases r with
      | ok _ => cases he
      | error e' => rw [Option.some.inj he]

theorem countP_isDiscard (h : BodyCalls rows calls r) : calls.countP isDiscard = 0 := by
  apply List.countP_eq_zero.mpr
  intro c hc
  rcases h.mem_cases hc with ⟨row, r', rfl⟩ | ⟨r', rfl⟩ <;> exact Bool.false_ne_true

theorem countP_isClose (h : BodyCalls rows calls r) : calls.countP isClose = 0 := by
  apply List.countP_eq_zero.mpr
  intro c hc
  rcases h.mem_cases hc with ⟨row, r', rfl⟩ | ⟨r', rfl⟩ <;> exact Bool.false_ne_true

end BodyCalls

/-- A scan is made of calls to the table. -/
theorem ScanCalls.offDeleter {calls : List (StatementCall ε π)} {r : Except ε (List Row)}
    (h : ScanCalls calls r) : ∀ c ∈ calls, c.onDeleter = false ∧ c ≠ .openDeleter (.ok ()) := by
  intro c hc
  cases h with
  | refused e =>
    rw [List.mem_singleton.mp hc]
    exact ⟨rfl, nofun⟩
  | read rows =>
    rcases List.mem_cons.mp hc with rfl | hc
    · exact ⟨rfl, nofun⟩
    · obtain ⟨p, r', rfl⟩ := rows.exists_note hc
      exact ⟨rfl, nofun⟩

/-- A statement either opens no deleter, and makes no call of one, or its last calls are those of
the deleter that it opens. -/
theorem StatementCalls.deleter_cases {calls : List (StatementCall ε π)} {r : Except ε Nat}
    (h : StatementCalls calls r) :
    (∀ c ∈ calls, c.onDeleter = false ∧ c ≠ .openDeleter (.ok ()))
      ∨ ∃ front rest rows r', calls = front ++ rest ∧ (∀ c ∈ front, c.onDeleter = false)
        ∧ .openDeleter (.ok ()) ∈ front ∧ DeleterCalls rows rest r' := by
  have htests : ∀ (rows : List Row) (answers : List Bool),
      ∀ c ∈ (testCalls rows answers : List (StatementCall ε π)),
        c.onDeleter = false ∧ c ≠ .openDeleter (.ok ()) := by
    intro rows answers c hc
    obtain ⟨row, answer, rfl⟩ := mem_testCalls hc
    exact ⟨rfl, nofun⟩
  cases h with
  | unread scan => exact .inl scan.offDeleter
  | refused scan answered e =>
    left
    intro c hc
    simp only [List.mem_append, List.mem_singleton] at hc
    rcases hc with (hc | hc) | rfl
    · exact scan.offDeleter c hc
    · exact htests _ _ c hc
    · exact ⟨rfl, nofun⟩
  | @opened scanned rest rows _ scan answers answered deleter =>
    right
    refine ⟨scanned ++ testCalls rows answers ++ [.openDeleter (.ok ())], rest, _, _, ?_, ?_, ?_,
      deleter⟩
    · exact List.append_cons _ _ _
    · intro c hc
      simp only [List.mem_append, List.mem_singleton] at hc
      rcases hc with (hc | hc) | rfl
      · exact (scan.offDeleter c hc).1
      · exact (htests _ _ c hc).1
      · rfl
    · exact List.mem_append_right _ List.mem_cons_self

/-! ### Cleaning up -/

section

variable {front rest : List (StatementCall ε π)} (hfront : ∀ c ∈ front, c.onDeleter = false)

include hfront

theorem countP_append_of_offDeleter {p : StatementCall ε π → Bool}
    (hp : ∀ c, p c = true → c.onDeleter = true) : (front ++ rest).countP p = rest.countP p := by
  have hzero : front.countP p = 0 := by
    apply List.countP_eq_zero.mpr
    intro c hc hpc
    exact absurd (hp c hpc) (by simp [hfront c hc])
  rw [List.countP_append, hzero, Nat.zero_add]

/-- Calls before those of a deleter make no difference to its closing. -/
theorem ClosedLast.append (h : ClosedLast rest) : ClosedLast (front ++ rest) := by
  obtain ⟨hcount, r, hlast⟩ := h
  constructor
  · rw [countP_append_of_offDeleter hfront, hcount]
    intro c hc
    cases c <;> first | rfl | cases hc
  · refine ⟨r, ?_⟩
    rw [List.getLast?_append, hlast]
    rfl

theorem DiscardedFor.append {c : StatementCall ε π} {cause : ε} (h : DiscardedFor c cause rest) :
    DiscardedFor c cause (front ++ rest) := by
  obtain ⟨hcount, before, r, back, r', rfl, hc, hclose⟩ := h
  constructor
  · rw [countP_append_of_offDeleter hfront, hcount]
    intro c hc
    cases c <;> first | rfl | cases hc
  · refine ⟨front ++ before, r, back, r', ?_, List.mem_append_right _ hc, hclose⟩
    rw [List.append_assoc]

end

/-- A deleter that began is closed, at last. -/
theorem DeleterCalls.closedLast {rows : List Row} {calls : List (StatementCall ε π)}
    {r : Except ε Unit} (h : DeleterCalls rows calls r) (hbegun : ∀ e, .begin (.error e) ∉ calls) :
    ClosedLast calls := by
  cases h with
  | refused e => exact absurd List.mem_cons_self (hbegun e)
  | @closed calls body r =>
    constructor
    · simp [List.countP_cons, body.countP_isClose, isClose]
    · refine ⟨r, ?_⟩
      rw [← List.cons_append, List.getLast?_concat]
  | @discarded calls cause body r r' =>
    constructor
    · simp [List.countP_cons, body.countP_isClose, isClose]
    · refine ⟨r', ?_⟩
      rw [← List.cons_append, List.getLast?_append]
      rfl

/-- A deleter that began and then failed discards. -/
theorem DeleterCalls.discardedFor {rows : List Row} {calls : List (StatementCall ε π)}
    {r : Except ε Unit} (h : DeleterCalls rows calls r) (hbegun : ∀ e, .begin (.error e) ∉ calls)
    {c : StatementCall ε π} (hc : c ∈ calls) {cause : ε} (hcause : c.statementError? = some cause) :
    DiscardedFor c cause calls := by
  have hfailure := StatementCall.failure?_of_statementError? hcause
  cases h with
  | refused e => exact absurd List.mem_cons_self (hbegun e)
  | closed body r =>
    -- nothing that came before the closing has failed
    simp only [List.mem_cons, List.mem_append, List.not_mem_nil, or_false] at hc
    rcases hc with rfl | hc | rfl
    · cases hcause
    · cases body.eq_error hc hfailure
    · cases hcause
  | @discarded calls e body r r' =>
    simp only [List.mem_cons, List.mem_append, List.not_mem_nil, or_false] at hc
    rcases hc with rfl | hc | rfl | rfl
    · cases hcause
    · obtain rfl := Except.error.inj (body.eq_error hc hfailure)
      constructor
      · simp [List.countP_cons, body.countP_isDiscard, isDiscard]
      · exact ⟨.begin (.ok ()) :: calls, r, [.close r'], r', rfl, List.mem_cons_of_mem _ hc,
          List.mem_cons_self⟩
    · cases hcause
    · cases hcause

/-- A deleter that does not begin is left as it is. -/
theorem DeleterCalls.eq_of_unbegun {rows : List Row} {calls : List (StatementCall ε π)}
    {r : Except ε Unit} (h : DeleterCalls rows calls r) {e : ε} (he : .begin (.error e) ∈ calls) :
    calls = [.begin (.error e)] := by
  cases h with
  | refused e' =>
    obtain rfl := Except.error.inj (StatementCall.begin.inj (List.mem_singleton.mp he))
    rfl
  | closed body r =>
    simp only [List.mem_cons, List.mem_append, List.not_mem_nil, or_false, reduceCtorEq,
      StatementCall.begin.injEq, false_or] at he
    rcases body.mem_cases he with ⟨_, _, h⟩ | ⟨_, h⟩ <;> cases h
  | discarded body r r' =>
    simp only [List.mem_cons, List.mem_append, List.not_mem_nil, or_false, reduceCtorEq,
      StatementCall.begin.injEq, false_or] at he
    rcases body.mem_cases he with ⟨_, _, h⟩ | ⟨_, h⟩ <;> cases h

/-- Only an opened deleter is called, and it is cleaned up just when it begins. -/
theorem StatementCalls.cleanedUp_iff {calls : List (StatementCall ε π)} {r : Except ε Nat}
    (h : StatementCalls calls r) : CleanedUp calls ↔ ∀ e, .begin (.error e) ∉ calls := by
  rcases h.deleter_cases with hoff | ⟨front, rest, rows, r', rfl, hfront, hopen, deleter⟩
  · constructor
    · intro _ e he
      cases (hoff _ he).1
    · intro _
      refine ⟨fun hopen => absurd rfl (hoff _ hopen).2, fun c hc cause hcause => ?_⟩
      have hon := StatementCall.onDeleter_of_statementError? hcause
      rw [(hoff c hc).1] at hon
      cases hon
  · constructor
    · intro hclean e he
      have hbegun : .begin (.error e) ∈ rest := by
        rcases List.mem_append.mp he with he | he
        · cases hfront _ he
        · exact he
      -- the failed beginning would be the last call, and not a closing
      obtain ⟨-, r, hlast⟩ := hclean.closed (List.mem_append_left _ hopen)
      rw [deleter.eq_of_unbegun hbegun, List.getLast?_concat] at hlast
      cases hlast
    · intro hbegun
      have hrest : ∀ e, .begin (.error e) ∉ rest := by
        intro e he
        exact hbegun e (List.mem_append_right _ he)
      refine ⟨fun _ => (deleter.closedLast hrest).append hfront, fun c hc cause hcause => ?_⟩
      rcases List.mem_append.mp hc with hc | hc
      · have hon := StatementCall.onDeleter_of_statementError? hcause
        rw [hfront c hc] at hon
        cases hon
      · exact (deleter.discardedFor hrest hc hcause).append hfront

/-- After a deleter that does not begin nothing follows. -/
theorem StatementCalls.last_of_unbegun {calls : List (StatementCall ε π)} {r : Except ε Nat}
    (h : StatementCalls calls r) {e : ε} (he : .begin (.error e) ∈ calls) :
    ∃ front, calls = front ++ [.begin (.error e)] ∧ ∀ c ∈ front, c.onDeleter = false := by
  rcases h.deleter_cases with hoff | ⟨front, rest, rows, r', rfl, hfront, -, deleter⟩
  · cases (hoff _ he).1
  · rcases List.mem_append.mp he with he | he
    · cases hfront _ he
    · exact ⟨front, by rw [deleter.eq_of_unbegun he], hfront⟩

/-- Whatever a table, its deleter and a predicate do: a deleter that was opened is cleaned up by the
statement just when it begins. If it does not, that is the last call, and the deleter is neither
discarded nor closed. -/
theorem Target.deleteMatching_cleanedUp_iff (t : Target ε σ π δ) (accept : Row → StateM σ Bool)
    (s : σ) (earlier : List (StatementCall ε π)) :
    ∃ calls,
      (t.noted.deleteMatching (noteTest accept)).runFrom (s, earlier)
          = (((t.deleteMatching accept).runFrom s).1, ((t.deleteMatching accept).runFrom s).2,
              earlier ++ calls)
        ∧ (CleanedUp calls ↔ ∀ e, .begin (.error e) ∉ calls)
        ∧ ∀ e, .begin (.error e) ∈ calls →
            ∃ front, calls = front ++ [.begin (.error e)] ∧ ∀ c ∈ front, c.onDeleter = false := by
  obtain ⟨calls, hrun, hcalls⟩ := notes_deleteMatching t accept s earlier
  exact ⟨calls, hrun, hcalls.cleanedUp_iff, fun e he => hcalls.last_of_unbegun he⟩

/-! ### A deleter that does not begin -/

/-- A table of one row with a deleter that does not begin. -/
def unbegun : Target String Unit Nat Unit where
  partitions := return [0]
  rows _ := return [[.text "a"]]
  openDeleter := return ()
  deleter :=
    { begin := throw "failed at begin"
      delete := fun _ => return ()
      discard := fun _ => return ()
      complete := return ()
      close := return () }

/-- A deleter that is opened and does not begin is not cleaned up: the statement fails with its
error, and neither discards nor closes. -/
theorem unbegun_not_cleanedUp :
    ∃ calls, (unbegun.noted.deleteMatching (noteTest fun _ => pure true)).runFrom ((), [])
        = (.error "failed at begin", (), calls)
      ∧ .openDeleter (.ok ()) ∈ calls ∧ .begin (.error "failed at begin") ∈ calls
      ∧ calls.countP isClose = 0 ∧ calls.countP isDiscard = 0 ∧ ¬ CleanedUp calls := by
  refine ⟨[.partitions (.ok [0]), .rows 0 (.ok [[.text "a"]]), .test [.text "a"] true,
    .openDeleter (.ok ()), .begin (.error "failed at begin")], rfl, by simp, by simp, rfl, rfl, ?_⟩
  intro hclean
  obtain ⟨-, r, hlast⟩ := hclean.closed (by simp)
  cases hlast

end ShopTables

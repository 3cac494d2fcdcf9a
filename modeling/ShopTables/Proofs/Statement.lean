import Mathlib.Tactic.SplitIfs
import ShopTables.Proofs.Step
import ShopTables.Statement

/-!
# What a delete statement does

A predicate gives an answer for each row, and the rows it accepts are those it answered with yes
(`runFrom_accepted`). A statement that succeeds scanned, asked, opened a deleter and ran it
(`Target.deleteMatching_ok`); a deleter that deleted each row and completed was closed
(`Deleter.run_of_body_ok`), and one that failed on the way discarded and closed
(`Deleter.run_of_body_error`).
-/

namespace ShopTables

variable {ε σ τ π δ : Type}

/-! ### The rows a predicate accepts -/

/-- The rows answered with yes. -/
def selected (rows : List Row) (answers : List Bool) : List Row :=
  ((rows.zip answers).filter (·.2)).map (·.1)

@[simp] theorem selected_nil (answers : List Bool) : selected [] answers = [] := rfl

@[simp] theorem selected_cons (row : Row) (rows : List Row) (answer : Bool) (answers : List Bool) :
    selected (row :: rows) (answer :: answers)
      = if answer then row :: selected rows answers else selected rows answers := by
  cases answer <;> rfl

/-- The answers of a predicate to rows asked one after the other, from a state on. -/
def answersFrom (accept : Row → StateM σ Bool) (rows : List Row) (s : σ) : List Bool :=
  ((rows.mapM accept).run s).1

@[simp] theorem answersFrom_nil (accept : Row → StateM σ Bool) (s : σ) :
    answersFrom accept [] s = [] := rfl

theorem run_mapM_cons (accept : Row → StateM σ Bool) (row : Row) (rows : List Row) (s : σ) :
    ((row :: rows).mapM accept).run s
      = (((accept row).run s).1 :: ((rows.mapM accept).run ((accept row).run s).2).1,
          ((rows.mapM accept).run ((accept row).run s).2).2) := by
  rw [List.mapM_cons]
  rfl

@[simp] theorem answersFrom_cons (accept : Row → StateM σ Bool) (row : Row) (rows : List Row)
    (s : σ) :
    answersFrom accept (row :: rows) s
      = ((accept row).run s).1 :: answersFrom accept rows ((accept row).run s).2 := by
  rw [answersFrom, run_mapM_cons]
  rfl

theorem length_answersFrom (accept : Row → StateM σ Bool) (rows : List Row) (s : σ) :
    (answersFrom accept rows s).length = rows.length := by
  induction rows generalizing s with
  | nil => rfl
  | cons row rows ih => rw [answersFrom_cons, List.length_cons, ih, List.length_cons]

theorem length_selected (rows : List Row) (answers : List Bool)
    (h : answers.length = rows.length) : (selected rows answers).length = answers.count true := by
  induction rows generalizing answers with
  | nil =>
    rw [List.eq_nil_of_length_eq_zero h]
    rfl
  | cons row rows ih =>
    cases answers with
    | nil => cases h
    | cons answer answers =>
      have hrec := ih answers (Nat.succ.inj h)
      cases answer with
      | true => rw [selected_cons, if_pos rfl, List.length_cons, hrec, List.count_cons_self]
      | false =>
        rw [selected_cons, if_neg Bool.false_ne_true, hrec, List.count_cons_of_ne (by decide)]

theorem selected_sublist (rows : List Row) (answers : List Bool) :
    (selected rows answers).Sublist rows := by
  induction rows generalizing answers with
  | nil => exact List.Sublist.refl _
  | cons row rows ih =>
    cases answers with
    | nil => exact List.nil_sublist _
    | cons answer answers =>
      rw [selected_cons]
      split_ifs
      · exact (ih answers).cons_cons row
      · exact (ih answers).cons row

/-- The rows answered with yes and those answered with no are all rows. -/
theorem perm_selected (rows : List Row) (answers : List Bool) (h : answers.length = rows.length) :
    (selected rows answers ++ selected rows (answers.map not)).Perm rows := by
  induction rows generalizing answers with
  | nil => exact List.Perm.refl _
  | cons row rows ih =>
    cases answers with
    | nil => cases h
    | cons answer answers =>
      have hrec := ih answers (Nat.succ.inj h)
      cases answer with
      | true => exact hrec.cons row
      -- a rejected row stands behind all accepted ones
      | false => exact List.perm_middle.trans (hrec.cons row)

/-- Rows that a test tells apart as the answers do are selected by the test. -/
theorem filter_eq_selected {rows : List Row} {answers : List Bool} {p : Row → Bool}
    (h : answers.length = rows.length) (hyes : ∀ row ∈ selected rows answers, p row = false)
    (hno : ∀ row ∈ selected rows (answers.map not), p row = true) :
    rows.filter p = selected rows (answers.map not) := by
  induction rows generalizing answers with
  | nil => rfl
  | cons row rows ih =>
    cases answers with
    | nil => cases h
    | cons answer answers =>
      rw [List.map_cons, selected_cons] at hno
      rw [selected_cons] at hyes
      rw [List.map_cons, selected_cons]
      cases answer with
      | true =>
        have hrow := hyes row List.mem_cons_self
        rw [List.filter_cons_of_neg (Bool.eq_false_iff.mp hrow)]
        exact ih (Nat.succ.inj h) (fun r hr => hyes r (List.mem_cons_of_mem row hr)) hno
      | false =>
        have hrow := hno row List.mem_cons_self
        rw [List.filter_cons_of_pos hrow]
        exact congrArg _ (ih (Nat.succ.inj h) hyes fun r hr => hno r (List.mem_cons_of_mem row hr))

theorem runFrom_accepted (accept : Row → StateM σ Bool) (rows : List Row) (s : σ) :
    (accepted accept rows : Step ε σ (List Row)).runFrom s
      = (.ok (selected rows (answersFrom accept rows s)), ((rows.mapM accept).run s).2) := by
  -- the predicate is asked about the other rows in the state in which it left the first
  induction rows generalizing s with
  | nil => rfl
  | cons row rows ih =>
    rw [accepted, Step.runFrom_bind_of_ok (Step.runFrom_liftM _ s),
      Step.runFrom_bind_of_ok (ih ((accept row).run s).2), Step.runFrom_pure, answersFrom_cons,
      selected_cons, run_mapM_cons]

/-- The answers of a predicate that changes nothing. -/
theorem run_mapM_pure (p : Row → Bool) (rows : List Row) (s : σ) :
    (rows.mapM fun row => (pure (p row) : StateM σ Bool)).run s = (rows.map p, s) := by
  induction rows with
  | nil => rfl
  | cons row rows ih =>
    rw [run_mapM_cons, List.map_cons]
    exact congrArg (fun rest => (p row :: rest.1, rest.2)) ih

theorem selected_map (p : Row → Bool) (rows : List Row) :
    selected rows (rows.map p) = rows.filter p := by
  induction rows with
  | nil => rfl
  | cons row rows ih => rw [List.map_cons, selected_cons, ih, List.filter_cons]

/-! ### Running a deleter -/

namespace Deleter

variable {d : Deleter ε τ} {rows : List Row} {s s₁ s₂ s' : τ}

/-- Everything between beginning and closing: the deletes and their completion. -/
def body (d : Deleter ε τ) (rows : List Row) : Step ε τ Unit := do
  rows.forM d.delete
  d.complete

theorem run_eq (d : Deleter ε τ) (rows : List Row) :
    d.run rows = (do
      d.begin
      match ← (d.body rows).attempt with
      | .ok () => d.close
      | .error cause =>
        let _ ← (d.discard cause).attempt
        let _ ← d.close.attempt
        throw cause) := rfl

/-- Once all deletes are completed, closing decides. -/
theorem run_of_body_ok (hbegin : d.begin.runFrom s = (.ok (), s₁))
    (hbody : (d.body rows).runFrom s₁ = (.ok (), s₂)) :
    (d.run rows).runFrom s = d.close.runFrom s₂ := by
  have hattempt : (d.body rows).attempt.runFrom s₁ = (.ok (.ok ()), s₂) := by
    rw [Step.runFrom_attempt, hbody]
  rw [run_eq, Step.runFrom_bind_of_ok hbegin, Step.runFrom_bind_of_ok hattempt]

/-- A failure on the way is the outcome, after discarding and closing. -/
theorem run_of_body_error {cause : ε} (hbegin : d.begin.runFrom s = (.ok (), s₁))
    (hbody : (d.body rows).runFrom s₁ = (.error cause, s₂)) :
    (d.run rows).runFrom s
      = (.error cause, (d.close.runFrom ((d.discard cause).runFrom s₂).2).2) := by
  have hattempt : (d.body rows).attempt.runFrom s₁ = (.ok (.error cause), s₂) := by
    rw [Step.runFrom_attempt, hbody]
  rw [run_eq, Step.runFrom_bind_of_ok hbegin, Step.runFrom_bind_of_ok hattempt]
  rfl

end Deleter

/-! ### Deleters on a part of a state -/

namespace Deleter

variable {get : τ → σ} {set : σ → τ → τ}

/-- The deleter that works on a part of a larger state. -/
def within (get : τ → σ) (set : σ → τ → τ) (d : Deleter ε σ) : Deleter ε τ where
  begin := d.begin.within get set
  delete row := (d.delete row).within get set
  discard cause := (d.discard cause).within get set
  complete := d.complete.within get set
  close := d.close.within get set

/-- Running it is running the deleter on the part. -/
theorem run_within (hget : ∀ s t, get (set s t) = s) (hset : ∀ s s' t, set s (set s' t) = set s t)
    (hself : ∀ t, set (get t) t = t) (d : Deleter ε σ) (rows : List Row) :
    (d.within get set).run rows = (d.run rows).within get set := by
  have hbody : (d.within get set).body rows = (d.body rows).within get set := by
    rw [body, body, Step.within_bind hget hset, Step.within_forM hget hset hself]
    rfl
  rw [run_eq, run_eq, Step.within_bind hget hset, hbody]
  congr 1
  funext _
  rw [Step.within_bind hget hset, Step.within_attempt]
  congr 1
  funext r
  cases r with
  | ok _ => rfl
  | error cause =>
    dsimp only
    rw [Step.within_bind hget hset, Step.within_attempt]
    rfl

end Deleter

/-! ### Whole statements -/

/-- A statement that succeeds scanned the table, asked the predicate about each row, opened a
deleter and ran it over the accepted rows. -/
theorem Target.deleteMatching_ok {t : Target ε σ π δ} {accept : Row → StateM σ Bool} {s s' : σ}
    {n : Nat} (h : (t.deleteMatching accept).runFrom s = (.ok n, s')) :
    ∃ rows s₁ s₃ d d', t.scan.runFrom s = (.ok rows, s₁)
      ∧ t.openDeleter.runFrom ((rows.mapM accept).run s₁).2 = (.ok d, s₃)
      ∧ (t.deleter.run (selected rows (answersFrom accept rows s₁))).runFrom (s₃, d)
          = (.ok (), s', d')
      ∧ n = (selected rows (answersFrom accept rows s₁)).length := by
  unfold Target.deleteMatching at h
  obtain ⟨rows, s₁, hscan, h⟩ := Step.runFrom_bind_ok.mp h
  rw [Step.runFrom_bind_of_ok (runFrom_accepted accept rows s₁)] at h
  obtain ⟨d, s₃, hopen, h⟩ := Step.runFrom_bind_ok.mp h
  obtain ⟨_, s₄, hrun, hpure⟩ := Step.runFrom_bind_ok.mp h
  obtain ⟨hn, rfl⟩ := Prod.mk.inj hpure
  -- the deleter runs on the state paired with itself, and takes its own changes along
  rcases hd : (t.deleter.run (selected rows (answersFrom accept rows s₁))).runFrom (s₃, d)
    with ⟨r, s₅, d'⟩
  simp only [withDeleter, Step.runFrom_ofFn, hd, Prod.mk.injEq] at hrun
  obtain ⟨rfl, rfl⟩ := hrun
  exact ⟨rows, s₁, s₃, d, d', hscan, hopen, hd, (Except.ok.inj hn).symm⟩

end ShopTables

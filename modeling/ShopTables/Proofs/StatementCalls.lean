import ShopTables.Proofs.Statement

/-!
# The calls of a delete statement

```
    σ         --deleteMatching-->         outcome, σ
    |                                        |
  with calls                           with calls, the same outcome
    |                                        |
    σ × calls --noted.deleteMatching-->   outcome, σ × calls
```

A table can be made to note each call that a statement makes of it, and a predicate each row that it
is asked about, together with what came of it; nothing else changes (`Notes`). Which calls a
statement makes, in which order and up to where, is then a form that the noted calls have
(`StatementCalls`), whatever the table, its deleter and the predicate do
(`Target.deleteMatching_calls`).
-/

namespace ShopTables

/-- A call that a statement makes, or a row that its predicate is asked about, and what came of
it. -/
inductive StatementCall (ε π : Type) where
  | partitions (result : Except ε (List π))
  | rows (partition : π) (result : Except ε (List Row))
  | test (row : Row) (answer : Bool)
  | openDeleter (result : Except ε Unit)
  | begin (result : Except ε Unit)
  | delete (row : Row) (result : Except ε Unit)
  | complete (result : Except ε Unit)
  | discard (cause : ε) (result : Except ε Unit)
  | close (result : Except ε Unit)

variable {ε σ τ π δ κ α β : Type}

/-- The error of what failed. -/
def errorOf? : Except ε α → Option ε
  | .ok _ => none
  | .error e => some e

@[simp] theorem errorOf?_map (f : α → β) (r : Except ε α) : errorOf? (r.map f) = errorOf? r := by
  cases r with
  | ok a => rfl
  | error e => rfl

namespace StatementCall

/-- The error of a call that failed. -/
def failure? : StatementCall ε π → Option ε
  | .partitions r => errorOf? r
  | .rows _ r => errorOf? r
  | .test _ _ => none
  | .openDeleter r => errorOf? r
  | .begin r => errorOf? r
  | .delete _ r => errorOf? r
  | .complete r => errorOf? r
  | .discard _ r => errorOf? r
  | .close r => errorOf? r

/-- Did the predicate accept a row? -/
def accepts : StatementCall ε π → Bool
  | .test _ answer => answer
  | _ => false

/-- Is this one of the calls that come before the first delete? -/
def prepares : StatementCall ε π → Bool
  | .partitions _ | .rows _ _ | .openDeleter _ | .begin _ => true
  | _ => false

/-- Does this call delete a row or complete the deletes? -/
def deletes : StatementCall ε π → Bool
  | .delete _ _ | .complete _ => true
  | _ => false

end StatementCall

/-! ### Noting calls -/

/-- Makes a call and notes what came of it. -/
def Step.noted (note : Except ε α → κ) (x : Step ε τ α) : Step ε (τ × List κ) α :=
  Step.ofFn fun (s, calls) => let (r, s) := x.runFrom s; (r, s, calls ++ [note r])

/-- Asks about a row and notes the answer. -/
def noteTest (accept : Row → StateM τ Bool) (row : Row) :
    StateM (τ × List (StatementCall ε π)) Bool :=
  fun (s, calls) => let (answer, s) := (accept row).run s; (answer, s, calls ++ [.test row answer])

/-- The deleter that notes its calls. -/
def Deleter.noted (d : Deleter ε τ) : Deleter ε (τ × List (StatementCall ε π)) where
  begin := d.begin.noted .begin
  delete row := (d.delete row).noted (.delete row)
  discard cause := (d.discard cause).noted (.discard cause)
  complete := d.complete.noted .complete
  close := d.close.noted .close

/-- The state of a table and of its deleter, and the calls beside them. -/
def deleterState : (σ × List κ) × δ → (σ × δ) × List κ
  | ((s, calls), d) => ((s, d), calls)

def putDeleterState : (σ × δ) × List κ → (σ × List κ) × δ → (σ × List κ) × δ
  | ((s, d), calls), _ => ((s, calls), d)

theorem deleterState_putDeleterState (x : (σ × δ) × List κ) (st : (σ × List κ) × δ) :
    deleterState (putDeleterState x st) = x := rfl

theorem putDeleterState_putDeleterState (x y : (σ × δ) × List κ) (st : (σ × List κ) × δ) :
    putDeleterState x (putDeleterState y st) = putDeleterState x st := rfl

theorem putDeleterState_deleterState (st : (σ × List κ) × δ) :
    putDeleterState (deleterState st) st = st := rfl

/-- The table that notes its calls and those of its deleter. -/
def Target.noted (t : Target ε σ π δ) : Target ε (σ × List (StatementCall ε π)) π δ where
  partitions := t.partitions.noted .partitions
  rows p := (t.rows p).noted (.rows p)
  openDeleter := t.openDeleter.noted fun r => .openDeleter (r.map fun _ => ())
  deleter := t.deleter.noted.within deleterState putDeleterState

/-- One step does what the other does, and notes calls that have a form besides. -/
def Notes (x : Step ε (τ × List κ) α) (y : Step ε τ α) (form : List κ → Except ε α → Prop) :
    Prop :=
  ∀ s earlier, ∃ calls,
    x.runFrom (s, earlier) = ((y.runFrom s).1, (y.runFrom s).2, earlier ++ calls)
      ∧ form calls (y.runFrom s).1

/-- One call for each of some things, in order, up to the first that fails. -/
inductive UpToFailure (note : α → Except ε β → κ) :
    List α → List κ → Except ε (List β) → Prop where
  | nil : UpToFailure note [] [] (.ok [])
  | fails (a : α) (as : List α) (e : ε) :
      UpToFailure note (a :: as) [note a (.error e)] (.error e)
  | cons (a : α) {as : List α} (b : β) {calls : List κ} {r : Except ε (List β)}
      (rest : UpToFailure note as calls r) :
      UpToFailure note (a :: as) (note a (.ok b) :: calls) (r.map (b :: ·))

namespace Notes

variable {x : Step ε (τ × List κ) α} {y : Step ε τ α} {form form' : List κ → Except ε α → Prop}

theorem imp (h : Notes x y form) (himp : ∀ calls r, form calls r → form' calls r) :
    Notes x y form' := by
  intro s earlier
  obtain ⟨calls, hrun, hform⟩ := h s earlier
  exact ⟨calls, hrun, himp calls _ hform⟩

theorem noted (note : Except ε α → κ) (y : Step ε τ α) :
    Notes (y.noted note) y fun calls r => calls = [note r] :=
  fun s _ => ⟨[note (y.runFrom s).1], rfl, rfl⟩

theorem pure (a : α) :
    Notes (Pure.pure a : Step ε (τ × List κ) α) (Pure.pure a) fun calls r =>
      calls = [] ∧ r = .ok a := by
  intro s earlier
  refine ⟨[], ?_, rfl, rfl⟩
  rw [List.append_nil]
  rfl

theorem throw (e : ε) :
    Notes (throw e : Step ε (τ × List κ) α) (MonadExcept.throw e) fun calls r =>
      calls = [] ∧ r = .error e := by
  intro s earlier
  refine ⟨[], ?_, rfl, rfl⟩
  rw [List.append_nil]
  rfl

theorem attempt (h : Notes x y form) :
    Notes x.attempt y.attempt fun calls r => ∃ r', r = .ok r' ∧ form calls r' := by
  intro s earlier
  obtain ⟨calls, hrun, hform⟩ := h s earlier
  refine ⟨calls, ?_, (y.runFrom s).1, rfl, hform⟩
  rw [Step.runFrom_attempt, hrun]
  rfl

/-- Two steps one after the other: either the first fails, or the calls of the second follow those
of the first. -/
theorem bind (h : Notes x y form) {f : α → Step ε (τ × List κ) β} {g : α → Step ε τ β}
    {rest : α → List κ → Except ε β → Prop} (hrest : ∀ a, Notes (f a) (g a) (rest a)) :
    Notes (x >>= f) (y >>= g) fun calls r =>
      (∃ e, form calls (.error e) ∧ r = .error e)
        ∨ ∃ a first second, form first (.ok a) ∧ rest a second r ∧ calls = first ++ second := by
  intro s earlier
  obtain ⟨first, hx, hform⟩ := h s earlier
  rcases hy : y.runFrom s with ⟨r, s₁⟩
  rw [hy] at hx hform
  cases r with
  | error e =>
    rw [Step.runFrom_bind_of_error hx, Step.runFrom_bind_of_error hy]
    exact ⟨first, rfl, .inl ⟨e, hform, rfl⟩⟩
  | ok a =>
    obtain ⟨second, hf, hsecond⟩ := hrest a s₁ (earlier ++ first)
    rw [Step.runFrom_bind_of_ok hx, Step.runFrom_bind_of_ok hy, hf, List.append_assoc]
    exact ⟨first ++ second, rfl, .inr ⟨a, first, second, hform, hsecond, rfl⟩⟩

theorem mapM {f : α → Step ε (τ × List κ) β} {g : α → Step ε τ β} {note : α → Except ε β → κ}
    (h : ∀ a, Notes (f a) (g a) fun calls r => calls = [note a r]) (as : List α) :
    Notes (as.mapM f) (as.mapM g) (UpToFailure note as) := by
  induction as with
  | nil =>
    refine (Notes.pure []).imp ?_
    rintro calls r ⟨rfl, rfl⟩
    exact .nil
  | cons a as ih =>
    rw [List.mapM_cons, List.mapM_cons]
    refine ((h a).bind fun b => ih.bind fun bs => Notes.pure (b :: bs)).imp ?_
    rintro calls r (⟨e, rfl, rfl⟩ | ⟨b, first, second, rfl, hsecond, rfl⟩)
    · exact .fails a as e
    · rcases hsecond with ⟨e, hrest, rfl⟩ | ⟨bs, third, fourth, hrest, ⟨rfl, rfl⟩, rfl⟩
      · exact .cons a b hrest
      · rw [List.append_nil]
        exact .cons a b hrest

theorem forM {f : α → Step ε (τ × List κ) Unit} {g : α → Step ε τ Unit}
    {note : α → Except ε Unit → κ} (h : ∀ a, Notes (f a) (g a) fun calls r => calls = [note a r])
    (as : List α) :
    Notes (as.forM f) (as.forM g) fun calls r =>
      ∃ r', UpToFailure note as calls r' ∧ r = r'.map fun _ => () := by
  induction as with
  | nil =>
    refine (Notes.pure ()).imp ?_
    rintro calls r ⟨rfl, rfl⟩
    exact ⟨_, .nil, rfl⟩
  | cons a as ih =>
    rw [Step.forM_cons, Step.forM_cons]
    refine ((h a).bind fun _ => ih).imp ?_
    rintro calls r (⟨e, rfl, rfl⟩ | ⟨_, first, second, rfl, ⟨r', hrest, rfl⟩, rfl⟩)
    · exact ⟨_, .fails a as e, rfl⟩
    · refine ⟨_, .cons a () hrest, ?_⟩
      cases r' with
      | ok _ => rfl
      | error e => rfl

/-- A deleter that starts anew notes its calls after those of the table. -/
theorem withDeleter {x : Step ε ((σ × δ) × List κ) α} {y : Step ε (σ × δ) α} (h : Notes x y form)
    (d : δ) : Notes (ShopTables.withDeleter d (x.within deleterState putDeleterState))
      (ShopTables.withDeleter d y) form := by
  intro s earlier
  obtain ⟨calls, hrun, hform⟩ := h (s, d) earlier
  refine ⟨calls, ?_, hform⟩
  have hstate : deleterState ((s, earlier), d) = ((s, d), earlier) := rfl
  rw [ShopTables.withDeleter, Step.runFrom_ofFn, Step.runFrom_within, hstate, hrun]
  rfl

end Notes

/-! ### Which calls are made -/

/-- The rows asked about, each with its answer. -/
def testCalls (rows : List Row) (answers : List Bool) : List (StatementCall ε π) :=
  (rows.zip answers).map fun (row, answer) => .test row answer

/-- The calls of a scan: the partitions, and then the rows of one partition after the other. -/
inductive ScanCalls : List (StatementCall ε π) → Except ε (List Row) → Prop where
  | refused (e : ε) : ScanCalls [.partitions (.error e)] (.error e)
  | read {ps : List π} {calls : List (StatementCall ε π)} {r : Except ε (List (List Row))}
      (rows : UpToFailure .rows ps calls r) :
      ScanCalls (.partitions (.ok ps) :: calls) (r.map List.flatten)

/-- The calls between beginning and closing: one delete after the other, and once all rows are
deleted, completing. -/
inductive BodyCalls (rows : List Row) : List (StatementCall ε π) → Except ε Unit → Prop where
  | failed {calls : List (StatementCall ε π)} {e : ε}
      (deletes : UpToFailure .delete rows calls (.error e)) : BodyCalls rows calls (.error e)
  | completed {calls : List (StatementCall ε π)} {done : List Unit}
      (deletes : UpToFailure .delete rows calls (.ok done)) (r : Except ε Unit) :
      BodyCalls rows (calls ++ [.complete r]) r

/-- The calls of a deleter. If it does not begin nothing follows. If a delete or completing fails,
it discards, with that error as the cause, and closes, and whatever comes of these two that error is
the outcome. Otherwise it closes, and that decides. -/
inductive DeleterCalls (rows : List Row) : List (StatementCall ε π) → Except ε Unit → Prop where
  | refused (e : ε) : DeleterCalls rows [.begin (.error e)] (.error e)
  | closed {calls : List (StatementCall ε π)} (body : BodyCalls rows calls (.ok ()))
      (r : Except ε Unit) : DeleterCalls rows (.begin (.ok ()) :: (calls ++ [.close r])) r
  | discarded {calls : List (StatementCall ε π)} {cause : ε}
      (body : BodyCalls rows calls (.error cause)) (r r' : Except ε Unit) :
      DeleterCalls rows (.begin (.ok ()) :: (calls ++ [.discard cause r, .close r']))
        (.error cause)

/-- The calls of a delete statement: a scan; if it succeeds, the predicate about each row in scan
order; then a deleter; and if there is one, the calls of it for the accepted rows. -/
inductive StatementCalls : List (StatementCall ε π) → Except ε Nat → Prop where
  | unread {calls : List (StatementCall ε π)} {e : ε} (scan : ScanCalls calls (.error e)) :
      StatementCalls calls (.error e)
  | refused {calls : List (StatementCall ε π)} {rows : List Row} (scan : ScanCalls calls (.ok rows))
      {answers : List Bool} (answered : answers.length = rows.length) (e : ε) :
      StatementCalls (calls ++ testCalls rows answers ++ [.openDeleter (.error e)]) (.error e)
  | opened {calls rest : List (StatementCall ε π)} {rows : List Row} {r : Except ε Unit}
      (scan : ScanCalls calls (.ok rows)) {answers : List Bool}
      (answered : answers.length = rows.length)
      (deleter : DeleterCalls (selected rows answers) rest r) :
      StatementCalls (calls ++ testCalls rows answers ++ .openDeleter (.ok ()) :: rest)
        (r.map fun _ => (selected rows answers).length)

/-! ### Each part of a statement -/

/-- What a deleter does after the deletes, whatever came of them. -/
def Deleter.ending (d : Deleter ε τ) : Except ε Unit → Step ε τ Unit
  | .ok () => d.close
  | .error cause => do
    let _ ← (d.discard cause).attempt
    let _ ← d.close.attempt
    throw cause

theorem Deleter.run_eq_ending (d : Deleter ε τ) (rows : List Row) :
    d.run rows = (do d.begin; d.ending (← (d.body rows).attempt)) := by
  rw [run_eq]
  rfl

theorem run_mapM_noteTest (accept : Row → StateM τ Bool) (rows : List Row) (s : τ)
    (earlier : List (StatementCall ε π)) :
    (rows.mapM (noteTest accept)).run (s, earlier)
      = (answersFrom accept rows s, ((rows.mapM accept).run s).2,
          earlier ++ testCalls rows (answersFrom accept rows s)) := by
  induction rows generalizing s earlier with
  | nil => rw [answersFrom_nil, testCalls, List.zip_nil_left, List.map_nil, List.append_nil]; rfl
  | cons row rows ih =>
    have hrow : (noteTest accept row).run (s, earlier)
        = (((accept row).run s).1, ((accept row).run s).2,
            earlier ++ [.test row ((accept row).run s).1]) := rfl
    rw [run_mapM_cons, hrow, ih, run_mapM_cons, answersFrom_cons, List.append_assoc]
    rfl

/-- A predicate is asked about each row, in order. -/
theorem notes_accepted (accept : Row → StateM τ Bool) (rows : List Row) :
    Notes (accepted (noteTest accept) rows) (accepted accept rows : Step ε τ (List Row))
      fun (calls : List (StatementCall ε π)) r => ∃ answers : List Bool,
        answers.length = rows.length ∧ calls = testCalls rows answers
          ∧ r = .ok (selected rows answers) := by
  intro s earlier
  refine ⟨testCalls rows (answersFrom accept rows s), ?_, answersFrom accept rows s,
    length_answersFrom accept rows s, rfl, ?_⟩
  · rw [runFrom_accepted, runFrom_accepted, answersFrom, run_mapM_noteTest]
  · rw [runFrom_accepted]

theorem notes_scan (t : Target ε σ π δ) : Notes t.noted.scan t.scan ScanCalls := by
  have hpartitions : Notes t.noted.partitions t.partitions fun calls r => calls = [.partitions r] :=
    Notes.noted _ t.partitions
  have hrows : ∀ p, Notes (t.noted.rows p) (t.rows p) fun calls r => calls = [.rows p r] :=
    fun p => Notes.noted _ (t.rows p)
  refine (hpartitions.bind fun ps => (Notes.mapM hrows ps).bind fun lists =>
    Notes.pure lists.flatten).imp ?_
  rintro calls r (⟨e, rfl, rfl⟩ | ⟨ps, first, second, rfl, hrest, rfl⟩)
  · exact .refused e
  · rcases hrest with ⟨e, hread, rfl⟩ | ⟨lists, third, fourth, hread, ⟨rfl, rfl⟩, rfl⟩
    · exact .read hread
    · rw [List.append_nil]
      exact .read hread

section

variable (d : Deleter ε τ)

theorem notes_delete (row : Row) :
    Notes (d.noted.delete row) (d.delete row) fun (calls : List (StatementCall ε π)) r =>
      calls = [.delete row r] :=
  Notes.noted _ (d.delete row)

theorem notes_complete :
    Notes d.noted.complete d.complete fun (calls : List (StatementCall ε π)) r =>
      calls = [.complete r] :=
  Notes.noted _ d.complete

theorem notes_discard (cause : ε) :
    Notes (d.noted.discard cause) (d.discard cause) fun (calls : List (StatementCall ε π)) r =>
      calls = [.discard cause r] :=
  Notes.noted _ (d.discard cause)

theorem notes_close :
    Notes d.noted.close d.close fun (calls : List (StatementCall ε π)) r => calls = [.close r] :=
  Notes.noted _ d.close

theorem notes_body (rows : List Row) :
    Notes (d.noted.body rows) (d.body rows) (BodyCalls (ε := ε) (π := π) rows) := by
  refine ((Notes.forM (notes_delete d) rows).bind fun _ => notes_complete d).imp ?_
  rintro calls r (⟨e, ⟨r', hdeletes, hfail⟩, rfl⟩ | ⟨_, first, _, ⟨r', hdeletes, hdone⟩, rfl, rfl⟩)
  · cases r' with
    | ok done => cases hfail
    | error e' =>
      obtain rfl := Except.error.inj hfail
      exact .failed hdeletes
  · cases r' with
    | ok done => exact .completed hdeletes r
    | error e' => cases hdone

/-- What a deleter does after the deletes depends on whether they came to their completion. -/
theorem notes_ending (r : Except ε Unit) :
    Notes (d.noted.ending r) (d.ending r) fun (calls : List (StatementCall ε π)) r' =>
      (r = .ok () ∧ calls = [.close r'])
        ∨ ∃ cause r₁ r₂, r = .error cause ∧ calls = [.discard cause r₁, .close r₂]
          ∧ r' = .error cause := by
  cases r with
  | ok _ =>
    refine (notes_close d).imp ?_
    rintro calls r' rfl
    exact .inl ⟨rfl, rfl⟩
  | error cause =>
    refine ((notes_discard d cause).attempt.bind fun _ => (notes_close d).attempt.bind fun _ =>
      Notes.throw cause).imp ?_
    rintro calls r' (⟨e, ⟨_, h, -⟩, -⟩ | ⟨_, first, second, ⟨r₁, -, rfl⟩, hrest, rfl⟩)
    · cases h
    · rcases hrest with ⟨e, ⟨_, h, -⟩, -⟩ | ⟨_, third, fourth, ⟨r₂, -, rfl⟩, ⟨rfl, rfl⟩, rfl⟩
      · cases h
      · exact .inr ⟨cause, r₁, r₂, rfl, rfl, rfl⟩

theorem notes_run (rows : List Row) :
    Notes (d.noted.run rows) (d.run rows) (DeleterCalls (ε := ε) (π := π) rows) := by
  have hbegin : Notes d.noted.begin d.begin fun (calls : List (StatementCall ε π)) r =>
      calls = [.begin r] := Notes.noted _ d.begin
  rw [Deleter.run_eq_ending, Deleter.run_eq_ending]
  refine (hbegin.bind fun _ => (notes_body d rows).attempt.bind (notes_ending d)).imp ?_
  rintro calls r (⟨e, rfl, rfl⟩ | ⟨_, first, second, rfl, hrest, rfl⟩)
  · exact .refused e
  · rcases hrest with ⟨e, ⟨_, h, -⟩, -⟩ | ⟨r', third, fourth, ⟨r'', hr, hbody⟩, hlast, rfl⟩
    · cases h
    · obtain rfl := Except.ok.inj hr
      rcases hlast with ⟨rfl, rfl⟩ | ⟨cause, r₁, r₂, rfl, rfl, rfl⟩
      · exact .closed hbody r
      · exact .discarded hbody r₁ r₂

end

theorem notes_deleteMatching (t : Target ε σ π δ) (accept : Row → StateM σ Bool) :
    Notes (t.noted.deleteMatching (noteTest accept)) (t.deleteMatching accept) StatementCalls := by
  have hopen : Notes t.noted.openDeleter t.openDeleter fun calls r =>
      calls = [.openDeleter (r.map fun _ => ())] :=
    Notes.noted (fun r => StatementCall.openDeleter (r.map fun _ => ())) t.openDeleter
  have hrun : ∀ (rows : List Row) (d : δ),
      Notes (withDeleter d (t.noted.deleter.run rows)) (withDeleter d (t.deleter.run rows))
        (DeleterCalls rows) := by
    intro rows d
    have hdeleter : t.noted.deleter = t.deleter.noted.within deleterState putDeleterState := rfl
    rw [hdeleter, Deleter.run_within deleterState_putDeleterState putDeleterState_putDeleterState
      putDeleterState_deleterState]
    exact (notes_run t.deleter rows).withDeleter d
  refine ((notes_scan t).bind fun rows => (notes_accepted accept rows).bind fun chosen =>
    hopen.bind fun d => (hrun chosen d).bind fun _ => Notes.pure chosen.length).imp ?_
  rintro calls r (⟨e, hscan, rfl⟩ | ⟨rows, first, _, hscan, hrest, rfl⟩)
  · exact .unread hscan
  rcases hrest with ⟨e, ⟨_, -, -, h⟩, -⟩ | ⟨chosen, _, _, ⟨answers, hlength, rfl, h⟩, hrest, rfl⟩
  · cases h
  obtain rfl := Except.ok.inj h
  rw [← List.append_assoc]
  rcases hrest with ⟨e, hcall, rfl⟩ | ⟨d, _, _, hcall, hrest, rfl⟩
  · rw [hcall]
    exact .refused hscan hlength e
  · rw [hcall]
    rcases hrest with ⟨e, hcalls, rfl⟩ | ⟨_, third, _, hcalls, ⟨rfl, rfl⟩, rfl⟩
    · exact .opened hscan hlength hcalls
    · rw [List.append_nil]
      exact .opened hscan hlength hcalls

/-! ### What the calls say about the outcome -/

namespace UpToFailure

variable {note : α → Except ε β → StatementCall ε π} {as : List α}
  {calls : List (StatementCall ε π)} {r : Except ε (List β)}

theorem exists_note (h : UpToFailure note as calls r) {c : StatementCall ε π} (hc : c ∈ calls) :
    ∃ a r', c = note a r' := by
  induction h with
  | nil => cases hc
  | fails a as e => exact ⟨a, .error e, List.mem_singleton.mp hc⟩
  | cons a b _ ih =>
    rcases List.mem_cons.mp hc with rfl | hc
    · exact ⟨a, .ok b, rfl⟩
    · exact ih hc

theorem findSome?_failure? (h : UpToFailure note as calls r)
    (hnote : ∀ a r', (note a r').failure? = errorOf? r') :
    calls.findSome? StatementCall.failure? = errorOf? r := by
  induction h with
  | nil => rfl
  | fails a as e => rw [List.findSome?_cons, hnote]; rfl
  | cons a b _ ih => rw [List.findSome?_cons, hnote, errorOf?_map, ← ih]; rfl

end UpToFailure

namespace ScanCalls

variable {calls : List (StatementCall ε π)} {r : Except ε (List Row)}

theorem findSome?_failure? (h : ScanCalls calls r) :
    calls.findSome? StatementCall.failure? = errorOf? r := by
  cases h with
  | refused e => rfl
  | read rows =>
    rw [errorOf?_map, ← rows.findSome?_failure? fun _ _ => rfl]
    rfl

/-- A scan neither asks about rows nor deletes any. -/
theorem reads (h : ScanCalls calls r) :
    ∀ c ∈ calls, c.accepts = false ∧ c.deletes = false := by
  intro c hc
  cases h with
  | refused e =>
    rw [List.mem_singleton.mp hc]
    exact ⟨rfl, rfl⟩
  | read rows =>
    rcases List.mem_cons.mp hc with rfl | hc
    · exact ⟨rfl, rfl⟩
    · obtain ⟨p, r', rfl⟩ := rows.exists_note hc
      exact ⟨rfl, rfl⟩

end ScanCalls

theorem mem_testCalls {rows : List Row} {answers : List Bool} {c : StatementCall ε π}
    (hc : c ∈ testCalls rows answers) : ∃ row answer, c = .test row answer := by
  obtain ⟨⟨row, answer⟩, -, rfl⟩ := List.mem_map.mp hc
  exact ⟨row, answer, rfl⟩

theorem countP_testCalls (rows : List Row) (answers : List Bool) :
    (testCalls rows answers : List (StatementCall ε π)).countP StatementCall.accepts
      = (selected rows answers).length := by
  rw [testCalls, selected, List.countP_map, List.length_map, List.countP_eq_length_filter]
  rfl

namespace BodyCalls

variable {rows : List Row} {calls : List (StatementCall ε π)} {r : Except ε Unit}

theorem findSome?_failure? (h : BodyCalls rows calls r) :
    calls.findSome? StatementCall.failure? = errorOf? r := by
  cases h with
  | failed deletes => exact deletes.findSome?_failure? fun _ _ => rfl
  | completed deletes r =>
    rw [List.findSome?_append, deletes.findSome?_failure? fun _ _ => rfl, List.findSome?_singleton]
    rfl

theorem changes (h : BodyCalls rows calls r) :
    ∀ c ∈ calls, c.accepts = false ∧ c.prepares = false := by
  intro c hc
  cases h with
  | failed deletes =>
    obtain ⟨row, r', rfl⟩ := deletes.exists_note hc
    exact ⟨rfl, rfl⟩
  | completed deletes r =>
    rcases List.mem_append.mp hc with hc | hc
    · obtain ⟨row, r', rfl⟩ := deletes.exists_note hc
      exact ⟨rfl, rfl⟩
    · rw [List.mem_singleton.mp hc]
      exact ⟨rfl, rfl⟩

end BodyCalls

namespace DeleterCalls

variable {rows : List Row} {calls : List (StatementCall ε π)} {r : Except ε Unit}

/-- Discarding and closing come after the first failure, so what comes of them does not count. -/
theorem findSome?_failure? (h : DeleterCalls rows calls r) :
    calls.findSome? StatementCall.failure? = errorOf? r := by
  cases h with
  | refused e => rfl
  | closed body r =>
    rw [List.findSome?_cons]
    show List.findSome? _ (_ ++ _) = _
    rw [List.findSome?_append, body.findSome?_failure?, List.findSome?_singleton]
    rfl
  | discarded body r r' =>
    rw [List.findSome?_cons]
    show List.findSome? _ (_ ++ _) = _
    rw [List.findSome?_append, body.findSome?_failure?]
    rfl

/-- A deleter begins first, and only once it has begun does anything follow. -/
theorem begins (h : DeleterCalls rows calls r) : ∃ begun rest, calls = .begin begun :: rest
    ∧ (rest ≠ [] → begun = .ok ()) ∧ ∀ c ∈ rest, c.accepts = false ∧ c.prepares = false := by
  cases h with
  | refused e => exact ⟨.error e, [], rfl, fun hne => absurd rfl hne, List.forall_mem_nil _⟩
  | closed body r =>
    refine ⟨.ok (), _, rfl, fun _ => rfl, fun c hc => ?_⟩
    rcases List.mem_append.mp hc with hc | hc
    · exact body.changes c hc
    · rw [List.mem_singleton.mp hc]
      exact ⟨rfl, rfl⟩
  | discarded body r r' =>
    refine ⟨.ok (), _, rfl, fun _ => rfl, fun c hc => ?_⟩
    simp only [List.mem_append, List.mem_cons, List.not_mem_nil, or_false] at hc
    rcases hc with hc | rfl | rfl
    · exact body.changes c hc
    · exact ⟨rfl, rfl⟩
    · exact ⟨rfl, rfl⟩

end DeleterCalls

namespace StatementCalls

variable {calls : List (StatementCall ε π)} {r : Except ε Nat}

/-- The first failure is the outcome. -/
theorem findSome?_failure? (h : StatementCalls calls r) :
    calls.findSome? StatementCall.failure? = errorOf? r := by
  have htests : ∀ (rows : List Row) (answers : List Bool),
      (testCalls rows answers : List (StatementCall ε π)).findSome? StatementCall.failure?
        = none := by
    intro rows answers
    rw [List.findSome?_eq_none_iff]
    intro c hc
    obtain ⟨row, answer, rfl⟩ := mem_testCalls hc
    rfl
  cases h with
  | unread scan => exact scan.findSome?_failure?
  | refused scan answered e =>
    rw [List.findSome?_append, List.findSome?_append, scan.findSome?_failure?, htests]
    rfl
  | opened scan answered deleter =>
    rw [List.findSome?_append, List.findSome?_append, scan.findSome?_failure?, htests,
      errorOf?_map, ← deleter.findSome?_failure?]
    rfl

/-- A statement that succeeds counts the rows that were accepted. -/
theorem countP_accepts {n : Nat} (h : StatementCalls calls (.ok n)) :
    calls.countP StatementCall.accepts = n := by
  generalize hr : (Except.ok n : Except ε Nat) = r at h
  cases h with
  | unread scan => cases hr
  | refused scan answered e => cases hr
  | @opened scanned rest rows r scan answers answered deleter =>
    have hscan : scanned.countP StatementCall.accepts = 0 := by
      rw [List.countP_eq_zero]
      intro c hc
      rw [(scan.reads c hc).1]
      exact Bool.false_ne_true
    obtain ⟨begun, later, rfl, -, hlater⟩ := deleter.begins
    have hlast : later.countP StatementCall.accepts = 0 := by
      rw [List.countP_eq_zero]
      intro c hc
      rw [(hlater c hc).1]
      exact Bool.false_ne_true
    have hopen : (StatementCall.openDeleter (.ok ()) :: .begin begun :: later).countP
        StatementCall.accepts = 0 := by
      rw [List.countP_cons, List.countP_cons, hlast]
      rfl
    rw [List.countP_append, List.countP_append, hscan, hopen, countP_testCalls, Nat.zero_add,
      Nat.add_zero]
    cases r with
    | ok _ => exact (Except.ok.inj hr).symm
    | error e => cases hr

/-- Rows are deleted only after reading, opening and beginning have all succeeded. -/
theorem prepared (h : StatementCalls calls r) (hdeletes : ∃ c ∈ calls, c.deletes = true) :
    ∀ c ∈ calls, c.prepares = true → c.failure? = none := by
  obtain ⟨c', hc', hdelete⟩ := hdeletes
  intro c hc hprepares
  cases h with
  | unread scan =>
    rw [(scan.reads c' hc').2] at hdelete
    cases hdelete
  | refused scan answered e =>
    simp only [List.mem_append, List.mem_singleton] at hc'
    rcases hc' with (hc' | hc') | rfl
    · rw [(scan.reads c' hc').2] at hdelete
      cases hdelete
    · obtain ⟨row, answer, rfl⟩ := mem_testCalls hc'
      cases hdelete
    · cases hdelete
  | opened scan answered deleter =>
    obtain ⟨begun, later, rfl, hbegun, hlater⟩ := deleter.begins
    simp only [List.mem_append, List.mem_cons] at hc hc'
    have hne : later ≠ [] := by
      rcases hc' with (hc' | hc') | rfl | rfl | hc'
      · rw [(scan.reads c' hc').2] at hdelete
        cases hdelete
      · obtain ⟨row, answer, rfl⟩ := mem_testCalls hc'
        cases hdelete
      · cases hdelete
      · cases hdelete
      · exact List.ne_nil_of_mem hc'
    rcases hc with (hc | hc) | rfl | rfl | hc
    · exact List.findSome?_eq_none_iff.mp scan.findSome?_failure? c hc
    · obtain ⟨row, answer, rfl⟩ := mem_testCalls hc
      rfl
    · rfl
    · rw [hbegun hne]
      rfl
    · rw [(hlater c hc).2] at hprepares
      cases hprepares

end StatementCalls

/-- Whatever a table, its deleter and a predicate do: the calls that a delete statement makes have
the form of `StatementCalls`. Its outcome is the error of the first call that failed, and the number
of accepted rows if none did. Nothing is deleted or completed unless reading, opening and beginning
have all succeeded. -/
theorem Target.deleteMatching_calls (t : Target ε σ π δ) (accept : Row → StateM σ Bool) (s : σ)
    (earlier : List (StatementCall ε π)) :
    ∃ calls,
      (t.noted.deleteMatching (noteTest accept)).runFrom (s, earlier)
          = (((t.deleteMatching accept).runFrom s).1, ((t.deleteMatching accept).runFrom s).2,
              earlier ++ calls)
        ∧ StatementCalls calls ((t.deleteMatching accept).runFrom s).1
        ∧ ((t.deleteMatching accept).runFrom s).1
            = (match calls.findSome? StatementCall.failure? with
              | none => .ok (calls.countP StatementCall.accepts)
              | some e => .error e)
        ∧ ((∃ c ∈ calls, c.deletes = true) →
            ∀ c ∈ calls, c.prepares = true → c.failure? = none) := by
  obtain ⟨calls, hrun, hcalls⟩ := notes_deleteMatching t accept s earlier
  refine ⟨calls, hrun, hcalls, ?_, hcalls.prepared⟩
  rw [hcalls.findSome?_failure?]
  cases hresult : ((t.deleteMatching accept).runFrom s).1 with
  | ok n =>
    rw [hresult] at hcalls
    exact congrArg Except.ok hcalls.countP_accepts.symm
  | error e => rfl

end ShopTables

import ShopTables.Context

/-!
# Running steps

What `Step.runFrom` gives for each way of building a step. Two steps one after the other run as one
(`runFrom_bind`), so that a run that succeeds falls apart into runs that succeed
(`runFrom_bind_ok`).
-/

namespace ShopTables.Step

variable {ε σ α β : Type}

theorem runFrom_bind (x : Step ε σ α) (f : α → Step ε σ β) (s : σ) :
    (x >>= f).runFrom s =
      match x.runFrom s with
      | (.ok a, s') => (f a).runFrom s'
      | (.error e, s') => (.error e, s') := by
  -- `>>=` of an exception monad over a state monad, opened one layer at a time
  show (ExceptT.bind x f : Step ε σ β) s = _
  unfold ExceptT.bind ExceptT.mk
  show (match x s with | (a, s') => ExceptT.bindCont f a s') = _
  unfold Step.runFrom
  rcases x s with ⟨r, s'⟩
  cases r with
  | ok a => rfl
  | error e => rfl

@[simp] theorem runFrom_pure (a : α) (s : σ) : (pure a : Step ε σ α).runFrom s = (.ok a, s) := rfl

@[simp] theorem runFrom_liftM (x : StateM σ α) (s : σ) :
    (liftM x : Step ε σ α).runFrom s = (.ok (x.run s).1, (x.run s).2) := rfl

/-- A step whose first part succeeds goes on from where that part ended. -/
theorem runFrom_bind_of_ok {x : Step ε σ α} {f : α → Step ε σ β} {s s' : σ} {a : α}
    (h : x.runFrom s = (.ok a, s')) : (x >>= f).runFrom s = (f a).runFrom s' := by
  rw [runFrom_bind, h]

/-- A step whose first part fails is over. -/
theorem runFrom_bind_of_error {x : Step ε σ α} {f : α → Step ε σ β} {s s' : σ} {e : ε}
    (h : x.runFrom s = (.error e, s')) : (x >>= f).runFrom s = (.error e, s') := by
  rw [runFrom_bind, h]

/-- Two steps succeed together when each of them does. -/
theorem runFrom_bind_ok {x : Step ε σ α} {f : α → Step ε σ β} {s s'' : σ} {b : β} :
    (x >>= f).runFrom s = (.ok b, s'')
      ↔ ∃ a s', x.runFrom s = (.ok a, s') ∧ (f a).runFrom s' = (.ok b, s'') := by
  constructor
  · intro h
    rw [runFrom_bind] at h
    rcases hx : x.runFrom s with ⟨r, s'⟩
    rw [hx] at h
    cases r with
    | ok a => exact ⟨a, s', rfl, h⟩
    | error e => cases h
  · rintro ⟨a, s', hx, hf⟩
    rw [runFrom_bind_of_ok hx, hf]

/-- What is done with the result alone changes nothing more. -/
theorem runFrom_bind_pure (x : Step ε σ α) (f : α → β) (s : σ) :
    (x >>= fun a => pure (f a)).runFrom s = ((x.runFrom s).1.map f, (x.runFrom s).2) := by
  rw [runFrom_bind]
  rcases x.runFrom s with ⟨r, s'⟩
  cases r with
  | ok a => rfl
  | error e => rfl

/-! ### Loops -/

@[simp] theorem runFrom_forM_nil (f : β → Step ε σ Unit) (s : σ) :
    (([] : List β).forM f).runFrom s = (.ok (), s) := rfl

theorem forM_cons (f : β → Step ε σ Unit) (b : β) (bs : List β) :
    (b :: bs).forM f = (f b >>= fun _ => bs.forM f) := rfl

/-- Calls that change nothing give their results in order. -/
theorem runFrom_mapM {f : α → Step ε σ β} {g : α → β} {s : σ}
    (h : ∀ a, (f a).runFrom s = (.ok (g a), s)) (as : List α) :
    (as.mapM f).runFrom s = (.ok (as.map g), s) := by
  induction as with
  | nil => rfl
  | cons a as ih =>
    rw [List.mapM_cons, runFrom_bind_of_ok (h a), runFrom_bind_of_ok ih]
    rfl

/-! ### Steps on a part of a state

A part is read by `get` and written by `set`; the three laws say that what was written is read
again, that the later of two writes counts, and that writing what was read changes nothing. -/

section

variable {ε σ τ α β : Type} {get : τ → σ} {set : σ → τ → τ}

theorem within_bind (hget : ∀ s t, get (set s t) = s) (hset : ∀ s s' t, set s (set s' t) = set s t)
    (x : Step ε σ α) (f : α → Step ε σ β) :
    (x >>= f).within get set = (x.within get set >>= fun a => (f a).within get set) := by
  funext t
  show ((x >>= f).within get set).runFrom t
    = (x.within get set >>= fun a => (f a).within get set).runFrom t
  rw [runFrom_bind, runFrom_within, runFrom_within, runFrom_bind]
  rcases x.runFrom (get t) with ⟨r, s⟩
  cases r with
  | ok a =>
    dsimp only
    rw [runFrom_within, hget, hset]
  | error e => rfl

theorem within_attempt (x : Step ε σ α) :
    x.attempt.within get set = (x.within get set).attempt := rfl

theorem within_forM (hget : ∀ s t, get (set s t) = s)
    (hset : ∀ s s' t, set s (set s' t) = set s t) (hself : ∀ t, set (get t) t = t)
    (f : β → Step ε σ Unit) (bs : List β) :
    (bs.forM f).within get set = bs.forM fun b => (f b).within get set := by
  induction bs with
  | nil =>
    -- an empty loop still reads the part and writes it back
    funext t
    show (Except.ok (), set (get t) t) = (Except.ok (), t)
    rw [hself]
  | cons b bs ih => rw [forM_cons, forM_cons, within_bind hget hset, ih]

end

end ShopTables.Step

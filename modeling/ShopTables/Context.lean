/-!
# Contexts and steps

Every call made for a statement carries the `Context` of that statement, which names it. A `Step`
is a call that may change a state and may fail; a failing step keeps the changes it made.
-/

namespace ShopTables

/-- The statement on whose behalf a call is made. -/
structure Context where
  id : String
  deriving DecidableEq

/-- A call that changes a state `σ` and gives an `α` or fails with an `ε`. -/
abbrev Step (ε σ α : Type) := ExceptT ε (StateM σ) α

namespace Step

variable {ε ε' σ τ α : Type}

/-- The step that does what a function on states says. -/
def ofFn (f : σ → Except ε α × σ) : Step ε σ α := f

def runFrom (x : Step ε σ α) (s : σ) : Except ε α × σ := x s

/-- The outcome of a step as a value, so that nothing fails. -/
def attempt (x : Step ε σ α) : Step ε σ (Except ε α) :=
  ofFn fun s => let (r, s) := x.runFrom s; (.ok r, s)

def mapError (f : ε → ε') (x : Step ε σ α) : Step ε' σ α :=
  ofFn fun s => let (r, s) := x.runFrom s; (r.mapError f, s)

/-- A step on a part of a larger state. -/
def within (get : τ → σ) (set : σ → τ → τ) (x : Step ε σ α) : Step ε τ α :=
  ofFn fun t => let (r, s) := x.runFrom (get t); (r, set s t)

/-- What a fallible value gives, without any change. -/
def ofExcept (r : Except ε α) : Step ε σ α := ofFn fun s => (r, s)

@[simp] theorem runFrom_ofFn (f : σ → Except ε α × σ) (s : σ) : (ofFn f).runFrom s = f s := rfl

@[simp] theorem runFrom_attempt (x : Step ε σ α) (s : σ) :
    x.attempt.runFrom s = (.ok (x.runFrom s).1, (x.runFrom s).2) := rfl

@[simp] theorem runFrom_ofExcept (r : Except ε α) (s : σ) : (ofExcept r).runFrom s = (r, s) := rfl

@[simp] theorem runFrom_mapError (f : ε → ε') (x : Step ε σ α) (s : σ) :
    (x.mapError f).runFrom s = ((x.runFrom s).1.mapError f, (x.runFrom s).2) := rfl

@[simp] theorem runFrom_within (get : τ → σ) (set : σ → τ → τ) (x : Step ε σ α) (t : τ) :
    (x.within get set).runFrom t = ((x.runFrom (get t)).1, set (x.runFrom (get t)).2 t) := rfl

end Step

end ShopTables

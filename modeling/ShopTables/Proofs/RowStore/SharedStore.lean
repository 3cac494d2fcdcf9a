import Mathlib.Logic.Function.Basic
import ShopTables.Proofs.RowStore.Snapshot

/-!
# Several deleters over one row store

Deleters that share a row store share its stack of savepoints. As long as a statement ends only when
no statement begun after it is open (`Nested`), none of them disturbs another: every begin and
every end succeeds, and what is left are the rows that would be left if only those deletes had been
made during which no statement that is discarded was open (`Shared.run`). When a statement ends out
of turn it takes the savepoints of those begun after it along, and some later end fails
(`Shared.nested`).
-/

namespace ShopTables

/-- The calls for one statement: it begins, deletes rows, is completed or discarded, and is
closed. -/
structure Lifecycle where
  ctx : Context
  rows : List Row
  /-- Why it is discarded, unless it is completed. -/
  cause? : Option StoreError := none

namespace Lifecycle

def isCompleted (l : Lifecycle) : Bool := l.cause?.isNone

/-- The call that completes or discards. -/
def ending (l : Lifecycle) : StoreCall :=
  match l.cause? with
  | none => .complete l.ctx
  | some cause => .discard l.ctx cause

def calls (l : Lifecycle) : List StoreCall :=
  .begin l.ctx :: (l.rows.map (.delete l.ctx) ++ [l.ending, .close l.ctx])

theorem ending_cases (l : Lifecycle) :
    (l.isCompleted = true ∧ l.ending = .complete l.ctx)
      ∨ (l.isCompleted = false ∧ ∃ cause, l.ending = .discard l.ctx cause) := by
  unfold isCompleted ending
  cases l.cause? with
  | none => exact .inl ⟨rfl, rfl⟩
  | some cause => exact .inr ⟨rfl, cause, rfl⟩

/-- The calls that are still to come when a statement is open or not. -/
inductive Rest (l : Lifecycle) : List StoreCall → Bool → Prop where
  | fresh : Rest l l.calls false
  | within (rows : List Row) :
      Rest l (rows.map (.delete l.ctx) ++ [l.ending, .close l.ctx]) true
  | ended : Rest l [.close l.ctx] false
  | closed : Rest l [] false

/-- What the next call of a statement is. -/
theorem Rest.cons {l : Lifecycle} {c : StoreCall} {rest : List StoreCall} {isOpen : Bool}
    (h : Rest l (c :: rest) isOpen) :
    (c = .begin l.ctx ∧ isOpen = false ∧ Rest l rest true)
      ∨ (∃ row, c = .delete l.ctx row ∧ isOpen = true ∧ Rest l rest true)
      ∨ (c = l.ending ∧ isOpen = true ∧ Rest l rest false)
      ∨ (c = .close l.ctx ∧ isOpen = false ∧ Rest l rest false) := by
  generalize hcalls : c :: rest = calls at h
  cases h with
  | fresh =>
    obtain ⟨rfl, rfl⟩ := List.cons.inj hcalls
    exact .inl ⟨rfl, rfl, .within l.rows⟩
  | within rows =>
    cases rows with
    | nil =>
      obtain ⟨rfl, rfl⟩ := List.cons.inj hcalls
      exact .inr (.inr (.inl ⟨rfl, rfl, .ended⟩))
    | cons row rows =>
      obtain ⟨rfl, rfl⟩ := List.cons.inj hcalls
      exact .inr (.inl ⟨row, rfl, rfl, .within rows⟩)
  | ended =>
    obtain ⟨rfl, rfl⟩ := List.cons.inj hcalls
    exact .inr (.inr (.inr ⟨rfl, rfl, .closed⟩))
  | closed => cases hcalls

theorem Rest.tail {l : Lifecycle} {c : StoreCall} {rest : List StoreCall} {isOpen : Bool}
    (h : Rest l (c :: rest) isOpen) : ∃ isOpen', Rest l rest isOpen' := by
  obtain ⟨-, -, h⟩ | ⟨-, -, -, h⟩ | ⟨-, -, h⟩ | ⟨-, -, h⟩ := h.cons
  · exact ⟨_, h⟩
  · exact ⟨_, h⟩
  · exact ⟨_, h⟩
  · exact ⟨_, h⟩

theorem Rest.eq_false_of_nil {l : Lifecycle} {isOpen : Bool} (h : Rest l [] isOpen) :
    isOpen = false := by
  generalize hcalls : ([] : List StoreCall) = calls at h
  cases h with
  | within rows => cases rows <;> cases hcalls
  | _ => rfl

end Lifecycle

/-! ### Calls of several parties -/

variable {P : Type} [DecidableEq P]

/-- A call of one of several parties, each with a deleter of its own. -/
def StoreCall.runShared : P × StoreCall → RowStore × (P → LocalDeleter) →
    Except StoreError Unit × RowStore × (P → LocalDeleter)
  | (p, c), (s, deleters) =>
    ((c.run (s, deleters p)).1, (c.run (s, deleters p)).2.1,
      Function.update deleters p (c.run (s, deleters p)).2.2)

theorem StoreCall.runShared_of_run {p : P} {c : StoreCall} {s s' : RowStore}
    {deleters : P → LocalDeleter} {d : LocalDeleter} {result : Except StoreError Unit}
    (h : c.run (s, deleters p) = (result, s', d)) :
    runShared (p, c) (s, deleters) = (result, s', Function.update deleters p d) := by
  rw [runShared, h]

/-- The calls of one party. -/
def callsOf (p : P) (calls : List (P × StoreCall)) : List StoreCall :=
  (calls.filter (·.1 = p)).map (·.2)

/-- The parties whose statements are open after a call, the last to begin first. -/
def nest (stack : List P) : P × StoreCall → List P
  | (p, .begin _) => p :: stack
  | (p, .complete _) => stack.erase p
  | (p, .discard _ _) => stack.erase p
  | (p, .close _) => stack.erase p
  | (_, .delete _ _) => stack
  | (_, .insertAll _) => stack

/-- The parties whose statements are open after some calls. -/
def openAfter (calls : List (P × StoreCall)) : List P := calls.foldl nest []

/-- Does a call complete or discard a statement? -/
def StoreCall.isEnding : StoreCall → Bool
  | .complete _ => true
  | .discard _ _ => true
  | _ => false

def StoreCall.isDelete : StoreCall → Bool
  | .delete _ _ => true
  | _ => false

/-- With the statements of a stack open, a statement ends only when it is the last to have begun. -/
def NestedFrom : List P → List (P × StoreCall) → Prop
  | _, [] => True
  | stack, (p, c) :: rest =>
    (c.isEnding = true → stack.head? = some p) ∧ NestedFrom (nest stack (p, c)) rest

/-- A statement ends only when it is the last to have begun of those that are open. -/
def Nested (calls : List (P × StoreCall)) : Prop := NestedFrom [] calls

/-- The calls of all parties, each of which makes those of its lifecycle, in any order. -/
def Interleaves (life : P → Lifecycle) (calls : List (P × StoreCall)) : Prop :=
  ∀ p, callsOf p calls = (life p).calls

theorem callsOf_cons_self (p : P) (c : StoreCall) (rest : List (P × StoreCall)) :
    callsOf p ((p, c) :: rest) = c :: callsOf p rest := by
  simp [callsOf]

theorem callsOf_cons_of_ne {p q : P} (h : q ≠ p) (c : StoreCall) (rest : List (P × StoreCall)) :
    callsOf q ((p, c) :: rest) = callsOf q rest := by
  simp [callsOf, h.symm]

theorem mem_nest_of_ne {p q : P} (h : q ≠ p) (stack : List P) (c : StoreCall) :
    q ∈ nest stack (p, c) ↔ q ∈ stack := by
  cases c with
  | begin => simp [nest, h]
  | delete => rfl
  | insertAll => rfl
  | _ => exact List.mem_erase_of_ne h

theorem nest_of_delete {stack : List P} {p : P} {c : StoreCall} (h : c.isDelete = true) :
    nest stack (p, c) = stack := by
  cases c with
  | delete => rfl
  | _ => cases h

theorem isEnding_ending (l : Lifecycle) : l.ending.isEnding = true ∧ l.ending.isDelete = false := by
  obtain ⟨-, hending⟩ | ⟨-, cause, hending⟩ := l.ending_cases
  · rw [hending]
    exact ⟨rfl, rfl⟩
  · rw [hending]
    exact ⟨rfl, rfl⟩

theorem nest_ending (l : Lifecycle) (p : P) (stack : List P) :
    nest (p :: stack) (p, l.ending) = stack := by
  obtain ⟨-, hending⟩ | ⟨-, cause, hending⟩ := l.ending_cases
  · rw [hending]
    exact List.erase_cons_head p stack
  · rw [hending]
    exact List.erase_cons_head p stack

/-! ### What is left in the end -/

/-- The store without the row that a delete takes off, if it does. -/
def RowStore.without (s : RowStore) (row : Row) : RowStore :=
  match s.deleteRow row with
  | .ok s' => s'
  | .error _ => s

namespace RowStore

theorem without_frame (s : RowStore) (row : Row) :
    ∃ rows, rows.Sublist s.stored ∧ s.without row = { s with stored := rows } := by
  unfold without
  cases hrow : s.deleteRow row with
  | ok s' => exact deleteRow_frame hrow
  | error e => exact ⟨s.stored, .refl _, rfl⟩

theorem without_withSavepoints (s : RowStore) (savepoints : List Savepoint) (row : Row) :
    ({ s with savepoints } : RowStore).without row = { s.without row with savepoints } := by
  unfold without
  rw [deleteRow_withSavepoints]
  cases s.deleteRow row with
  | ok s' => rfl
  | error e => rfl

end RowStore

/-- A delete changes the rows only. -/
theorem runShared_delete (p : P) (ctx : Context) (row : Row) (s : RowStore)
    (deleters : P → LocalDeleter) :
    ∃ result, StoreCall.runShared (p, .delete ctx row) (s, deleters)
      = (result, s.without row, deleters) := by
  have hrun : ∃ result, (StoreCall.delete ctx row).run (s, deleters p)
      = (result, s.without row, deleters p) := by
    rw [StoreCall.run, LocalDeleter.calls, RowStore.without]
    dsimp only
    cases hrow : s.deleteRow row with
    | ok s' =>
      rw [LocalDeleter.runFrom_delete_ok hrow]
      exact ⟨_, rfl⟩
    | error e =>
      rw [LocalDeleter.runFrom_delete_error hrow]
      exact ⟨_, rfl⟩
  obtain ⟨result, hrun⟩ := hrun
  refine ⟨result, (StoreCall.runShared_of_run hrun).trans ?_⟩
  rw [Function.update_eq_self]

/-- The row that is given to a delete, unless it is made while a statement is open that is
discarded. -/
def lastingOf (life : P → Lifecycle) (stack : List P) : StoreCall → List Row
  | .delete _ row => if stack.all fun q => (life q).isCompleted then [row] else []
  | _ => []

omit [DecidableEq P] in
theorem lastingOf_eq_nil {life : P → Lifecycle} {stack : List P} {c : StoreCall}
    (h : ¬(c.isDelete = true ∧ ∀ q ∈ stack, (life q).isCompleted = true)) :
    lastingOf life stack c = [] := by
  cases c with
  | delete ctx row =>
    rw [lastingOf, if_neg]
    intro hall
    exact h ⟨rfl, List.all_eq_true.mp hall⟩
  | _ => rfl

/-- The rows given to the deletes during which no statement was open that is discarded, when those
of a stack are open. -/
def lastingFrom (life : P → Lifecycle) : List P → List (P × StoreCall) → List Row
  | _, [] => []
  | stack, (p, c) :: rest => lastingOf life stack c ++ lastingFrom life (nest stack (p, c)) rest

/-- The rows given to the deletes during which no statement was open that is discarded. -/
def lasting (life : P → Lifecycle) (calls : List (P × StoreCall)) : List Row :=
  lastingFrom life [] calls

/-- The outermost of the open statements that are discarded. -/
def outermostDiscarded? (life : P → Lifecycle) (stack : List P) : Option P :=
  (stack.filter fun q => !(life q).isCompleted).getLast?

/-- The rows that there would be if the open statements ended now, with these rows saved for
them. -/
def settledRows (life : P → Lifecycle) (stack : List P) (saved : P → List NumberedRow)
    (rows : List NumberedRow) : List NumberedRow :=
  match outermostDiscarded? life stack with
  | some q => saved q
  | none => rows

/-- The store as it would be if the open statements ended now. -/
def settled (life : P → Lifecycle) (stack : List P) (saved : P → List NumberedRow) (s : RowStore) :
    RowStore :=
  { s with stored := settledRows life stack saved s.stored, savepoints := [] }

section

omit [DecidableEq P]

variable {life : P → Lifecycle} {stack : List P} {p : P}

theorem outermostDiscarded?_eq_none :
    outermostDiscarded? life stack = none ↔ (stack.all fun q => (life q).isCompleted) = true := by
  rw [outermostDiscarded?, List.getLast?_eq_none_iff, List.filter_eq_nil_iff, List.all_eq_true]
  simp

theorem settled_of_completed (hall : ∀ q ∈ stack, (life q).isCompleted = true)
    (saved : P → List NumberedRow) (s : RowStore) :
    settled life stack saved s = { s with savepoints := [] } := by
  have hnone := outermostDiscarded?_eq_none.mpr (List.all_eq_true.mpr hall)
  rw [settled, settledRows, hnone]

theorem mem_of_outermostDiscarded? {q : P} (h : outermostDiscarded? life stack = some q) :
    q ∈ stack :=
  List.mem_of_mem_filter (List.mem_of_getLast? h)

/-- Of a statement and those open before it the outermost that is discarded is one of these, if any
of these is discarded. -/
theorem outermostDiscarded?_cons (p : P) (stack : List P) :
    outermostDiscarded? life (p :: stack)
      = (outermostDiscarded? life stack).or (if (life p).isCompleted then none else some p) := by
  unfold outermostDiscarded?
  cases hp : (life p).isCompleted with
  | true =>
    rw [List.filter_cons_of_neg (by simp [hp])]
    simp
  | false =>
    rw [List.filter_cons_of_pos (by simp [hp]), List.getLast?_cons]
    simp

theorem settledRows_complete (hp : (life p).isCompleted = true) (saved : P → List NumberedRow)
    (rows : List NumberedRow) :
    settledRows life (p :: stack) saved rows = settledRows life stack saved rows := by
  rw [settledRows, outermostDiscarded?_cons, if_pos hp, Option.or_none]
  rfl

theorem settledRows_discard (hp : (life p).isCompleted = false) (saved : P → List NumberedRow)
    (rows : List NumberedRow) :
    settledRows life (p :: stack) saved rows = settledRows life stack saved (saved p) := by
  rw [settledRows, settledRows, outermostDiscarded?_cons, hp]
  cases outermostDiscarded? life stack with
  | none => rfl
  | some q => rfl

end

/-- A statement that has just begun makes no difference to what is left. -/
theorem settledRows_begin {life : P → Lifecycle} {stack : List P} {p : P} (hp : p ∉ stack)
    (saved : P → List NumberedRow) (rows : List NumberedRow) :
    settledRows life (p :: stack) (Function.update saved p rows) rows
      = settledRows life stack saved rows := by
  have hstack : settledRows life stack (Function.update saved p rows) rows
      = settledRows life stack saved rows := by
    unfold settledRows
    cases hq : outermostDiscarded? life stack with
    | none => rfl
    | some q =>
      have hne : q ≠ p := fun (heq : q = p) => hp (heq ▸ mem_of_outermostDiscarded? hq)
      exact Function.update_of_ne hne _ _
  cases hcompleted : (life p).isCompleted with
  | true => rw [settledRows_complete hcompleted, hstack]
  | false => rw [settledRows_discard hcompleted, Function.update_self, hstack]

/-! ### Parties that do not disturb one another -/

/-- What the parties have to come fits the statements of a stack, which are open, and the store has
the savepoints of these and no others. -/
structure Shared (life : P → Lifecycle) (stack : List P) (saved : P → List NumberedRow)
    (rest : List (P × StoreCall)) (st : RowStore × (P → LocalDeleter)) : Prop where
  rests : ∀ p, (life p).Rest (callsOf p rest) (decide (p ∈ stack))
  deleters : ∀ p, st.2 p
    = ⟨if p ∈ stack then some (LocalDeleter.savepointName (life p).ctx) else none⟩
  savepoints : st.1.savepoints
    = stack.map fun p => ⟨LocalDeleter.savepointName (life p).ctx, saved p⟩
  nodup : stack.Nodup

namespace Shared

variable {life : P → Lifecycle} {stack : List P} {saved : P → List NumberedRow} {p : P}
  {c : StoreCall} {rest : List (P × StoreCall)} {s : RowStore} {deleters : P → LocalDeleter}

theorem rest_of_other (h : Shared life stack saved ((p, c) :: rest) (s, deleters)) {q : P}
    (hq : q ≠ p) : (life q).Rest (callsOf q rest) (decide (q ∈ nest stack (p, c))) := by
  have hrest := h.rests q
  rw [callsOf_cons_of_ne hq] at hrest
  rwa [decide_eq_decide.mpr (mem_nest_of_ne hq stack c)]

/-- What has to be said of a party and of the store for the parties to fit after a call. -/
theorem next (h : Shared life stack saved ((p, c) :: rest) (s, deleters))
    (hrest : (life p).Rest (callsOf p rest) (decide (p ∈ nest stack (p, c))))
    {saved' : P → List NumberedRow} {s' : RowStore} {d : LocalDeleter}
    (hd : d = ⟨if p ∈ nest stack (p, c) then some (LocalDeleter.savepointName (life p).ctx)
      else none⟩)
    (hsavepoints : s'.savepoints
      = (nest stack (p, c)).map fun p => ⟨LocalDeleter.savepointName (life p).ctx, saved' p⟩)
    (hnodup : (nest stack (p, c)).Nodup) :
    Shared life (nest stack (p, c)) saved' rest (s', Function.update deleters p d) := by
  refine ⟨fun q => ?_, fun q => ?_, hsavepoints, hnodup⟩
  · by_cases hq : q = p
    · subst hq
      exact hrest
    · exact h.rest_of_other hq
  · by_cases hq : q = p
    · subst hq
      dsimp only
      rw [Function.update_self, hd]
    · dsimp only
      rw [Function.update_of_ne hq]
      simp only [mem_nest_of_ne hq]
      exact h.deleters q

/-- Beginning saves the rows as they are. -/
theorem begin (h : Shared life stack saved ((p, .begin (life p).ctx) :: rest) (s, deleters))
    (hp : p ∉ stack) (hrest : (life p).Rest (callsOf p rest) true) :
    ∃ saved' st', StoreCall.runShared (p, .begin (life p).ctx) (s, deleters) = (.ok (), st')
      ∧ Shared life (p :: stack) saved' rest st'
      ∧ settled life (p :: stack) saved' st'.1 = settled life stack saved s := by
  have hd : deleters p = ⟨none⟩ := (h.deleters p).trans (by rw [if_neg hp])
  have hrun : StoreCall.runShared (p, .begin (life p).ctx) (s, deleters)
      = (.ok (), s.openSavepoint (LocalDeleter.savepointName (life p).ctx),
          Function.update deleters p ⟨some (LocalDeleter.savepointName (life p).ctx)⟩) := by
    rw [StoreCall.runShared, hd]
    rfl
  refine ⟨Function.update saved p s.stored, _, hrun, h.next ?_ ?_ ?_ ?_, ?_⟩
  · simpa [nest] using hrest
  · simp [nest]
  · show ⟨_, s.stored⟩ :: s.savepoints = _
    rw [h.savepoints, nest, List.map_cons, Function.update_self]
    congr 1
    apply List.map_congr_left
    intro q hq
    rw [Function.update_of_ne fun (heq : q = p) => hp (heq ▸ hq)]
  · exact List.nodup_cons.mpr ⟨hp, h.nodup⟩
  · show { s with stored := settledRows life (p :: stack) _ s.stored, savepoints := [] } = _
    rw [settledRows_begin hp]
    rfl

/-- A delete takes a row off for good if no open statement is discarded. -/
theorem delete {row : Row}
    (h : Shared life stack saved ((p, .delete (life p).ctx row) :: rest) (s, deleters))
    (hp : p ∈ stack) (hrest : (life p).Rest (callsOf p rest) true) :
    ∃ result st', StoreCall.runShared (p, .delete (life p).ctx row) (s, deleters) = (result, st')
      ∧ Shared life stack saved rest st'
      ∧ settled life stack saved st'.1
          = (lastingOf life stack (.delete (life p).ctx row)).foldl RowStore.without
              (settled life stack saved s) := by
  obtain ⟨result, hrun⟩ := runShared_delete p (life p).ctx row s deleters
  obtain ⟨rows, -, hframe⟩ := s.without_frame row
  have hsame : Function.update deleters p (deleters p) = deleters := Function.update_eq_self p _
  refine ⟨result, _, hrun, hsame ▸ h.next ?_ (h.deleters p) ?_ h.nodup, ?_⟩
  · simpa [nest, hp] using hrest
  · rw [hframe]
    exact h.savepoints
  · show settled life stack saved (s.without row) = _
    rw [lastingOf]
    split_ifs with hall
    · -- nothing will be taken back, so that what is left is what is there
      have hcompleted := List.all_eq_true.mp hall
      rw [settled_of_completed hcompleted, settled_of_completed hcompleted, List.foldl_cons,
        List.foldl_nil]
      exact (s.without_withSavepoints [] row).symm
    · obtain ⟨q, hq⟩ := Option.ne_none_iff_exists'.mp (mt outermostDiscarded?_eq_none.mp hall)
      rw [List.foldl_nil, hframe, settled, settled, settledRows, settledRows, hq]

/-- The innermost statement is completed or discarded. -/
theorem ending {stack : List P}
    (h : Shared life (p :: stack) saved ((p, (life p).ending) :: rest) (s, deleters))
    (hrest : (life p).Rest (callsOf p rest) false) :
    ∃ st', StoreCall.runShared (p, (life p).ending) (s, deleters) = (.ok (), st')
      ∧ Shared life stack saved rest st'
      ∧ settled life stack saved st'.1 = settled life (p :: stack) saved s := by
  have hd : deleters p = ⟨some (LocalDeleter.savepointName (life p).ctx)⟩ :=
    (h.deleters p).trans (by simp)
  have hopened := h.savepoints
  rw [List.map_cons] at hopened
  have hp : p ∉ stack := (List.nodup_cons.mp h.nodup).1
  have hnest := nest_ending (life p) p stack
  have hnext : ∀ stored, Shared life stack saved rest
      ({ s with
          stored
          savepoints := stack.map fun p => ⟨LocalDeleter.savepointName (life p).ctx, saved p⟩ },
        Function.update deleters p ⟨none⟩) := by
    intro stored
    rw [← hnest]
    refine h.next ?_ ?_ rfl ?_
    · simpa [hnest, hp] using hrest
    · simp [hnest, hp]
    · rw [hnest]
      exact (List.nodup_cons.mp h.nodup).2
  obtain ⟨hcompleted, hending⟩ | ⟨hcompleted, cause, hending⟩ := (life p).ending_cases
  · refine ⟨_, StoreCall.runShared_of_run ?_, hnext s.stored, ?_⟩
    · rw [hending, hd]
      exact LocalDeleter.runFrom_release_within hopened
    · rw [settled, settled, settledRows_complete hcompleted]
  · refine ⟨_, StoreCall.runShared_of_run ?_, hnext (saved p), ?_⟩
    · rw [hending, hd]
      exact LocalDeleter.runFrom_discard_within hopened
    · rw [settled, settled, settledRows_discard hcompleted]

/-- Closing comes when the statement has ended, and does nothing. -/
theorem close (h : Shared life stack saved ((p, .close (life p).ctx) :: rest) (s, deleters))
    (hp : p ∉ stack) (hrest : (life p).Rest (callsOf p rest) false) :
    StoreCall.runShared (p, .close (life p).ctx) (s, deleters) = (.ok (), s, deleters)
      ∧ Shared life stack saved rest (s, deleters) := by
  have hd : deleters p = ⟨none⟩ := (h.deleters p).trans (by rw [if_neg hp])
  have hnest : nest stack (p, .close (life p).ctx) = stack := List.erase_of_not_mem hp
  have hsame : Function.update deleters p ⟨none⟩ = deleters := by
    rw [← hd, Function.update_eq_self]
  constructor
  · have hrun : (StoreCall.close (life p).ctx).run (s, deleters p) = (.ok (), s, ⟨none⟩) := by
      rw [hd]
      exact LocalDeleter.runFrom_release_idle s
    rw [StoreCall.runShared_of_run hrun, hsame]
  · have hnext : Shared life (nest stack (p, .close (life p).ctx)) saved rest
        (s, Function.update deleters p ⟨none⟩) := by
      refine h.next ?_ ?_ ?_ ?_
      · simpa [hnest, hp] using hrest
      · simp [hnest, hp]
      · rw [hnest]
        exact h.savepoints
      · rw [hnest]
        exact h.nodup
    rwa [hnest, hsame] at hnext

/-- A call in its turn succeeds unless it is a delete, and leaves the parties undisturbed; and of
what is left in the end only a delete that lasts takes something off. -/
theorem call (h : Shared life stack saved ((p, c) :: rest) (s, deleters))
    (hturn : c.isEnding = true → stack.head? = some p) :
    ∃ saved' st', (StoreCall.runShared (p, c) (s, deleters)).2 = st'
      ∧ Shared life (nest stack (p, c)) saved' rest st'
      ∧ (c.isDelete = false → (StoreCall.runShared (p, c) (s, deleters)).1 = .ok ())
      ∧ settled life (nest stack (p, c)) saved' st'.1
          = (lastingOf life stack c).foldl RowStore.without (settled life stack saved s) := by
  have hnext := h.rests p
  rw [callsOf_cons_self] at hnext
  obtain ⟨rfl, hp, hrest⟩ | ⟨row, rfl, hp, hrest⟩ | ⟨rfl, hp, hrest⟩ | ⟨rfl, hp, hrest⟩ := hnext.cons
  · obtain ⟨saved', st', hrun, hshared, hsettled⟩ := h.begin (of_decide_eq_false hp) hrest
    rw [hrun]
    exact ⟨saved', st', rfl, hshared, fun _ => rfl, hsettled⟩
  · obtain ⟨result, st', hrun, hshared, hsettled⟩ := h.delete (of_decide_eq_true hp) hrest
    rw [hrun]
    exact ⟨saved, st', rfl, hshared, nofun, hsettled⟩
  · obtain ⟨hending, hdelete⟩ := isEnding_ending (life p)
    obtain ⟨outer, rfl⟩ : ∃ outer, stack = p :: outer := List.head?_eq_some_iff.mp (hturn hending)
    obtain ⟨st', hrun, hshared, hsettled⟩ := h.ending hrest
    rw [hrun, nest_ending, lastingOf_eq_nil (by simp [hdelete])]
    exact ⟨saved, st', rfl, hshared, fun _ => rfl, hsettled⟩
  · obtain ⟨hrun, hshared⟩ := h.close (of_decide_eq_false hp) hrest
    rw [hrun]
    have hnest : nest stack (p, .close (life p).ctx) = stack :=
      List.erase_of_not_mem (of_decide_eq_false hp)
    rw [hnest]
    exact ⟨saved, _, rfl, hshared, fun _ => rfl, rfl⟩

/-- Whole runs in which the statements are nested. -/
theorem run {calls : List (P × StoreCall)} {st : RowStore × (P → LocalDeleter)}
    (h : Shared life stack saved calls st) (hnested : NestedFrom stack calls) :
    (∀ x ∈ calls.zip (runAll StoreCall.runShared calls st).1, x.1.2.isDelete = false → x.2 = .ok ())
      ∧ (runAll StoreCall.runShared calls st).2.1
          = (lastingFrom life stack calls).foldl RowStore.without (settled life stack saved st.1) := by
  induction calls generalizing stack saved st with
  | nil =>
    obtain ⟨s, deleters⟩ := st
    have hstack : stack = [] := by
      refine List.eq_nil_iff_forall_not_mem.mpr fun p => ?_
      exact of_decide_eq_false (h.rests p).eq_false_of_nil
    subst hstack
    have hclosed : s.savepoints = [] := h.savepoints
    refine ⟨nofun, ?_⟩
    show s = { s with savepoints := [] }
    rw [← hclosed]
  | cons x calls ih =>
    obtain ⟨p, c⟩ := x
    obtain ⟨s, deleters⟩ := st
    obtain ⟨hturn, hnested⟩ := hnested
    obtain ⟨saved', st', hrun, hshared, hok, hsettled⟩ := h.call hturn
    obtain ⟨hoks, hstore⟩ := ih hshared hnested
    rw [runAll, hrun]
    refine ⟨fun x hx => ?_, ?_⟩
    · rw [List.zip_cons_cons] at hx
      rcases List.mem_cons.mp hx with rfl | hx
      · exact hok
      · exact hoks x hx
    · rw [lastingFrom, List.foldl_append, ← hsettled]
      exact hstore

end Shared

/-! ### Statements that end out of turn -/

namespace RowStore

theorem subset_of_findSavepoint? {name : String} {savepoints outer : List Savepoint} {p : Savepoint}
    (h : findSavepoint? name savepoints = some (p, outer)) : outer ⊆ savepoints := by
  induction savepoints with
  | nil => cases h
  | cons q savepoints ih =>
    rw [findSavepoint?] at h
    split_ifs at h
    · obtain ⟨-, rfl⟩ := Prod.mk.inj (Option.some.inj h)
      exact List.subset_cons_self _ _
    · exact List.subset_cons_of_subset _ (ih h)

theorem findSavepoint?_eq_none {name : String} {savepoints : List Savepoint}
    (h : ∀ p ∈ savepoints, p.name ≠ name) : findSavepoint? name savepoints = none := by
  induction savepoints with
  | nil => rfl
  | cons q savepoints ih =>
    rw [findSavepoint?, if_neg (h q List.mem_cons_self)]
    exact ih fun p hp => h p (List.mem_cons_of_mem q hp)

end RowStore

/-- No savepoint of the store has a name. -/
def NoSavepoint (s : RowStore) (name : String) : Prop := ∀ p ∈ s.savepoints, p.name ≠ name

/-- A way to end a savepoint closes the innermost one of its name, with those inside it, and fails
if there is none. -/
def Finishes (finish : RowStore → String → Except StoreError RowStore) : Prop :=
  ∀ s name, (RowStore.findSavepoint? name s.savepoints = none
      ∧ finish s name = .error (.noSuchSavepoint name))
    ∨ ∃ p outer stored, RowStore.findSavepoint? name s.savepoints = some (p, outer)
      ∧ finish s name = .ok { s with stored, savepoints := outer }

theorem finishes_release : Finishes RowStore.release := by
  intro s name
  rw [RowStore.release]
  cases RowStore.findSavepoint? name s.savepoints with
  | none => exact .inl ⟨rfl, rfl⟩
  | some found => exact .inr ⟨found.1, found.2, s.stored, rfl, rfl⟩

theorem finishes_rollback : Finishes RowStore.rollback := by
  intro s name
  rw [RowStore.rollback]
  cases RowStore.findSavepoint? name s.savepoints with
  | none => exact .inl ⟨rfl, rfl⟩
  | some found => exact .inr ⟨found.1, found.2, found.1.rows, rfl, rfl⟩

/-- A statement ends by ending its savepoint in one of the two ways. -/
theorem exists_finish_of_ending (l : Lifecycle) :
    ∃ finish, Finishes finish ∧ ∀ st, l.ending.run st = (LocalDeleter.finishWith finish).runFrom st := by
  obtain ⟨-, hending⟩ | ⟨-, cause, hending⟩ := l.ending_cases
  · refine ⟨_, finishes_release, fun st => ?_⟩
    rw [hending]
    rfl
  · refine ⟨_, finishes_rollback, fun st => ?_⟩
    rw [hending]
    rfl

namespace Finishes

variable {finish : RowStore → String → Except StoreError RowStore} {s : RowStore} {name : String}

/-- The savepoints that are left were there before. -/
theorem savepoints_subset (h : Finishes finish) (s : RowStore) (d : LocalDeleter) :
    ((LocalDeleter.finishWith finish).runFrom (s, d)).2.1.savepoints ⊆ s.savepoints := by
  rw [LocalDeleter.finishWith, Step.runFrom_ofFn]
  obtain ⟨_ | own⟩ := d
  · exact List.Subset.refl _
  · dsimp only
    obtain ⟨-, hrun⟩ | ⟨p, outer, stored, hfind, hrun⟩ := h s own
    · rw [hrun]
      exact List.Subset.refl _
    · rw [hrun]
      exact RowStore.subset_of_findSavepoint? hfind

theorem fails (h : Finishes finish) (hgone : NoSavepoint s name) :
    ((LocalDeleter.finishWith finish).runFrom (s, ⟨some name⟩)).1
      = .error (.noSuchSavepoint name) := by
  rw [LocalDeleter.finishWith, Step.runFrom_ofFn]
  dsimp only
  obtain ⟨-, hrun⟩ | ⟨p, outer, stored, hfind, -⟩ := h s name
  · rw [hrun]
  · rw [RowStore.findSavepoint?_eq_none hgone] at hfind
    cases hfind

end Finishes

section

variable {life : P → Lifecycle} {calls : List (P × StoreCall)}

/-- A call of another party brings no savepoint of this name. -/
theorem noSavepoint_run {l : Lifecycle} {c : StoreCall} {rest : List StoreCall} {isOpen : Bool}
    {s : RowStore} {d : LocalDeleter} {name : String} (hrest : l.Rest (c :: rest) isOpen)
    (hname : LocalDeleter.savepointName l.ctx ≠ name) (h : NoSavepoint s name) :
    NoSavepoint (c.run (s, d)).2.1 name := by
  obtain ⟨rfl, -, -⟩ | ⟨row, rfl, -, -⟩ | ⟨rfl, -, -⟩ | ⟨rfl, -, -⟩ := hrest.cons
  · obtain ⟨_ | own⟩ := d
    · exact List.forall_mem_cons.mpr ⟨hname, h⟩
    · exact h
  · show NoSavepoint ((LocalDeleter.delete row).runFrom (s, d)).2.1 name
    cases hrow : s.deleteRow row with
    | ok s' =>
      rw [LocalDeleter.runFrom_delete_ok hrow]
      obtain ⟨rows, -, rfl⟩ := RowStore.deleteRow_frame hrow
      exact h
    | error e =>
      rw [LocalDeleter.runFrom_delete_error hrow]
      exact h
  · obtain ⟨finish, hfinish, hrun⟩ := exists_finish_of_ending l
    rw [hrun]
    exact fun p hp => h p (hfinish.savepoints_subset s d hp)
  · exact fun p hp => h p (finishes_release.savepoints_subset s d hp)

/-- Each party has calls of its lifecycle to come after any call, its own or another's. -/
theorem exists_rest_of_cons {p : P} {c : StoreCall}
    (h : ∀ q, ∃ isOpen, (life q).Rest (callsOf q ((p, c) :: calls)) isOpen) :
    ∀ q, ∃ isOpen, (life q).Rest (callsOf q calls) isOpen := by
  intro q
  obtain ⟨isOpen, hrest⟩ := h q
  by_cases hq : q = p
  · subst hq
    rw [callsOf_cons_self] at hrest
    exact hrest.tail
  · rw [callsOf_cons_of_ne hq] at hrest
    exact ⟨isOpen, hrest⟩

/-- Some call fails of a statement that has lost its savepoint. -/
theorem exists_failed_of_noSavepoint
    (hnames : ∀ p q, LocalDeleter.savepointName (life p).ctx = LocalDeleter.savepointName (life q).ctx
      → p = q)
    {q : P} {st : RowStore × (P → LocalDeleter)}
    (hrests : ∀ p, ∃ isOpen, (life p).Rest (callsOf p calls) isOpen)
    (hopen : (life q).Rest (callsOf q calls) true)
    (hd : st.2 q = ⟨some (LocalDeleter.savepointName (life q).ctx)⟩)
    (hgone : NoSavepoint st.1 (LocalDeleter.savepointName (life q).ctx)) :
    ∃ x ∈ calls.zip (runAll StoreCall.runShared calls st).1,
      x.1.2.isDelete = false ∧ x.2 ≠ .ok () := by
  induction calls generalizing st with
  | nil => cases hopen.eq_false_of_nil
  | cons x calls ih =>
    obtain ⟨p, c⟩ := x
    obtain ⟨s, deleters⟩ := st
    have hlater : ∀ {st'}, (StoreCall.runShared (p, c) (s, deleters)).2 = st' →
        (life q).Rest (callsOf q calls) true →
        st'.2 q = ⟨some (LocalDeleter.savepointName (life q).ctx)⟩ →
        NoSavepoint st'.1 (LocalDeleter.savepointName (life q).ctx) →
        ∃ x ∈ ((p, c) :: calls).zip (runAll StoreCall.runShared ((p, c) :: calls) (s, deleters)).1,
          x.1.2.isDelete = false ∧ x.2 ≠ .ok () := by
      rintro st' rfl hopen' hd' hgone'
      obtain ⟨x, hx, hfail⟩ := ih (exists_rest_of_cons hrests) hopen' hd' hgone'
      exact ⟨x, List.mem_cons_of_mem _ hx, hfail⟩
    by_cases hp : p = q
    · subst hp
      rw [callsOf_cons_self] at hopen
      obtain ⟨-, hclosed, -⟩ | ⟨row, rfl, -, hrest⟩ | ⟨rfl, -, -⟩ | ⟨-, hclosed, -⟩ := hopen.cons
      · cases hclosed
      · -- a delete leaves the savepoints and the deleter as they are
        obtain ⟨result, hrun⟩ := runShared_delete p (life p).ctx row s deleters
        obtain ⟨rows, -, hframe⟩ := s.without_frame row
        refine hlater (congrArg Prod.snd hrun) hrest hd ?_
        dsimp only
        rw [hframe]
        exact hgone
      · obtain ⟨finish, hfinish, hrun⟩ := exists_finish_of_ending (life p)
        have hd : deleters p = ⟨some (LocalDeleter.savepointName (life p).ctx)⟩ := hd
        have hgone : NoSavepoint s (LocalDeleter.savepointName (life p).ctx) := hgone
        refine ⟨((p, (life p).ending), _), List.mem_cons_self, (isEnding_ending (life p)).2, ?_⟩
        show (((life p).ending).run (s, deleters p)).1 ≠ .ok ()
        rw [hrun, hd, hfinish.fails hgone]
        exact nofun
      · cases hclosed
    · have hother : q ≠ p := fun heq => hp heq.symm
      rw [callsOf_cons_of_ne hother] at hopen
      obtain ⟨isOpen, hrest⟩ := hrests p
      rw [callsOf_cons_self] at hrest
      refine hlater rfl hopen ?_ (noSavepoint_run hrest (fun heq => hp (hnames p q heq)) hgone)
      exact (Function.update_of_ne hother _ _).trans hd

/-- A statement that ends before one begun after it takes the savepoint of that one along, unless
it fails. -/
theorem Shared.noSavepoint_of_ending
    (hnames : ∀ p q, LocalDeleter.savepointName (life p).ctx = LocalDeleter.savepointName (life q).ctx
      → p = q)
    {p q : P} {outer : List P} {saved : P → List NumberedRow} {s : RowStore}
    {deleters : P → LocalDeleter} (h : Shared life (q :: outer) saved calls (s, deleters))
    (hne : q ≠ p) (hp : p ∈ q :: outer)
    (hok : (StoreCall.runShared (p, (life p).ending) (s, deleters)).1 = .ok ()) :
    NoSavepoint (StoreCall.runShared (p, (life p).ending) (s, deleters)).2.1
      (LocalDeleter.savepointName (life q).ctx) := by
  have hd : deleters p = ⟨some (LocalDeleter.savepointName (life p).ctx)⟩ :=
    (h.deleters p).trans (by rw [if_pos hp])
  have hopened := h.savepoints
  rw [List.map_cons] at hopened
  obtain ⟨finish, hfinish, hrun⟩ := exists_finish_of_ending (life p)
  rw [StoreCall.runShared, hrun, hd, LocalDeleter.finishWith, Step.runFrom_ofFn] at hok ⊢
  dsimp only at hok hopened ⊢
  obtain ⟨-, hfinished⟩ | ⟨found, further, stored, hfind, hfinished⟩ :=
    hfinish s (LocalDeleter.savepointName (life p).ctx)
  · rw [hfinished] at hok
    cases hok
  · rw [hfinished]
    rw [hopened, RowStore.findSavepoint?, if_neg fun heq => hne (hnames q p heq)] at hfind
    intro sp hsp heq
    obtain ⟨q', hq', rfl⟩ := List.mem_map.mp (RowStore.subset_of_findSavepoint? hfind hsp)
    obtain rfl := hnames q' q heq
    exact (List.nodup_cons.mp h.nodup).1 hq'

/-- If every begin and every end succeeds, the statements are nested. -/
theorem Shared.nested
    (hnames : ∀ p q, LocalDeleter.savepointName (life p).ctx = LocalDeleter.savepointName (life q).ctx
      → p = q)
    {stack : List P} {saved : P → List NumberedRow} {st : RowStore × (P → LocalDeleter)}
    (h : Shared life stack saved calls st)
    (hok : ∀ x ∈ calls.zip (runAll StoreCall.runShared calls st).1, x.1.2.isDelete = false →
      x.2 = .ok ()) :
    NestedFrom stack calls := by
  induction calls generalizing stack saved st with
  | nil => exact trivial
  | cons x calls ih =>
    obtain ⟨p, c⟩ := x
    obtain ⟨s, deleters⟩ := st
    have hlater : ∀ x ∈ calls.zip
        (runAll StoreCall.runShared calls (StoreCall.runShared (p, c) (s, deleters)).2).1,
        x.1.2.isDelete = false → x.2 = .ok () := fun x hx => hok x (List.mem_cons_of_mem _ hx)
    have hturn : c.isEnding = true → stack.head? = some p := by
      intro hending
      have hrest := h.rests p
      rw [callsOf_cons_self] at hrest
      obtain ⟨rfl, -, -⟩ | ⟨row, rfl, -, -⟩ | ⟨rfl, hp, -⟩ | ⟨rfl, -, -⟩ := hrest.cons
      · cases hending
      · cases hending
      · have hp := of_decide_eq_true hp
        by_contra hout
        obtain ⟨q, outer, rfl⟩ := List.exists_cons_of_ne_nil (List.ne_nil_of_mem hp)
        have hne : q ≠ p := fun heq => hout (congrArg some heq)
        have hgone := h.noSavepoint_of_ending hnames hne hp
          (hok ((p, (life p).ending), _) List.mem_cons_self (isEnding_ending (life p)).2)
        have hrests : ∀ p', ∃ isOpen, (life p').Rest (callsOf p' calls) isOpen :=
          exists_rest_of_cons fun p' => ⟨_, h.rests p'⟩
        have hopen : (life q).Rest (callsOf q calls) true := by
          have hrest := h.rest_of_other hne
          rwa [decide_eq_true ((mem_nest_of_ne hne _ _).mpr List.mem_cons_self)] at hrest
        have hd : Function.update deleters p _ q = _ :=
          (Function.update_of_ne hne ((life p).ending.run (s, deleters p)).2.2 deleters).trans
            ((h.deleters q).trans (by rw [if_pos List.mem_cons_self]))
        obtain ⟨x, hx, hdelete, hfail⟩ := exists_failed_of_noSavepoint hnames hrests hopen hd hgone
        exact hfail (hlater x hx hdelete)
      · cases hending
    obtain ⟨saved', st', rfl, hshared, -, -⟩ := h.call hturn
    exact ⟨hturn, ih hshared hlater⟩

end

/-! ### What a nested run leaves -/

theorem RowStore.foldl_without_frame (rows : List Row) (s : RowStore) :
    ∃ left, left.Sublist s.stored ∧ rows.foldl without s = { s with stored := left } := by
  induction rows generalizing s with
  | nil => exact ⟨s.stored, .refl _, rfl⟩
  | cons row rows ih =>
    obtain ⟨left₁, hleft₁, hframe⟩ := s.without_frame row
    obtain ⟨left, hleft, hrest⟩ := ih { s with stored := left₁ }
    rw [List.foldl_cons, hframe]
    exact ⟨left, hleft.trans hleft₁, hrest⟩

/-- Among these calls, with the statements of a stack open, there is a delete that takes off a row
while no open statement is one that is discarded. -/
def TakenForGood (life : P → Lifecycle) (stack : List P) (calls : List (P × StoreCall))
    (st : RowStore × (P → LocalDeleter)) (r : NumberedRow) : Prop :=
  ∃ before p ctx row after, calls = before ++ (p, .delete ctx row) :: after
    ∧ (∀ q ∈ before.foldl nest stack, (life q).isCompleted = true)
    ∧ r ∈ (runAll StoreCall.runShared before st).2.1.stored
    ∧ r ∉ (runAll StoreCall.runShared (before ++ [(p, .delete ctx row)]) st).2.1.stored

theorem takenForGood_cons {life : P → Lifecycle} {stack : List P} {p : P} {c : StoreCall}
    {calls : List (P × StoreCall)} {st : RowStore × (P → LocalDeleter)} {r : NumberedRow} :
    TakenForGood life stack ((p, c) :: calls) st r
      ↔ (c.isDelete = true ∧ (∀ q ∈ stack, (life q).isCompleted = true) ∧ r ∈ st.1.stored
          ∧ r ∉ (StoreCall.runShared (p, c) st).2.1.stored)
        ∨ TakenForGood life (nest stack (p, c)) calls (StoreCall.runShared (p, c) st).2 r := by
  constructor
  · rintro ⟨before, p', ctx, row, after, hcalls, hlast, hr, hgone⟩
    cases before with
    | nil =>
      obtain ⟨hhead, rfl⟩ := List.cons.inj hcalls
      obtain ⟨rfl, rfl⟩ := Prod.mk.inj hhead
      exact .inl ⟨rfl, hlast, hr, hgone⟩
    | cons x before =>
      obtain ⟨rfl, rfl⟩ := List.cons.inj hcalls
      exact .inr ⟨before, p', ctx, row, after, rfl, hlast, hr, hgone⟩
  · rintro (⟨hdelete, hlast, hr, hgone⟩ | ⟨before, p', ctx, row, after, rfl, hlast, hr, hgone⟩)
    · cases c with
      | delete ctx row => exact ⟨[], p, ctx, row, calls, rfl, hlast, hr, hgone⟩
      | _ => cases hdelete
    · exact ⟨(p, c) :: before, p', ctx, row, after, rfl, hlast, hr, hgone⟩

/-- The rows that are missing in the end were taken off while no open statement was one that is
discarded. -/
theorem Shared.missing_iff {life : P → Lifecycle} {stack : List P} {saved : P → List NumberedRow}
    {calls : List (P × StoreCall)} {st : RowStore × (P → LocalDeleter)}
    (h : Shared life stack saved calls st) (hnested : NestedFrom stack calls) {r : NumberedRow}
    (hr : r ∈ (settled life stack saved st.1).stored) :
    r ∉ (runAll StoreCall.runShared calls st).2.1.stored ↔ TakenForGood life stack calls st r := by
  induction calls generalizing stack saved st with
  | nil =>
    have hstore : st.1 = settled life stack saved st.1 := (h.run hnested).2
    refine iff_of_false (fun hgone => hgone (hstore ▸ hr)) ?_
    rintro ⟨_, _, _, _, _, hcalls, -⟩
    exact absurd hcalls.symm (by simp)
  | cons x calls ih =>
    obtain ⟨p, c⟩ := x
    obtain ⟨s, deleters⟩ := st
    obtain ⟨hturn, hnested⟩ := hnested
    obtain ⟨saved', st', hrun, hshared, -, hsettled⟩ := h.call hturn
    rw [takenForGood_cons, hrun, runAll, hrun]
    dsimp only
    by_cases hr' : r ∈ (settled life (nest stack (p, c)) saved' st'.1).stored
    · -- the call did not take the row off for good, so a later one decides
      rw [ih hshared hnested hr', or_iff_right]
      rintro ⟨hdelete, hall, -, hgone⟩
      rw [nest_of_delete hdelete, settled_of_completed hall] at hr'
      exact hgone hr'
    · -- the call did, and no later one brings the row back
      have hlast : c.isDelete = true ∧ ∀ q ∈ stack, (life q).isCompleted = true := by
        by_contra hnot
        rw [lastingOf_eq_nil hnot] at hsettled
        exact hr' (hsettled ▸ hr)
      obtain ⟨hdelete, hall⟩ := hlast
      rw [settled_of_completed hall] at hr
      rw [nest_of_delete hdelete, settled_of_completed hall] at hr'
      refine iff_of_true (fun hin => ?_) (.inl ⟨hdelete, hall, hr, hr'⟩)
      have hstore := (hshared.run hnested).2
      rw [hstore] at hin
      rw [nest_of_delete hdelete, settled_of_completed hall] at hin
      obtain ⟨left, hleft, hframe⟩ := RowStore.foldl_without_frame
        (lastingFrom life stack calls) { st'.1 with savepoints := [] }
      rw [hframe] at hin
      exact hr' (hleft.subset hin)

/-- Before any call nothing is open, and every party has all its calls to come. -/
theorem shared_of_interleaves {life : P → Lifecycle} {calls : List (P × StoreCall)} {s : RowStore}
    (h : Interleaves life calls) (hclosed : s.savepoints = []) :
    Shared life [] (fun _ => []) calls (s, fun _ => {}) := by
  refine ⟨fun p => ?_, fun p => rfl, hclosed, List.nodup_nil⟩
  rw [h p]
  exact .fresh

theorem savepointName_inj {a b : Context}
    (h : LocalDeleter.savepointName a = LocalDeleter.savepointName b) : a = b := by
  obtain ⟨a⟩ := a
  obtain ⟨b⟩ := b
  rw [LocalDeleter.savepointName, LocalDeleter.savepointName, String.append_right_inj] at h
  exact congrArg Context.mk h

/-- Deleters for different statements run through their lifecycles over one row store, their calls
in any order. Every begin, every end and every closing succeeds just when the statements are nested.
If they are, the store is in the end as if only those deletes had been made during which no open
statement was one that is discarded; and the rows that are missing are those that these took off. -/
theorem runAll_shared {life : P → Lifecycle} {calls : List (P × StoreCall)} {s : RowStore}
    (hctx : ∀ p q, (life p).ctx = (life q).ctx → p = q) (hcalls : Interleaves life calls)
    (hclosed : s.savepoints = []) :
    let start : RowStore × (P → LocalDeleter) := (s, fun _ => {})
    let ⟨results, s', _⟩ := runAll StoreCall.runShared calls start
    ((∀ x ∈ calls.zip results, x.1.2.isDelete = false → x.2 = .ok ()) ↔ Nested calls)
      ∧ (Nested calls → s' = (lasting life calls).foldl RowStore.without s ∧ s'.savepoints = []
        ∧ ∀ r ∈ s.stored, r ∉ s'.stored ↔ ∃ before p ctx row after,
          calls = before ++ (p, .delete ctx row) :: after
          ∧ (∀ q ∈ openAfter before, (life q).isCompleted = true)
          ∧ r ∈ (runAll StoreCall.runShared before start).2.1.stored
          ∧ r ∉ (runAll StoreCall.runShared (before ++ [(p, .delete ctx row)]) start).2.1.stored) := by
  intro start
  have hshared := shared_of_interleaves hcalls hclosed
  have hsettled : settled life [] (fun _ => []) s = s := by
    rw [settled_of_completed (by simp), ← hclosed]
  refine ⟨⟨?_, ?_⟩, ?_⟩
  · exact hshared.nested fun p q hname => hctx p q (savepointName_inj hname)
  · exact fun hnested => (hshared.run hnested).1
  · intro hnested
    have hstore := (hshared.run hnested).2
    rw [hsettled] at hstore
    refine ⟨hstore, ?_, fun r hr => ?_⟩
    · obtain ⟨left, -, hframe⟩ := RowStore.foldl_without_frame (lasting life calls) s
      rw [hstore]
      show ((lasting life calls).foldl RowStore.without s).savepoints = []
      rw [hframe]
      exact hclosed
    · exact hshared.missing_iff hnested (hsettled.symm ▸ hr)

/-! ### Two statements over two rows -/

/-- A store of two rows, `x` and `y`. -/
def twoRows : RowStore where
  name := "t"
  columns := RowStore.textColumns 1
  partitionCount := 1
  partitionCount_pos := Nat.one_pos
  stored := [⟨1, [.text "x"]⟩, ⟨2, [.text "y"]⟩]
  savepoints := []

/-- The statements `a` and `b`, each of which deletes some rows. -/
def statements (rows rows' : List Row) (cause? cause?' : Option StoreError) : Bool → Lifecycle
  | false => { ctx := ⟨"a"⟩, rows, cause? }
  | true => { ctx := ⟨"b"⟩, rows := rows', cause? := cause?' }

theorem statements_ctx (rows rows' : List Row) (cause? cause?' : Option StoreError) :
    ∀ p q, (statements rows rows' cause? cause?' p).ctx = (statements rows rows' cause? cause?' q).ctx
      → p = q := by
  intro p q
  cases p <;> cases q <;> simp [statements]

/-- Within the statement `a`, which deletes `x` and is completed, the statement `b` deletes `y` and
is discarded. -/
theorem runAll_shared_nested :
    let life := statements [[.text "x"]] [[.text "y"]] none (some .keyTooWide)
    let calls : List (Bool × StoreCall) := [(false, .begin ⟨"a"⟩), (false, .delete ⟨"a"⟩ [.text "x"]),
      (true, .begin ⟨"b"⟩), (true, .delete ⟨"b"⟩ [.text "y"]), (true, .discard ⟨"b"⟩ .keyTooWide),
      (true, .close ⟨"b"⟩), (false, .complete ⟨"a"⟩), (false, .close ⟨"a"⟩)]
    Interleaves life calls ∧ Nested calls
      ∧ (∀ x ∈ calls.zip (runAll StoreCall.runShared calls (twoRows, fun _ => {})).1,
          x.1.2.isDelete = false → x.2 = .ok ())
      ∧ (runAll StoreCall.runShared calls (twoRows, fun _ => {})).2.1.stored
          = [⟨2, [.text "y"]⟩] := by
  intro life calls
  have hcalls : Interleaves life calls := by
    intro p
    cases p with
    | false => rfl
    | true => rfl
  have hnested : Nested calls := by
    simp [calls, Nested, NestedFrom, nest, StoreCall.isEnding]
  obtain ⟨hends, hrows⟩ := runAll_shared (s := twoRows)
    (statements_ctx [[.text "x"]] [[.text "y"]] none (some .keyTooWide)) hcalls rfl
  refine ⟨hcalls, hnested, hends.mpr hnested, ?_⟩
  exact congrArg RowStore.stored (hrows hnested).1

/-- When `a` is completed before `b`, which began after it, `b` cannot be completed any more; and
when `b` deletes and is completed within `a`, which is then discarded, its row is back. -/
theorem statements_disturbed :
    (let life := statements [] [] none none
      let calls : List (Bool × StoreCall) := [(false, .begin ⟨"a"⟩), (true, .begin ⟨"b"⟩),
        (false, .complete ⟨"a"⟩), (false, .close ⟨"a"⟩), (true, .complete ⟨"b"⟩),
        (true, .close ⟨"b"⟩)]
      Interleaves life calls
        ∧ (runAll StoreCall.runShared calls (twoRows, fun _ => {})).1
          = [.ok (), .ok (), .ok (), .ok (), .error (.noSuchSavepoint "stmt_b"), .ok ()])
      ∧ (let life := statements [] [[.text "x"]] (some .keyTooWide) none
        let calls : List (Bool × StoreCall) := [(false, .begin ⟨"a"⟩), (true, .begin ⟨"b"⟩),
          (true, .delete ⟨"b"⟩ [.text "x"]), (true, .complete ⟨"b"⟩), (true, .close ⟨"b"⟩),
          (false, .discard ⟨"a"⟩ .keyTooWide), (false, .close ⟨"a"⟩)]
        Interleaves life calls
          ∧ (runAll StoreCall.runShared calls (twoRows, fun _ => {})).1
            = [.ok (), .ok (), .ok (), .ok (), .ok (), .ok (), .ok ()]
          ∧ (runAll StoreCall.runShared calls (twoRows, fun _ => {})).2.1.stored
            = [⟨1, [.text "x"]⟩, ⟨2, [.text "y"]⟩]) := by
  refine ⟨⟨fun p => ?_, rfl⟩, ⟨fun p => ?_, rfl, rfl⟩⟩
  · cases p with
    | false => rfl
    | true => rfl
  · cases p with
    | false => rfl
    | true => rfl

end ShopTables

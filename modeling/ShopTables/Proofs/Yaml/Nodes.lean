import Mathlib.Data.Option.Basic
import ShopTables.Yaml.Node

/-!
# The tokens of a mapping are read as its entries

An `Entry` is a name, the tokens of its value, and the node they are read as. A mapping is read
entry by entry (`readEntries_entries`) and is a node itself, so mappings may stand in mappings
(`readsAs_mapping`); what is read never depends on what follows. A mapping alone is a document
(`document?_mapping`).
-/

namespace ShopTables.Yaml

/-! ### Steps -/

/-- The state before other tokens. -/
def NodeState.before (ts : List Token) (s : NodeState) : NodeState := { s with tokens := ts }

namespace NodeStep

variable {s : NodeState} {t u : Token} {ts us : List Token} {read : NodeStep Node}

theorem run_accept : (accept t).run (s.before (t :: ts)) = some (true, s.before ts) := by
  simp [accept, isAt, peek, skip, NodeState.before]

theorem run_accept_of_ne (hne : u ≠ t) :
    (accept t).run (s.before (u :: ts)) = some (false, s.before (u :: ts)) := by
  simp [accept, isAt, peek, NodeState.before, hne]

theorem run_expect : (expect t).run (s.before (t :: ts)) = some ((), s.before ts) := by
  simp [expect, isAt, peek, skip, guard, NodeState.before]

/-- Where a node begins, none is missing. -/
theorem run_unlessAt (hu : u ∉ ts) :
    (unlessAt ts read).run (s.before (u :: us)) = read.run (s.before (u :: us)) := by
  simp [unlessAt, isAt, peek, NodeState.before, hu]

theorem run_valueUnlessAt (hu : u ∉ ts) :
    (valueUnlessAt ts read).run (s.before (.value :: u :: us)) = read.run (s.before (u :: us)) := by
  simp only [valueUnlessAt, StateT.run_bind, run_accept, Option.bind_eq_bind, Option.bind_some,
    if_true, run_unlessAt hu]

end NodeStep

/-! ### Nodes -/

/-- The tokens that can come instead of a node in a mapping. -/
def entryStops : List Token := [.key, .value, .blockEnd]

/-- Are the tokens read as the node, whatever follows? A node takes no more steps than it has
tokens. -/
structure ReadsAs (ts : List Token) (node : Node) : Prop where
  head : ∃ t us, ts = t :: us ∧ t ∉ entryStops
  run : ∀ (fuel : Nat) (s : NodeState) (rest : List Token) (hanging : Bool), ts.length ≤ fuel →
    (readNode fuel true hanging).run (s.before (ts ++ rest)) = some (node, s.before rest)

theorem readsAs_scalar (style : ScalarStyle) (text : List Char) :
    ReadsAs [.scalar style text] (.scalar style none text) where
  head := ⟨_, [], rfl, by simp [entryStops]⟩
  run fuel s rest hanging hfuel := by
    obtain ⟨fuel, rfl⟩ := Nat.exists_eq_succ_of_ne_zero (Nat.ne_zero_of_lt hfuel)
    simp [readNode, NodeStep.peek, NodeStep.properties, NodeStep.anchor, NodeStep.tag,
      NodeStep.naming, NodeStep.skip, NodeState.before]

/-- A name, the tokens of its value, and the value. -/
structure Entry where
  name : List Char
  value : List Token
  node : Node
  readsAs : ReadsAs value node

namespace Entry

def pair (e : Entry) : Node × Node := (.scalar .plain none e.name, e.node)

def tokens (e : Entry) : List Token := .key :: .scalar .plain e.name :: .value :: e.value

end Entry

variable {fuel : Nat}

/-- An entry is read before the others. -/
theorem readEntries_cons {e : Entry} {entries : List (Node × Node)} {s s' : NodeState}
    {ts : List Token} (hfuel : e.tokens.length ≤ fuel)
    (hmore : (readEntries fuel).run (s.before ts) = some (entries, s')) :
    (readEntries (fuel + 1)).run (s.before (e.tokens ++ ts)) = some (e.pair :: entries, s') := by
  obtain ⟨name, value, node, hvalue⟩ := e
  obtain ⟨t, us, rfl, ht⟩ := hvalue.head
  simp only [Entry.tokens, List.length_cons] at hfuel
  have hkey := (readsAs_scalar .plain name).run fuel s (.value :: t :: us ++ ts) true
    (by simp only [List.length_singleton]; omega)
  have hnode := hvalue.run fuel s ts true (by simp only [List.length_cons]; omega)
  simp only [List.cons_append, List.nil_append] at hkey hnode
  have hname : Token.scalar .plain name ∉ [Token.key, .value, .blockEnd] := by simp
  have hstart : t ∉ [Token.key, .value, .blockEnd] := ht
  simp [readEntries, Entry.tokens, Entry.pair, NodeStep.run_accept, NodeStep.run_unlessAt hname,
    hkey, NodeStep.run_valueUnlessAt hstart, hnode, hmore]

variable (fuel) in
theorem readEntries_entries (es : List Entry) (s : NodeState) (rest : List Token)
    (hfuel : (es.flatMap Entry.tokens).length < fuel) :
    (readEntries fuel).run (s.before (es.flatMap Entry.tokens ++ .blockEnd :: rest))
      = some (es.map Entry.pair, s.before rest) := by
  obtain ⟨fuel, rfl⟩ := Nat.exists_eq_succ_of_ne_zero (Nat.ne_zero_of_lt hfuel)
  induction es generalizing fuel with
  | nil =>
    simp [readEntries, NodeStep.run_accept_of_ne, NodeStep.run_expect]
  | cons e es ih =>
    rw [List.flatMap_cons, List.length_append] at hfuel
    have htokens : e.tokens.length ≠ 0 := by simp [Entry.tokens]
    obtain ⟨fuel, rfl⟩ := Nat.exists_eq_succ_of_ne_zero (n := fuel) (by omega)
    rw [List.flatMap_cons, List.append_assoc]
    exact readEntries_cons (by omega) (ih fuel (by omega))

def mappingTokens (es : List Entry) : List Token :=
  .blockMapping :: (es.flatMap Entry.tokens ++ [.blockEnd])

/-- A mapping is a node. -/
theorem readsAs_mapping (es : List Entry) :
    ReadsAs (mappingTokens es) (.mapping (es.map Entry.pair)) where
  head := ⟨_, _, rfl, by simp [entryStops]⟩
  run fuel s rest hanging hfuel := by
    obtain ⟨fuel, rfl⟩ := Nat.exists_eq_succ_of_ne_zero (Nat.ne_zero_of_lt hfuel)
    have hentries := readEntries_entries fuel es s rest (by
      simp only [mappingTokens, List.length_cons, List.length_append] at hfuel
      omega)
    simp [mappingTokens, readNode, NodeStep.peek, NodeStep.properties, NodeStep.anchor,
      NodeStep.tag, NodeStep.naming, NodeStep.skip, guard, NodeState.before] at hentries ⊢
    simp [hentries]

/-- A mapping alone is a document, and nothing in it bears a name. -/
theorem document?_mapping (es : List Entry) :
    document? (mappingTokens es) = some { root := .mapping (es.map Entry.pair), named := [] } := by
  have hread := (readsAs_mapping es).run (4 * (mappingTokens es).length + 4)
    { tokens := [], handles := defaultHandles } [] false (by omega)
  rw [List.append_nil] at hread
  have hroot : (readRoot (4 * (mappingTokens es).length + 4) false).run
      { tokens := mappingTokens es, handles := defaultHandles }
      = some (.mapping (es.map Entry.pair), { tokens := [], handles := defaultHandles }) := hread
  have hdirectives : readDirectives? false [] (mappingTokens es)
      = some ([], mappingTokens es) := rfl
  have hmarked : ((mappingTokens es).head? == some .documentStart) = false := rfl
  rw [document?, hdirectives]
  simp only [Option.bind_eq_bind, Option.bind_some, hmarked, Bool.false_eq_true, if_false,
    List.nil_append, hroot, decide_true, Bool.false_or, List.all_nil, guard, if_true]
  rfl

end ShopTables.Yaml

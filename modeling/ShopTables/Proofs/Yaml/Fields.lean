import ShopTables.Proofs.Yaml.Nodes
import ShopTables.Proofs.Yaml.Values

/-!
# Written fields are read as their entries

A `Field` is an entry together with what is written for its value. The fields of a block are read
one by one (`Blocks.run?_fields`), and the block that ends with them is itself a value, so forms may
stand in forms (`isValue_fields`). Fields that are not indented are a whole text
(`document?_printFields`).
-/

namespace ShopTables.Yaml

theorem isAllowed_of_isNameChar {c : Char} (h : isNameChar c = true) : isAllowed c = true := by
  simp only [isNameChar, Bool.or_eq_true, Bool.and_eq_true, decide_eq_true_eq, beq_iff_eq] at h
  obtain hletter | rfl := h
  · simp only [isAllowed, Bool.or_eq_true, Bool.and_eq_true, beq_iff_eq, decide_eq_true_eq]
    omega
  · rfl

/-- An entry, and what is written for its value in a block of the indentation `indent`. -/
structure Field (indent : Nat) extends Entry where
  written : List Char
  isName : isName name = true
  short : name.length ≤ 1024
  isValue : IsValue indent written value

variable {k : Nat}

namespace Field

def print (f : Field k) : List Char := List.replicate k ' ' ++ f.name ++ ':' :: f.written

theorem print_append (f : Field k) (lines : List Char) : f.print ++ lines
    = List.replicate k ' ' ++ (f.name ++ ':' :: (f.written ++ lines)) := by
  simp only [Field.print, List.append_assoc, List.cons_append]

/-- What begins with a field is indented as its block. -/
theorem margin_print (f : Field k) (lines : List Char) : margin (f.print ++ lines) = k := by
  rw [print_append, margin_replicate (head?_ne_blank f.isName)]

theorem beginsWithName_print (f : Field k) (lines : List Char) :
    BeginsWithName (f.print ++ lines) := by
  rw [BeginsWithName, print_append, pastMargin_replicate (head?_ne_blank f.isName)]
  exact isNameChar_head f.isName

theorem isAllowed_print (f : Field k) : ∀ c ∈ f.print, isAllowed c = true := by
  have hblanks : ∀ c ∈ List.replicate k ' ', isAllowed c = true := fun c hc => by
    rw [List.eq_of_mem_replicate hc]
    rfl
  have hname : ∀ c ∈ f.name, isAllowed c = true := fun c hc =>
    isAllowed_of_isNameChar ((isName_iff.mp f.isName).2 c hc)
  rw [Field.print, List.forall_mem_append, List.forall_mem_append, List.forall_mem_cons]
  exact ⟨⟨hblanks, hname⟩, rfl, f.isValue.allowed⟩

end Field

/-! ### Lines -/

def printFields (fs : List (Field k)) : List Char := fs.flatMap Field.print

def entries (fs : List (Field k)) : List Entry := fs.map Field.toEntry

section

variable (fs : List (Field k)) {lines : List Char}

theorem margin_printFields (h : margin lines ≤ k) : margin (printFields fs ++ lines) ≤ k := by
  cases fs with
  | nil => exact h
  | cons f fs =>
    rw [printFields, List.flatMap_cons, List.append_assoc, Field.margin_print]

theorem beginsWithName_printFields (h : BeginsWithName lines) :
    BeginsWithName (printFields fs ++ lines) := by
  cases fs with
  | nil => exact h
  | cons f fs =>
    rw [printFields, List.flatMap_cons, List.append_assoc]
    exact f.beginsWithName_print _

end

theorem isAllowed_printFields (fs : List (Field k)) : ∀ c ∈ printFields fs, isAllowed c = true := by
  intro c hc
  obtain ⟨f, -, hc⟩ := List.mem_flatMap.mp hc
  exact f.isAllowed_print c hc

/-! ### Blocks -/

namespace Blocks

variable {b : Blocks} {p : Place} {allowed : Bool} {lines : List Char}

theorem add_add (ts us : List Token) : (b.add ts).add us = b.add (ts ++ us) := by
  simp only [add, List.reverse_append, List.append_assoc]

theorem openAt_of_eq (h : b.indent = k) : b.openAt k = b := by
  rw [openAt, if_neg (by omega)]

theorem indent_openAt (h : b.indent ≤ k) : (b.openAt k).indent = k := by
  unfold openAt
  split_ifs with hlt
  · rfl
  · omega

/-- A field is read, and its block is opened if need be. -/
theorem run?_field (f : Field k) (hindent : b.indent ≤ k) (hname : BeginsWithName lines)
    (hmargin : margin lines ≤ k) (h : p.Precedes allowed (f.print ++ lines)) :
    ∃ (q : Place) (keyAllowed : Bool), q.Precedes keyAllowed lines ∧ (b.lexer p allowed).run?
      = (((b.openAt k).add f.tokens).lexer q keyAllowed).run? := by
  obtain ⟨hwritten, hstarts⟩ := f.isValue.starts
  rw [Field.print_append] at h
  have hends : endsWord (f.written ++ lines) = true := by
    obtain ⟨c, cs, hcs⟩ := List.exists_cons_of_ne_nil hwritten
    rw [hcs] at hstarts ⊢
    exact hstarts
  obtain ⟨q, hq, hcolumn, hkey⟩ := run?_key (b := b) h f.isName f.short hends hindent
  obtain ⟨r, keyAllowed, hprecedes, hvalue⟩ := f.isValue.run
    (b := (b.openAt k).add [.key, .scalar .plain f.name, .value]) (indent_openAt hindent) hcolumn
    hname hmargin hq
  refine ⟨r, keyAllowed, hprecedes, ?_⟩
  rw [hkey, hvalue, add_add]
  rfl

/-- The fields of an open block are read. -/
theorem run?_fields (fs : List (Field k)) (hindent : b.indent = k) (hname : BeginsWithName lines)
    (hmargin : margin lines ≤ k) (h : p.Precedes allowed (printFields fs ++ lines)) :
    ∃ (q : Place) (keyAllowed : Bool), q.Precedes keyAllowed lines ∧ (b.lexer p allowed).run?
      = ((b.add ((entries fs).flatMap Entry.tokens)).lexer q keyAllowed).run? := by
  induction fs generalizing b p allowed with
  | nil => exact ⟨p, allowed, h, rfl⟩
  | cons f fs ih =>
    rw [printFields, List.flatMap_cons, List.append_assoc] at h
    obtain ⟨q, keyAllowed, hq, hfield⟩ := run?_field f (Int.le_of_eq hindent)
      (beginsWithName_printFields fs hname) (margin_printFields fs hmargin) h
    rw [openAt_of_eq hindent] at hfield
    obtain ⟨r, keyAllowed', hr, hfields⟩ := ih (b := b.add f.tokens) hindent hq
    refine ⟨r, keyAllowed', hr, ?_⟩
    rw [hfield, hfields, add_add]
    rfl

/-- The fields of a block are read, and the block is open after them. -/
theorem run?_block (f : Field k) (fs : List (Field k)) (hindent : b.indent < k)
    (hname : BeginsWithName lines) (hmargin : margin lines ≤ k)
    (h : p.Precedes allowed (printFields (f :: fs) ++ lines)) :
    ∃ (q : Place) (keyAllowed : Bool), q.Precedes keyAllowed lines ∧ (b.lexer p allowed).run?
      = ((Blocks.mk k (b.indent :: b.outers)
          (((entries (f :: fs)).flatMap Entry.tokens).reverse ++ .blockMapping :: b.found)).lexer q
          keyAllowed).run? := by
  rw [printFields, List.flatMap_cons, List.append_assoc] at h
  obtain ⟨q, keyAllowed, hq, hfield⟩ := run?_field f (Int.le_of_lt hindent)
    (beginsWithName_printFields fs hname) (margin_printFields fs hmargin) h
  obtain ⟨r, keyAllowed', hr, hfields⟩ := run?_fields (b := (b.openAt k).add f.tokens) fs
    (indent_openAt (Int.le_of_lt hindent)) hname hmargin hq
  refine ⟨r, keyAllowed', hr, ?_⟩
  rw [hfield, hfields, add_add, openAt, if_pos hindent]
  rfl

end Blocks

/-! ### Forms -/

/-- Fields on the lines after a key are a value of it. -/
theorem isValue_fields {k' : Nat} (hk : k < k') (f : Field k') (fs : List (Field k')) :
    IsValue k ('\n' :: printFields (f :: fs)) (mappingTokens (entries (f :: fs))) where
  starts := ⟨List.cons_ne_nil _ _, rfl⟩
  allowed := List.forall_mem_cons.mpr ⟨rfl, isAllowed_printFields (f :: fs)⟩
  run {b p lines} hindent hcolumn hname hmargin h := by
    have hlines : p.Precedes false (printFields (f :: fs) ++ lines) :=
      Place.precedes_of_feed (beginsWithName_printFields (f :: fs) hname) h
    obtain ⟨q, keyAllowed, hq, hblock⟩ := Blocks.run?_block (b := b) f fs (by omega) hname
      (by omega) hlines
    refine ⟨q, keyAllowed, hq, ?_⟩
    rw [hblock, Blocks.run?_leave hq (by omega)]
    simp [Blocks.add, mappingTokens]

/-- Fields that are not indented are a whole text. -/
theorem tokens?_printFields (f : Field 0) (fs : List (Field 0)) :
    tokens? (printFields (f :: fs)) = some (mappingTokens (entries (f :: fs))) := by
  have hallowed : (printFields (f :: fs)).all isAllowed = true :=
    List.all_eq_true.mpr (isAllowed_printFields (f :: fs))
  have hstart : (Place.start (printFields (f :: fs))).Precedes true
      (printFields (f :: fs) ++ []) := by
    have hmargin : margin (printFields (f :: fs) ++ []) = 0 :=
      Nat.le_zero.mp (margin_printFields (f :: fs) (Nat.le_refl 0))
    have htext := replicate_margin (printFields (f :: fs) ++ [])
    rw [hmargin] at htext
    refine Place.precedes_of_column (beginsWithName_printFields (f :: fs) nofun) hmargin.symm ?_
    exact (htext.trans (List.append_nil _)).symm
  have hnone : BeginsWithName [] := nofun
  obtain ⟨q, keyAllowed, ⟨r, hr, hcolumn, hrest, -⟩, hblock⟩ := Blocks.run?_block
    (b := ⟨-1, [], []⟩) f fs (by decide) hnone (Nat.le_refl 0) hstart
  have hadvance := Blocks.advance?_lexer (b := ⟨0, [-1], ((entries (f :: fs)).flatMap
    Entry.tokens).reverse ++ [.blockMapping]⟩) (k := none) hr rfl
  rw [Blocks.closeTo_of_le (by simp)] at hadvance
  rw [tokens?, if_pos hallowed]
  refine hblock.trans ((Lexer.run?_end hadvance hrest).trans ?_)
  show some (List.reverse (.blockEnd :: (((entries (f :: fs)).flatMap Entry.tokens).reverse
    ++ [.blockMapping]))) = _
  simp [mappingTokens]

theorem document?_printFields (f : Field 0) (fs : List (Field 0)) :
    (tokens? (printFields (f :: fs))).bind document?
      = some { root := .mapping ((entries (f :: fs)).map Entry.pair), named := [] } := by
  rw [tokens?_printFields, Option.bind_some, document?_mapping]

end ShopTables.Yaml

import Mathlib.Data.List.Basic
import ShopTables.Sql.CreateTable

/-!
# Table statements are read back

```
    CREATE TABLE "or""der" ("a"", ""b" TEXT NOT NULL, "c)" REAL)
                 --readIdentifier?-->  or"der         --readColumns?-->  a", "b  and  c)
```

An identifier runs from its opening quote to the first quote that no other follows at once, and two
quotes stand for one. A reader that knows this rule, the words of the statement and nothing of how
it was written finds the table and its columns again, whatever characters the names have, and
nothing is left over. Each reader accepts just what its writer writes (`readName?_eq_some_iff`, …),
so a text that is read as a table was written for no other (`createTable_read_back`).
-/

namespace ShopTables

/-- What a table statement says of a column. -/
structure ShownColumn where
  name : String
  storage : StorageType
  /-- Must the cells not be empty? -/
  required : Bool
  deriving DecidableEq

/-- A column as it stands in a table statement. -/
def ShownColumn.clause (c : ShownColumn) : List Char :=
  Sql.quoteChars c.name.toList ++ ' ' :: (c.storage.sqlName.toList
    ++ if c.required then " NOT NULL".toList else [])

/-- What the table statement says of a column. -/
def ShownColumn.ofColumn (c : Column) : ShownColumn := ⟨c.name, c.storageType, !c.nullable⟩

namespace Sql

/-! ### Reading table statements -/

/-- A name after its opening quote, and what follows its closing quote, which is the first that no
other quote follows. -/
def readName? : List Char → Option (List Char × List Char)
  | [] => none
  | '"' :: '"' :: rest => (readName? rest).map fun p => ('"' :: p.1, p.2)
  | c :: rest =>
    if c = '"' then some ([], rest) else (readName? rest).map fun p => (c :: p.1, p.2)

def readIdentifier? : List Char → Option (String × List Char)
  | '"' :: rest => (readName? rest).map fun p => (String.ofList p.1, p.2)
  | _ => none

def readStorage? (input : List Char) : Option (StorageType × List Char) :=
  [.text, .blob, .integer, .real].findSome? fun (t : StorageType) =>
    (t.sqlName.toList.isPrefixOf? input).map fun rest => (t, rest)

/-- A name, a type and perhaps `NOT NULL`. -/
def readColumn? (input : List Char) : Option (ShownColumn × List Char) := do
  let (name, input) ← readIdentifier? input
  let input ← [' '].isPrefixOf? input
  let (storage, input) ← readStorage? input
  match " NOT NULL".toList.isPrefixOf? input with
  | some rest => return (⟨name, storage, true⟩, rest)
  | none => return (⟨name, storage, false⟩, input)

/-! ### Identifiers -/

theorem readName?_eq_some_iff {input name rest : List Char} : readName? input = some (name, rest)
    ↔ input = escapeQuotes name ++ '"' :: rest ∧ rest.head? ≠ some '"' := by
  constructor
  · intro h
    fun_induction readName? input generalizing name with
    | case1 => cases h
    | case2 input ih =>
      obtain ⟨⟨cs, r⟩, hread, hname⟩ := Option.map_eq_some_iff.mp h
      obtain ⟨rfl, rfl⟩ := Prod.mk.inj hname
      obtain ⟨rfl, hrest⟩ := ih hread
      exact ⟨rfl, hrest⟩
    | case3 input hquote =>
      obtain ⟨rfl, rfl⟩ := Prod.mk.inj (Option.some.inj h)
      refine ⟨rfl, fun hhead => ?_⟩
      obtain ⟨more, rfl⟩ := List.head?_eq_some_iff.mp hhead
      exact hquote more rfl rfl
    | case4 c input _ hc ih =>
      obtain ⟨⟨cs, r⟩, hread, hname⟩ := Option.map_eq_some_iff.mp h
      obtain ⟨rfl, rfl⟩ := Prod.mk.inj hname
      obtain ⟨rfl, hrest⟩ := ih hread
      exact ⟨by rw [escapeQuotes, if_neg hc]; rfl, hrest⟩
  · rintro ⟨rfl, hrest⟩
    induction name with
    | nil =>
      rw [escapeQuotes_nil, List.nil_append, readName?, if_pos rfl]
      rintro more _ rfl
      exact hrest rfl
    | cons c name ih =>
      rw [escapeQuotes]
      split_ifs with hc
      · rw [List.cons_append, List.cons_append, readName?, ih, hc]
        rfl
      · rw [List.cons_append, readName?, if_neg hc, ih]
        · rfl
        · exact fun more hquote _ => hc hquote

theorem readIdentifier?_eq_some_iff {input rest : List Char} {name : String} :
    readIdentifier? input = some (name, rest)
      ↔ input = quoteChars name.toList ++ rest ∧ rest.head? ≠ some '"' := by
  constructor
  · intro h
    rw [readIdentifier?.eq_def] at h
    split at h
    · obtain ⟨⟨cs, r⟩, hread, hname⟩ := Option.map_eq_some_iff.mp h
      obtain ⟨rfl, rfl⟩ := Prod.mk.inj hname
      obtain ⟨rfl, hrest⟩ := readName?_eq_some_iff.mp hread
      refine ⟨?_, hrest⟩
      rw [quoteChars, String.toList_ofList, List.cons_append, List.append_assoc]
      rfl
    · cases h
  · rintro ⟨rfl, hrest⟩
    rw [quoteChars, List.cons_append, List.append_assoc, List.singleton_append, readIdentifier?,
      readName?_eq_some_iff.mpr ⟨rfl, hrest⟩, Option.map_some, String.ofList_toList]

/-- A quoted identifier is read up to the blank after it. -/
theorem readIdentifier?_quoteChars (name : String) (rest : List Char) :
    readIdentifier? (quoteChars name.toList ++ ' ' :: rest) = some (name, ' ' :: rest) :=
  readIdentifier?_eq_some_iff.mpr ⟨rfl, fun h => absurd (Option.some.inj h) (by decide)⟩

/-! ### Columns -/

theorem readStorage?_eq_some_iff {input rest : List Char} {storage : StorageType} :
    readStorage? input = some (storage, rest) ↔ input = storage.sqlName.toList ++ rest := by
  constructor
  · intro h
    obtain ⟨t, -, ht⟩ := List.exists_of_findSome?_eq_some h
    obtain ⟨r, hprefix, hr⟩ := Option.map_eq_some_iff.mp ht
    obtain ⟨rfl, rfl⟩ := Prod.mk.inj hr
    exact (List.isPrefixOf?_eq_some_iff_append_eq.mp hprefix).symm
  · rintro rfl
    cases storage <;> simp [readStorage?, StorageType.sqlName, List.isPrefixOf?]

theorem columnClause_eq (c : Column) : columnClause c = (ShownColumn.ofColumn c).clause := by
  rw [columnClause, ShownColumn.clause, ShownColumn.ofColumn]
  cases c.nullable <;> rfl

theorem readColumn?_eq_some_iff {input rest : List Char} {c : ShownColumn} :
    readColumn? input = some (c, rest) ↔ input = c.clause ++ rest
      ∧ (c.required = false → " NOT NULL".toList.isPrefixOf? rest = none) := by
  constructor
  · intro h
    rw [readColumn?] at h
    simp only [Option.bind_eq_bind, Option.bind_eq_some_iff] at h
    obtain ⟨⟨name, r₁⟩, hname, r₂, hblank, ⟨storage, r₃⟩, hstorage, h⟩ := h
    dsimp only at hblank h
    obtain ⟨rfl, -⟩ := readIdentifier?_eq_some_iff.mp hname
    obtain rfl := List.isPrefixOf?_eq_some_iff_append_eq.mp hblank
    obtain rfl := readStorage?_eq_some_iff.mp hstorage
    split at h
    · rename_i r hrequired
      obtain ⟨rfl, rfl⟩ := Prod.mk.inj (Option.some.inj h)
      rw [← List.isPrefixOf?_eq_some_iff_append_eq.mp hrequired]
      refine ⟨?_, nofun⟩
      rw [ShownColumn.clause, if_pos rfl]
      simp only [List.append_assoc, List.cons_append, List.nil_append]
    · rename_i hnullable
      obtain ⟨rfl, rfl⟩ := Prod.mk.inj (Option.some.inj h)
      refine ⟨?_, fun _ => hnullable⟩
      rw [ShownColumn.clause, if_neg Bool.false_ne_true, List.append_nil]
      simp only [List.append_assoc, List.cons_append, List.nil_append]
  · rintro ⟨rfl, hnullable⟩
    obtain ⟨name, storage, required⟩ := c
    have hblank (r : List Char) : [' '].isPrefixOf? (' ' :: r) = some r := rfl
    rw [readColumn?, ShownColumn.clause]
    dsimp only
    rw [List.append_assoc, List.cons_append, List.append_assoc, readIdentifier?_quoteChars,
      Option.bind_eq_bind, Option.bind_some, hblank, Option.bind_eq_bind, Option.bind_some,
      readStorage?_eq_some_iff.mpr rfl, Option.bind_eq_bind, Option.bind_some]
    dsimp only
    cases required with
    | true => rw [if_pos rfl, List.isPrefixOf?_eq_some_iff_append_eq.mpr rfl]; rfl
    | false => rw [if_neg Bool.false_ne_true, List.nil_append, hnullable rfl]; rfl

/-- What follows a column and its comma is shorter than the whole. -/
theorem length_lt_of_more {input rest more : List Char} {c : ShownColumn}
    (h : readColumn? input = some (c, rest)) (hmore : [',', ' '].isPrefixOf? rest = some more) :
    more.length < input.length := by
  rw [(readColumn?_eq_some_iff.mp h).1, ← List.isPrefixOf?_eq_some_iff_append_eq.mp hmore]
  simp only [List.length_append, List.length_cons]
  omega

/-- Columns up to the closing bracket, at least one. -/
def readColumns? (input : List Char) : Option (List ShownColumn × List Char) :=
  match h : readColumn? input with
  | none => none
  | some (c, rest) =>
    match hmore : [',', ' '].isPrefixOf? rest with
    | some more =>
      have := length_lt_of_more h hmore
      (readColumns? more).map fun p => (c :: p.1, p.2)
    | none => ([')'].isPrefixOf? rest).map fun r => ([c], r)
termination_by input.length

theorem readColumns?_of_more {input rest more : List Char} {c : ShownColumn}
    (h : readColumn? input = some (c, rest)) (hmore : [',', ' '].isPrefixOf? rest = some more) :
    readColumns? input = (readColumns? more).map fun p => (c :: p.1, p.2) := by
  rw [readColumns?]
  split
  · rename_i hnone
    cases hnone.symm.trans h
  · rename_i hsome
    obtain ⟨rfl, rfl⟩ := Prod.mk.inj (Option.some.inj (hsome.symm.trans h))
    split
    · rename_i hmore'
      obtain rfl := Option.some.inj (hmore'.symm.trans hmore)
      rfl
    · rename_i hnone
      cases hnone.symm.trans hmore

theorem readColumns?_of_last {input rest : List Char} {c : ShownColumn}
    (h : readColumn? input = some (c, rest)) (hlast : [',', ' '].isPrefixOf? rest = none) :
    readColumns? input = ([')'].isPrefixOf? rest).map fun r => ([c], r) := by
  rw [readColumns?]
  split
  · rename_i hnone
    cases hnone.symm.trans h
  · rename_i hsome
    obtain ⟨rfl, rfl⟩ := Prod.mk.inj (Option.some.inj (hsome.symm.trans h))
    split
    · rename_i hmore
      cases hmore.symm.trans hlast
    · rfl

/-- A whole text as the statement that creates a table. -/
def readTable? (text : String) : Option (String × List ShownColumn) := do
  let input ← "CREATE TABLE ".toList.isPrefixOf? text.toList
  let (table, input) ← readIdentifier? input
  let input ← [' ', '('].isPrefixOf? input
  let (columns, rest) ← readColumns? input
  if rest.isEmpty then some (table, columns) else none

theorem joinWith_cons {separator x : List Char} {xs : List (List Char)} (h : xs ≠ []) :
    joinWith separator (x :: xs) = x ++ separator ++ joinWith separator xs := by
  obtain ⟨y, ys, rfl⟩ := List.exists_cons_of_ne_nil h
  rfl

theorem readColumns?_eq_some_iff {input rest : List Char} {columns : List ShownColumn} :
    readColumns? input = some (columns, rest) ↔ columns ≠ []
      ∧ input = joinWith [',', ' '] (columns.map ShownColumn.clause) ++ ')' :: rest := by
  constructor
  · intro h
    fun_induction readColumns? input generalizing columns with
    | case1 => cases h
    | case2 input c r hcolumn more hmore _ ih =>
      obtain ⟨⟨cs, r'⟩, hread, hcolumns⟩ := Option.map_eq_some_iff.mp h
      obtain ⟨rfl, rfl⟩ := Prod.mk.inj hcolumns
      obtain ⟨hsome, rfl⟩ := ih hread
      refine ⟨List.cons_ne_nil _ _, ?_⟩
      rw [(readColumn?_eq_some_iff.mp hcolumn).1,
        ← List.isPrefixOf?_eq_some_iff_append_eq.mp hmore, List.map_cons,
        joinWith_cons (mt List.map_eq_nil_iff.mp hsome)]
      simp only [List.append_assoc]
    | case3 input c r hcolumn _ =>
      obtain ⟨r', hend, hcolumns⟩ := Option.map_eq_some_iff.mp h
      obtain ⟨rfl, rfl⟩ := Prod.mk.inj hcolumns
      refine ⟨List.cons_ne_nil _ _, ?_⟩
      rw [(readColumn?_eq_some_iff.mp hcolumn).1,
        ← List.isPrefixOf?_eq_some_iff_append_eq.mp hend]
      rfl
  · rintro ⟨hsome, rfl⟩
    induction columns with
    | nil => exact absurd rfl hsome
    | cons c cs ih =>
      cases cs with
      | nil =>
        have hcolumn : readColumn? (c.clause ++ ')' :: rest) = some (c, ')' :: rest) :=
          readColumn?_eq_some_iff.mpr ⟨rfl, fun _ => rfl⟩
        exact (readColumns?_of_last hcolumn rfl).trans rfl
      | cons d ds =>
        have hcolumn : readColumn? (c.clause ++ ([',', ' '] ++
            (joinWith [',', ' '] ((d :: ds).map ShownColumn.clause) ++ ')' :: rest)))
              = some (c, [',', ' '] ++
                (joinWith [',', ' '] ((d :: ds).map ShownColumn.clause) ++ ')' :: rest)) :=
          readColumn?_eq_some_iff.mpr ⟨rfl, fun _ => rfl⟩
        have hmore : (d :: ds).map ShownColumn.clause ≠ [] := List.cons_ne_nil _ _
        rw [List.map_cons, joinWith_cons hmore, List.append_assoc,
          List.append_assoc, readColumns?_of_more hcolumn
            (List.isPrefixOf?_eq_some_iff_append_eq.mpr rfl), ih (List.cons_ne_nil _ _)]
        rfl

/-- A text is read as a table exactly if it was written for it. -/
theorem readTable?_eq_some_iff {text table : String} {columns : List ShownColumn} :
    readTable? text = some (table, columns) ↔ columns ≠ []
      ∧ text.toList = "CREATE TABLE ".toList ++ quoteChars table.toList ++ ' ' :: '(' ::
          (joinWith [',', ' '] (columns.map ShownColumn.clause) ++ [')']) := by
  constructor
  · intro h
    rw [readTable?] at h
    simp only [Option.bind_eq_bind, Option.bind_eq_some_iff] at h
    obtain ⟨r₁, hstart, ⟨name, r₂⟩, hname, r₃, hopen, ⟨cs, rest⟩, hcolumns, h⟩ := h
    dsimp only at hopen h
    split_ifs at h with hrest
    obtain ⟨rfl, rfl⟩ := Prod.mk.inj (Option.some.inj h)
    obtain rfl := List.isEmpty_iff.mp hrest
    obtain ⟨hsome, rfl⟩ := readColumns?_eq_some_iff.mp hcolumns
    obtain ⟨rfl, -⟩ := readIdentifier?_eq_some_iff.mp hname
    refine ⟨hsome, ?_⟩
    rw [← List.isPrefixOf?_eq_some_iff_append_eq.mp hstart,
      ← List.isPrefixOf?_eq_some_iff_append_eq.mp hopen]
    simp only [List.append_assoc, List.cons_append, List.nil_append]
  · rintro ⟨hsome, htext⟩
    have hopen (r : List Char) : [' ', '('].isPrefixOf? (' ' :: '(' :: r) = some r := rfl
    rw [readTable?, htext, List.append_assoc, List.isPrefixOf?_eq_some_iff_append_eq.mpr rfl,
      Option.bind_eq_bind, Option.bind_some, readIdentifier?_quoteChars, Option.bind_eq_bind,
      Option.bind_some]
    dsimp only
    rw [hopen, Option.bind_some, readColumns?_eq_some_iff.mpr ⟨hsome, rfl⟩]
    rfl

/-! ### Generated statements -/

theorem quote_injective : Function.Injective quote := by
  intro name name' h
  have hchars : quoteChars name.toList = quoteChars name'.toList := String.ofList_injective h
  have hread : readIdentifier? (quoteChars name.toList ++ [' '])
      = readIdentifier? (quoteChars name'.toList ++ [' ']) := by rw [hchars]
  rw [readIdentifier?_quoteChars, readIdentifier?_quoteChars] at hread
  exact (Prod.mk.inj (Option.some.inj hread)).1

/-- Just the text that is generated for a table and its columns is read as these. -/
theorem readTable?_eq_shown_iff {text table : String} {columns : List Column} (h : columns ≠ []) :
    readTable? text = some (table, columns.map ShownColumn.ofColumn)
      ↔ text = createTable table columns := by
  have hclauses : (columns.map ShownColumn.ofColumn).map ShownColumn.clause
      = columns.map columnClause := by
    rw [List.map_map]
    exact List.map_congr_left fun c _ => (columnClause_eq c).symm
  have hbody : tableBody columns = joinWith [',', ' '] (columns.map columnClause) := by
    rw [tableBody, if_neg (mt List.isEmpty_iff.mp h)]
  have hchars : (createTable table columns).toList = "CREATE TABLE ".toList
      ++ quoteChars table.toList ++ ' ' :: '(' :: (tableBody columns ++ [')']) :=
    String.toList_ofList
  rw [hbody] at hchars
  rw [readTable?_eq_some_iff, hclauses, and_iff_right (mt List.map_eq_nil_iff.mp h)]
  exact (Eq.congr_right hchars.symm).trans String.toList_inj

/-- What a table statement says is read back from its text: the name of the table and, in order, for
each column its name, its storage type and whether its cells must not be empty, whatever characters
the names have. No other text is read as this table; so different names are quoted differently, and
tables with the same text have the same name and columns. -/
theorem createTable_read_back :
    (∀ (table : String) (c : Column) (cs : List Column),
      readTable? (createTable table (c :: cs)) = some (table, (c :: cs).map ShownColumn.ofColumn))
    ∧ (∀ (text table : String) (c : Column) (cs : List Column),
        readTable? text = some (table, (c :: cs).map ShownColumn.ofColumn)
          ↔ text = createTable table (c :: cs))
    ∧ Function.Injective quote
    ∧ ∀ (table table' : String) (c c' : Column) (cs cs' : List Column),
        createTable table (c :: cs) = createTable table' (c' :: cs')
          ↔ table = table'
            ∧ (c :: cs).map ShownColumn.ofColumn = (c' :: cs').map ShownColumn.ofColumn := by
  have hread (table : String) (c : Column) (cs : List Column) :
      readTable? (createTable table (c :: cs)) = some (table, (c :: cs).map ShownColumn.ofColumn) :=
    (readTable?_eq_shown_iff (List.cons_ne_nil c cs)).mpr rfl
  refine ⟨hread, fun text table c cs => readTable?_eq_shown_iff (List.cons_ne_nil c cs),
    quote_injective, fun table table' c c' cs cs' => ⟨fun h => ?_, fun ⟨htable, hcolumns⟩ => ?_⟩⟩
  · have hsame := hread table c cs
    rw [h, hread table' c' cs'] at hsame
    obtain ⟨htable, hcolumns⟩ := Prod.mk.inj (Option.some.inj hsame)
    exact ⟨htable.symm, hcolumns.symm⟩
  · rw [← readTable?_eq_shown_iff (List.cons_ne_nil c' cs'), hread, htable, hcolumns]

/-- A name that looks like the end of the statement is one name all the same. -/
example : readTable? (createTable "t\" (" [⟨"a\" TEXT)", .boolean, true, false, "t", none⟩])
    = some ("t\" (", [⟨"a\" TEXT)", .integer, false⟩]) :=
  (readTable?_eq_shown_iff (List.cons_ne_nil _ _)).mpr rfl

end Sql

end ShopTables

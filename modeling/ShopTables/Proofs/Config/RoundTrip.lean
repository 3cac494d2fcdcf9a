import ShopTables.Config.Save
import ShopTables.Proofs.Text.Utf8
import ShopTables.Proofs.Yaml.Counts
import ShopTables.Proofs.Yaml.Fields

/-!
# A saved configuration is loaded again

What is saved is one mapping with two mappings in it. Whatever the texts of a configuration are,
their written forms are values, so the fields are read as they were written, and a configuration
whose counts fit 64 bits is loaded as it was (`ShopConfig.load_saved`).
-/

namespace ShopTables

namespace Yaml

/-! ### Fields -/

/-- Is this the name of a field? -/
def IsFieldName (name : String) : Prop := isName name.toList = true ∧ name.toList.length ≤ 1024

instance (name : String) : Decidable (IsFieldName name) := instDecidableAnd

variable (k : Nat) (name : String) (hname : IsFieldName name)

/-- A field whose value is a text. -/
def textField (value : String) : Field k where
  name := name.toList
  value := [.scalar (styleOf value.toList) value.toList]
  node := .scalar (styleOf value.toList) none value.toList
  readsAs := readsAs_scalar _ _
  written := ' ' :: printScalar (k + 2) value.toList
  isName := hname.1
  short := hname.2
  isValue := isValue_printScalar k _

/-- A field whose value is a count. -/
def countField (value : Nat) : Field k where
  name := name.toList
  value := [.scalar .plain (Nat.toDigits 10 value)]
  node := .scalar .plain none (Nat.toDigits 10 value)
  readsAs := readsAs_scalar _ _
  written := ' ' :: (Nat.toDigits 10 value ++ ['\n'])
  isName := hname.1
  short := hname.2
  isValue := isValue_toDigits k value

/-- A field whose value is a form. -/
def formField (f : Field (k + 2)) (fs : List (Field (k + 2))) : Field k where
  name := name.toList
  value := mappingTokens (entries (f :: fs))
  node := .mapping ((entries (f :: fs)).map Entry.pair)
  readsAs := readsAs_mapping _
  written := '\n' :: printFields (f :: fs)
  isName := hname.1
  short := hname.2
  isValue := isValue_fields (Nat.lt_add_of_pos_right Nat.two_pos) f fs

end Yaml

open Yaml

def AdminApiConfig.field (c : AdminApiConfig) : Field 0 :=
  formField 0 "admin_api" (by decide)
    (textField 2 "client_id" (by decide) c.clientId)
    [textField 2 "client_secret" (by decide) c.clientSecret,
      textField 2 "username" (by decide) c.username, textField 2 "password" (by decide) c.password]

def AdapterConfig.field (c : AdapterConfig) : Field 0 :=
  formField 0 "adapter" (by decide)
    (textField 2 "database_name" (by decide) c.databaseName)
    [countField 2 "partitions" (by decide) c.partitions,
      countField 2 "timeout_secs" (by decide) c.timeoutSecs]

theorem AdminApiConfig.print_field (c : AdminApiConfig) :
    c.field.print = printForm "admin_api" c.print := by
  simp [Field.print, field, formField, printForm, printFields, print, printTextField, textField]

theorem AdapterConfig.print_field (c : AdapterConfig) :
    c.field.print = printForm "adapter" c.print := by
  simp [Field.print, field, formField, printForm, printFields, print, printTextField, textField,
    printCountField, countField]

/-! ### Reading the fields -/

theorem Yaml.Document.text?_scalar (d : Document) (style : ScalarStyle) (text : String) :
    d.text? (.scalar style none text.toList) = some text := by
  simp [Document.text?, Document.resolve?]

theorem Yaml.Document.count?_digits (d : Document) {n : Nat} (hn : n < 2 ^ 64) :
    d.count? (.scalar .plain none (Nat.toDigits 10 n)) = some n := by
  have hfits : n < Nat.pow 2 64 := hn
  simp only [Document.count?, Document.resolve?, true_or, if_true, unsigned?_toDigits,
    Option.filter_some, hfits, decide_true]

/-- Fields with known names are read, if none comes twice. -/
theorem Yaml.Document.fields?_mapping (d : Document) {names : List String}
    (fields : List (String × Node)) (hnames : ∀ f ∈ fields, f.1 ∈ names)
    (hnodup : (fields.map Prod.fst).Nodup) :
    d.fields? names (.mapping (fields.map fun f => (.scalar .plain none f.1.toList, f.2)))
      = some fields := by
  show d.fieldsOf? names _ = some fields
  induction fields with
  | nil => rfl
  | cons f fields ih =>
    obtain ⟨hname, hnames⟩ := List.forall_mem_cons.mp hnames
    obtain ⟨hnew, hnodup⟩ := List.nodup_cons.mp hnodup
    have hlookup : fields.lookup f.1 = none := List.lookup_eq_none_iff.mpr fun g hg =>
      bne_iff_ne.mpr fun hfg => hnew (hfg ▸ List.mem_map_of_mem hg)
    simp [Document.fieldsOf?, text?_scalar, ih hnames hnodup, hname, hlookup]

theorem AdminApiConfig.ofNode?_field (d : Document) (c : AdminApiConfig) :
    ofNode? d c.field.node = some c := by
  have hfields : d.fields? ["client_id", "client_secret", "username", "password"] c.field.node
      = some [("client_id", .scalar (styleOf c.clientId.toList) none c.clientId.toList),
          ("client_secret", .scalar (styleOf c.clientSecret.toList) none c.clientSecret.toList),
          ("username", .scalar (styleOf c.username.toList) none c.username.toList),
          ("password", .scalar (styleOf c.password.toList) none c.password.toList)] :=
    d.fields?_mapping [("client_id", _), ("client_secret", _), ("username", _), ("password", _)]
      (by simp) (by simp)
  rw [ofNode?, hfields]
  simp [Document.field?, List.lookup_cons, Document.text?_scalar]

theorem AdapterConfig.ofNode?_field (d : Document) {c : AdapterConfig}
    (hpartitions : c.partitions < 2 ^ 64) (htimeout : c.timeoutSecs < 2 ^ 64) :
    ofNode? d c.field.node = some c := by
  have hfields : d.fields? ["database_name", "partitions", "timeout_secs"] c.field.node
      = some [("database_name", .scalar (styleOf c.databaseName.toList) none c.databaseName.toList),
          ("partitions", .scalar .plain none (Nat.toDigits 10 c.partitions)),
          ("timeout_secs", .scalar .plain none (Nat.toDigits 10 c.timeoutSecs))] :=
    d.fields?_mapping [("database_name", _), ("partitions", _), ("timeout_secs", _)]
      (by simp) (by simp)
  rw [ofNode?, hfields]
  simp [Document.field?, List.lookup_cons, Document.text?_scalar, d.count?_digits hpartitions,
    d.count?_digits htimeout]

namespace ShopConfig

variable (c : ShopConfig)

def urlField : Field 0 := textField 0 "url" (by decide) c.url

/-- What is saved is the fields. -/
theorem print_eq : c.print = printFields [c.urlField, c.adminApi.field, c.adapter.field] := by
  simp only [print, printFields, List.flatMap_cons, List.flatMap_nil, List.append_nil,
    AdminApiConfig.print_field, AdapterConfig.print_field]
  rw [← List.append_assoc]
  rfl

theorem ofDocument?_fields {c : ShopConfig} (hpartitions : c.adapter.partitions < 2 ^ 64)
    (htimeout : c.adapter.timeoutSecs < 2 ^ 64) :
    ofDocument? {
      root := .mapping ((entries [c.urlField, c.adminApi.field, c.adapter.field]).map Entry.pair)
      named := [] } = some c := by
  have hfields : ∀ d : Document, d.fields? ["url", "admin_api", "adapter"]
      (.mapping ((entries [c.urlField, c.adminApi.field, c.adapter.field]).map Entry.pair))
        = some [("url", .scalar (styleOf c.url.toList) none c.url.toList),
          ("admin_api", c.adminApi.field.node), ("adapter", c.adapter.field.node)] := fun d =>
    d.fields?_mapping [("url", _), ("admin_api", _), ("adapter", _)] (by simp) (by simp)
  rw [ofDocument?, hfields]
  simp [Document.field?, List.lookup_cons, Document.text?_scalar, AdminApiConfig.ofNode?_field,
    AdapterConfig.ofNode?_field _ hpartitions htimeout]

/-- A configuration that is saved is loaded as it was. -/
theorem load_saved {c : ShopConfig} (hpartitions : c.adapter.partitions < 2 ^ 64)
    (htimeout : c.adapter.timeoutSecs < 2 ^ 64) :
    load (.bytes (Text.Utf8.encode c.print)) = .ok c := by
  have hdocument := document?_printFields c.urlField [c.adminApi.field, c.adapter.field]
  rw [← print_eq] at hdocument
  have htext : ofText? c.print = some c := by
    calc ofText? c.print
      _ = ((tokens? c.print).bind document?).bind ofDocument? := (Option.bind_assoc _ _ _).symm
      _ = some c := by rw [hdocument, Option.bind_some, ofDocument?_fields hpartitions htimeout]
  rw [load, Text.Utf8.strict?_encode, Option.bind_some, htext]

/-- A configuration of texts that are read as something else unless they are written with care. -/
def awkward : ShopConfig where
  url := "true"
  adminApi := {
    clientId := ""
    clientSecret := " it's: 'so' #1 "
    username := "\n two\n\nlines\u2028\n\n"
    password := "\t\u0000\"\\ \n-" }
  adapter := {
    databaseName := "0x1F"
    partitions := 18446744073709551615
    timeoutSecs := 0 }

theorem load_saved_awkward :
    awkward.adapter.partitions < 2 ^ 64 ∧ awkward.adapter.timeoutSecs < 2 ^ 64
      ∧ load (.bytes (Text.Utf8.encode awkward.print)) = .ok awkward := by
  have hpartitions : awkward.adapter.partitions < 2 ^ 64 := by decide
  have htimeout : awkward.adapter.timeoutSecs < 2 ^ 64 := by decide
  exact ⟨hpartitions, htimeout, load_saved hpartitions htimeout⟩

end ShopConfig

end ShopTables

import ShopTables.Config.Basic
import ShopTables.Text.Utf8
import ShopTables.Yaml.Form
import ShopTables.Yaml.Printer

/-!
# Saved configurations

A configuration is a YAML document with three fields, of which only the shop's address is needed to
load it. When it is saved all of its fields are written, a line each where a text has no line
feeds; those of a part are indented under its name.
-/

namespace ShopTables

open Yaml (Document Node tokens? document? printTextField printCountField printForm)

/-! ### Loading -/

def AdminApiConfig.ofNode? (d : Document) (n : Node) : Option AdminApiConfig := do
  let fields ← d.fields? ["client_id", "client_secret", "username", "password"] n
  return {
    clientId := ← Document.field? fields d.text? "client_id" ""
    clientSecret := ← Document.field? fields d.text? "client_secret" ""
    username := ← Document.field? fields d.text? "username" ""
    password := ← Document.field? fields d.text? "password" "" }

def AdapterConfig.ofNode? (d : Document) (n : Node) : Option AdapterConfig := do
  let fields ← d.fields? ["database_name", "partitions", "timeout_secs"] n
  let default : AdapterConfig := {}
  return {
    databaseName := ← Document.field? fields d.text? "database_name" default.databaseName
    partitions := ← Document.field? fields d.count? "partitions" default.partitions
    timeoutSecs := ← Document.field? fields d.count? "timeout_secs" default.timeoutSecs }

namespace ShopConfig

def ofDocument? (d : Document) : Option ShopConfig := do
  let fields ← d.fields? ["url", "admin_api", "adapter"] d.root
  return {
    url := ← d.text? (← fields.lookup "url")
    adminApi := ← Document.field? fields (AdminApiConfig.ofNode? d) "admin_api" {}
    adapter := ← Document.field? fields (AdapterConfig.ofNode? d) "adapter" {} }

def ofText? (text : List Char) : Option ShopConfig := do
  ofDocument? (← document? (← tokens? text))

def load : FileContent → Except ApiError ShopConfig
  | .absent fault => .error (.io fault)
  | .directory => .error .yaml
  | .bytes content =>
    match (Text.Utf8.strict? content).bind ofText? with
    | some config => .ok config
    | none => .error .yaml

end ShopConfig

/-! ### Saving -/

def AdminApiConfig.print (c : AdminApiConfig) : List Char :=
  printTextField 2 "client_id" c.clientId ++ printTextField 2 "client_secret" c.clientSecret
    ++ printTextField 2 "username" c.username ++ printTextField 2 "password" c.password

def AdapterConfig.print (c : AdapterConfig) : List Char :=
  printTextField 2 "database_name" c.databaseName ++ printCountField 2 "partitions" c.partitions
    ++ printCountField 2 "timeout_secs" c.timeoutSecs

def ShopConfig.print (c : ShopConfig) : List Char :=
  printTextField 0 "url" c.url ++ printForm "admin_api" c.adminApi.print
    ++ printForm "adapter" c.adapter.print

end ShopTables

import ShopTables.Command.Arguments
import ShopTables.Command.Error
import ShopTables.Command.Listing
import ShopTables.Config.Save
import ShopTables.Database
import ShopTables.Shop.Client

/-!
# Running commands

`Invocation.run` is what a command does: it finds its files in `files`, reaches the shop over the
network, and gives the text to print. What concerns tables needs the configuration only if the
schema comes from the shop; what concerns rows always needs it, since rows are in the shop.
-/

namespace ShopTables

namespace Options

variable {ω α : Type} [Network ω]

/-- The configuration, which must be of use. -/
def loadConfig (o : Options) (files : Files) : Except CommandError ShopConfig := do
  let config ← (ShopConfig.load (files o.config)).mapError (.loadConfig o.config)
  config.validate.mapError (.invalidConfig o.config)
  return config

def readSchema (files : Files) (path : String) : Except CommandError Registry :=
  (Registry.ofFile path (files path)).mapError (.readSchemaFile path)

/-- Runs a step of a client that has sent nothing yet. -/
def withClient (config : ShopConfig) (x : Step CommandError (ShopClient ω) α) :
    Step CommandError ω α :=
  Step.ofFn fun network =>
    match ShopClient.ofConfig config network with
    | .error e => (.error (.createClient e), network)
    | .ok client => let (r, client) := x.runFrom client; (r, client.network)

/-- The registry: that of the schema file, if there is one, or the shop's. -/
def loadRegistry (o : Options) (files : Files) (ctx : Context) : Step CommandError ω Registry :=
  match o.schemaFile with
  | some path => Step.ofExcept (readSchema files path)
  | none => do
    let config ← Step.ofExcept (o.loadConfig files)
    withClient config ((Registry.load ctx).mapError .loadSchema)

/-- The database, whose rows are in the shop. -/
def connect (o : Options) (files : Files) (ctx : Context) (config : ShopConfig) :
    Step CommandError (ShopClient ω) Database :=
  match o.schemaFile with
  | some path => do
    return Database.ofRegistry config.adapter (← Step.ofExcept (readSchema files path))
  | none => (Database.connect ctx config.adapter).mapError .loadSchema

/-- Runs a step on a table, in a session of its own. -/
def withTable (o : Options) (files : Files) (ctx : Context) (name : String)
    (x : Step CommandError (Session (ShopClient ω) × TableHandle) α) : Step CommandError ω α := do
  let config ← Step.ofExcept (o.loadConfig files)
  withClient config do
    let db ← o.connect files ctx config
    let handle ← Step.ofExcept ((db.openTable name).mapError .table)
    Step.ofFn fun client =>
      let (r, session, _) := x.runFrom (⟨client, []⟩, handle)
      (r, session.api)

end Options

namespace Invocation

variable {σ ω : Type}

/-- The table of a name among definitions, in any ASCII case. -/
def findTable (definitions : KeyList TableDefinition) (name : String) :
    Except CommandError TableDefinition :=
  let isWanted (d : TableDefinition) := Text.lowerAscii d.name == Text.lowerAscii name
  match (definitions.map (·.2)).find? isWanted with
  | some d => .ok d
  | none => .error (.table (.tableNotFound name))

/-- Reads the rows of a table that is called `name`. -/
def readRows [Api σ] (ctx : Context) (name : String) :
    Step CommandError (Session σ × TableHandle) (List Row) :=
  (TableHandle.scan ctx).mapError (.readRows name)

/-- The rows of a table, as they are printed. -/
def select [Api σ] (ctx : Context) (name : String) (limit : Option Nat) (format : RowFormat) :
    Step CommandError (Session σ × TableHandle) String := do
  let rows ← readRows ctx name
  let columns := (← get).2.definition.columns
  let shown := match limit with
    | some n => rows.take n
    | none => rows
  return match format with
    | .objects => Listing.objects columns shown
    | .table => Listing.rows columns shown

/-- Deletes the rows that pass all filters, or only counts them, and says how many they are. -/
def delete [Api σ] (ctx : Context) (name : String) (filters : List String) (dryRun : Bool) :
    Step CommandError (Session σ × TableHandle) String := do
  let d := (← get).2.definition
  let filters ← Step.ofExcept ((Filter.readAll d filters).mapError .filter)
  if dryRun then
    let count := ((← readRows ctx name).filter (Filter.allPass filters)).length
    return "Would delete " ++ toString count ++ " rows from " ++ d.name ++ ".\n"
  else
    let passes (row : Row) : StateM (Session σ × TableHandle) Bool :=
      return Filter.allPass filters row
    let count ← (TableHandle.deleteMatching ctx passes).mapError (.deleteRows name)
    return "Deleted " ++ toString count ++ " rows from " ++ d.name ++ ".\n"

/-- Runs a command on behalf of the statement `ctx`, and gives the text to print. -/
def run [Network ω] (i : Invocation) (files : Files) (ctx : Context) :
    Step CommandError ω String :=
  match i.command with
  | .tables => do
    return Listing.tables (← i.options.loadRegistry files ctx).definitions
  | .describe name => do
    let registry ← i.options.loadRegistry files ctx
    return Listing.describe (← Step.ofExcept (findTable registry.definitions name))
  | .select name limit format =>
    i.options.withTable files ctx name (select ctx name limit format)
  | .delete name filters dryRun =>
    i.options.withTable files ctx name (delete ctx name filters dryRun)

end Invocation

end ShopTables

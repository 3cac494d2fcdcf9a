import ShopTables.Config.Basic

/-!
# Arguments of the command line

A command line is options, the name of a command, and more options and the command's own
arguments. Three options may stand on either side of the name, and then the later one counts. On
one side every option but a filter may stand once. A value follows its option, or stands in the same
argument after an equals sign; only so can it begin with a hyphen. After two hyphens alone, nothing
is an option any more. Reading goes from left to right, and what stops it first is the outcome.
-/

namespace ShopTables

/-- How rows are printed. -/
inductive RowFormat where
  | objects
  | table
  deriving DecidableEq

/-- The options that all commands have. -/
structure Options where
  config : String := defaultConfigFile
  /-- Where the schema is read from, if not from the shop. -/
  schemaFile : Option String := none
  /-- Is more to be told while running? -/
  verbose : Bool := false
  deriving DecidableEq

/-- A command. -/
inductive Command where
  /-- Lists all tables. -/
  | tables
  /-- Shows the columns of a table. -/
  | describe (table : String)
  /-- Prints the rows of a table, or the first ones. -/
  | select (table : String) (limit : Option Nat) (format : RowFormat)
  /-- Deletes the rows that pass all filters, or only counts them. -/
  | delete (table : String) (filters : List String) (dryRun : Bool)
  deriving DecidableEq

/-- A command with its options. -/
structure Invocation where
  options : Options
  command : Command
  deriving DecidableEq

/-- Why a command line gives no command. -/
inductive Refusal where
  | helpWanted
  | versionWanted
  /-- The arguments make no sense. -/
  | usage
  deriving DecidableEq

def versionText : String := "shopsql 0.1.0\n"

namespace Arguments

/-! ### What may stand where -/

/-- The part of a command line: before the name of a command, or after it. -/
inductive Level where
  | outer
  | tables
  | describe
  | select
  | delete
  deriving DecidableEq

def Level.ofName? : String → Option Level
  | "tables" => some .tables
  | "describe" => some .describe
  | "select" => some .select
  | "delete" => some .delete
  | _ => none

/-- An option that has a value. -/
inductive ValueOption where
  | config
  | schemaFile
  | limit
  | format
  | filter
  deriving DecidableEq

/-- The option of a name, where it may stand. -/
def Level.valueOption? : Level → String → Option ValueOption
  | _, "config" => some .config
  | _, "schema-file" => some .schemaFile
  | .select, "limit" => some .limit
  | .select, "format" => some .format
  | .delete, "where" => some .filter
  | _, _ => none

/-- An option that has no value. -/
inductive Flag where
  | verbose
  | dryRun
  | help
  | version
  deriving DecidableEq

/-- The flag of a name, where it may stand. -/
def Level.flag? : Level → String → Option Flag
  | _, "verbose" => some .verbose
  | _, "help" => some .help
  | .outer, "version" => some .version
  | .delete, "dry-run" => some .dryRun
  | _, _ => none

/-- The flag of a letter, where it may stand. -/
def Level.letter? : Level → Char → Option Flag
  | _, 'v' => some .verbose
  | _, 'h' => some .help
  | .outer, 'V' => some .version
  | _, _ => none

def Level.hasTable : Level → Bool
  | .describe | .select | .delete => true
  | _ => false

/-! ### Values -/

/-- A count of 64 bits in decimal digits, perhaps after a plus sign. -/
def count? (s : String) : Option Nat :=
  let digits := match s.toList with
    | '+' :: ds => ds
    | ds => ds
  if digits.isEmpty || !digits.all Char.isDigit then none
  else
    let n := digits.foldl (fun n d => n * 10 + (d.toNat - '0'.toNat)) 0
    if n < Nat.pow 2 64 then some n else none

def format? : String → Option RowFormat
  | "json" => some .objects
  | "table" => some .table
  | _ => none

/-- A path, which cannot be empty. -/
def path? (s : String) : Option String := if s = "" then none else some s

/-! ### What has been given -/

/-- What has been given in one part of a command line. -/
structure Given where
  config : Option String := none
  schemaFile : Option String := none
  verbose : Bool := false
  table : Option String := none
  limit : Option Nat := none
  format : Option RowFormat := none
  filters : List String := []
  dryRun : Bool := false

def fill {α : Type} (place value : Option α) : Except Refusal (Option α) :=
  match place, value with
  | none, some a => .ok (some a)
  | _, _ => .error .usage

namespace Given

def setValue (g : Given) (o : ValueOption) (value : String) : Except Refusal Given :=
  match o with
  | .config => (fill g.config (path? value)).map fun config => { g with config }
  | .schemaFile => (fill g.schemaFile (path? value)).map fun schemaFile => { g with schemaFile }
  | .limit => (fill g.limit (count? value)).map fun limit => { g with limit }
  | .format => (fill g.format (format? value)).map fun format => { g with format }
  | .filter => .ok { g with filters := g.filters ++ [value] }

def setFlag (g : Given) : Flag → Except Refusal Given
  | .verbose => if g.verbose then .error .usage else .ok { g with verbose := true }
  | .dryRun => if g.dryRun then .error .usage else .ok { g with dryRun := true }
  | .help => .error .helpWanted
  | .version => .error .versionWanted

def setTable (level : Level) (g : Given) (value : String) : Except Refusal Given :=
  if level.hasTable then (fill g.table (some value)).map fun table => { g with table }
  else .error .usage

end Given

/-! ### Reading -/

/-- The name of an option and the value in the same argument, if there is an equals sign. -/
def splitOption (cs : List Char) : String × Option String :=
  let name := cs.takeWhile (· != '=')
  (String.ofList name, (cs.dropWhile (· != '=')).tail?.map String.ofList)

/-- Is an argument written like an option? A single hyphen is not. -/
def isOption (a : String) : Bool :=
  match a.toList with
  | '-' :: _ :: _ => true
  | _ => false

/-- Reads an option with the arguments after it, and says which of these are left. -/
def readOption (level : Level) (g : Given) (cs : List Char) (args : List String) :
    Except Refusal (Given × List String) :=
  let (name, value) := splitOption cs
  match level.valueOption? name, value with
  | some o, some v => (g.setValue o v).map (·, args)
  | some o, none =>
    match args with
    | v :: rest => if isOption v then .error .usage else (g.setValue o v).map (·, rest)
    | [] => .error .usage
  | none, some _ => .error .usage
  | none, none =>
    match level.flag? name with
    | some f => (g.setFlag f).map (·, args)
    | none => .error .usage

def readLetters (level : Level) (g : Given) (letters : List Char) : Except Refusal Given :=
  letters.foldlM (fun g c =>
    match level.letter? c with
    | some f => g.setFlag f
    | none => .error .usage) g

theorem length_readOption_le {level : Level} {g g' : Given} {cs : List Char}
    {args rest : List String} (h : readOption level g cs args = .ok (g', rest)) :
    rest.length ≤ args.length := by
  unfold readOption at h
  simp only [Except.map] at h
  grind

/-- Reads one part of a command line. Before the name of a command the part ends there. -/
def readPart (level : Level) (g : Given) : List String → Except Refusal (Given × List String)
  | [] => .ok (g, [])
  | a :: args =>
    match a.toList with
    | ['-', '-'] => (args.foldlM (Given.setTable level) g).map (·, [])
    | '-' :: '-' :: cs =>
      match _h : readOption level g cs args with
      | .error e => .error e
      | .ok (g, rest) => readPart level g rest
    | '-' :: c :: cs =>
      match readLetters level g (c :: cs) with
      | .error e => .error e
      | .ok g => readPart level g args
    | _ =>
      if level = .outer then .ok (g, a :: args)
      else
        match g.setTable level a with
        | .error e => .error e
        | .ok g => readPart level g args
termination_by args => args.length
decreasing_by
  · have := length_readOption_le _h; simp; omega
  · simp
  · simp

/-- What is wanted after the word `help`: at most one command. -/
def helpFor : List String → Refusal
  | [] => .helpWanted
  | [name] => if name = "help" || (Level.ofName? name).isSome then .helpWanted else .usage
  | _ => .usage

/-- The command of a part, if nothing that it needs is missing. -/
def command? (level : Level) (g : Given) : Option Command :=
  match level with
  | .outer => none
  | .tables => some .tables
  | .describe => g.table.map .describe
  | .select => g.table.map fun table => .select table g.limit (g.format.getD .table)
  | .delete =>
    if g.filters.isEmpty then none
    else g.table.map fun table => .delete table g.filters g.dryRun

/-- The options that both parts give; the later one counts. -/
def mergeOptions (outer inner : Given) : Options where
  config := (inner.config <|> outer.config).getD defaultConfigFile
  schemaFile := inner.schemaFile <|> outer.schemaFile
  verbose := inner.verbose || outer.verbose

end Arguments

open Arguments in
def Invocation.ofArguments (args : List String) : Except Refusal Invocation :=
  match readPart .outer {} args with
  | .error e => .error e
  | .ok (_, []) => .error .usage
  | .ok (outer, name :: rest) =>
    if name = "help" then .error (helpFor rest)
    else
      match Level.ofName? name with
      | none => .error .usage
      | some level =>
        match readPart level {} rest with
        | .error e => .error e
        | .ok (inner, _) =>
          match command? level inner with
          | some command => .ok { options := mergeOptions outer inner, command }
          | none => .error .usage

end ShopTables

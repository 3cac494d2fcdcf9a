import ShopTables.Api.Error

/-!
# Configurations

How to reach a shop, how to be let in, and how to show its tables. A configuration can be used if
it names a shop, has credentials of one of the two kinds, and splits tables into at least one
partition. Of two kinds of credentials that are complete, the user's come first.
-/

namespace ShopTables

/-- The credentials as they are written down; what is missing is empty. -/
structure AdminApiConfig where
  clientId : String := ""
  clientSecret : String := ""
  username : String := ""
  password : String := ""
  deriving DecidableEq

/-- How a shop is shown as a database. -/
structure AdapterConfig where
  databaseName : String := "shopware"
  /-- How many partitions the rows of each table are split into. -/
  partitions : Nat := 1
  /-- How many seconds a request may take. -/
  timeoutSecs : Nat := 30
  deriving DecidableEq

/-- A configuration. -/
structure ShopConfig where
  /-- The shop's address. -/
  url : String
  adminApi : AdminApiConfig := {}
  adapter : AdapterConfig := {}
  deriving DecidableEq

/-- The name of the file a configuration is expected in. -/
def defaultConfigFile : String := ".shopware-project.yml"

/-- Credentials of one kind. -/
inductive Credentials where
  | client (id secret : String)
  | user (name password : String)
  deriving DecidableEq

namespace AdminApiConfig

def hasUser (c : AdminApiConfig) : Bool := c.username != "" && c.password != ""

def hasClient (c : AdminApiConfig) : Bool := c.clientId != "" && c.clientSecret != ""

def credentials? (c : AdminApiConfig) : Option Credentials :=
  if c.hasUser then some (.user c.username c.password)
  else if c.hasClient then some (.client c.clientId c.clientSecret)
  else none

end AdminApiConfig

namespace ShopConfig

/-- An address without the slashes at its end. -/
def trimSlashes (url : String) : String :=
  String.ofList ((url.toList.reverse.dropWhile (· == '/')).reverse)

def baseUrl (c : ShopConfig) : String := trimSlashes c.url

/-- What makes the configuration useless, if anything. -/
def fault? (c : ShopConfig) : Option ConfigFault :=
  if c.baseUrl = "" then some .emptyUrl
  else if !c.adminApi.hasUser && !c.adminApi.hasClient then some .noCredentials
  else if c.adapter.partitions = 0 then some .noPartitions
  else none

def validate (c : ShopConfig) : Except ApiError Unit :=
  match c.fault? with
  | some fault => .error (.invalidConfig fault)
  | none => .ok ()

def credentials (c : ShopConfig) : Except ApiError Credentials :=
  match c.adminApi.credentials? with
  | some credentials => .ok credentials
  | none => .error (.invalidConfig .noCredentials)

end ShopConfig

end ShopTables

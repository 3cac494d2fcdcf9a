import ShopTables.Command.Run

/-!
# The command line

Reads the files that a command names, runs it, and prints what it gives. The program has no
network of its own, so what needs the shop fails as it does when the shop cannot be reached.
-/

namespace ShopTables

def readFile (path : String) : IO FileContent := do
  if path.contains '\x00' then return .absent .nullInName
  try
    return .bytes (← IO.FS.readBinFile path).toList
  catch
    | .noFileOrDirectory .. => return .absent .notFound
    | .inappropriateType _ code _ =>
      return if code = 21 then .directory else .absent .notDirectory
    | .invalidArgument _ code details =>
      return .absent (if code = 36 then .nameTooLong else .other details)
    | .permissionDenied .. => return .absent .denied
    | e => return .absent (.other (toString e))

def readFiles (options : Options) : IO Files := do
  let paths := options.config :: options.schemaFile.toList
  let contents ← paths.mapM fun path => return (path, ← readFile path)
  return fun path => (contents.lookup path).getD (.absent .notFound)

def usage : String :=
  "Usage: shopsql [--config PATH] [--schema-file PATH] [-v] COMMAND\n\n"
    ++ "  tables\n"
    ++ "  describe TABLE\n"
    ++ "  select TABLE [--limit N] [--format json|table]\n"
    ++ "  delete TABLE --where COLUMN=VALUE... [--dry-run]\n"

/-- Prints what a command gives, and says how it ended. -/
def runCommand (i : Invocation) : IO UInt32 := do
  let files ← readFiles i.options
  match (i.run files ⟨"main"⟩).runFrom ({} : Unreachable) with
  | (.ok text, _) =>
    IO.print text
    return 0
  | (.error e, _) =>
    IO.eprintln ("error: " ++ e.message)
    return 1

end ShopTables

open ShopTables in
def main (args : List String) : IO UInt32 :=
  match Invocation.ofArguments args with
  | .ok i => runCommand i
  | .error .helpWanted => do
    IO.print usage
    return 0
  | .error .versionWanted => do
    IO.print versionText
    return 0
  | .error .usage => do
    IO.eprint usage
    return 2

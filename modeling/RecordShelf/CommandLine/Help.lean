/-!
# Help texts
-/

namespace RecordShelf.CommandLine

/-- What help is about; `misused` stands for arguments that no help is asked with. -/
inductive HelpTopic where
  | program
  | init
  | query
  | repl
  | tables
  | cleanup
  | help
  | misused
  deriving DecidableEq

namespace HelpTopic

def ofName? : String → Option HelpTopic
  | "init" => some .init
  | "query" => some .query
  | "repl" => some .repl
  | "tables" => some .tables
  | "cleanup" => some .cleanup
  | "help" => some .help
  | _ => none

/-- Help for a command without arguments. -/
def plainText (about name : String) : String :=
  about ++ "\n\nUsage: filedb " ++ name ++ "\n\nOptions:\n  -h, --help  Print help\n"

def text : HelpTopic → String
  | .program =>
    "A directory-of-JSON record store with an SQL-subset query interface\n\n" ++
      "Usage: filedb [OPTIONS] <COMMAND>\n\n" ++
      "Commands:\n" ++
      "  init     Create the data directory and default tables\n" ++
      "  query    Execute one statement\n" ++
      "  repl     Start interactive REPL mode\n" ++
      "  tables   List tables\n" ++
      "  cleanup  Delete empty record files and report corrupt ones\n" ++
      "  help     Print this message or the help of the given subcommand(s)\n\n" ++
      "Options:\n" ++
      "  -d, --data-dir <DATA_DIR>  Data directory (overrides the config file)\n" ++
      "  -c, --config <CONFIG>      YAML config file\n" ++
      "  -h, --help                 Print help\n"
  | .init => plainText "Create the data directory and default tables" "init"
  | .repl => plainText "Start interactive REPL mode" "repl"
  | .tables => plainText "List tables" "tables"
  | .cleanup => plainText "Delete empty record files and report corrupt ones" "cleanup"
  | .query =>
    "Execute one statement\n\n" ++
      "Usage: filedb query [OPTIONS] <SQL>\n\n" ++
      "Arguments:\n" ++
      "  <SQL>  The SQL statement to execute\n\n" ++
      "Options:\n" ++
      "  -p, --params <PARAMS>  Params as JSON: an array for \x60?\x60, an object for \x60:name\x60\n" ++
      "  -h, --help             Print help\n"
  | .help =>
    "Print this message or the help of the given subcommand(s)\n\n" ++
      "Usage: filedb help [COMMAND]...\n\n" ++
      "Arguments:\n" ++
      "  [COMMAND]...  Print help for the subcommand(s)\n"
  | .misused => ""

end HelpTopic

end RecordShelf.CommandLine

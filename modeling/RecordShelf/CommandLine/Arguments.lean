import RecordShelf.CommandLine.Help

/-!
# Arguments of the command line

Options for the data directory and the settings file come first, then a command with its own
arguments. An option stands at most once. Its value is the next argument, unless that looks like an
option, or follows an equals sign or a short option's letter. A help option ends the reading.
-/

namespace RecordShelf.CommandLine

inductive Command where
  | init
  | query (sql : String) (params : Option String)
  | repl
  | tables
  | cleanup
  deriving DecidableEq

structure Invocation where
  dataDirectory : Option String
  settingsFile : Option String
  command : Command
  deriving DecidableEq

/-- What the arguments ask for. -/
inductive Request where
  | run (invocation : Invocation)
  | help (topic : HelpTopic)
  | misuse

/-- An argument: the name of an option with the value attached to it, or a plain one. -/
inductive Argument where
  | long (name : String) (value : Option String)
  | short (letter : Char) (value : Option String)
  | ending
  | plain (text : String)

def Argument.ofText (text : String) : Argument :=
  match text.toList with
  | ['-', '-'] => .ending
  | '-' :: '-' :: cs =>
    let name := String.ofList (cs.takeWhile (· != '='))
    match cs.dropWhile (· != '=') with
    | [] => .long name none
    | _ :: value => .long name (some (String.ofList value))
  | ['-', letter] => .short letter none
  | '-' :: letter :: '=' :: value => .short letter (some (String.ofList value))
  | '-' :: letter :: value => .short letter (some (String.ofList value))
  | _ => .plain text

/-- Whether an argument can be the value of the option before it. -/
def isValue (text : String) : Bool :=
  match Argument.ofText text with
  | .plain _ => true
  | _ => false

/-- The value of an option and the arguments after it. -/
def optionValue? (attached : Option String) (rest : List String) : Option (String × List String) :=
  match attached, rest with
  | some value, rest => some (value, rest)
  | none, value :: rest => if isValue value then some (value, rest) else none
  | none, [] => none

/-- A path is never empty. -/
def pathValue? (attached : Option String) (rest : List String) : Option (String × List String) :=
  (optionValue? attached rest).filter fun found => !found.1.isEmpty

/-! ## Arguments of commands -/

/-- Arguments of a command that takes none. -/
def readNone (topic : HelpTopic) : List String → Option HelpTopic
  | [] => none
  | text :: rest =>
    match Argument.ofText text with
    | .long "help" none | .short 'h' _ => some topic
    | .ending => if rest.isEmpty then none else some .misused
    | _ => some .misused

structure QueryArguments where
  sql : Option String
  params : Option String

/-- Arguments that can only be statements. -/
def readStatements (a : QueryArguments) : List String → Except HelpTopic QueryArguments
  | [] => .ok a
  | text :: rest =>
    if a.sql.isSome then .error .misused else readStatements { a with sql := some text } rest

/-- Arguments of a query; `fuel` is at least their number. -/
def readQuery : Nat → QueryArguments → List String → Except HelpTopic QueryArguments
  | 0, _, _ => .error .misused
  | _ + 1, a, [] => .ok a
  | fuel + 1, a, text :: rest =>
    let takeParams := fun attached =>
      match a.params, optionValue? attached rest with
      | none, some (value, rest) => readQuery fuel { a with params := some value } rest
      | _, _ => .error .misused
    match Argument.ofText text with
    | .long "help" none | .short 'h' _ => .error .query
    | .long "params" attached => takeParams attached
    | .short 'p' attached => takeParams attached
    | .ending => readStatements a rest
    | .plain text =>
      if a.sql.isSome then .error .misused else readQuery fuel { a with sql := some text } rest
    | _ => .error .misused

/-- The topics that a help command names, in order. -/
def readTopic : List String → HelpTopic
  | [] => .program
  | [name] => HelpTopic.ofName? name |>.getD .misused
  | _ => .misused

/-! ## All arguments -/

structure Options where
  dataDirectory : Option String
  settingsFile : Option String

def Options.invoke (o : Options) (command : Command) : Request :=
  .run ⟨o.dataDirectory, o.settingsFile, command⟩

def Request.ofTopic : HelpTopic → Request
  | .misused => .misuse
  | topic => .help topic

/-- A command with its arguments. -/
def readCommand (o : Options) (name : String) (rest : List String) : Request :=
  let plain := fun (topic : HelpTopic) (command : Command) =>
    match readNone topic rest with
    | none => o.invoke command
    | some topic => .ofTopic topic
  match name with
  | "init" => plain .init .init
  | "repl" => plain .repl .repl
  | "tables" => plain .tables .tables
  | "cleanup" => plain .cleanup .cleanup
  | "help" => .ofTopic (readTopic rest)
  | "query" =>
    match readQuery (rest.length + 1) ⟨none, none⟩ rest with
    | .error topic => .ofTopic topic
    | .ok ⟨some sql, params⟩ => o.invoke (.query sql params)
    | .ok ⟨none, _⟩ => .misuse
  | _ => .misuse

/-- Options and the command after them; `fuel` is at least the number of arguments. -/
def readOptions : Nat → Options → List String → Request
  | 0, _, _ => .misuse
  | _ + 1, _, [] => .misuse
  | fuel + 1, o, text :: rest =>
    let takeDirectory := fun attached =>
      match o.dataDirectory, pathValue? attached rest with
      | none, some (value, rest) => readOptions fuel { o with dataDirectory := some value } rest
      | _, _ => .misuse
    let takeFile := fun attached =>
      match o.settingsFile, pathValue? attached rest with
      | none, some (value, rest) => readOptions fuel { o with settingsFile := some value } rest
      | _, _ => .misuse
    match Argument.ofText text with
    | .long "help" none | .short 'h' _ => .help .program
    | .long "data-dir" attached => takeDirectory attached
    | .short 'd' attached => takeDirectory attached
    | .long "config" attached => takeFile attached
    | .short 'c' attached => takeFile attached
    | .plain name => readCommand o name rest
    | _ => .misuse

/-- What the arguments after the program's name ask for. -/
def Request.ofArguments (arguments : List String) : Request :=
  readOptions (arguments.length + 1) ⟨none, none⟩ arguments

end RecordShelf.CommandLine

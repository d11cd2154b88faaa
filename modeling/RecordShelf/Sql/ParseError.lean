import RecordShelf.Sql.Statement
import RecordShelf.Text.Quoted

/-!
# Why a text is no statement

Either its leading words are no known statement, or a statement of that kind has a part that
cannot be read.
-/

namespace RecordShelf.Sql

inductive Malformation where
  | endOfInput
  | near (text : String)
  | missingFrom
  | missingSet
  | unreadableLimit (body : String)
  deriving DecidableEq

namespace Malformation

/-- What stands at the place of a failure, at most twenty characters of it. -/
def ofRest (rest : List Char) : Malformation :=
  if rest.isEmpty then .endOfInput else .near (String.ofList (rest.take 20))

def message : Malformation → String
  | .endOfInput => "unexpected end of input"
  | .near text => "unexpected input near " ++ Text.quoted text
  | .missingFrom => "missing FROM clause"
  | .missingSet => "missing SET clause"
  | .unreadableLimit body => "unreadable LIMIT clause " ++ Text.quoted body

end Malformation

inductive ParseError where
  | unsupported (statement : String)
  | malformed (kind : StatementKind) (cause : Malformation)
  deriving DecidableEq

namespace ParseError

/-- The first forty characters of the text stand for it. -/
def unsupportedText (cs : List Char) : ParseError := .unsupported (String.ofList (cs.take 40))

def kind? : ParseError → Option StatementKind
  | .unsupported _ => none
  | .malformed kind _ => some kind

def message : ParseError → String
  | .unsupported statement => "Unsupported query: " ++ statement
  | .malformed kind cause => "Malformed " ++ kind.name ++ " statement: " ++ cause.message

end ParseError

end RecordShelf.Sql

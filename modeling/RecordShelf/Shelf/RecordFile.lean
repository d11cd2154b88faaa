import RecordShelf.Json.Reader
import RecordShelf.Json.Writer
import RecordShelf.Text.Blank

/-!
# Record files

A record is stored as pretty-printed JSON. A file that is blank, is no JSON or holds something
other than an object counts as absent. A column may hold JSON as text.
-/

namespace RecordShelf

namespace RecordFile

def encode (r : Record) : ByteArray := (Json.pretty (.object r)).toUTF8

/-- Only ASCII blanks, or nothing at all. -/
def isBlank (content : ByteArray) : Bool :=
  content.data.toList.all fun b =>
    b == 0x20 || b == 0x09 || b == 0x0a || b == 0x0c || b == 0x0d

def decode (content : ByteArray) : Option Record :=
  if isBlank content then none else (Json.ofBytes? content).bind Json.record?

end RecordFile

/-- Text that is blank is an empty array, text that is JSON its value, and all else itself. -/
def Json.ofColumn : Json → Json
  | .string s =>
    if (Text.trim s.toList).isEmpty then .array [] else (Json.read? s).getD (.string s)
  | v => v

end RecordShelf

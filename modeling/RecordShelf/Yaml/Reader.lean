import RecordShelf.Yaml.Token

/-!
# Reading YAML

A document is read from its tokens. A text without a document is an empty scalar; a text with more
than one is refused, and so is a key that is no scalar.
-/

namespace RecordShelf.Yaml

/-- Whether a node is left out before these tokens in a block mapping. -/
def endsEntry : List Token → Bool
  | .key :: _ | .value :: _ | .blockEnd :: _ => true
  | _ => false

/-- Whether a node is left out before these tokens in a flow mapping. -/
def endsFlowEntry : List Token → Bool
  | .value :: _ | .comma :: _ | .flowMapEnd :: _ => true
  | _ => false

/-- Which nodes can stand in a place. -/
inductive Place where
  /-- Inside a flow collection. -/
  | flow
  /-- An item of a block list. -/
  | item
  /-- A key or a value of a block mapping, where a list needs no indentation. -/
  | entry
  deriving DecidableEq

mutual

def readNode? : Nat → Place → List Token → Option (Yaml × List Token)
  | 0, _, _ => none
  | fuel + 1, place, tokens =>
    match tokens with
    | .scalar text plain :: rest => some (.scalar text plain, rest)
    | .flowList :: .flowListEnd :: rest => some (.list [], rest)
    | .flowList :: rest => (readFlowItems? fuel rest).map fun (items, rest) => (.list items, rest)
    | .flowMap :: .flowMapEnd :: rest => some (.map [], rest)
    | .flowMap :: rest =>
      (readFlowEntries? fuel rest).map fun (entries, rest) => (.map entries, rest)
    | .blockList :: rest =>
      if place = .flow then none
      else (readItems? fuel rest).map fun (items, rest) => (.list items, rest)
    | .blockMap :: rest =>
      if place = .flow then none
      else (readEntries? fuel rest).map fun (entries, rest) => (.map entries, rest)
    | .item :: rest =>
      if place = .entry then
        (readLooseItems? fuel (.item :: rest)).map fun (items, rest) => (.list items, rest)
      else none
    | _ => none

/-- The items of a flow list, of which there is one. -/
def readFlowItems? : Nat → List Token → Option (List Yaml × List Token)
  | 0, _ => none
  | fuel + 1, tokens =>
    match readNode? fuel .flow tokens with
    | some (item, .flowListEnd :: rest) => some ([item], rest)
    | some (item, .comma :: .flowListEnd :: rest) => some ([item], rest)
    | some (item, .comma :: rest) =>
      (readFlowItems? fuel rest).map fun (items, rest) => (item :: items, rest)
    | _ => none

/-- The entries of a flow mapping, of which there is one. -/
def readFlowEntries? : Nat → List Token → Option (List (String × Yaml) × List Token)
  | 0, _ => none
  | fuel + 1, tokens =>
    match readFlowEntry? fuel tokens with
    | some (entry, .flowMapEnd :: rest) => some ([entry], rest)
    | some (entry, .comma :: .flowMapEnd :: rest) => some ([entry], rest)
    | some (entry, .comma :: rest) =>
      (readFlowEntries? fuel rest).map fun (entries, rest) => (entry :: entries, rest)
    | _ => none

/-- A key with its value, or a scalar that stands for a key without one. -/
def readFlowEntry? : Nat → List Token → Option ((String × Yaml) × List Token)
  | 0, _ => none
  | fuel + 1, tokens =>
    match tokens with
    | .key :: .scalar key _ :: rest =>
      (readFlowValue? fuel rest).map fun (value, rest) => ((key, value), rest)
    | .key :: rest =>
      if endsFlowEntry rest then
        (readFlowValue? fuel rest).map fun (value, rest) => (("", value), rest)
      else none
    | .scalar key _ :: rest => some ((key, .empty), rest)
    | _ => none

def readFlowValue? : Nat → List Token → Option (Yaml × List Token)
  | 0, _ => none
  | fuel + 1, tokens =>
    match tokens with
    | .value :: rest =>
      match rest with
      | .comma :: _ | .flowMapEnd :: _ => some (.empty, rest)
      | _ => readNode? fuel .flow rest
    | rest => some (.empty, rest)

/-- The items of a block list up to its end. -/
def readItems? : Nat → List Token → Option (List Yaml × List Token)
  | 0, _ => none
  | fuel + 1, tokens =>
    match tokens with
    | .blockEnd :: rest => some ([], rest)
    | .item :: rest =>
      match readItem? fuel rest with
      | some (item, rest) => (readItems? fuel rest).map fun (items, rest) => (item :: items, rest)
      | none => none
    | _ => none

/-- The items of a list in the column of its key. -/
def readLooseItems? : Nat → List Token → Option (List Yaml × List Token)
  | 0, _ => none
  | fuel + 1, tokens =>
    match tokens with
    | .item :: rest =>
      match readItem? fuel rest with
      | some (item, rest) =>
        (readLooseItems? fuel rest).map fun (items, rest) => (item :: items, rest)
      | none => none
    | rest => some ([], rest)

/-- What follows a dash. -/
def readItem? : Nat → List Token → Option (Yaml × List Token)
  | 0, _ => none
  | fuel + 1, tokens =>
    match tokens with
    | .item :: _ => some (.empty, tokens)
    | _ => if endsEntry tokens then some (.empty, tokens) else readNode? fuel .item tokens

/-- The entries of a block mapping up to its end. -/
def readEntries? : Nat → List Token → Option (List (String × Yaml) × List Token)
  | 0, _ => none
  | fuel + 1, tokens =>
    match tokens with
    | .blockEnd :: rest => some ([], rest)
    | .key :: .scalar key _ :: rest =>
      match readValue? fuel rest with
      | some (value, rest) =>
        (readEntries? fuel rest).map fun (entries, rest) => ((key, value) :: entries, rest)
      | none => none
    | .key :: rest =>
      if endsEntry rest then
        match readValue? fuel rest with
        | some (value, rest) =>
          (readEntries? fuel rest).map fun (entries, rest) => (("", value) :: entries, rest)
        | none => none
      else none
    | _ => none

/-- What follows a key. -/
def readValue? : Nat → List Token → Option (Yaml × List Token)
  | 0, _ => none
  | fuel + 1, tokens =>
    match tokens with
    | .value :: rest => if endsEntry rest then some (.empty, rest) else readNode? fuel .entry rest
    | rest => some (.empty, rest)

end

/-- The node of a document after the mark of its start. -/
def readContent? (tokens : List Token) : Option (Yaml × List Token) :=
  match tokens with
  | [] | .documentStart :: _ | .documentEnd :: _ => some (.empty, tokens)
  | _ => readNode? (4 * tokens.length + 4) .item tokens

/-- Whether nothing follows but marks of the document's end. -/
def isEnd (tokens : List Token) : Bool := tokens.all (· == .documentEnd)

def ofTokens? : List Token → Option Yaml
  | [] => some .empty
  | .documentStart :: tokens => do
    let (node, rest) ← readContent? tokens
    if isEnd rest then return node else none
  | tokens => do
    let (node, rest) ← readNode? (4 * tokens.length + 4) .item tokens
    if isEnd rest then return node else none

/-- Reads one document. -/
def read? (text : String) : Option Yaml := (Token.ofText? text).bind ofTokens?

end RecordShelf.Yaml

import RecordShelf.Settings.Basic
import RecordShelf.Yaml.Reader
import RecordShelf.Yaml.Writer

/-!
# Settings files

Settings are kept as a YAML mapping. A key that is left out keeps its default; a key that is unknown
or stands twice, and a value of another kind than its key needs, make the file unreadable.
-/

namespace RecordShelf.Settings

abbrev Reading := Except ConfigProblem

def unreadable {α : Type} (reason : String) : Reading α := .error (.unreadable reason)

def readText (key : String) (node : Yaml) : Reading String :=
  match node.text? with
  | some text => .ok text
  | none => unreadable (key ++ ": expected a string")

def readCount (key : String) (node : Yaml) : Reading Nat :=
  match node.count? with
  | some n => .ok n
  | none => unreadable (key ++ ": expected a number")

def readTexts (key : String) (node : Yaml) : Reading (List String) :=
  match node.items? with
  | some items => items.mapM (readText key)
  | none => unreadable (key ++ ": expected a list")

def entriesOf (key : String) (node : Yaml) : Reading (List (String × Yaml)) :=
  match node.entries? with
  | some entries => .ok entries
  | none => unreadable (key ++ ": expected a mapping")

/-- The entries of a mapping whose keys are known; none may stand twice. -/
def fieldsOf (key : String) (node : Yaml) : Reading (List (String × Yaml)) := do
  let entries ← entriesOf key node
  if (Named.names entries).Nodup then return entries
  else unreadable (key ++ ": a key stands twice")

def readTtl (entry : String × Yaml) : Reading (Namespace × Nat) :=
  match Namespace.ofName? entry.1 with
  | some ns => (readCount entry.1 entry.2).map fun n => (ns, n)
  | none => unreadable ("unknown namespace " ++ entry.1)

/-- The times to live by namespace; the last one of a namespace counts. -/
def readTtls (node : Yaml) : Reading (List (Namespace × Nat)) := do
  let entries ← entriesOf "ttl_ms" node
  let read ← entries.mapM fun entry => return (entry.1, ← readTtl entry)
  return (Named.ofEntries read).map (·.2)

def readKeys (node : Yaml) : Reading (Named String) := do
  let entries ← entriesOf "primary_keys" node
  return Named.ofEntries (← entries.mapM fun entry => return (entry.1, ← readText entry.1 entry.2))

def readCacheField (s : CacheSettings) (entry : String × Yaml) : Reading CacheSettings :=
  match entry.1 with
  | "sweep_interval_ms" => return { s with sweepInterval := ← readCount entry.1 entry.2 }
  | "max_entries" => return { s with maxEntries := ← readCount entry.1 entry.2 }
  | "ttl_ms" => return { s with ttl := ← readTtls entry.2 }
  | key => unreadable ("unknown key " ++ key)

def readCache (node : Yaml) : Reading CacheSettings := do
  (← fieldsOf "cache" node).foldlM readCacheField .default

def readLookupField (s : LookupSettings) (entry : String × Yaml) : Reading LookupSettings :=
  match entry.1 with
  | "file_cache_ttl_ms" => return { s with recordTtl := ← readCount entry.1 entry.2 }
  | "file_cache_sweep_interval_ms" =>
    return { s with recordSweepInterval := ← readCount entry.1 entry.2 }
  | "batch_concurrency" => return { s with batchConcurrency := ← readCount entry.1 entry.2 }
  | key => unreadable ("unknown key " ++ key)

def readLookup (node : Yaml) : Reading LookupSettings := do
  (← fieldsOf "optimizer" node).foldlM readLookupField .default

def readField (s : Settings) (entry : String × Yaml) : Reading Settings :=
  match entry.1 with
  | "data_dir" => return { s with dataDirectory := ← readText entry.1 entry.2 }
  | "tables" => return { s with tables := ← readTexts entry.1 entry.2 }
  | "identity_fields" => return { s with identityFields := ← readTexts entry.1 entry.2 }
  | "primary_keys" => return { s with primaryKeys := ← readKeys entry.2 }
  | "auto_increment_tables" => return { s with autoIncrement := ← readTexts entry.1 entry.2 }
  | "boolean_fields" => return { s with booleanFields := ← readTexts entry.1 entry.2 }
  | "dual_mode_fields" => return { s with dualFields := ← readTexts entry.1 entry.2 }
  | "cache" => return { s with cache := ← readCache entry.2 }
  | "optimizer" => return { s with lookup := ← readLookup entry.2 }
  | key => unreadable ("unknown key " ++ key)

/-- The settings that a document changes. -/
def ofYaml (base : Settings) (node : Yaml) : Reading Settings := do
  (← fieldsOf "settings" node).foldlM readField base

def listOf (texts : List String) : Yaml := .list (texts.map fun text => .scalar text false)

def toYaml (s : Settings) : Yaml :=
  .map [("data_dir", .scalar s.dataDirectory false), ("tables", listOf s.tables),
    ("identity_fields", listOf s.identityFields),
    ("primary_keys", .map (s.primaryKeys.map fun entry => (entry.1, .scalar entry.2 false))),
    ("auto_increment_tables", listOf s.autoIncrement),
    ("boolean_fields", listOf s.booleanFields),
    ("dual_mode_fields", listOf s.dualFields),
    ("cache", .map [("sweep_interval_ms", .ofNat s.cache.sweepInterval),
      ("max_entries", .ofNat s.cache.maxEntries),
      ("ttl_ms", .map (s.cache.ttl.map fun entry => (entry.1.name, .ofNat entry.2)))]),
    ("optimizer", .map [("file_cache_ttl_ms", .ofNat s.lookup.recordTtl),
      ("file_cache_sweep_interval_ms", .ofNat s.lookup.recordSweepInterval),
      ("batch_concurrency", .ofNat s.lookup.batchConcurrency)])]

/-- Settings as the text of a file. -/
def write (s : Settings) : String := s.toYaml.write

/-- The settings that a file's text gives, checked. -/
def read (text : String) : Except Error Settings := do
  match Yaml.read? text with
  | none => throw (.config (.unreadable "no YAML"))
  | some node =>
    let s ← (ofYaml .default node).mapError .config
    s.check
    return s

/-- The settings in a file whose content, or the cause why it has none, is given. -/
def load (path : String) (content : Except IoCause ByteArray) : Except Error Settings :=
  match content with
  | .error cause => .error (.io .fileRead path cause)
  | .ok bytes =>
    match String.fromUTF8? bytes with
    | some text => read text
    | none => .error (.io .fileRead path .notText)

/-- As `load`, with the defaults if there is no file. -/
def loadOrDefault (path : String) (content : Option (Except IoCause ByteArray)) :
    Except Error Settings :=
  match content with
  | none => .ok .default
  | some content => load path content

end RecordShelf.Settings

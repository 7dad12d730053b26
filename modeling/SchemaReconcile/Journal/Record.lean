import SchemaReconcile.Value.Shown

/-!
# Journal records

A record of the journal has a level, the name of the logger that wrote it, a message and further entries.
Records are written inside contexts, which name what is being worked on; an inner context takes over what it
does not set itself.
-/

namespace SchemaReconcile.Journal

/-- Named values in order. -/
abbrev Entries := List (Value × Value)

/-- Entries with the values of other entries put into them. -/
def Entries.updated (entries others : Entries) : Entries :=
  others.foldl (fun all (key, value) => Value.putEntry key value all) entries

/-! ## Levels -/

/-- A level: the larger, the graver. -/
structure Level where
  number : Int
  deriving DecidableEq, Repr, Inhabited

namespace Level

/-- The levels that have words. -/
def named : List (String × Int) :=
  [("CRITICAL", 50), ("FATAL", 50), ("ERROR", 40), ("WARN", 30), ("WARNING", 30), ("INFO", 20),
    ("DEBUG", 10), ("NOTSET", 0)]

/-- The level of a word. -/
def ofName? (name : String) : Option Level := (named.lookup name).map Level.mk

/-- The level of small steps. -/
def debug : Level := ⟨10⟩

/-- The level of ordinary news. -/
def info : Level := ⟨20⟩

/-- The level of what deserves a look. -/
def warning : Level := ⟨30⟩

/-- The word of a level. -/
def name (l : Level) : String :=
  let words := [(50, "CRITICAL"), (40, "ERROR"), (30, "WARNING"), (20, "INFO"), (10, "DEBUG"),
    (0, "NOTSET")]
  (words.lookup l.number).getD ("Level " ++ toString l.number)

end Level

/-! ## Contexts -/

/-- The names that a context may set, in order. -/
def contextNames : List String :=
  ["schema", "entity", "field", "enum_name", "relation", "component", "operation"]

/-- What is being worked on. -/
structure Context where
  /-- The values of the names that are set. -/
  values : List (String × Value) := []
  extra : Entries := []
  deriving Repr, Inhabited

namespace Context

/-- The value of a name; null if it is not set. -/
def get (c : Context) (name : String) : Value := (c.values.lookup name).getD .null

/-- A context inside another one: given values count before those around it, also if they are null. -/
def inside (outer : Context) (values : List (String × Value)) (extra : Entries := []) : Context where
  values := contextNames.map fun name => (name, (values.lookup name).getD (outer.get name))
  extra := outer.extra.updated extra

/-- The entries of a context: the names that are set, then the further entries. -/
def entries (c : Context) : Entries :=
  let own := contextNames.filterMap fun name =>
    match c.get name with
    | .null => none
    | v => some (Value.text name, v)
  Entries.updated own c.extra

end Context

/-! ## Records -/

/-- A record of the journal. -/
structure Record where
  level : Level
  logger : String
  message : String
  extra : Entries := []
  /-- The text of an exception that goes with the record. -/
  exception : Option String := none
  deriving Repr, Inhabited

/-- A logger with the component that it belongs to. -/
structure Logger where
  name : String
  component : Option String := none
  deriving DecidableEq, Repr, Inhabited

/-- The entries of a record: its own, those of the context, and the component if none is among them. -/
def Logger.entries (l : Logger) (c : Context) (own : Entries) : Entries :=
  let all := own.updated c.entries
  match l.component with
  | none => all
  | some component =>
    if component.isEmpty then all
    else match Value.entry? (.text "component") all with
      | some _ => all
      | none => all ++ [(.text "component", .text component)]

/-- A record of a logger in a context. -/
def Logger.record (l : Logger) (c : Context) (level : Level) (message : String) (own : Entries := [])
    (exception : Option String := none) : Record :=
  { level, logger := l.name, message, extra := l.entries c own, exception }

/-- The entry of a context in a checkpoint, if it is set and counts as true. -/
def contextEntry (c : Context) (name : String) : Entries :=
  if (c.get name).truthy then [(.text name, c.get name)] else []

/-- A record of a milestone, with its time if that is known. -/
def checkpoint (c : Context) (name : String) (data : Entries) (time : Option String := none)
    (logger : String := "checkpoint") : Record :=
  let head : Entries := [(.text "checkpoint", .text name)]
  let stamp : Entries := match time with
    | some t => [(.text "timestamp", .text t)]
    | none => []
  { level := .info, logger, message := "CHECKPOINT: " ++ name
    extra := head ++ stamp ++ contextEntry c "schema" ++ contextEntry c "entity" ++
      if data.isEmpty then [] else [(.text "data", .dict data)] }

end SchemaReconcile.Journal

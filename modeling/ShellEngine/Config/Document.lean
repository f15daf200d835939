/-!
# Documents

The value of a TOML document: tables of named values. A document under construction keeps for each
table how it came about, because that decides what later lines may still do with it: a table that
only a longer header mentioned may get its own header once, a table that a dotted key made may grow
by dotted keys alone, and a value written inline may not grow once it is closed.
-/

namespace ShellEngine.Config

/-- A value of a document. What no setting can hold is kept without its contents. -/
inductive Value
  | string (s : String)
  | integer (i : Int)
  | boolean (b : Bool)
  | float
  /-- A date, a time, or both. -/
  | moment
  | array (items : List Value)
  | table (entries : List (String × Value))

/-- Sets a dotted key in an inline table. Every inline table on the way may grow. -/
def Value.extend (path : List String) (name : String) (v : Value)
    (entries : List (String × Value)) : Option (List (String × Value)) :=
  match path with
  | [] => if entries.any (·.1 == name) then none else some (entries ++ [(name, v)])
  | first :: rest =>
    match entries.find? (·.1 == first) with
    | none => (extend rest name v []).map fun inner ↦ entries ++ [(first, .table inner)]
    | some (_, .table inner) =>
      (extend rest name v inner).map fun inner ↦
        entries.map fun e ↦ if e.1 == first then (first, .table inner) else e
    | some _ => none

/-- How a table came about. -/
inductive Origin
  /-- As part of the path of a header. -/
  | passed
  /-- By a header of its own. -/
  | header
  /-- As part of a dotted key. -/
  | dotted
  deriving DecidableEq, Repr

/-- An entry of a document under construction. -/
inductive Node
  | value (v : Value)
  | table (origin : Origin) (entries : List (String × Node))
  /-- The tables of an array of tables, the last one first. -/
  | tables (items : List (List (String × Node)))

namespace Node

/-- The entries of a table. -/
abbrev Entries := List (String × Node)

/-- The entry of a name. -/
def find? (entries : Entries) (name : String) : Option Node :=
  (entries.find? (·.1 == name)).map (·.2)

/-- The entries with the entry of a name put in place. -/
def put (entries : Entries) (name : String) (node : Node) : Entries :=
  if entries.any (·.1 == name) then
    entries.map fun e ↦ if e.1 == name then (name, node) else e
  else entries ++ [(name, node)]

/-- Changes the table at the end of a header path, making the tables on the way that are not there
yet. The path may lead through the last table of an array of tables, but through no value. -/
def alter (path : List String) (change : Entries → Option Entries) (entries : Entries) :
    Option Entries :=
  match path with
  | [] => change entries
  | name :: rest =>
    match find? entries name with
    | none => (alter rest change []).map fun inner ↦ put entries name (.table .passed inner)
    | some (.table origin inner) =>
      (alter rest change inner).map fun inner ↦ put entries name (.table origin inner)
    | some (.tables (last :: before)) =>
      (alter rest change last).map fun last ↦ put entries name (.tables (last :: before))
    | some (.tables []) | some (.value _) => none

/-- Sets a dotted key in a table. The table that the value itself goes to must be one that dotted
keys made; on the way there may also be tables that headers passed, and the last table of an array
of tables. -/
def assign (path : List String) (name : String) (v : Value) (entries : Entries) :
    Option Entries :=
  match path with
  | [] => if (find? entries name).isSome then none else some (put entries name (.value v))
  | first :: rest =>
    match find? entries first with
    | none => (assign rest name v []).map fun inner ↦ put entries first (.table .dotted inner)
    | some (.table .dotted inner) =>
      (assign rest name v inner).map fun inner ↦ put entries first (.table .dotted inner)
    | some (.table .passed inner) =>
      if rest.isEmpty then none
      else (assign rest name v inner).map fun inner ↦ put entries first (.table .passed inner)
    | some (.tables (last :: before)) =>
      if rest.isEmpty then none
      else (assign rest name v last).map fun last ↦ put entries first (.tables (last :: before))
    | some _ => none

/-- Opens the table of a header. -/
def openTable (name : String) (entries : Entries) : Option Entries :=
  match find? entries name with
  | none => some (put entries name (.table .header []))
  | some (.table .passed inner) => some (put entries name (.table .header inner))
  | some _ => none

/-- Opens one more table of an array of tables. -/
def openItem (name : String) (entries : Entries) : Option Entries :=
  match find? entries name with
  | none => some (put entries name (.tables [[]]))
  | some (.tables items) => some (put entries name (.tables ([] :: items)))
  | some _ => none

mutual

/-- The finished value of an entry. -/
def toValue : Node → Value
  | .value v => v
  | .table _ entries => .table (toEntries entries)
  | .tables items => .array (toItems items).reverse

/-- The finished entries of a table. -/
def toEntries : Entries → List (String × Value)
  | [] => []
  | (name, node) :: rest => (name, toValue node) :: toEntries rest

/-- The finished tables of an array of tables. -/
def toItems : List Entries → List Value
  | [] => []
  | entries :: rest => .table (toEntries entries) :: toItems rest

end

end Node

end ShellEngine.Config

import FormulaKeys.Document

/-!
Tables of a TOML document while it is being read. A table remembers how it came about, since that
decides what may still be added to it; a value that has been written out is closed.
-/

set_option autoImplicit false

namespace FormulaKeys.Document.Toml

inductive Origin where
  /-- Opened by a header of its own, or the document itself. -/
  | header
  /-- Implied by the header of a table within it. -/
  | implied
  /-- Without a header, and a dotted key has led through it. -/
  | dotted
  deriving DecidableEq, Repr

inductive Node where
  | value (document : Document)
  | table (origin : Origin) (fields : List (String × Node))
  /-- A list of tables that have headers of their own; the last one is open. -/
  | tables (items : List (List (String × Node)))
  deriving Inhabited

abbrev Fields := List (String × Node)

mutual

def Node.document : Node → Document
  | .value document => document
  | .table _ fields => .obj (documents fields)
  | .tables items => .arr (records items)

def documents : List (String × Node) → List (String × Document)
  | [] => []
  | (key, node) :: rest => (key, node.document) :: documents rest

def records : List (List (String × Node)) → List Document
  | [] => []
  | fields :: rest => .obj (documents fields) :: records rest

end

namespace Fields

def replace (fields : Fields) (key : String) (node : Node) : Fields :=
  fields.map fun (other, old) => (other, if other == key then node else old)

/-- Change the table that `path` leads to, making the tables on the way that are missing. Dotted
keys do not lead through a table with a header of its own, and a table that they lead through takes
no header any more. -/
def descend (dotted : Bool) (change : Origin → Fields → Option Fields) :
    (path : List String) → Origin → Fields → Option Fields
  | [], origin, fields => change origin fields
  | key :: path, _, fields =>
    match fields.lookup key with
    | none => do
      let origin := if dotted then .dotted else .implied
      let inner ← descend dotted change path origin []
      return fields ++ [(key, .table origin inner)]
    | some (.table origin inner) =>
      if dotted && origin == .header then none
      else do
        let origin := if dotted then .dotted else origin
        let inner ← descend dotted change path origin inner
        return fields.replace key (.table origin inner)
    | some (.tables items) => do
      let inner ← descend dotted change path .header (items.getLastD [])
      return fields.replace key (.tables (items.dropLast ++ [inner]))
    | some (.value _) => none

/-- Add a value. A dotted key leads into a table without a header, which rules out the open one of
a list of tables; a key without dots belongs to the table that is open. -/
def define (fields : Fields) (path : List String) (key : String) (document : Document) :
    Option Fields :=
  descend true (fun origin fields =>
    if (origin == .dotted) == path.isEmpty || (fields.lookup key).isSome then none
    else some (fields ++ [(key, .value document)])) path .header fields

/-- Open a table; one that is only implied so far is opened in place. -/
def openTable (fields : Fields) (path : List String) (key : String) : Option Fields :=
  descend false (fun _ fields =>
    match fields.lookup key with
    | none => some (fields ++ [(key, .table .header [])])
    | some (.table .implied inner) => some (fields.replace key (.table .header inner))
    | some _ => none) path .header fields

/-- Open the next table of a list. -/
def openItem (fields : Fields) (path : List String) (key : String) : Option Fields :=
  descend false (fun _ fields =>
    match fields.lookup key with
    | none => some (fields ++ [(key, .tables [[]])])
    | some (.tables items) => some (fields.replace key (.tables (items ++ [[]])))
    | some _ => none) path .header fields

/-- Add a value to the table that was opened last, whose header is `header`. -/
def defineUnder (fields : Fields) (header path : List String) (key : String)
    (document : Document) : Option Fields :=
  descend false (fun _ fields => fields.define path key document) header .header fields

end Fields

end FormulaKeys.Document.Toml

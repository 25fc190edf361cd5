import Rulebook.Toml.Word

/-!
The table that the lines of a settings file build. A table may be named by a header once; tables
that only lie on the way to others stay open for a header of their own, and tables that dotted keys
build stay open for further dotted keys. A table in braces is closed.
-/

namespace Rulebook.Toml

/-- How a table came to be. -/
inductive Origin where
  /-- On the way of a header. -/
  | passed
  /-- On the way of a dotted key. -/
  | dotted
  /-- By a header of its own, or as the whole file. -/
  | headed
  /-- Between braces. -/
  | braced
  deriving DecidableEq

inductive Node where
  | leaf (value : Scalar)
  | list (items : List Node)
  | table (origin : Origin) (entries : List (String × Node))
  /-- A list of tables that headers extend; the latest comes first. -/
  | tables (latest : List (String × Node)) (earlier : List (List (String × Node)))

abbrev Entries := List (String × Node)

structure Key where
  name : String
  start : Nat
  stop : Nat

def Word.toKey (word : Word) : Except Complaint Key :=
  return ⟨← word.key, word.start, word.stop⟩

namespace Key

def complain {α : Type} (key : Key) (fault : Fault) : Except Complaint α :=
  throw ⟨fault, key.start, key.stop⟩

end Key

def setEntry (name : String) (node : Node) : Entries → Entries
  | [] => [(name, node)]
  | (other, old) :: rest =>
    if other = name then (name, node) :: rest else (other, old) :: setEntry name node rest

def Scalar.kind : Scalar → String
  | .text _ => "string"
  | .whole _ => "integer"
  | .real _ => "float"
  | .flag _ => "boolean"

/-- Changes the table that keys lead to, and makes the tables on the way that are not there. -/
def descend (dotted : Bool) (change : Origin → Entries → Except Complaint Entries) :
    List Key → Origin → Entries → Except Complaint Entries
  | [], origin, entries => change origin entries
  | key :: rest, _, entries => do
    let fresh : Origin := if dotted then .dotted else .passed
    match entries.lookup key.name with
    | none =>
      return setEntry key.name (.table fresh (← descend dotted change rest fresh [])) entries
    | some (.table origin inner) =>
      if dotted ∧ (origin = .headed ∨ origin = .braced) then key.complain .repeatedKey
      else if origin = .braced then key.complain (.notExtensible "inline table")
      else
        return setEntry key.name (.table origin (← descend dotted change rest origin inner)) entries
    | some (.tables latest earlier) =>
      return setEntry key.name (.tables (← descend dotted change rest .headed latest) earlier)
        entries
    | some (.list _) => key.complain (.notExtensible "array")
    | some (.leaf value) => key.complain (.notExtensible value.kind)

def splitKeys (words : List Word) : Except Complaint (List Key × Option Key) := do
  let keys ← words.mapM Word.toKey
  return (keys.dropLast, keys.getLast?)

/-- Adds an entry behind a way of dotted keys. -/
def addEntry (keys : List Key × Option Key) (node : Node) (origin : Origin) (entries : Entries) :
    Except Complaint Entries :=
  match keys with
  | (_, none) => return entries
  | (way, some key) =>
    let add (origin : Origin) (entries : Entries) : Except Complaint Entries :=
      if decide (origin = .dotted) == way.isEmpty then key.complain .repeatedKey
      else match entries.lookup key.name with
        | some _ => key.complain .repeatedKey
        | none => return setEntry key.name node entries
    descend true add way origin entries

mutual

def Term.toNode : Term → Except Complaint Node
  | .single word => return .leaf (← word.scalar)
  | .list items => return .list (← nodesOf items)
  | .table entries => return .table .braced (← entriesOf entries [])

def nodesOf : List Term → Except Complaint (List Node)
  | [] => return []
  | term :: rest => return (← term.toNode) :: (← nodesOf rest)

def entriesOf : List (List Word × Term) → Entries → Except Complaint Entries
  | [], soFar => return soFar
  | (words, term) :: rest, soFar => do
    let keys ← splitKeys words
    let node ← term.toNode
    entriesOf rest (← addEntry keys node .braced soFar)

end

def addHeader (inList : Bool) (way : List Key) (key : Key) (entries : Entries) :
    Except Complaint Entries :=
  let add (_ : Origin) (entries : Entries) : Except Complaint Entries :=
    match entries.lookup key.name, inList with
    | none, true => return setEntry key.name (.tables [] []) entries
    | none, false => return setEntry key.name (.table .headed []) entries
    | some (.tables latest earlier), true =>
      return setEntry key.name (.tables [] (latest :: earlier)) entries
    | some (.table .passed inner), false => return setEntry key.name (.table .headed inner) entries
    | some _, _ => key.complain .repeatedKey
  descend false add way .headed entries

/-- The table of a file, which later lines still add to, and the keys of the latest header. -/
structure Draft where
  entries : Entries
  header : List Key

def Draft.add (draft : Draft) : Line → Except Complaint Draft
  | .header inList words => do
    match ← splitKeys words with
    | (_, none) => return draft
    | (way, some key) =>
      return ⟨← addHeader inList way key draft.entries, way ++ [key]⟩
  | .entry words term => do
    let keys ← splitKeys words
    let node ← term.toNode
    let entries ← descend false (addEntry keys node) draft.header .headed draft.entries
    return { draft with entries }

mutual

def Node.toValue : Node → Value
  | .leaf value => .scalar value
  | .list items => .list (valuesOf items)
  | .table _ entries => .table (namedValuesOf entries)
  | .tables latest earlier => .list (tableValuesOf earlier ++ [.table (namedValuesOf latest)])

def valuesOf : List Node → List Value
  | [] => []
  | node :: rest => node.toValue :: valuesOf rest

def namedValuesOf : List (String × Node) → List (String × Value)
  | [] => []
  | (name, node) :: rest => (name, node.toValue) :: namedValuesOf rest

/-- Tables of which the latest comes first, in order. -/
def tableValuesOf : List (List (String × Node)) → List Value
  | [] => []
  | entries :: rest => tableValuesOf rest ++ [.table (namedValuesOf entries)]

end

def parse (text : String) : Except Complaint (List (String × Value)) := do
  let draft ← (← linesIn text).foldlM Draft.add ⟨[], []⟩
  return namedValuesOf draft.entries

end Rulebook.Toml

import Scaffold.Toml.Value

/-! Building tables. A key is given a value once, and a table is defined once: a header may
complete a table that only headers below it have mentioned, and a dotted key may extend a table
that dotted keys have made. Both may lead through the last table of an array that headers have
made. Whatever else would add to a table is refused. -/

namespace Scaffold.Toml

/-- A table under construction. -/
structure Table where
  kind : TableKind
  entries : Entries

namespace Table

/-- The value of a key. -/
def get? (t : Table) (key : Text) : Option (Span × Value) :=
  (t.entries.find? (·.1.text = key)).map (·.2)

/-- Add an entry at the end. -/
def add (t : Table) (key : Key) (span : Span) (v : Value) : Table :=
  { t with entries := t.entries ++ [(key, span, v)] }

/-- Give another value to a key that is there. -/
def replace (t : Table) (key : Text) (span : Span) (v : Value) : Table :=
  { t with entries := t.entries.map fun e => if e.1.text = key then (e.1, span, v) else e }

/-- Give another value to a key that is there, and take the key as it is written this time. -/
def redefine (t : Table) (key : Key) (span : Span) (v : Value) : Table :=
  { t with entries := t.entries.map fun e => if e.1.text = key.text then (key, span, v) else e }

def toValue (t : Table) : Value :=
  .table t.kind t.entries

/-- Whether a path of this sort may lead into a table. Nothing leads into an inline table, and
no dotted key into a table with a header. -/
def isOpen (byDots : Bool) : TableKind → Bool
  | .inline => false
  | .header => !byDots
  | .implied | .dotted => true

/-- The kind of a table that a path makes on its way. -/
def madeBy (byDots : Bool) : TableKind :=
  if byDots then .dotted else .implied

/-- Change the table at the end of a path, and make the tables on the way that are missing. A
path through an array made by headers leads into its last table. -/
def at? (byDots : Bool) (change : Table → Option Table) : List Key → Table → Option Table
  | [], t => change t
  | key :: path, t =>
    match t.get? key.text with
    | none => do
      let inner ← at? byDots change path ⟨madeBy byDots, []⟩
      return t.add key key.span inner.toValue
    | some (span, .table kind entries) =>
      if isOpen byDots kind then do
        let inner ← at? byDots change path ⟨kind, entries⟩
        return t.replace key.text span inner.toValue
      else none
    | some (span, .array true items) =>
      match items.getLast? with
      | some (last, .table kind entries) => do
        let inner ← at? byDots change path ⟨kind, entries⟩
        return t.replace key.text span (.array true (items.dropLast ++ [(last, inner.toValue)]))
      | _ => none
    | some _ => none

/-- Split a path from its last key. -/
def splitLast? (path : List Key) : Option (List Key × Key) :=
  path.getLast?.map fun key => (path.dropLast, key)

/-- Define the table of a header. -/
def define (path : List Key) (span : Span) (root : Table) : Option Table := do
  let (before, key) ← splitLast? path
  at? false (fun t =>
    match t.get? key.text with
    | none => some (t.add key span (.table .header []))
    | some (_, .table .implied entries) =>
      some (t.redefine key span (.table .header entries))
    | some _ => none) before root

/-- Add a table to the array of a header. -/
def append (path : List Key) (span : Span) (root : Table) : Option Table := do
  let (before, key) ← splitLast? path
  at? false (fun t =>
    match t.get? key.text with
    | none => some (t.add key span (.array true [(span, .table .header [])]))
    | some (whole, .array true items) =>
      some (t.replace key.text whole (.array true (items ++ [(span, .table .header [])])))
    | some _ => none) before root

/-- Give a value to a dotted key. A table that a longer key adds to must itself come from
dotted keys. -/
def assign (path : List Key) (span : Span) (v : Value) (t : Table) : Option Table := do
  let (before, key) ← splitLast? path
  at? true (fun t =>
    if !before.isEmpty && t.kind != .dotted then none
    else match t.get? key.text with
      | none => some (t.add key span v)
      | some _ => none) before t

end Table
end Scaffold.Toml

/-
TOML documents as trees.

A table remembers how it came about, because that decides what may be added to it
later.  A table with a header of its own is complete with its section; one that was
only named on the way to another may still get its header, once; one made by dotted
keys takes more dotted keys and no header; and one written inline takes nothing.
-/
import KernelDepot.Number.Binary64

namespace KernelDepot
namespace Toml

inductive Origin where
  | header
  /-- Named in the middle of a header. -/
  | implied
  /-- Named in the middle of a dotted key. -/
  | dotted
  | inline
  deriving DecidableEq, Repr

/-- A value, a table, or an array of tables that have headers. -/
inductive Node where
  | text (content : String)
  | integer (value : Int)
  | float (value : Number.Binary64)
  | bool (value : Bool)
  /-- A date, a time or both, in its written form. -/
  | moment (written : String)
  | array (items : List Node)
  | table (origin : Origin) (fields : List (String × Node))
  | tables (items : List (List (String × Node)))

/-- The fields of a table, in the order in which they were added. -/
abbrev Fields := List (String × Node)

namespace Fields

def set (fields : Fields) (name : String) (node : Node) : Fields :=
  if (fields.lookup name).isSome then
    fields.map fun f => if f.1 = name then (name, node) else f
  else fields ++ [(name, node)]

/-- Change the table at the end of a path, making the tables on the way that are
missing.  A path may lead through the last table of an array.  It may not lead through
a value, nor, for a dotted key, through a table that has a header. -/
def change (dotted : Bool) (update : Origin → Fields → Option Fields) :
    List String → Origin → Fields → Option Fields
  | [], origin, fields => update origin fields
  | name :: path, _, fields =>
    match fields.lookup name with
    | none => do
      let origin := if dotted then .dotted else .implied
      let inner ← change dotted update path origin []
      return set fields name (.table origin inner)
    | some (.table origin inner) =>
      if origin = .inline ∨ (dotted ∧ origin = .header) then none
      else do
        let inner ← change dotted update path origin inner
        return set fields name (.table origin inner)
    | some (.tables items) => do
      let last ← items.getLast?
      let last ← change dotted update path .header last
      return set fields name (.tables (items.dropLast ++ [last]))
    | some _ => none

/-- Add a value under a key that is new in its table.  A dotted key ends in a table that
was made by dotted keys. -/
def assign (origin : Origin) (fields : Fields) (path : List String) (name : String)
    (node : Node) : Option Fields :=
  change true (fun found inner =>
    if (found = .dotted) = path.isEmpty ∨ (inner.lookup name).isSome then none
    else some (inner ++ [(name, node)])) path origin fields

/-- Open the section of a table.  A table that was only named so far takes its place in the
order now. -/
def openTable (fields : Fields) (path : List String) (name : String) : Option Fields :=
  change false (fun _ inner =>
    match inner.lookup name with
    | none => some (inner ++ [(name, .table .header [])])
    | some (.table .implied kept) =>
      some (inner.filter (fun f => f.1 ≠ name) ++ [(name, .table .header kept)])
    | some _ => none) path .header fields

def openArray (fields : Fields) (path : List String) (name : String) : Option Fields :=
  change false (fun _ inner =>
    match inner.lookup name with
    | none => some (inner ++ [(name, .tables [[]])])
    | some (.tables items) => some (set inner name (.tables (items ++ [[]])))
    | some _ => none) path .header fields

end Fields
end Toml
end KernelDepot

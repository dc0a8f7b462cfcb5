/-
Reading TOML.

A document is a sequence of lines.  A line assigns a value to a key, opens the section
of a table, or says nothing; each may end in a comment.  Values nest, inside brackets
and braces, and keys have parts, both to less than `nestingLimit`.
-/
import KernelDepot.Toml.Moment

namespace KernelDepot
namespace Toml

/-- Values may not nest this deep, and keys may not have so many parts. -/
def nestingLimit : Nat := 80

def isBare (c : Char) : Bool := c.isAlphanum || c == '_' || c == '-'

/-- Read one part of a key. -/
def readPart (cs : List Char) : Option (String × List Char) :=
  match cs with
  | '"' :: rest => (readQuoted cs.length rest).map fun (k, rest) => (String.ofList k, rest)
  | c :: rest =>
    if c = apostrophe then (readLiteral rest).map fun (k, rest) => (String.ofList k, rest)
    else if isBare c then
      some (String.ofList (cs.takeWhile isBare), cs.dropWhile isBare)
    else none
  | [] => none

/-- Read the parts of a key, with at most `fuel` of them, and the blanks around them. -/
def readKeyParts : Nat → List Char → Option (List String × List Char)
  | 0, _ => none
  | fuel + 1, cs => do
    let (part, rest) ← readPart (skipBlanks cs)
    match skipBlanks rest with
    | '.' :: rest =>
      let (parts, rest) ← readKeyParts fuel rest
      return (part :: parts, rest)
    | rest => return ([part], rest)

/-- Read a key: the parts in front, and the last one. -/
def readKey (cs : List Char) : Option ((List String × String) × List Char) := do
  let (parts, rest) ← readKeyParts (nestingLimit - 1) cs
  return ((parts.dropLast, ← parts.getLast?), rest)

def afterComment? : List Char → Option (List Char)
  | '#' :: rest =>
    let text := rest.takeWhile fun c => c ≠ '\n' ∧ c ≠ '\r'
    if text.all isPlain then some (rest.drop text.length) else none
  | cs => some cs

/-- Drop blanks, newlines and comments in front; `inComment` says whether a comment is
open. -/
def afterGap? (inComment : Bool) : List Char → Option (List Char)
  | [] => some []
  | '\n' :: rest | '\r' :: '\n' :: rest => afterGap? false rest
  | c :: rest =>
    if inComment then (if isPlain c then afterGap? true rest else none)
    else if isBlank c then afterGap? false rest
    else if c = '#' then afterGap? true rest
    else some (c :: rest)

mutual

/-- Read a value at a depth of nesting, with at most `fuel` steps. -/
def readValue (depth : Nat) : Nat → List Char → Option (Node × List Char)
  | 0, _ => none
  | fuel + 1, cs =>
    match cs with
    | '[' :: rest =>
      if nestingLimit ≤ depth + 1 then none
      else (readItems (depth + 1) fuel rest).map fun (items, rest) => (.array items, rest)
    | '\x7b' :: rest =>
      if nestingLimit ≤ depth + 1 then none
      else
        match skipBlanks rest with
        | '\x7d' :: rest => some (.table .inline [], rest)
        | _ =>
          (readInline (depth + 1) [] fuel rest).map fun (fields, rest) =>
            (.table .inline fields, rest)
    | _ =>
      match cs.head? with
      | none => none
      | some c =>
        if c = '"' ∨ c = apostrophe then
          (readText (fuel + 1) cs).map fun (content, rest) => (.text content, rest)
        else
          match afterWord? "true" cs, afterWord? "false" cs with
          | some rest, _ => some (.bool true, rest)
          | none, some rest => some (.bool false, rest)
          | none, none =>
            match readMoment cs with
            | some (written, rest) => some (.moment (String.ofList written), rest)
            | none => readNumber cs

def readItems (depth : Nat) : Nat → List Char → Option (List Node × List Char)
  | 0, _ => none
  | fuel + 1, cs => do
    match (← afterGap? false cs) with
    | ']' :: rest => return ([], rest)
    | rest =>
      let (item, rest) ← readValue depth fuel rest
      match (← afterGap? false rest) with
      | ',' :: rest =>
        let (items, rest) ← readItems depth fuel rest
        return (item :: items, rest)
      | ']' :: rest => return ([item], rest)
      | _ => none

/-- Read the assignments of an inline table, at least one, and its closing brace. -/
def readInline (depth : Nat) (fields : Fields) : Nat → List Char → Option (Fields × List Char)
  | 0, _ => none
  | fuel + 1, cs => do
    let ((path, name), rest) ← readKey cs
    let (value, rest) ← readValue depth fuel (skipBlanks (← afterChar? '=' rest))
    let fields ← Fields.assign .inline fields path name value
    match skipBlanks rest with
    | ',' :: rest => readInline depth fields fuel rest
    | '\x7d' :: rest => return (fields, rest)
    | _ => none

end

structure Draft where
  root : Fields := []
  path : List String := []

/-- Read the statement of a line, an assignment or the header of a section, with at most
`fuel` steps for a value. -/
def Draft.read (d : Draft) (fuel : Nat) (cs : List Char) : Option (Draft × List Char) := do
  match cs with
  | '[' :: '[' :: rest =>
    let ((path, name), rest) ← readKey rest
    let rest ← afterChar? ']' (← afterChar? ']' rest)
    return (⟨← d.root.openArray path name, path ++ [name]⟩, rest)
  | '[' :: rest =>
    let ((path, name), rest) ← readKey rest
    let rest ← afterChar? ']' rest
    return (⟨← d.root.openTable path name, path ++ [name]⟩, rest)
  | _ =>
    let ((path, name), rest) ← readKey cs
    let rest := skipBlanks (← afterChar? '=' rest)
    let (value, rest) ← readValue 0 fuel rest
    let root ← Fields.change false (fun origin fields => fields.assign origin path name value)
      d.path .header d.root
    return ({ d with root }, rest)

/-- Read lines to the end, with at most `fuel` of them, each with at most that many steps. -/
def readLines : Nat → Draft → List Char → Option Fields
  | 0, _, _ => none
  | fuel + 1, d, cs => do
    let cs := skipBlanks cs
    let (d, rest) ← match cs with
      | [] | '#' :: _ | '\n' :: _ | '\r' :: _ => some (d, cs)
      | _ => d.read (fuel + 1) cs
    match (← afterComment? (skipBlanks rest)) with
    | [] => return d.root
    | rest => readLines fuel d (← afterNewline? rest)

/-- Read a document.  A byte order mark in front is left out. -/
def read? (text : String) : Option Fields := do
  let cs := text.toList
  let cs := match cs with
    | c :: rest => if c.toNat = 0xFEFF then rest else cs
    | [] => cs
  (← readLines (cs.length + 1) {} cs).withMoments?

end Toml
end KernelDepot

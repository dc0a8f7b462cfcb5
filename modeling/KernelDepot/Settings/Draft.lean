/-
Settings that are being collected.

Settings come from a document and from the environment, key by key, and a later value
replaces an earlier one, except that a table without fields has nothing to replace it
with.  A key is not case sensitive.  It may be a path: a part behind a point makes the
value in front of it a table, and a number in brackets is an item of a list, counted from
the end if it is negative.  In the end the values are converted to what the settings need:
a truth value may be given as a number or as a word, a text as anything that is not a list
or a table, and a list only as a list.
-/
import KernelDepot.Json.Value
import KernelDepot.Settings.Basic
import KernelDepot.Toml.Reader

namespace KernelDepot

/-- A value for a setting.  What is inside a table is of no use to any setting, only whether
there is anything. -/
inductive Setting where
  | nothing
  | bool (value : Bool)
  | integer (value : Int)
  | float (value : Number.Binary64)
  | text (content : String)
  | list (items : List Setting)
  | table (isEmpty : Bool)

namespace Setting

def ofNode : Toml.Node → Setting
  | .text content => text content
  | .integer n => integer n
  | .float x => float x
  | .bool b => bool b
  | .moment written => text written
  | .array items => list (items.attach.map fun ⟨item, _⟩ => ofNode item)
  | .table _ fields => table fields.isEmpty
  | .tables items => list (items.map fun fields => table fields.isEmpty)

/-- A character in lower case, where the result is an ASCII letter. -/
def lowerChar (c : Char) : Char := if c.toNat = 0x212A then 'k' else c.toLower

def lower (s : String) : String := String.ofList (s.toList.map lowerChar)

/-- A truth value: as such, a number that is not zero, or a word for it. -/
def bool? : Setting → Option Bool
  | bool b => some b
  | integer n => some (n != 0)
  | float x => some !x.isZero
  | text s =>
    let word := lower s
    if word ∈ ["1", "true", "on", "yes"] then some true
    else if word ∈ ["0", "false", "off", "no"] then some false
    else none
  | _ => none

/-- A text, or the written form of a single value. -/
def text? : Setting → Option String
  | text s => some s
  | bool b => some (if b then "true" else "false")
  | integer n => some (Number.signedText n)
  | float x => some (String.ofList x.text)
  | _ => none

def texts? : Setting → Option (List String)
  | list items => items.mapM text?
  | _ => none

inductive Step where
  | field (name : String)
  /-- An item of a list, counted from the end if the index is negative. -/
  | item (index : Int)
  deriving DecidableEq, Repr

/-- The place that an index means in a list of `length` items. -/
def place (length : Nat) (index : Int) : Nat :=
  if index < 0 then length - index.natAbs else index.natAbs

/-- Put a value into another one.  A list is filled up to the place of its new item. -/
def put (value : Setting) : List Step → Setting → Setting
  | [], _ => value
  | .field _ :: _, _ => table false
  | .item index :: rest, old =>
    let items := match old with
      | list items => items
      | _ => []
    let i := place items.length index
    let padded := items ++ List.replicate (i + 1 - items.length) nothing
    list (padded.set i (put value rest (padded.getD i nothing)))

/-- Whether a character may stand in a part of a path. -/
def isPartChar (c : Char) : Bool := c.isAlphanum || c == '_' || c == '-' || c == ' '

/-- The integer of 64 bits that decimal digits and a sign give. -/
def integerOf? (negative : Bool) (digits : List Char) : Option Int :=
  if digits.isEmpty ∨ ¬ digits.all Char.isDigit then none
  else
    let n : Int := Toml.digitsValue 10 digits
    let value := if negative then -n else n
    if -0x8000000000000000 ≤ value ∧ value < 0x8000000000000000 then some value else none

/-- Read an index and its closing bracket.  There may be blanks around the number, and a
minus sign in front of it. -/
def readIndex (cs : List Char) : Option (Int × List Char) := do
  let cs := Toml.skipBlanks cs
  let (negative, cs) := match cs with
    | '-' :: rest => (true, rest)
    | _ => (false, cs)
  let digits := cs.takeWhile Char.isDigit
  let index ← integerOf? negative digits
  return (index, ← Toml.afterChar? ']' (Toml.skipBlanks (cs.drop digits.length)))

/-- Read the steps behind the first part of a path, with at most `fuel` of them. -/
def readSteps : Nat → List Char → Option (List Step)
  | _, [] => some []
  | 0, _ => none
  | fuel + 1, '.' :: rest => do
    let part := rest.takeWhile isPartChar
    if part.isEmpty then none
    else return .field (String.ofList part) :: (← readSteps fuel (rest.drop part.length))
  | fuel + 1, '[' :: rest => do
    let (index, rest) ← readIndex rest
    return .item index :: (← readSteps fuel rest)
  | _, _ => none

/-- The first part of a key and the steps behind it.  A key that is no path is a single
part. -/
def readKey (key : String) : String × List Step :=
  let cs := key.toList
  let first := cs.takeWhile isPartChar
  match readSteps cs.length (cs.drop first.length) with
  | some steps => if first.isEmpty then (key, []) else (String.ofList first, steps)
  | none => (key, [])

end Setting

abbrev SettingsDraft := NameTable Setting

namespace SettingsDraft

/-- Set a key.  A table without fields leaves a value that is there as it is. -/
def set (d : SettingsDraft) (key : String) (value : Setting) : SettingsDraft :=
  let (first, steps) := Setting.readKey key
  let name := Setting.lower first
  match steps, value, d.find? name with
  | [], .table true, some _ => d
  | _, _, old => d.insert name (Setting.put value steps (old.getD .nothing))

def setAll (d : SettingsDraft) (values : List (String × Setting)) : SettingsDraft :=
  values.foldl (fun d (key, value) => d.set key value) d

def ofDocument (fields : Toml.Fields) : List (String × Setting) :=
  fields.map fun (key, node) => (key, Setting.ofNode node)

/-- The beginning of the names of variables that are settings. -/
def variableLead : String := "ringkernel_loader_"

/-- The settings that may be given as a list between commas. -/
def listKeys : List String := ["default_flags", "include_dirs", "builtin_includes"]

def commaSeparated (s : String) : List String := (s.toList.splitOn ',').map String.ofList

/-- An integer of 64 bits with an optional sign. -/
def integer? (s : String) : Option Int :=
  match s.toList with
  | '-' :: rest => Setting.integerOf? true rest
  | '+' :: rest => Setting.integerOf? false rest
  | cs => Setting.integerOf? false cs

/-- The value that the text of a variable stands for. -/
def ofVariable (key text : String) : Setting :=
  if Setting.lower text = "true" then .bool true
  else if Setting.lower text = "false" then .bool false
  else
    match integer? text, Number.Binary64.parse? text.toList with
    | some n, _ => .integer n
    | none, some x => .float x
    | none, none =>
      if key ∈ listKeys then .list ((commaSeparated text).map .text) else .text text

/-- The text with every two underscores in a row replaced by a point. -/
def pointed : List Char → List Char
  | '_' :: '_' :: rest => '.' :: pointed rest
  | c :: rest => c :: pointed rest
  | [] => []

/-- The setting that a variable gives. -/
def ofVariable? (name text : String) : Option (String × Setting) := do
  let rest ← Text.after? variableLead.toList (Setting.lower name).toList
  let key := String.ofList (pointed rest)
  return (key, ofVariable key text)

def ofEnvironment (env : Environment) : List (String × Setting) :=
  env.filterMap fun (name, text) => ofVariable? name text

def get {α : Type} (d : SettingsDraft) (key : String) (convert : Setting → Option α)
    (default : α) : Option α :=
  match d.find? key with
  | none => some default
  | some value => convert value

def settings? (d : SettingsDraft) : Option Settings := do
  let default : Settings := {}
  return {
    cacheDir := ← d.get "cache_dir" (fun
      | .nothing => some none
      | value => value.text?.map some) none
    diskCache := ← d.get "disk_cache" Setting.bool? default.diskCache
    defaultFlags := ← d.get "default_flags" Setting.texts? default.defaultFlags
    includeDirs := ← d.get "include_dirs" Setting.texts? default.includeDirs
    bundledHeaders := ← d.get "bundled_headers" Setting.bool? default.bundledHeaders
    builtinIncludes := ← d.get "builtin_includes" Setting.texts? default.builtinIncludes
    verbose := ← d.get "verbose" Setting.bool? default.verbose }

end SettingsDraft

namespace Settings

def ofDraft (d : SettingsDraft) : Except SettingsFault Settings :=
  match d.settings? with
  | none => .error .unreadable
  | some s => s.validate.map fun _ => s

def ofEnvironment (env : Environment) : Except SettingsFault Settings :=
  ofDraft (SettingsDraft.setAll .empty (SettingsDraft.ofEnvironment env))

/-- The settings in a document, with those of the environment over them. -/
def ofDocument (env : Environment) (text : String) : Except SettingsFault Settings :=
  match Toml.read? text with
  | none => .error .unreadable
  | some fields =>
    ofDraft ((SettingsDraft.setAll .empty (SettingsDraft.ofDocument fields)).setAll
      (SettingsDraft.ofEnvironment env))

/-- The file that a path stands for: the file of that name if it is a document, and the
file with the extension added if there is none of that name. -/
def documentPath? (disk : Disk) (path : String) : Option String :=
  if disk.isFile path then
    if Path.extension? path = some "toml" then some path else none
  else
    match Path.fileName? path with
    | none => none
    | some name =>
      let beside := match Path.parent? path with
        | some dir => Path.join dir (name ++ ".toml")
        | none => name ++ ".toml"
      if disk.isFile beside then some beside else none

/-- The settings in a file, with those of the environment over them. -/
def load (disk : Disk) (env : Environment) (path : String) : Except SettingsFault Settings :=
  let text := do
    let content ← (disk.read (← documentPath? disk path)).toOption
    Text.ofBytes? content
  match text with
  | none => .error .unreadable
  | some text => ofDocument env text

def fieldNames : List String :=
  ["cache_dir", "disk_cache", "default_flags", "include_dirs", "bundled_headers",
    "builtin_includes", "verbose"]

/-- The settings in a JSON value; fields may be absent, and nothing is converted. -/
def ofJson? (text : String) : Option Settings := do
  let fields ← (← Json.read? (Text.bytes text)).record? fieldNames
  let default : Settings := {}
  let get {α : Type} (name : String) (read : Json.Value → Option α) (absent : α) : Option α :=
    match fields.lookup name with
    | none => some absent
    | some value => read value
  return {
    cacheDir := ← get "cache_dir" (fun
      | .null => some none
      | value => value.text?.map some) none
    diskCache := ← get "disk_cache" Json.Value.bool? default.diskCache
    defaultFlags := ← get "default_flags" Json.Value.texts? default.defaultFlags
    includeDirs := ← get "include_dirs" Json.Value.texts? default.includeDirs
    bundledHeaders := ← get "bundled_headers" Json.Value.bool? default.bundledHeaders
    builtinIncludes := ← get "builtin_includes" Json.Value.texts? default.builtinIncludes
    verbose := ← get "verbose" Json.Value.bool? default.verbose }

end Settings
end KernelDepot

/-
A folder of files that many calls use at once.

A folder is what a store sees of its directory: the content of each file, and the tickets
that were given out.  Its operations are single steps.  A file is read at one moment and is
renamed at one moment; a listing is not made at one moment, so it may name anything.  Each
ticket is given out once.

A step can also fail, for any reason.  What fails to be written may leave anything behind
under its name, and a file that is there may seem not to be.
-/
import KernelDepot.Artifact.Store

namespace KernelDepot

structure Folder where
  content : String → Option Bytes := fun _ => none
  issued : List Ticket := []

namespace Folder

/-- Put something in the place of a file; `none` takes the file away. -/
def set (d : Folder) (name : String) (content : Option Bytes) : Folder :=
  { d with content := fun n => if n = name then content else d.content n }

@[simp] theorem content_set_self (d : Folder) (name : String) (content : Option Bytes) :
    (d.set name content).content name = content :=
  if_pos rfl

theorem content_set_of_ne (d : Folder) {name n : String} (content : Option Bytes) (h : n ≠ name) :
    (d.set name content).content n = d.content n :=
  if_neg h

def issue (d : Folder) (ticket : Ticket) : Folder := { d with issued := ticket :: d.issued }

@[simp] theorem content_issue (d : Folder) (ticket : Ticket) :
    (d.issue ticket).content = d.content := rfl

inductive Step : Folder → (op : FileOp) → op.Reply → Folder → Prop where
  | isFile (d : Folder) (name : String) : Step d (.isFile name) (d.content name).isSome d
  | read {d : Folder} {name : String} {bytes : Bytes} (h : d.content name = some bytes) :
    Step d (.read name) (.ok bytes) d
  | readNothing {d : Folder} {name : String} (h : d.content name = none) :
    Step d (.read name) (.error .notFound) d
  | write (d : Folder) (name : String) (bytes : Bytes) :
    Step d (.write name bytes) (.ok ()) (d.set name (some bytes))
  | rename {d : Folder} {source target : String} {bytes : Bytes}
    (h : d.content source = some bytes) :
    Step d (.rename source target) (.ok ()) ((d.set source none).set target (some bytes))
  | renameNothing {d : Folder} {source target : String} (h : d.content source = none) :
    Step d (.rename source target) (.error .notFound) d
  | delete {d : Folder} {name : String} {bytes : Bytes} (h : d.content name = some bytes) :
    Step d (.delete name) (.ok ()) (d.set name none)
  | deleteNothing {d : Folder} {name : String} (h : d.content name = none) :
    Step d (.delete name) (.error .notFound) d
  | list (d : Folder) (names : List String) : Step d .list (.ok names) d
  | size {d : Folder} {name : String} {bytes : Bytes} (h : d.content name = some bytes) :
    Step d (.size name) (.ok bytes.length) d
  | sizeNothing {d : Folder} {name : String} (h : d.content name = none) :
    Step d (.size name) (.error .notFound) d
  | ticket {d : Folder} {t : Ticket} (h : t ∉ d.issued) : Step d .ticket t (d.issue t)

inductive Fault : Folder → (op : FileOp) → op.Reply → Folder → Prop where
  | isFile (d : Folder) (name : String) : Fault d (.isFile name) false d
  | read (d : Folder) (name : String) (e : FileFault) : Fault d (.read name) (.error e) d
  | write (d : Folder) (name : String) (bytes : Bytes) (e : FileFault) (left : Option Bytes) :
    Fault d (.write name bytes) (.error e) (d.set name left)
  | rename (d : Folder) (source target : String) (e : FileFault) :
    Fault d (.rename source target) (.error e) d
  | delete (d : Folder) (name : String) (e : FileFault) : Fault d (.delete name) (.error e) d
  | list (d : Folder) (e : FileFault) : Fault d .list (.error e) d
  | size (d : Folder) (name : String) (e : FileFault) : Fault d (.size name) (.error e) d

/-- A program is executed without faults and without anybody else: its result, and what it
leaves. -/
inductive Runs {α : Type} : Folder → Filing α → α → Folder → Prop where
  | done (d : Folder) (a : α) : Runs d (.done a) a d
  | ask {d d' d'' : Folder} {op : FileOp} {next : op.Reply → Filing α} {reply : op.Reply} {a : α}
    (h : Step d op reply d') (hnext : Runs d' (next reply) a d'') : Runs d (.ask op next) a d''

end Folder
end KernelDepot

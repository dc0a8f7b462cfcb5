/-
Records in words.

A record is written as its name and, between braces, its fields, each as a name and a
value that is written already.  A value that has a name and no field names is written
with parentheses.
-/
import KernelDepot.Text.Quoted

namespace KernelDepot
namespace Text

def braced (fields : List (String × String)) : String :=
  "\x7b" ++ ", ".intercalate (fields.map fun (name, value) => name ++ ": " ++ value) ++ "\x7d"

def record (name : String) (fields : List (String × String)) : String :=
  name ++ " \x7b " ++ ", ".intercalate (fields.map fun (field, value) => field ++ ": " ++ value) ++
    " \x7d"

def tagged (name value : String) : String := name ++ "(" ++ value ++ ")"

end Text
end KernelDepot

/-
Providers given by a table of exact names.

A name is served if it is listed, and it fails if a failure is listed for it.
Names are compared as they are.
-/
import KernelDepot.Provider

namespace KernelDepot

structure AnswerTable where
  id : String
  kind : ProviderKind
  files : List (String × Bytes)
  failures : List (String × FileFault)

namespace AnswerTable

def lookup (t : AnswerTable) (name : String) : Except FileFault (Option Bytes) :=
  match t.failures.lookup name with
  | some fault => .error fault
  | none => .ok (t.files.lookup name)

def provider (t : AnswerTable) : Provider where
  id := t.id
  kind := t.kind
  lookup _ name := t.lookup name
  texts _ := t.files.map Prod.snd
  mem_texts _ name content h := by
    simp only [lookup] at h
    split at h
    · simp at h
    · simp only [Except.ok.injEq] at h
      obtain ⟨front, back, he, -⟩ := List.lookup_eq_some_iff.mp h
      simp [he]

end AnswerTable
end KernelDepot

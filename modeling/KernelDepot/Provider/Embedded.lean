/-
Providers that serve a built-in table.

Names are looked up in one form: backslashes are separators, and any number of
`./` in front is left out.  The names of the table are brought to the same form,
and of two that fall together the later one counts.
-/
import KernelDepot.NameTable
import KernelDepot.Provider

namespace KernelDepot

structure EmbeddedFiles where
  name : String
  files : NameTable String

namespace EmbeddedFiles

/-- The form in which names are compared. -/
def normalize (name : String) : String :=
  String.ofList (Text.dropRepeated "./".toList (Text.replaceChar '\\' '/' name.toList))

/-- The table of some files; the last content given for a name counts. -/
def ofList (name : String) (files : List (String × String)) : EmbeddedFiles :=
  ⟨name, .ofList (files.map fun (n, content) => (normalize n, content))⟩

def id (e : EmbeddedFiles) : String := "embedded:" ++ e.name

def find? (e : EmbeddedFiles) (name : String) : Option Bytes :=
  (e.files.find? (normalize name)).map Text.bytes

def provider (e : EmbeddedFiles) : Provider where
  id := e.id
  kind := .embedded
  lookup _ name := .ok (e.find? name)
  texts _ := e.files.values.map Text.bytes
  mem_texts _ name content h := by
    simp only [find?, Except.ok.injEq, Option.map_eq_some_iff, NameTable.find?] at h
    obtain ⟨text, hl, rfl⟩ := h
    obtain ⟨front, back, he, -⟩ := List.lookup_eq_some_iff.mp hl
    simp [NameTable.values, he]

end EmbeddedFiles

def bundledHeader : String := "// Helpers bundled with ringkernel-loader.
//
// Include as <ringkernel/loader.cuh>. Everything here is header-only device
// code and must compile under NVRTC without host headers.

#pragma once

// Integer division x / y rounded up.
#define RK_DIV_UP(x, y) (((x) + (y) - 1) / (y))

// Grid-stride loop over [0, n).
#define RK_GRID_STRIDE_LOOP(i, n)                                      \\
    for (long long i = (long long)blockIdx.x * blockDim.x + threadIdx.x; \\
         i < (long long)(n);                                           \\
         i += (long long)blockDim.x * gridDim.x)

namespace ringkernel \x7b

__device__ __forceinline__ unsigned int global_thread_id_x()
\x7b
    return blockIdx.x * blockDim.x + threadIdx.x;
\x7d

__device__ __forceinline__ unsigned int global_thread_count_x()
\x7b
    return gridDim.x * blockDim.x;
\x7d

\x7d // namespace ringkernel
"

def bundledHeaders : List (String × String) := [("ringkernel/loader.cuh", bundledHeader)]

def EmbeddedFiles.bundled : EmbeddedFiles := .ofList "ringkernel" bundledHeaders

end KernelDepot

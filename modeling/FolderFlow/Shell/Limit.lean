/-!
# Limits of processes

How much of a resource a process may use. A process obeys its soft limits; it may move them up to
the hard ones, and the hard ones only down.
-/

namespace FolderFlow.Shell

structure Resource where
  letter : Char
  name : String
  /-- In how many bytes, or other units of the system, it is counted. -/
  unit : Nat

def resources : List Resource :=
  [⟨'t', "time(seconds)", 1⟩, ⟨'f', "file(blocks)", 512⟩, ⟨'d', "data(kbytes)", 1024⟩,
    ⟨'s', "stack(kbytes)", 1024⟩, ⟨'c', "coredump(blocks)", 512⟩, ⟨'m', "memory(kbytes)", 1024⟩,
    ⟨'l', "locked memory(kbytes)", 1024⟩, ⟨'p', "process", 1⟩, ⟨'n', "nofiles", 1⟩,
    ⟨'v', "vmemory(kbytes)", 1024⟩, ⟨'w', "locks", 1⟩, ⟨'r', "rtprio", 1⟩]

structure Limit where
  soft : Nat
  hard : Nat
  deriving DecidableEq, Repr

namespace Limit

/-- The greatest number of the system, which limits nothing. -/
def infinity : Nat :=
  0x10000000000000000 - 1

def unlimited : Limit :=
  ⟨infinity, infinity⟩

/-- The limits that differ from no limit when a script is started. -/
def first : List (Char × Limit) :=
  [('s', ⟨8388608, infinity⟩), ('c', ⟨0, infinity⟩), ('l', ⟨8388608, 8388608⟩),
    ('p', ⟨128620, 128620⟩), ('n', ⟨20000, 20000⟩), ('r', ⟨0, 0⟩)]

/-- Why a limit cannot be put in the place of another, if it cannot. -/
def refusal? (before after : Limit) : Option String :=
  if after.hard < after.soft then some "Invalid argument"
  else if before.hard < after.hard then some "Operation not permitted"
  else none

end Limit

end FolderFlow.Shell

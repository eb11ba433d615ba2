import Agnocast.Kmod.Basic
import Agnocast.Lib.Dict
import Agnocast.Lib.Text
import Agnocast.Lib.Transition

/-!
# The type registry

Each process appends a line per endpoint to a file of its own, in the directory of its ipc
namespace (`type_registry_writer.cpp`); the discovery agent reads all files of the directory
(`type_registry.py`).

One step of the system is a call of `register_type` up to its loop, or one `write(2)` of a loop.
The reader may look in between. A file is named after the pid of its process, so the directory is a
file for every pid; in which order the reader sees them is not determined. What the reader logs is
left out.
-/

namespace Agnocast

/-! ## The writer -/

/-- The arguments of `register_type`. -/
structure Registration where
  topicName : Name
  typeName : Name
  role : Name
  nodeName : Name
  deriving DecidableEq, Repr

/-- `(topic_name, role, node_name)`, the match key of the reader. -/
abbrev RegistryKey := Name × Name × Name

namespace Registration

variable (reg : Registration)

def key : RegistryKey := (reg.topicName, reg.role, reg.nodeName)

/-- The line without its end. -/
def body : List Char :=
  reg.topicName ++ ['\t'] ++ reg.typeName ++ ['\t'] ++ reg.role ++ ['\t'] ++ reg.nodeName

/-- `line`. -/
def line : List Char := reg.body ++ ['\n']

end Registration

/-- What one `write(2)` returns: a number of bytes, `EINTR`, or another error. -/
inductive WriteResult
  | wrote (n : Nat)
  | interrupted
  | failed
  deriving DecidableEq, Repr

/-- `TypeRegistryWriter` and its file. There is a file when `fd_` is open. `pending` is the call
that is in its loop, holding the mutex, with the bytes that remain. -/
structure TypeRegistryWriter where
  file : Option (List UInt8)
  openFailedWarned : Bool
  pending : Option (Registration × List UInt8)
  deriving DecidableEq, Repr

namespace TypeRegistryWriter

variable (w : TypeRegistryWriter)

/-- `ensure_open_locked`, when `opens` tells whether the namespace can be read, the directories
made and the file opened. -/
def ensureOpenLocked (opens : Bool) : TypeRegistryWriter :=
  if w.file.isSome then w
  else if w.openFailedWarned then w
  else if opens then { w with file := some [] }
  else { w with openFailedWarned := true }

/-- `register_type` up to its loop. -/
def registerType (reg : Registration) (opens : Bool) : TypeRegistryWriter :=
  let w := w.ensureOpenLocked opens
  if w.file.isSome then { w with pending := some (reg, Text.encode reg.line) } else w

/-- One turn of the loop. -/
def write (result : WriteResult) : TypeRegistryWriter :=
  match w.pending, w.file with
  | some (reg, remaining), some data =>
    match result with
    | .wrote n =>
      if 0 < n then
        { w with
          file := some (data ++ remaining.take n)
          pending := if (remaining.drop n).isEmpty then none else some (reg, remaining.drop n) }
      else { w with pending := none }
    | .interrupted => w
    | .failed => { w with pending := none }
  | _, _ => w

/-- The registration whose line the turn finishes. -/
def finishes (result : WriteResult) : Option Registration :=
  match w.pending, result with
  | some (reg, remaining), .wrote n => if 0 < n ∧ (remaining.drop n).isEmpty then some reg else none
  | _, _ => none

end TypeRegistryWriter

/-! ## The system -/

/-- The writers of all processes. The rest is what a run remembers: the calls that were made, and
those whose whole line was written, oldest first. -/
structure TypeRegistry where
  writers : Pid → TypeRegistryWriter
  begun : List (Pid × Registration)
  written : List (Pid × Registration)

/-- What happens. -/
inductive RegistryInput
  | registerType (pid : Pid) (reg : Registration) (opens : Bool)
  | write (pid : Pid) (result : WriteResult)

namespace TypeRegistry

variable (s : TypeRegistry)

/-- A call; while another one holds the mutex it has to wait. -/
def registerType (pid : Pid) (reg : Registration) (opens : Bool) : TypeRegistry :=
  if (s.writers pid).pending.isSome then s
  else
    { s with
      writers := Function.update s.writers pid ((s.writers pid).registerType reg opens)
      begun := s.begun ++ [(pid, reg)] }

def write (pid : Pid) (result : WriteResult) : TypeRegistry :=
  { s with
    writers := Function.update s.writers pid ((s.writers pid).write result)
    written := s.written ++ (((s.writers pid).finishes result).map (Prod.mk pid)).toList }

/-- Nobody has registered anything. -/
def empty : TypeRegistry where
  writers := fun _ => ⟨none, false, none⟩
  begun := []
  written := []

end TypeRegistry

/-- One step. -/
def TypeRegistry.step (s : TypeRegistry) : RegistryInput → Unit × TypeRegistry
  | .registerType pid reg opens => ((), s.registerType pid reg opens)
  | .write pid result => ((), s.write pid result)

/-- The processes of one ipc namespace and their files. -/
def typeRegistry : Transition.System TypeRegistry RegistryInput Unit where
  init s := s = .empty
  step := TypeRegistry.step

/-! ## The reader -/

/-- `RegistryEntry`. -/
structure RegistryEntry where
  pid : Pid
  typeName : Name
  deriving DecidableEq, Repr

abbrev RegistryTable := List (RegistryKey × RegistryEntry)

def rolePub : Name := ['p', 'u', 'b']

def roleSub : Name := ['s', 'u', 'b']

/-- The body of the loop of `_ingest_file`. -/
def ingestLine (pid : Pid) (table : RegistryTable) (rawLine : List Char) : RegistryTable :=
  if rawLine.getLast? ≠ some '\n' then table
  else
    match rawLine.dropLast.splitOn '\t' with
    | topic :: typeName :: role :: nodeName :: _ =>
      if role = rolePub ∨ role = roleSub then
        Dict.set table (topic, role, nodeName) ⟨pid, typeName⟩
      else table
    | _ => table

/-- `_ingest_file`. -/
def ingestFile (pid : Pid) (data : List UInt8) (table : RegistryTable) : RegistryTable :=
  (Text.splitLines (Text.decode data)).foldl (ingestLine pid) table

/-- `rebuild`, when the directory lists the files in this order. -/
def rebuild (s : TypeRegistry) (entries : List Pid) : RegistryTable :=
  entries.foldl
    (fun table pid =>
      match (s.writers pid).file with
      | none => table
      | some data => ingestFile pid data table)
    []

/-- `lookup`. -/
def lookup (table : RegistryTable) (topicName role nodeName : Name) : Option RegistryEntry :=
  Dict.get table (topicName, role, nodeName)

end Agnocast

import BtClient.Library.Effects
import BtClient.Logging

/-!
# The file system

The part of the operating system that the client uses: a tree of files, a clock, and the
faults that the next operations will meet. A fault is reported by the operation that
meets it, or it ends the process, or it hits a write whose bytes were still in the buffer
of the stream: these are lost when the stream is destroyed, and nobody is told.

There are no links, and nobody else writes to the tree while the client runs.
-/

namespace BtClient

abbrev Tree := FileTree ByteString ByteString

/-- The names that lead to a file or a directory from the root. -/
abbrev Location := List ByteString

/-- What happens to the next operation. Of the bytes it writes, only the first `reached`
get to the device. -/
inductive Fault where
  | none
  | reported (reached : ℕ)
  | unnoticed (reached : ℕ)
  | crash (reached : ℕ)
  deriving DecidableEq

structure World where
  tree : Tree
  faults : List Fault := []
  clock : List TimestampPair := []

/-- Why a computation stops: it throws, or the process is gone. -/
inductive Stop where
  | thrown (failure : Failure)
  | crash
  deriving DecidableEq

abbrev Action (α : Type) := Effect World Stop α

def throwFailure {α : Type} (failure : Failure) : Action α :=
  Effect.throw (.thrown failure)

/-- `catch`: a process that is gone catches nothing. -/
def catchFailure {α : Type} (m : Action α) (handler : Failure → Action α) : Action α :=
  m.handle fun
    | .thrown failure => handler failure
    | .crash => Effect.throw .crash

/-- `capture_timestamp` -/
def captureTimestamp : Action TimestampPair := fun w =>
  match w.clock with
  | [] => (.ok ⟨"1970-01-01T00:00:00.000000Z", 0⟩, w)
  | ts :: rest => (.ok ts, { w with clock := rest })

namespace FileSystem

/-- Where an absolute path leads in the tree. -/
def resolve (t : Tree) (p : Path) : Option Location := t.walk [] p.components

def find (t : Tree) (p : Path) : Option (Node ByteString) := (resolve t p).bind t.get?

def nextFault : Action Fault := fun w =>
  match w.faults with
  | [] => (.ok .none, w)
  | fault :: rest => (.ok fault, { w with faults := rest })

/-- An operation that either works or throws. -/
def checkpoint : Action Unit := do
  match ← nextFault with
  | .reported _ => throwFailure .filesystemError
  | .crash _ => Effect.throw .crash
  | _ => pure ()

def tree : Action Tree := do
  let w ← Effect.get
  pure w.tree

def setTree (t : Tree) : Action Unit := Effect.modify fun w => { w with tree := t }

/-- `std::filesystem::exists` -/
def pathExists (p : Path) : Action Bool := do
  checkpoint
  let t ← tree
  pure (find t p).isSome

/-- `std::filesystem::is_directory` -/
def isDirectory (p : Path) : Action Bool := do
  checkpoint
  let t ← tree
  pure (decide (find t p = some .dir))

/-- `std::filesystem::is_empty`, of a directory. -/
def isEmptyDirectory (p : Path) : Action Bool := do
  checkpoint
  let t ← tree
  match resolve t p with
  | some l => pure (t.children l).isEmpty
  | none => throwFailure .filesystemError

/-- The entries of a directory in the order in which the iterator yields them, each with
`is_directory()`. -/
def directoryEntries (p : Path) : Action (List (ByteString × Bool)) := do
  checkpoint
  let t ← tree
  match resolve t p with
  | some l =>
      if t.isDir l then
        pure ((t.children l).map fun name => (name, decide (t.isDir (l ++ [name]))))
      else throwFailure .filesystemError
  | none => throwFailure .filesystemError

/-- Make one directory, unless it is there. -/
def ensureDirectory (l : Location) : Action Unit := do
  let t ← tree
  match t.get? l with
  | some .dir => pure ()
  | some (.file _) => throwFailure .filesystemError
  | none => do
      checkpoint
      if h : t.Writable l then setTree (t.put l .dir h) else throwFailure .filesystemError

/-- Make the directories along the components. -/
def ensureDirectories (l : Location) : List (PathComponent ByteString) → Action Unit
  | [] => ensureDirectory l
  | c :: rest => do
      ensureDirectory l
      ensureDirectories (c.next l) rest

/-- `std::filesystem::create_directories` -/
def createDirectories (p : Path) : Action Unit := ensureDirectories [] p.components

/-- The tree after an empty directory at the destination of a rename has made way. -/
def vacated (t : Tree) (l : Location) : Tree :=
  if h : t.Removable l then t.remove l h else t

/-- `std::filesystem::rename` of a directory: the destination is free or an empty
directory, and neither path ends in `.` or `..`. -/
def rename (source destination : Path) : Action Unit := do
  checkpoint
  let t ← tree
  if source.endsInDots || destination.endsInDots then throwFailure .filesystemError
  else
    match resolve t source, resolve t destination with
    | some a, some b =>
        if h : (vacated t b).Movable a b then setTree ((vacated t b).move a b h)
        else throwFailure .filesystemError
    | _, _ => throwFailure .filesystemError

/-- The contents of a file that `std::ifstream` opens, nothing if it does not open. A
directory can be opened, but there is nothing to read in it. -/
def openForReading (p : Path) : Action (Option ByteString) := do
  match ← nextFault with
  | .reported _ => pure none
  | .crash _ => Effect.throw .crash
  | _ => do
      let t ← tree
      pure <| match find t p with
        | some (.file content) => some content
        | some .dir => some []
        | none => none

/-- Open a file with `std::ios::trunc`; the result is where it is, if it opened. -/
def openTruncated (p : Path) : Action (Option Location) := do
  match ← nextFault with
  | .reported _ => pure none
  | .crash _ => Effect.throw .crash
  | _ => do
      let t ← tree
      match resolve t p with
      | some l =>
          if h : t.Writable l then do
            setTree (t.put l (.file []) h)
            pure (some l)
          else pure none
      | none => pure none

/-- The tree after bytes have been added at the end of a file. -/
def appended (t : Tree) (l : Location) (data : ByteString) : Tree :=
  match t.get? l with
  | some (.file content) =>
      if h : t.Writable l then t.put l (.file (content ++ data)) h else t
  | _ => t

def append (l : Location) (data : ByteString) : Action Unit := do
  let t ← tree
  setTree (appended t l data)

/-- Write to a stream that is then checked and destroyed: whether the check finds it good.
What was only in the buffer may be lost after the check. -/
def writeBuffered (l : Location) (data : ByteString) : Action Bool := do
  match ← nextFault with
  | .none => do
      append l data
      pure true
  | .reported reached => do
      append l (data.take reached)
      pure false
  | .unnoticed reached => do
      append l (data.take reached)
      pure true
  | .crash reached => do
      append l (data.take reached)
      Effect.throw .crash

/-- Write to a stream and flush it: whether it is still good. -/
def writeFlushed (l : Location) (data : ByteString) : Action Bool := do
  match ← nextFault with
  | .none => do
      append l data
      pure true
  | .reported reached => do
      append l (data.take reached)
      pure false
  | .unnoticed reached => do
      append l (data.take reached)
      pure false
  | .crash reached => do
      append l (data.take reached)
      Effect.throw .crash

/-- Close a stream with an empty buffer: whether that went well. -/
def closeStream : Action Bool := do
  match ← nextFault with
  | .reported _ => pure false
  | .crash _ => Effect.throw .crash
  | _ => pure true

end FileSystem

/-- The directory the process runs in. -/
abbrev CurrentDir := {p : Path // p.isAbsolute = true}

/-- `std::filesystem::absolute`; the process stays in one directory. -/
def absolutePath (currentDir : CurrentDir) (p : Path) : Action Path :=
  match Path.absolute currentDir p with
  | some q => pure q
  | none => throwFailure .filesystemError

end BtClient

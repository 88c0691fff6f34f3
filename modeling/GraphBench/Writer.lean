import GraphBench.Dataset

/-!
Writers of open files. A writer gathers the bytes of a line in a buffer and hands them to the system before its call ends.
The system may refuse some of them: the call fails then, the bytes in front of these stay in the file, and the writer keeps
the others for its next line, or until it is closed. A text that fills the buffer by itself is handed over at once, and its
refused bytes are lost.
-/

namespace GraphBench

/-- A disk with the writers of its files: the bytes that a writer has kept, by the number of its file, and the number of
bytes that the system takes before it refuses, if it does. -/
structure Spool where
  disk : Disk
  kept : Nat → List UInt8
  room : Option Nat

/-- A computation with writers. Its changes stay when it fails. -/
abbrev Spooling := EStateM WorkloadError Spool

/-- The bytes that a buffer holds at most. -/
def bufferSize : Nat := 8192

namespace Spool

def keep (s : Spool) (number : Nat) (bytes : List UInt8) : Spool :=
  { s with kept := fun other => if other = number then bytes else s.kept other }

/-- Hands bytes to the system, and gives back those that it refuses. -/
def hand (s : Spool) (number : Nat) (bytes : List UInt8) : List UInt8 × Spool :=
  match s.room with
  | none => ([], { s with disk := s.disk.append number bytes.toByteArray })
  | some room =>
    (bytes.drop room,
      { s with disk := s.disk.append number (bytes.take room).toByteArray, room := some (room - bytes.length) })

end Spool

namespace TraceFile

/-- Hands over what has been kept. Refused bytes are kept on. -/
def flush (file : TraceFile) : Spooling Unit := fun s =>
  match s.hand file.number (s.kept file.number) with
  | ([], s) => .ok () (s.keep file.number [])
  | (rest, s) => .error (.unreadable file.path) (s.keep file.number rest)

/-- Hands over bytes past the buffer. Refused bytes are lost. -/
def bypass (file : TraceFile) (bytes : List UInt8) : Spooling Unit := fun s =>
  match s.hand file.number bytes with
  | ([], s) => .ok () s
  | (_, s) => .error (.unreadable file.path) s

def gather (file : TraceFile) (bytes : List UInt8) : Spooling Unit :=
  modify fun s => s.keep file.number (s.kept file.number ++ bytes)

/-- Takes bytes into the buffer. What has been kept is handed over first if they do not fit in behind it. -/
def write (file : TraceFile) (bytes : List UInt8) : Spooling Unit := do
  if bufferSize - ((← get).kept file.number).length < bytes.length then file.flush
  if bufferSize ≤ bytes.length then file.bypass bytes else file.gather bytes

/-- Closes a writer, which hands over what it has kept. Refused bytes are lost, and nothing is told of them. -/
def close (file : TraceFile) (s : Spool) : Spool :=
  (s.hand file.number (s.kept file.number)).2.keep file.number []

end TraceFile

/-- Appends a line to its file. -/
def TraceLine.append (line : TraceLine) : Spooling Unit := do
  line.file.write line.text.toUTF8.data.toList
  line.file.write "\n".toUTF8.data.toList
  line.file.flush

/-- Appends lines up to the first one that fails, and tells how many have been appended. -/
def Spool.appendLines (s : Spool) : List TraceLine → Nat × Spool
  | [] => (0, s)
  | line :: rest =>
    match line.append s with
    | .error _ s => (0, s)
    | .ok _ s =>
      let (count, s) := s.appendLines rest
      (count + 1, s)

def Spool.closeAll (s : Spool) (files : List TraceFile) : Spool :=
  files.foldl (fun s file => file.close s) s

end GraphBench

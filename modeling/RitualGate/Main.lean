import RitualGate.Command.Arguments
import Std.Time.DateTime.Timestamp

/-!
# The program

The system as a host, and the entry point.
-/

namespace RitualGate

namespace Main

/-- The number of an error of the system, and its words. -/
def errorCode : IO.Error → UInt32 × String
  | .alreadyExists _ n s | .resourceExhausted _ n s | .inappropriateType _ n s
  | .invalidArgument _ n s | .permissionDenied _ n s | .noSuchThing _ n s => (n, s)
  | .noFileOrDirectory _ n s | .interrupted _ n s => (n, s)
  | .otherError n s | .resourceBusy n s | .resourceVanished n s | .unsupportedOperation n s
  | .hardwareFault n s | .unsatisfiedConstraints n s | .illegalOperation n s
  | .protocolError n s | .timeExpired n s => (n, s)
  | .unexpectedEof => (0, "unexpected end of file")
  | .userError s => (0, s)

/-- The size of the number of an error, which some actions report below zero. -/
def absolute (n : UInt32) : UInt32 :=
  if n < 0x80000000 then n else 0 - n

/-- An error of the system as a failure of a file. -/
def ioError (e : IO.Error) : IoError :=
  let (n, s) := errorCode e
  match (absolute n).toNat with
  | 2 => .notFound
  | 17 => .alreadyExists
  | 20 => .notDirectory
  | 21 => .isDirectory
  | 28 => .noSpace
  | 36 => .nameTooLong
  | n => .other (s ++ " (os error " ++ Text.numeral n ++ ")")

/-- Runs an action of the system and keeps its failure. -/
def attempt {α : Type} (act : IO α) : IO (Except IoError α) := do
  try return .ok (← act)
  catch e => return .error (ioError e)

/-- What the system knows about a path, if there is something. -/
def metadata? (p : Path) : IO (Option IO.FS.Metadata) := do
  try return some (← (← IO.FS.realPath p.text).metadata)
  catch _ => return none

/-- The kind of what a path leads to. -/
def kindOf (p : Path) : IO (Option EntryKind) := do
  match ← metadata? p with
  | none => return none
  | some md =>
    match md.type with
    | .file => return some .file
    | .dir => return some .directory
    | _ => return some .device

/-- Cuts a file to a length. -/
def cut (p : Path) (length : USize) : IO Unit := do
  let h ← IO.FS.Handle.mk p.text .readWrite
  if length ≠ 0 then
    let _ ← h.read length
  h.truncate

/-- Appends to a file. A file in which only a part of the bytes arrive is cut back. -/
def appendTo (p : Path) (bytes : Bytes) : IO (Except IoError Unit) := do
  let before ← metadata? p
  let result ← attempt do
    let h ← IO.FS.Handle.mk p.text .append
    h.write bytes.toByteArray
    h.flush
  match result, before with
  | .error e, some md =>
    if md.type matches .file then
      let _ ← attempt (cut p md.byteSize.toUSize)
    return .error e
  | r, _ => return r

/-- Writes a file beside another, and moves it there once it is complete. A device is written to. -/
def replace (p : Path) (bytes : Bytes) : IO Unit := do
  if (← kindOf p) = some .device then IO.FS.writeBinFile p.text bytes.toByteArray
  else
    let beside := p.text ++ ".new"
    IO.FS.writeBinFile beside bytes.toByteArray
    IO.FS.rename beside p.text

/-- All that is left of a stream. -/
partial def readAll (s : IO.FS.Stream) (acc : ByteArray) : IO ByteArray := do
  let bytes ← s.read 65536
  if bytes.isEmpty then return acc else readAll s (acc ++ bytes)

/-- The system as a host. -/
instance : Host IO where
  now := do
    let t ← Std.Time.Timestamp.now
    return ⟨t.toNanosecondsSinceUnixEpoch.toInt.toNat⟩
  here := return .ofText (← IO.currentDir).toString
  input := return (← readAll (← IO.getStdin) .empty).toList
  kind? := kindOf
  canonical? p := do
    try return some (.ofText (← IO.FS.realPath p.text).toString)
    catch _ => return none
  read p := attempt do
    if (← kindOf p) = some .directory then
      throw (.inappropriateType none 21 "Is a directory")
    return (← IO.FS.readBinFile p.text).toList
  write p bytes := attempt (IO.FS.writeBinFile p.text bytes.toByteArray)
  commit p bytes := attempt (replace p bytes)
  touch p := attempt do
    let _ ← IO.FS.Handle.mk p.text .append
  append := appendTo
  makeDirs p := attempt (IO.FS.createDirAll p.text)

end Main

end RitualGate

/-- Does what the command line asks for. -/
def main (args : List String) : IO UInt32 := do
  match RitualGate.Command.readCommandLine false args with
  | .error usage =>
    if usage.status = 0 then IO.print usage.text else IO.eprint usage.text
    return usage.status
  | .ok (invocation, _) =>
    for line in invocation.warnings do
      IO.eprintln ("WARN " ++ line)
    let report ← invocation.perform
    IO.print report.out
    IO.eprint report.errorText
    return report.status

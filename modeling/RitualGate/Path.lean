import RitualGate.Text.Utf8

/-!
# Paths

A path is a sequence of bytes cut by slashes, most often the encoding of a text. Two sequences name
the same path if they have the same components: repeated slashes and inner dots do not count, a
leading dot and every `..` do.
-/

namespace RitualGate

/-- A path as it is written. -/
structure Path where
  bytes : Bytes
deriving DecidableEq, Repr

namespace Path

/-- The path that a text names. -/
def ofText (s : String) : Path := ⟨Text.encode s⟩

/-- A path as it is shown. -/
def text (p : Path) : String := Text.lossy p.bytes

/-- A step of a path. -/
inductive Component where
  /-- The slash that an absolute path begins with. -/
  | root
  /-- The dot that a relative path begins with. -/
  | here
  /-- The directory above. -/
  | up
  | name (s : Bytes)
deriving DecidableEq, Repr

/-- The byte between two segments. -/
def slash : UInt8 := 0x2F

/-- The byte of a segment that stays where it is. -/
def dot : UInt8 := 0x2E

/-- The bytes between the slashes. -/
def segments : Bytes → List Bytes
  | [] => [[]]
  | b :: bs =>
    if b = slash then [] :: segments bs
    else
      match segments bs with
      | [] => [[b]]
      | s :: ss => (b :: s) :: ss

/-- Segments with slashes between them. -/
def joinSegments (ss : List Bytes) : Bytes :=
  [slash].intercalate ss

/-- A segment that is no step: an empty one or a dot. -/
def isIdle (s : Bytes) : Bool :=
  s == [] || s == [dot]

/-- The step that a segment stands for. -/
def stepOf (s : Bytes) : Component :=
  if s = [dot, dot] then .up else .name s

/-- The steps of segments behind the first component. -/
def steps (ss : List Bytes) : List Component :=
  (ss.filter fun s => !isIdle s).map stepOf

/-- How a path begins. -/
inductive Start where
  | absolute
  | dotted
  | bare
deriving DecidableEq, Repr

/-- The beginning of a path and the segments behind it. -/
def parts (p : Path) : Start × List Bytes :=
  match segments p.bytes with
  | [] => (.bare, [])
  | s :: ss =>
    if s = [] ∧ ss ≠ [] then (.absolute, ss)
    else if s = [dot] then (.dotted, ss)
    else (.bare, s :: ss)

/-- The components of a path. -/
def components (p : Path) : List Component :=
  match p.parts with
  | (.absolute, ss) => .root :: steps ss
  | (.dotted, ss) => .here :: steps ss
  | (.bare, ss) => steps ss

/-- Whether a path begins at the root. -/
def isAbsolute (p : Path) : Bool :=
  decide (p.parts.1 = .absolute)

/-- Segments without the idle ones at the end. -/
def trimTail (ss : List Bytes) : List Bytes :=
  (ss.reverse.dropWhile isIdle).reverse

/-- The path that begins in some way and goes on with some segments. -/
def ofParts (start : Start) (ss : List Bytes) : Path :=
  match start with
  | .absolute => ⟨slash :: joinSegments ss⟩
  | .dotted => ⟨joinSegments ([dot] :: ss)⟩
  | .bare => ⟨joinSegments ss⟩

/-- A path without the idle segments at its end. -/
def trimEnd (p : Path) : Path :=
  ofParts p.parts.1 (trimTail p.parts.2)

/-- The segments that follow a number of steps. -/
def dropSteps : Nat → List Bytes → List Bytes
  | 0, ss => ss
  | _ + 1, [] => []
  | n + 1, s :: ss => if isIdle s then dropSteps (n + 1) ss else dropSteps n ss

/-- The segments that follow a number of components, at least one. -/
def dropComponents (n : Nat) (p : Path) : List Bytes :=
  match p.parts with
  | (.bare, ss) => dropSteps n ss
  | (_, ss) => dropSteps (n - 1) ss

/-- What remains of a path behind a base, if the path begins with the components of the base. -/
def stripBase? (p base : Path) : Option Path :=
  if base.components = [] then some p.trimEnd
  else if base.components.isPrefixOf p.components then
    some (ofParts .bare (trimTail ((dropComponents base.components.length p).dropWhile isIdle)))
  else none

/-- A path seen from a base: itself if it is absolute, else appended with one slash between. -/
def join (base p : Path) : Path :=
  if p.isAbsolute then p
  else if base.bytes = [] ∨ base.bytes.getLast? = some slash then ⟨base.bytes ++ p.bytes⟩
  else ⟨base.bytes ++ slash :: p.bytes⟩

/-- A path joined with a text. -/
def child (base : Path) (name : String) : Path :=
  base.join (ofText name)

/-- The path without its last component, unless that is the root. -/
def parent? (p : Path) : Option Path :=
  match p.parts.1, trimTail p.parts.2 with
  | .absolute, [] => none
  | .bare, [] => none
  | .dotted, [] => some ⟨[]⟩
  | start, ss => some (ofParts start (trimTail ss.dropLast))

/-- A path and its parents, at most a number of them. -/
def ancestorsUpTo : Nat → Path → List Path
  | 0, p => [p]
  | n + 1, p =>
    match p.parent? with
    | some q => p :: ancestorsUpTo n q
    | none => [p]

/-- A path, its parent, the parent of that, and so on. -/
def ancestors (p : Path) : List Path :=
  ancestorsUpTo p.components.length p

/-- The name that a path ends in. -/
def fileName? (p : Path) : Option Bytes :=
  match p.components.getLast? with
  | some (.name s) => some s
  | _ => none

/-- What follows the last point of the name that a path ends in, if something precedes it and it is
a text. -/
def extension? (p : Path) : Option String :=
  match p.fileName? with
  | none => none
  | some s =>
    match Text.splitOnce dot s.reverse with
    | some (ext, stem) => if stem.isEmpty then none else Text.decode? ext.reverse
    | none => none

/-- The name of the directory that a path leads to, if that is a text. -/
def projectName (p : Path) : String :=
  (p.fileName? >>= Text.decode?).getD "unnamed-project"

end Path

end RitualGate

import RitualGate.Host.IoError
import RitualGate.Path

/-!
# A tree of files

`FileTree` says what there is at each place: a file with its bytes, a directory or a device. A path
is followed step by step, and every step but the last has to lead to a directory. A path that ends
in a slash, a dot or two dots means a directory.

An append that fails half way is undone, so a file never keeps a part of what was to be added.
-/

namespace RitualGate

/-- A device. Nothing that is written to one can be read again. -/
inductive Device where
  /-- Takes everything. -/
  | null
  /-- Has no room for anything. -/
  | full
deriving DecidableEq, Repr

/-- What there is at a place. -/
inductive Entry where
  | file (content : Bytes)
  | directory
  | device (d : Device)
deriving DecidableEq, Repr

/-- The kind of what there is at a place. -/
inductive EntryKind where
  | file
  | directory
  | device
deriving DecidableEq, Repr

namespace Entry

/-- The kind of an entry. -/
def kind : Entry → EntryKind
  | file _ => .file
  | directory => .directory
  | device _ => .device

end Entry

/-- The names that lead from the root to a place. -/
abbrev Place := List Bytes

/-- What there is at each place. -/
structure FileTree where
  entry : Place → Option Entry

namespace FileTree

/-- The place to which some texts lead. -/
def placeOf (names : List String) : Place := names.map Text.encode

/-- A root and nothing in it. -/
def empty : FileTree where
  entry place := if place = [] then some .directory else none

/-- Puts something at a place. -/
def put (t : FileTree) (place : Place) (e : Entry) : FileTree where
  entry p := if p = place then some e else t.entry p

/-- A tree with a directory at a place and at every place above it. -/
def putDirectory (t : FileTree) (place : Place) : FileTree :=
  (List.range (place.length + 1)).foldl (fun t n => t.put (place.take n) .directory) t

/-! ## Following paths -/

/-- The longest name of an entry, in bytes. -/
def maxName : Nat := 255

/-- The longest path, in bytes. -/
def maxPath : Nat := 4095

/-- Where a path leads. -/
structure Target where
  /-- A place that is known to be a directory. -/
  directory : Place
  /-- The name of an entry of the directory, which may be missing, or nothing if the path means the
  directory itself. -/
  name : Option Bytes
  /-- Whether the entry has to be a directory. -/
  slash : Bool
deriving DecidableEq, Repr

namespace Target

/-- The place of a target. -/
def place (g : Target) : Place := g.directory ++ g.name.toList

end Target

/-- Goes on from a directory by one segment of a path, into a directory. -/
def step (t : FileTree) (place : Place) (segment : Bytes) : Except IoError Place :=
  if segment = [] ∨ segment = [Path.dot] then .ok place
  else if segment = [Path.dot, Path.dot] then .ok place.dropLast
  else if maxName < segment.length then .error .nameTooLong
  else
    match t.entry (place ++ [segment]) with
    | some .directory => .ok (place ++ [segment])
    | some _ => .error .notDirectory
    | none => .error .notFound

/-- Goes on from a directory by segments of a path, each into a directory. -/
def walk (t : FileTree) : Place → List Bytes → Except IoError Place
  | place, [] => .ok place
  | place, s :: ss =>
    match t.step place s with
    | .ok place => t.walk place ss
    | .error e => .error e

/-- Where a path leads, seen from a directory. -/
def target (t : FileTree) (here : Place) (p : Path) : Except IoError Target :=
  if p.bytes.contains 0 then .error .nulInPath
  else if p.bytes = [] then .error .notFound
  else if maxPath < p.bytes.length then .error .nameTooLong
  else
    let start := if p.isAbsolute then [] else here
    let segments := Path.segments p.bytes
    let trimmed := (segments.reverse.dropWhile List.isEmpty).reverse
    let slash := decide (trimmed.length < segments.length)
    match trimmed.getLast? with
    | none => .ok ⟨start, none, slash⟩
    | some last =>
      match t.walk start trimmed.dropLast with
      | .error e => .error e
      | .ok directory =>
        if last = [Path.dot] then .ok ⟨directory, none, slash⟩
        else if last = [Path.dot, Path.dot] then .ok ⟨directory.dropLast, none, slash⟩
        else if maxName < last.length then .error .nameTooLong
        else .ok ⟨directory, some last, slash⟩

/-- The place that a path leads to and what there is. -/
def lookup (t : FileTree) (here : Place) (p : Path) : Except IoError (Place × Entry) :=
  match t.target here p with
  | .error e => .error e
  | .ok g =>
    match t.entry g.place with
    | none => .error .notFound
    | some e =>
      if g.slash ∧ e.kind ≠ .directory then .error .notDirectory else .ok (g.place, e)

/-- The place at which a path leads to a file or a device, or can have a new file. -/
def openPlace (t : FileTree) (here : Place) (p : Path) : Except IoError Place :=
  match t.target here p with
  | .error e => .error e
  | .ok g =>
    if g.name = none ∨ g.slash then .error .isDirectory
    else if t.entry g.place = some .directory then .error .isDirectory
    else .ok g.place

/-! ## Operations -/

/-- The kind of what a path leads to, if there is something. -/
def kind? (t : FileTree) (here : Place) (p : Path) : Option EntryKind :=
  match t.lookup here p with
  | .ok (_, e) => some e.kind
  | .error _ => none

/-- The path from the root to a place. -/
def pathOf (place : Place) : Path :=
  ⟨Path.slash :: Path.joinSegments place⟩

/-- The path from the root to what a path leads to, if there is something. -/
def canonical? (t : FileTree) (here : Place) (p : Path) : Option Path :=
  match t.lookup here p with
  | .ok (place, _) => some (pathOf place)
  | .error _ => none

/-- The content of a file. -/
def read (t : FileTree) (here : Place) (p : Path) : Except IoError Bytes :=
  match t.lookup here p with
  | .ok (_, .file content) => .ok content
  | .ok (_, .directory) => .error .isDirectory
  | .ok (_, .device _) => .ok []
  | .error e => .error e

/-- Gives a file a new content, unless the disk refuses to keep that at its place. A file that
cannot be written is left as it was. -/
def writeUnless (refuses : Place → Bytes → Bool) (t : FileTree) (here : Place) (p : Path)
    (content : Bytes) : Except IoError FileTree :=
  match t.openPlace here p with
  | .error e => .error e
  | .ok place =>
    match t.entry place with
    | some (.device .full) => if content = [] then .ok t else .error .noSpace
    | some (.device .null) => .ok t
    | _ => if refuses place content then .error .noSpace else .ok (t.put place (.file content))

/-- Gives a file a new content. -/
def write (t : FileTree) (here : Place) (p : Path) (content : Bytes) :
    Except IoError FileTree :=
  t.writeUnless (fun _ _ => false) here p content

/-- Makes a file for appending, empty if it is new. -/
def touch (t : FileTree) (here : Place) (p : Path) : Except IoError FileTree :=
  match t.openPlace here p with
  | .error e => .error e
  | .ok place =>
    match t.entry place with
    | none => .ok (t.put place (.file []))
    | some _ => .ok t

/-- A file after an append. With a fault only that many of the bytes arrive, and the file is cut
back to the length that it had. -/
def appended (content bytes : Bytes) : (fault : Option Nat) → Bytes
  | none => content ++ bytes
  | some n => (content ++ bytes.take n).take content.length

/-- Adds bytes to the end of a file, or fails and leaves it as it was. -/
def append (t : FileTree) (here : Place) (p : Path) (bytes : Bytes) (fault : Option Nat) :
    FileTree × Except IoError Unit :=
  match t.openPlace here p with
  | .error e => (t, .error e)
  | .ok place =>
    match t.entry place with
    | some (.device .full) => (t, if bytes = [] then .ok () else .error .noSpace)
    | some (.device .null) => (t, .ok ())
    | some (.file content) =>
      (t.put place (.file (appended content bytes fault)),
        if fault = none then .ok () else .error .noSpace)
    | _ =>
      (t.put place (.file (appended [] bytes fault)),
        if fault = none then .ok () else .error .noSpace)

/-- Makes a directory in one that is there. -/
def makeDir (t : FileTree) (here : Place) (p : Path) : Except IoError FileTree :=
  match t.target here p with
  | .error e => .error e
  | .ok g =>
    match t.entry g.place with
    | some _ => .error .alreadyExists
    | none => .ok (t.put g.place .directory)

/-- Makes the first of some directories, of which each lies in the next. -/
def makeFirst (t : FileTree) (here : Place) : List Path → FileTree × Except IoError Unit
  | [] => (t, .ok ())
  | p :: above =>
    if p.bytes = [] then (t, .ok ())
    else
      match t.makeDir here p with
      | .ok t => (t, .ok ())
      | .error .notFound =>
        match t.makeFirst here above with
        | (t, .error e) => (t, .error e)
        | (t, .ok ()) =>
          match t.makeDir here p with
          | .ok t => (t, .ok ())
          | .error e =>
            (t, if t.kind? here p = some .directory then .ok () else .error e)
      | .error e => (t, if t.kind? here p = some .directory then .ok () else .error e)

/-- Makes a directory and those above it that are missing. -/
def makeDirs (t : FileTree) (here : Place) (p : Path) : FileTree × Except IoError Unit :=
  t.makeFirst here p.ancestors

end FileTree

end RitualGate

import RitualGate.Host.Basic

/-!
# A host in memory

`World` is a host whose files are a `FileTree`. Its clock shows a given sequence of instants, one
for each time that it is read. Its disk has a given sequence of faults, one for each append, and
refuses to commit some contents at some places, for whatever reason it has.
-/

namespace RitualGate

/-- The state of a host in memory. -/
structure World where
  tree : FileTree
  /-- The directory that relative paths start from. -/
  directory : Place
  input : Bytes
  /-- What the clock shows when it is read, for each time. -/
  clock : Nat → Instant
  /-- How often the clock has been read. -/
  ticks : Nat
  /-- How many bytes each append gets to the disk before it fails, if it fails. -/
  faults : Nat → Option Nat
  /-- How many appends there have been. -/
  appends : Nat
  /-- Which contents the disk refuses to commit, at which places. -/
  refuses : Place → Bytes → Bool

namespace World

/-- Runs an operation that gives a new tree or fails. -/
def change (w : World) : Except IoError FileTree → Except IoError Unit × World
  | .ok t => (.ok (), { w with tree := t })
  | .error e => (.error e, w)

/-- A world as a host. -/
instance : Host (StateM World) where
  now := fun w => (w.clock w.ticks, { w with ticks := w.ticks + 1 })
  here := fun w => (FileTree.pathOf w.directory, w)
  input := fun w => (w.input, w)
  kind? p := fun w => (w.tree.kind? w.directory p, w)
  canonical? p := fun w => (w.tree.canonical? w.directory p, w)
  read p := fun w => (w.tree.read w.directory p, w)
  write p content := fun w => w.change (w.tree.write w.directory p content)
  commit p content := fun w => w.change (w.tree.writeUnless w.refuses w.directory p content)
  touch p := fun w => w.change (w.tree.touch w.directory p)
  append p bytes := fun w =>
    let (t, r) := w.tree.append w.directory p bytes (w.faults w.appends)
    (r, { w with tree := t, appends := w.appends + 1 })
  makeDirs p := fun w =>
    let (t, r) := w.tree.makeDirs w.directory p
    (r, { w with tree := t })

end World

end RitualGate

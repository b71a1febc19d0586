import RitualGate.Host.World

/-!
# Trees that keep what they hold

Where a path leads depends on the directories of a tree only, so a path that leads somewhere leads
there in every later tree that `KeepsDirectories` (`target_of_keeps`). Making directories and making
a file for appending change nothing that was there (`keeps_makeDirs`, `touch_eq_ok`), and an append
changes the file that it appends to (`FileAt.append`), or nothing if it fails
(`FileAt.append_fault`). What is written is what a file holds from then on, unless the disk refuses
it (`writeUnless_eq_ok`, `read_of_write`). A directory that was made is there, and making it again
does nothing (`kind?_of_makeDirs`, `makeDirs_of_directory`). If a file gets a new content, then that
is all that paths find changed (`lookup_put_file`). `World.withFile` is the world in which it has
it.
-/

namespace RitualGate

namespace FileTree

variable {t t' t'' : FileTree} {here : Place} {p : Path}

/-- What is a directory in one tree is one in another. -/
def KeepsDirectories (t t' : FileTree) : Prop :=
  ∀ place, t.entry place = some .directory → t'.entry place = some .directory

/-- What there is in one tree there is in another. -/
def Keeps (t t' : FileTree) : Prop :=
  ∀ place e, t.entry place = some e → t'.entry place = some e

theorem Keeps.refl (t : FileTree) : Keeps t t := fun _ _ h => h

theorem Keeps.trans (h : Keeps t t') (h' : Keeps t' t'') : Keeps t t'' :=
  fun place e he => h' place e (h place e he)

theorem Keeps.directories (h : Keeps t t') : KeepsDirectories t t' :=
  fun place => h place .directory

theorem keeps_put {place : Place} (h : t.entry place = none) (e : Entry) :
    Keeps t (t.put place e) := by
  intro q f hq
  have hne : q ≠ place := by
    rintro rfl
    rw [h] at hq
    cases hq
  simpa [put, hne] using hq

theorem keepsDirectories_put {place : Place} (h : t.entry place ≠ some .directory) (e : Entry) :
    KeepsDirectories t (t.put place e) := by
  intro q hq
  have hne : q ≠ place := by
    rintro rfl
    exact h hq
  simpa [put, hne] using hq

theorem entry_put_self (t : FileTree) (place : Place) (e : Entry) :
    (t.put place e).entry place = some e :=
  if_pos rfl

theorem put_self {place : Place} {e : Entry} (h : t.entry place = some e) : t.put place e = t := by
  have hentry : (t.put place e).entry = t.entry := by
    funext q
    by_cases hq : q = place
    · subst hq
      rw [entry_put_self, h]
    · simp [put, hq]
  cases t
  exact congrArg FileTree.mk hentry

/-! ## Paths that lead somewhere -/

theorem step_of_keeps (h : KeepsDirectories t t') {place place' : Place} {s : Bytes}
    (hs : t.step place s = .ok place') : t'.step place s = .ok place' := by
  by_cases hidle : s = [] ∨ s = [Path.dot]
  · rw [step, if_pos hidle] at hs ⊢
    exact hs
  by_cases hup : s = [Path.dot, Path.dot]
  · rw [step, if_neg hidle, if_pos hup] at hs ⊢
    exact hs
  rw [step, if_neg hidle, if_neg hup] at hs ⊢
  split at hs
  · cases hs
  rename_i hlong
  split at hs
  · rename_i hentry
    rw [if_neg hlong, h _ hentry]
    exact hs
  · cases hs
  · cases hs

theorem walk_of_keeps (h : KeepsDirectories t t') {place place' : Place} {ss : List Bytes}
    (hs : t.walk place ss = .ok place') : t'.walk place ss = .ok place' := by
  induction ss generalizing place with
  | nil => exact hs
  | cons s ss ih =>
    rw [walk] at hs ⊢
    cases hstep : t.step place s with
    | error e =>
      rw [hstep] at hs
      cases hs
    | ok q =>
      rw [hstep] at hs
      rw [step_of_keeps h hstep]
      exact ih hs

theorem target_of_keeps (h : KeepsDirectories t t') {g : Target}
    (hg : t.target here p = .ok g) : t'.target here p = .ok g := by
  rw [target] at hg ⊢
  split at hg
  · cases hg
  rename_i hnul
  split at hg
  · cases hg
  rename_i hempty
  split at hg
  · cases hg
  rename_i hlong
  rw [if_neg hnul, if_neg hempty, if_neg hlong]
  simp only at hg ⊢
  split at hg
  · exact hg
  split at hg
  · cases hg
  rename_i hwalk
  rw [walk_of_keeps h hwalk]
  exact hg

theorem kind?_directory_iff : t.kind? here p = some .directory ↔
    ∃ g, t.target here p = .ok g ∧ t.entry g.place = some .directory := by
  unfold kind? lookup
  cases t.target here p with
  | error e => simp
  | ok g =>
    cases he : t.entry g.place with
    | none => simp [he]
    | some e => cases e <;> cases hslash : g.slash <;> simp [he, hslash, Entry.kind]

theorem directory_of_keeps (h : KeepsDirectories t t') (hd : t.kind? here p = some .directory) :
    t'.kind? here p = some .directory := by
  obtain ⟨g, hg, hentry⟩ := kind?_directory_iff.1 hd
  exact kind?_directory_iff.2 ⟨g, target_of_keeps h hg, h _ hentry⟩

theorem openPlace_eq_ok_iff {place : Place} : t.openPlace here p = .ok place ↔
    ∃ g, t.target here p = .ok g ∧ g.name ≠ none ∧ g.slash = false ∧ g.place = place ∧
      t.entry place ≠ some .directory := by
  unfold openPlace
  cases t.target here p with
  | error e => simp
  | ok g =>
    constructor
    · intro h
      simp only at h
      split at h
      · cases h
      rename_i hname
      split at h
      · cases h
      rename_i hentry
      cases h
      rw [not_or, Bool.not_eq_true] at hname
      exact ⟨g, rfl, hname.1, hname.2, rfl, hentry⟩
    · rintro ⟨_, heq, hname, hslash, rfl, hentry⟩
      cases heq
      simp only [hname, hslash, Bool.false_eq_true, or_self, if_false, hentry]

theorem openPlace_of_keeps (h : KeepsDirectories t t') {place : Place}
    (hopen : t.openPlace here p = .ok place) (hentry : t'.entry place ≠ some .directory) :
    t'.openPlace here p = .ok place := by
  obtain ⟨g, hg, hname, hslash, hplace, -⟩ := openPlace_eq_ok_iff.1 hopen
  exact openPlace_eq_ok_iff.2 ⟨g, target_of_keeps h hg, hname, hslash, hplace, hentry⟩

/-- A path that can be opened leads to what there is. -/
theorem lookup_of_openPlace {place : Place} {e : Entry} (hopen : t.openPlace here p = .ok place)
    (hentry : t.entry place = some e) : t.lookup here p = .ok (place, e) := by
  obtain ⟨g, hg, -, hslash, rfl, -⟩ := openPlace_eq_ok_iff.1 hopen
  simp only [lookup, hg, hentry, hslash, Bool.false_eq_true, false_and, if_false]

theorem kind?_of_missing {place : Place} (hopen : t.openPlace here p = .ok place)
    (hentry : t.entry place = none) : t.kind? here p = none := by
  obtain ⟨g, hg, -, -, rfl, -⟩ := openPlace_eq_ok_iff.1 hopen
  simp only [kind?, lookup, hg, hentry]

/-! ## Files -/

/-- A path leads to a file, which can be opened. -/
structure FileAt (t : FileTree) (here : Place) (p : Path) (place : Place) (content : Bytes) :
    Prop where
  openPlace : t.openPlace here p = .ok place
  entry : t.entry place = some (.file content)

variable {place : Place} {content : Bytes}

theorem FileAt.lookup (h : t.FileAt here p place content) :
    t.lookup here p = .ok (place, .file content) :=
  lookup_of_openPlace h.openPlace h.entry

theorem FileAt.kind? (h : t.FileAt here p place content) : t.kind? here p = some .file := by
  simp only [FileTree.kind?, h.lookup, Entry.kind]

theorem FileAt.read (h : t.FileAt here p place content) : t.read here p = .ok content := by
  simp only [FileTree.read, h.lookup]

theorem lookup_of_file (hkind : t.kind? here p = some .file) :
    ∃ place content, t.lookup here p = .ok (place, .file content) := by
  unfold FileTree.kind? at hkind
  split at hkind
  · rename_i place e hlookup
    cases e with
    | file content => exact ⟨place, content, hlookup⟩
    | directory => cases hkind
    | device d => cases hkind
  · cases hkind

theorem read_of_lookup (h : t.lookup here p = .ok (place, .file content)) :
    t.read here p = .ok content := by
  simp only [FileTree.read, h]

theorem lookup_of_kind? (hkind : t.kind? here p = some .file) (hread : t.read here p = .ok content) :
    ∃ place, t.lookup here p = .ok (place, .file content) := by
  obtain ⟨place, c, hlookup⟩ := lookup_of_file hkind
  rw [read_of_lookup hlookup] at hread
  cases hread
  exact ⟨place, hlookup⟩

theorem lookup_of_keeps (h : Keeps t t') {e : Entry} (hl : t.lookup here p = .ok (place, e)) :
    t'.lookup here p = .ok (place, e) := by
  unfold FileTree.lookup at hl ⊢
  split at hl
  · cases hl
  rename_i g hg
  split at hl
  · cases hl
  rename_i e' he'
  rw [target_of_keeps h.directories hg]
  simp only [h _ _ he']
  exact hl

/-- A path that leads to a file and can be opened is opened at the file. -/
theorem fileAt_of_lookup {q : Place} (hl : t.lookup here p = .ok (place, .file content))
    (hopen : t.openPlace here p = .ok q) : t.FileAt here p place content := by
  obtain ⟨g, hg, -, hslash, rfl, -⟩ := openPlace_eq_ok_iff.1 hopen
  simp only [FileTree.lookup, hg, hslash, Bool.false_eq_true, false_and, if_false] at hl
  split at hl
  · cases hl
  · rename_i he
    cases hl
    exact ⟨hopen, he⟩

/-! ## Operations -/

theorem touch_eq_ok (h : t.touch here p = .ok t') :
    Keeps t t' ∧ ∃ place, t'.openPlace here p = .ok place := by
  unfold touch at h
  split at h
  · cases h
  rename_i place hopen
  split at h
  · rename_i hentry
    cases h
    have hkeeps : Keeps t (t.put place (.file [])) := keeps_put hentry _
    refine ⟨hkeeps, place, openPlace_of_keeps hkeeps.directories hopen ?_⟩
    rw [entry_put_self]
    simp
  · cases h
    exact ⟨.refl t, place, hopen⟩

theorem FileAt.touch (h : t.FileAt here p place content) : t.touch here p = .ok t := by
  simp only [FileTree.touch, h.openPlace, h.entry]

theorem appended_some (content bytes : Bytes) (n : Nat) :
    appended content bytes (some n) = content := by
  rw [appended, List.take_left]

/-- An append adds all of its bytes to a file. -/
theorem FileAt.append (h : t.FileAt here p place content) (bytes : Bytes) :
    ∃ t', t.append here p bytes none = (t', .ok ()) ∧
      t'.FileAt here p place (content ++ bytes) ∧ KeepsDirectories t t' := by
  have hkeeps : KeepsDirectories t (t.put place (.file (content ++ bytes))) :=
    keepsDirectories_put (by simp [h.entry]) _
  have hopen := openPlace_of_keeps hkeeps h.openPlace (by simp [entry_put_self])
  refine ⟨_, ?_, ⟨hopen, entry_put_self ..⟩, hkeeps⟩
  simp only [FileTree.append, h.openPlace, h.entry, appended, if_true]

/-- An append that fails half way leaves the tree as it was. -/
theorem FileAt.append_fault (h : t.FileAt here p place content) (bytes : Bytes) (n : Nat) :
    t.append here p bytes (some n) = (t, .error .noSpace) := by
  simp only [FileTree.append, h.openPlace, h.entry, appended_some, put_self h.entry, reduceCtorEq,
    if_false]

/-- Where there can be a file, there is one with the new content. -/
theorem fileAt_put (hopen : t.openPlace here p = .ok place) (content : Bytes) :
    (t.put place (.file content)).FileAt here p place content := by
  obtain ⟨-, -, -, -, -, hdirectory⟩ := openPlace_eq_ok_iff.1 hopen
  exact ⟨openPlace_of_keeps (keepsDirectories_put hdirectory _) hopen (by simp [entry_put_self]),
    entry_put_self ..⟩

section Write

variable {refuses : Place → Bytes → Bool}

/-- Where there is a file, or nothing yet, there is one with the new content afterwards, unless that
is refused. -/
theorem writeUnless_of_openPlace (hopen : t.openPlace here p = .ok place)
    (hentry : t.entry place = none ∨ ∃ old, t.entry place = some (.file old)) (content : Bytes) :
    t.writeUnless refuses here p content =
      if refuses place content then .error .noSpace else .ok (t.put place (.file content)) := by
  rcases hentry with hnone | ⟨old, hfile⟩
  · simp only [writeUnless, hopen, hnone]
  · simp only [writeUnless, hopen, hfile]

theorem write_of_openPlace (hopen : t.openPlace here p = .ok place)
    (hentry : t.entry place = none ∨ ∃ old, t.entry place = some (.file old)) (content : Bytes) :
    t.write here p content = .ok (t.put place (.file content)) :=
  writeUnless_of_openPlace hopen hentry content

/-- What can be written is a device, which keeps nothing, or a file, which is new or gets a new
content that is not refused. -/
theorem writeUnless_eq_ok (h : t.writeUnless refuses here p content = .ok t') :
    ∃ place, t.openPlace here p = .ok place ∧
      ((∃ d, t.entry place = some (.device d) ∧ (d = .full → content = []) ∧ t' = t) ∨
        (t.entry place = none ∨ ∃ old, t.entry place = some (.file old)) ∧
          refuses place content = false ∧ t' = t.put place (.file content)) := by
  unfold writeUnless at h
  split at h
  · cases h
  rename_i place hopen
  refine ⟨place, hopen, ?_⟩
  obtain ⟨-, -, -, -, -, hdirectory⟩ := openPlace_eq_ok_iff.1 hopen
  split at h
  · rename_i hfull
    split at h
    · rename_i hempty
      cases h
      exact .inl ⟨.full, hfull, fun _ => hempty, rfl⟩
    · cases h
  · rename_i hnull
    cases h
    exact .inl ⟨.null, hnull, nofun, rfl⟩
  · rename_i hfull hnull
    split at h
    · cases h
    rename_i hrefuses
    cases h
    refine .inr ⟨?_, by simpa using hrefuses, rfl⟩
    cases hentry : t.entry place with
    | none => exact .inl rfl
    | some e =>
      cases e with
      | file old => exact .inr ⟨old, rfl⟩
      | directory => exact absurd hentry hdirectory
      | device d =>
        cases d with
        | null => exact absurd hentry hnull
        | full => exact absurd hentry hfull

/-- What was written is read again, but nothing from a device. -/
theorem read_of_write (h : t.write here p content = .ok t') :
    t'.read here p = .ok (if t.kind? here p = some .device then [] else content) := by
  obtain ⟨place, hopen, ⟨d, hdevice, -, rfl⟩ | ⟨hentry, -, rfl⟩⟩ := writeUnless_eq_ok h
  · have hlookup := lookup_of_openPlace hopen hdevice
    simp only [kind?, read, hlookup, Entry.kind, if_true]
  · have hkind : t.kind? here p ≠ some .device := by
      rcases hentry with hnone | ⟨old, hold⟩
      · simp [kind?_of_missing hopen hnone]
      · simp [(FileAt.mk hopen hold).kind?]
    rw [if_neg hkind]
    exact (fileAt_put hopen content).read

end Write

theorem makeDir_eq_ok (h : t.makeDir here p = .ok t') :
    Keeps t t' ∧ t'.kind? here p = some .directory := by
  unfold makeDir at h
  split at h
  · cases h
  rename_i g hg
  split at h
  · cases h
  rename_i hentry
  cases h
  have hkeeps : Keeps t (t.put g.place .directory) := keeps_put hentry _
  exact ⟨hkeeps, kind?_directory_iff.2
    ⟨g, target_of_keeps hkeeps.directories hg, entry_put_self ..⟩⟩

/-- A directory that cannot be made counts as made if it is there. -/
theorem directory_of_ok {e : IoError}
    (h : (if t.kind? here p = some .directory then .ok () else .error e : Except IoError Unit) =
      .ok ()) : t.kind? here p = some .directory := by
  split at h
  · assumption
  · cases h

theorem makeFirst_cons {above : List Path} {r : Except IoError Unit} (hp : p.bytes ≠ [])
    (h : t.makeFirst here (p :: above) = (t', r))
    (habove : ∀ t₁ r₁, t.makeFirst here above = (t₁, r₁) → Keeps t t₁) :
    Keeps t t' ∧ (r = .ok () → t'.kind? here p = some .directory) := by
  rw [makeFirst, if_neg hp] at h
  split at h
  · rename_i t₁ hmake
    cases h
    obtain ⟨hkeeps, hdir⟩ := makeDir_eq_ok hmake
    exact ⟨hkeeps, fun _ => hdir⟩
  -- the directories above are made first, and then this one is tried again
  · cases hfirst : t.makeFirst here above with
    | mk t₁ r₁ =>
      have hkeeps₁ := habove t₁ r₁ hfirst
      rw [hfirst] at h
      cases r₁ with
      | error e =>
        cases h
        exact ⟨hkeeps₁, nofun⟩
      | ok u =>
        simp only at h
        split at h
        · rename_i t₂ hmake
          cases h
          obtain ⟨hkeeps, hdir⟩ := makeDir_eq_ok hmake
          exact ⟨hkeeps₁.trans hkeeps, fun _ => hdir⟩
        · cases h
          exact ⟨hkeeps₁, directory_of_ok⟩
  · cases h
    exact ⟨.refl t, directory_of_ok⟩

theorem keeps_makeFirst {ps : List Path} {r : Except IoError Unit}
    (h : t.makeFirst here ps = (t', r)) : Keeps t t' := by
  induction ps generalizing t t' r with
  | nil =>
    cases h
    exact .refl t
  | cons p above ih =>
    by_cases hp : p.bytes = []
    · rw [makeFirst, if_pos hp] at h
      cases h
      exact .refl t
    · exact (makeFirst_cons hp h fun _ _ => ih).1

theorem ancestors_eq (p : Path) : ∃ above, p.ancestors = p :: above := by
  rw [Path.ancestors]
  cases p.components.length with
  | zero => exact ⟨[], rfl⟩
  | succ n =>
    rw [Path.ancestorsUpTo]
    split
    · exact ⟨_, rfl⟩
    · exact ⟨[], rfl⟩

theorem keeps_makeDirs {r : Except IoError Unit} (h : t.makeDirs here p = (t', r)) :
    Keeps t t' :=
  keeps_makeFirst h

theorem kind?_of_makeDirs (hp : p.bytes ≠ []) (h : t.makeDirs here p = (t', .ok ())) :
    t'.kind? here p = some .directory := by
  obtain ⟨above, habove⟩ := ancestors_eq p
  rw [makeDirs, habove] at h
  exact (makeFirst_cons hp h fun _ _ => keeps_makeFirst).2 rfl

theorem makeDirs_of_directory (h : t.kind? here p = some .directory) :
    t.makeDirs here p = (t, .ok ()) := by
  obtain ⟨above, habove⟩ := ancestors_eq p
  obtain ⟨g, hg, hentry⟩ := kind?_directory_iff.1 h
  have hdir : t.makeDir here p = .error .alreadyExists := by
    simp only [makeDir, hg, hentry]
  rw [makeDirs, habove]
  by_cases hempty : p.bytes = []
  · rw [makeFirst, if_pos hempty]
  · rw [makeFirst, if_neg hempty, hdir]
    simp only [h, if_true]

/-! ## Files with a new content -/

section Content

variable {q : Place} {e : Entry} {old : Bytes}

theorem put_put (t : FileTree) (place : Place) (e f : Entry) :
    (t.put place e).put place f = t.put place f := by
  refine congrArg mk (funext fun q => ?_)
  by_cases hq : q = place <;> simp [put, hq]

theorem lookup_eq_ok_iff : t.lookup here p = .ok (q, e) ↔ ∃ g, t.target here p = .ok g ∧
    g.place = q ∧ t.entry q = some e ∧ (g.slash = true → e.kind = .directory) := by
  unfold lookup
  cases t.target here p with
  | error e => simp
  | ok g =>
    constructor
    · intro h
      simp only at h
      split at h
      · cases h
      rename_i f hf
      split at h
      · cases h
      rename_i hslash
      cases h
      exact ⟨g, rfl, rfl, hf, by simpa using hslash⟩
    · rintro ⟨_, heq, rfl, hentry, hslash⟩
      cases heq
      simp only [hentry]
      exact if_neg (by simpa using hslash)

theorem entry_of_lookup (h : t.lookup here p = .ok (q, e)) : t.entry q = some e := by
  obtain ⟨g, -, -, hentry, -⟩ := lookup_eq_ok_iff.1 h
  exact hentry

/-- A path leads where it led, as long as directories stay and nothing changes there. -/
theorem lookup_of_entry (hkeeps : KeepsDirectories t t') (h : t.lookup here p = .ok (q, e))
    (hq : t'.entry q = t.entry q) : t'.lookup here p = .ok (q, e) := by
  obtain ⟨g, hg, hplace, hentry, hslash⟩ := lookup_eq_ok_iff.1 h
  exact lookup_eq_ok_iff.2 ⟨g, target_of_keeps hkeeps hg, hplace, hq.trans hentry, hslash⟩

theorem lookup_of_read (h : t.read here p = .ok content) (hne : content ≠ []) :
    ∃ q, t.lookup here p = .ok (q, .file content) := by
  unfold read at h
  split at h
  · rename_i q c hlookup
    cases h
    exact ⟨q, hlookup⟩
  · cases h
  · cases h
    exact absurd rfl hne
  · cases h

theorem FileAt.put (h : t.FileAt here p place old) (content : Bytes) :
    (t.put place (.file content)).FileAt here p place content :=
  fileAt_put h.openPlace content

theorem step_put_file (hfile : t.entry place = some (.file old)) (content : Bytes) :
    (t.put place (.file content)).step = t.step := by
  funext q s
  unfold step
  by_cases hq : q ++ [s] = place
  · simp only [put, hq, if_true, hfile]
  · simp only [put, hq, if_false]

theorem target_put_file (hfile : t.entry place = some (.file old)) (content : Bytes) :
    (t.put place (.file content)).target here p = t.target here p := by
  have hwalk : ∀ q ss, (t.put place (.file content)).walk q ss = t.walk q ss := by
    intro q ss
    induction ss generalizing q with
    | nil => rfl
    | cons s ss ih => simp only [walk, step_put_file hfile, ih]
  simp only [target, hwalk]

/-- A file with a new content is all that paths find changed. -/
theorem lookup_put_file (hfile : t.entry place = some (.file old)) (content : Bytes) :
    (t.put place (.file content)).lookup here p =
      (t.lookup here p).map fun (q, e) => (q, if q = place then .file content else e) := by
  unfold lookup
  rw [target_put_file hfile]
  cases t.target here p with
  | error e => rfl
  | ok g =>
    by_cases hq : g.place = place
    · cases hslash : g.slash <;> simp [put, hq, hfile, hslash, Entry.kind, Except.map]
    · cases hentry : t.entry g.place with
      | none => simp [put, hq, hentry, Except.map]
      | some e =>
        simp only [put, hq, if_false, hentry]
        split <;> simp [Except.map, hq]

theorem kind?_put_file (hfile : t.entry place = some (.file old)) (content : Bytes) :
    (t.put place (.file content)).kind? here p = t.kind? here p := by
  unfold kind?
  rw [lookup_put_file hfile]
  cases hlookup : t.lookup here p with
  | error e => rfl
  | ok r =>
    obtain ⟨q, e⟩ := r
    by_cases hq : q = place
    · subst hq
      obtain rfl := Option.some.inj ((entry_of_lookup hlookup).symm.trans hfile)
      simp [Except.map, Entry.kind]
    · simp [Except.map, hq]

end Content

end FileTree

/-! ## Worlds with a file -/

namespace World

variable {w : World} {place : Place}

/-- A new tree is all that an operation changes. -/
theorem change_eq_ok_iff {w' : World} {r : Except IoError FileTree} :
    w.change r = (.ok (), w') ↔ ∃ t, r = .ok t ∧ w' = { w with tree := t } := by
  cases r with
  | error e => exact ⟨nofun, nofun⟩
  | ok t =>
    constructor
    · intro h
      cases h
      exact ⟨t, rfl, rfl⟩
    · rintro ⟨_, ht, rfl⟩
      cases ht
      rfl

/-- A world with a file of some content at a place. -/
def withFile (w : World) (place : Place) (content : Bytes) : World :=
  { w with tree := w.tree.put place (.file content) }

theorem withFile_withFile (w : World) (place : Place) (content content' : Bytes) :
    (w.withFile place content).withFile place content' = w.withFile place content' := by
  simp only [withFile, FileTree.put_put]

theorem withFile_self {content : Bytes} (h : w.tree.entry place = some (.file content)) :
    w.withFile place content = w := by
  rw [withFile, FileTree.put_self h]

theorem fileAt_withFile {path : Path} (hopen : w.tree.openPlace w.directory path = .ok place)
    (content : Bytes) :
    let v := w.withFile place content
    v.tree.FileAt v.directory path place content :=
  FileTree.fileAt_put hopen content

/-- A file that is there is opened for appending without a change. -/
theorem touch_file {path : Path} {content : Bytes}
    (h : w.tree.FileAt w.directory path place content) :
    StateT.run (Host.touch path : StateM World _) w = (.ok (), w) :=
  change_eq_ok_iff.2 ⟨w.tree, h.touch, rfl⟩

end World

end RitualGate

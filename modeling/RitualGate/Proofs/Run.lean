import Mathlib.Data.List.Induction
import Mathlib.Tactic.Set
import RitualGate.Proofs.Chain
import RitualGate.Proofs.Evaluation

/-!
# Runs of a session

An `Operation` is one thing that can be done with a session, and `run` does a list of them one after
the other, in a world whose clock and disk are arbitrary. It keeps a `Moment` for each: the session
before and after it, and what it gave back. `Step` says what one operation can do to a session, and
`step_apply` that every operation does one of these things; a property of whole runs then follows
from the property of a step by `run_induction`. `start_run` says what a run begins with.
-/

namespace RitualGate

/-- One thing that can be done with a session. The collaborators may be others each time. -/
inductive Operation where
  | process (c : Collaborators) (st : Statement)
  | executeLine (c : Collaborators) (line : String)
  | clearContainment
  | reset
  | close

namespace Operation

/-- The statement that an operation asks a session to process, and whom that may call on. -/
def request? : Operation → Option (Collaborators × Statement)
  | process c st => some (c, st)
  | executeLine c line =>
    match Statement.parse line with
    | .ok (some st) => some (c, st)
    | _ => none
  | _ => none

/-- Whether an operation hands a statement or a line to a session. -/
def isSubmission : Operation → Bool
  | process _ _ => true
  | executeLine _ _ => true
  | _ => false

/-- Whether an operation takes a session back to its start. -/
def isReset : Operation → Bool
  | reset => true
  | _ => false

/-- Does an operation, and gives back the session and what the session answers. -/
def apply {m : Type → Type} [Monad m] [Host m] (op : Operation) (s : Session) :
    m (Session × Except RitualError (Option Execution)) :=
  match op with
  | process c st => do
    let (s, r) ← s.process c st
    return (s, r.map some)
  | executeLine c line => s.executeLine c line
  | clearContainment => return (s.clearContainment, .ok none)
  | reset => return (s.reset, .ok none)
  | close => return (s.close, .ok none)

end Operation

/-- One operation of a run. -/
structure Moment where
  operation : Operation
  before : Session
  answer : Except RitualError (Option Execution)
  after : Session

namespace Moment

/-- At this moment a statement was processed. -/
def Executes (m : Moment) (c : Collaborators) (st : Statement) (x : Execution) : Prop :=
  m.operation.request? = some (c, st) ∧ m.answer = .ok (some x)

end Moment

/-- The moments after the last reset. -/
def sinceReset (ms : List Moment) : List Moment :=
  (ms.reverse.takeWhile fun m => !m.operation.isReset).reverse

theorem sinceReset_concat (ms : List Moment) (m : Moment) :
    sinceReset (ms ++ [m]) = if m.operation.isReset then [] else sinceReset ms ++ [m] := by
  unfold sinceReset
  cases h : m.operation.isReset <;> simp [h]

theorem mem_of_mem_sinceReset {ms : List Moment} {m : Moment} (h : m ∈ sinceReset ms) : m ∈ ms := by
  rw [sinceReset, List.mem_reverse] at h
  exact List.mem_reverse.1 ((List.takeWhile_sublist _).subset h)

namespace Session

/-- What a run leaves behind. -/
structure Reached where
  moments : List Moment
  session : Session
  world : World

/-- Does operations one after the other. -/
def run (s : Session) (w : World) : List Operation → Reached
  | [] => ⟨[], s, w⟩
  | op :: ops =>
    let r := StateT.run (op.apply s : StateM World _) w
    let rest := run r.1.1 r.2 ops
    { rest with moments := ⟨op, s, r.1.2, r.1.1⟩ :: rest.moments }

/-! ## The start -/

theorem bind_run {α β : Type} (x : StateM World α) (f : α → StateM World β) (w : World) :
    StateT.run (x >>= f) w = StateT.run (f (StateT.run x w).1) (StateT.run x w).2 := rfl

theorem resume_run {path : Path} {w w' : World} {t : Trail}
    (h : StateT.run (Trail.resume path : StateM World _) w = (.ok t, w')) :
    Chain.verify t.records = .ok () := by
  rw [Trail.resume, bind_run] at h
  dsimp only at h
  -- a log that is there is read, and one that is not has no records; both are checked alike
  split at h
  all_goals
    rw [bind_run] at h
    split at h
    · cases h
    · split at h
      · cases h
      · rename_i hchain
        rw [bind_run] at h
        split at h
        · cases h
        · cases h
          exact hchain

/-- A session starts from its configuration, with an empty trail or with that of a log. -/
theorem start_cases {c : Config} {w w' : World} {s : Session}
    (h : StateT.run (start c : StateM World _) w = (.ok s, w')) :
    c.validate = .ok () ∧ ∃ t, s = ofConfig c t ∧
      (t = .empty ∨ ∃ path, StateT.run (Trail.resume path : StateM World _) w = (.ok t, w')) := by
  unfold start at h
  split at h
  · cases h
  · rename_i hvalid
    split at h
    · cases h
      exact ⟨hvalid, .empty, rfl, .inl rfl⟩
    · rename_i path _
      rw [bind_run] at h
      split at h
      · cases h
      · rename_i t ht
        cases h
        exact ⟨hvalid, t, rfl, .inr ⟨path, Prod.ext ht rfl⟩⟩

/-- A session starts with a trail that is a chain. -/
theorem start_run {c : Config} {w w' : World} {s : Session}
    (h : StateT.run (start c : StateM World _) w = (.ok s, w')) :
    c.validate = .ok () ∧ ∃ t, Chain.verify t.records = .ok () ∧ s = ofConfig c t := by
  obtain ⟨hvalid, t, rfl, rfl | ⟨path, hresume⟩⟩ := start_cases h
  · exact ⟨hvalid, .empty, rfl, rfl⟩
  · exact ⟨hvalid, t, resume_run hresume, rfl⟩

/-! ## One operation -/

/-- A session and its answer once an evaluation of a statement has been recorded, at a time and with
or without success in writing the record down. -/
def recorded (s : Session) (c : Collaborators) (st : Statement) (now : Instant)
    (written : Except IoError Unit) : Session × Execution :=
  let e := { s with phase := .processing }.evaluate c st
  let record := e.session.trail.next st e.outcome e.detail now
  conclude e st record (e.session.trail.push record written)

/-- What an operation can do to a session, and what the session answers. -/
inductive Step (s : Session) : Operation → Session → Except RitualError (Option Execution) → Prop
  | executed {op : Operation} {c : Collaborators} {st : Statement} (now : Instant)
      (written : Except IoError Unit) (hr : op.request? = some (c, st)) (ho : s.phase ≠ .closed) :
    Step s op (s.recorded c st now written).1 (.ok (some (s.recorded c st now written).2))
  | refused {op : Operation} (hs : op.isSubmission = true) (hc : s.phase = .closed) :
    Step s op s (.error .sessionClosed)
  | unread {c : Collaborators} {line : String} {e : SyntaxError}
      (h : Statement.parse line = .error e) (ho : s.phase ≠ .closed) :
    Step s (.executeLine c line) s (.error (.syntaxError e))
  | remark {c : Collaborators} {line : String} (h : Statement.parse line = .ok none)
      (ho : s.phase ≠ .closed) :
    Step s (.executeLine c line) s (.ok none)
  | clearContainment : Step s .clearContainment s.clearContainment (.ok none)
  | reset : Step s .reset s.reset (.ok none)
  | close : Step s .close s.close (.ok none)

/-- An open session records a statement at the time that the clock shows. -/
theorem process_run_eq (s : Session) (k : Collaborators) (st : Statement) (w : World)
    (ho : s.phase ≠ .closed) :
    ∃ now written w', StateT.run (s.process k st : StateM World _) w =
        (((s.recorded k st now written).1, .ok (s.recorded k st now written).2), w') ∧
      written = (StateT.run (s.trail.writeOut (s.recorded k st now written).2.record)
        { w with ticks := w.ticks + 1 }).1 := by
  set e := { s with phase := .processing }.evaluate k st with he
  have htrail : e.session.trail = s.trail := (evaluate_kept _ k st).trail
  let r := e.session.trail.next st e.outcome e.detail (w.clock w.ticks)
  let written := StateT.run (e.session.trail.writeOut r) { w with ticks := w.ticks + 1 }
  -- the record is made before anybody knows whether it can be written
  refine ⟨w.clock w.ticks, written.1, written.2, ?_, ?_⟩
  · simp only [process, ho, ↓reduceIte, bind_run, ← he, Trail.append_run_eq]
    rfl
  · rw [← htrail]
    rfl

theorem process_run (s : Session) (c : Collaborators) (st : Statement) (w : World)
    (ho : s.phase ≠ .closed) :
    ∃ now written w', StateT.run (s.process c st : StateM World _) w =
      (((s.recorded c st now written).1, .ok (s.recorded c st now written).2), w') := by
  obtain ⟨now, written, w', hrun, -⟩ := process_run_eq s c st w ho
  exact ⟨now, written, w', hrun⟩

theorem process_closed_run (s : Session) (c : Collaborators) (st : Statement) (w : World)
    (hc : s.phase = .closed) :
    StateT.run (s.process c st : StateM World _) w = ((s, .error .sessionClosed), w) := by
  simp only [process, hc, ↓reduceIte]
  rfl

/-- Every operation does what a step can do. -/
theorem step_apply (op : Operation) (s : Session) (w : World) :
    Step s op (StateT.run (op.apply s : StateM World _) w).1.1
      (StateT.run (op.apply s : StateM World _) w).1.2 := by
  cases op with
  | process c st =>
    by_cases hc : s.phase = .closed
    · simp only [Operation.apply, StateT.run_bind, process_closed_run s c st w hc]
      exact .refused rfl hc
    · obtain ⟨now, written, w', hw⟩ := process_run s c st w hc
      simp only [Operation.apply, StateT.run_bind, hw]
      exact .executed now written rfl hc
  | executeLine c line =>
    by_cases hc : s.phase = .closed
    · simp only [Operation.apply, executeLine, hc, ↓reduceIte]
      exact .refused rfl hc
    · cases hp : Statement.parse line with
      | error e =>
        simp only [Operation.apply, executeLine, hc, ↓reduceIte, hp]
        exact .unread hp hc
      | ok r =>
        cases r with
        | none =>
          simp only [Operation.apply, executeLine, hc, ↓reduceIte, hp]
          exact .remark hp hc
        | some st =>
          obtain ⟨now, written, w', hw⟩ := process_run s c st w hc
          simp only [Operation.apply, executeLine, hc, ↓reduceIte, hp, StateT.run_bind, hw]
          exact .executed now written (by simp [Operation.request?, hp]) hc
  | clearContainment => exact .clearContainment
  | reset => exact .reset
  | close => exact .close

/-- A step that executes a statement records its evaluation. -/
theorem recorded_of_step {s s' : Session} {op : Operation} {c : Collaborators} {st : Statement}
    {x : Execution} {answer : Except RitualError (Option Execution)} (h : Step s op s' answer)
    (hr : op.request? = some (c, st)) (ha : answer = .ok (some x)) :
    ∃ now written, x = (s.recorded c st now written).2 ∧ s' = (s.recorded c st now written).1 := by
  cases h with
  | executed now written hr' =>
    cases hr.symm.trans hr'
    cases ha
    exact ⟨now, written, rfl, rfl⟩
  | _ => cases ha

/-! ## Whole runs -/

theorem run_append (s : Session) (w : World) (ops more : List Operation) :
    s.run w (ops ++ more) =
      let r := s.run w ops
      let t := r.session.run r.world more
      ⟨r.moments ++ t.moments, t.session, t.world⟩ := by
  induction ops generalizing s w with
  | nil => rfl
  | cons op ops ih => simp [run, ih]

theorem run_operations (s : Session) (w : World) (ops : List Operation) :
    (s.run w ops).moments.map Moment.operation = ops := by
  induction ops generalizing s w with
  | nil => rfl
  | cons op ops ih => simp [run, ih]

/-- A property of the moments and the session so far holds of every run, if it holds at the start
and every step keeps it. -/
theorem run_induction {P : List Moment → Session → Prop} {s₀ : Session} (start : P [] s₀)
    (step : ∀ {ms s op s' answer}, P ms s → Step s op s' answer →
      P (ms ++ [⟨op, s, answer, s'⟩]) s')
    (w : World) (ops : List Operation) : P (s₀.run w ops).moments (s₀.run w ops).session := by
  induction ops using List.reverseRecOn with
  | nil => exact start
  | append_singleton ops op ih =>
    rw [run_append]
    exact step ih (step_apply op _ _)

/-- A run up to one of its moments is a run, and the moment is a step from there. -/
theorem run_split {s₀ : Session} {w : World} {ops : List Operation} {past future : List Moment}
    {m : Moment} (h : (s₀.run w ops).moments = past ++ m :: future) :
    ∃ earlier, (s₀.run w earlier).moments = past ∧ (s₀.run w earlier).session = m.before ∧
      (∃ later, ops = earlier ++ m.operation :: later) ∧
      Step m.before m.operation m.after m.answer := by
  induction past generalizing s₀ w ops with
  | nil =>
    cases ops with
    | nil => simp [run] at h
    | cons op ops =>
      obtain ⟨rfl, -⟩ := List.cons.inj h
      exact ⟨[], rfl, rfl, ⟨ops, rfl⟩, step_apply op s₀ w⟩
  | cons p past ih =>
    cases ops with
    | nil => simp [run] at h
    | cons op ops =>
      obtain ⟨rfl, hrest⟩ := List.cons.inj h
      obtain ⟨earlier, hm, hs, ⟨later, hl⟩, hstep⟩ := ih hrest
      refine ⟨op :: earlier, ?_, ?_, ⟨later, ?_⟩, hstep⟩
      · simp [run, hm]
      · simpa [run] using hs
      · rw [hl, List.cons_append]

end Session

end RitualGate

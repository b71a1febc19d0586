import RitualGate.Command.Run
import RitualGate.Proofs.AuditTrail
import RitualGate.Proofs.LogFile
import RitualGate.Proofs.Program

/-!
# Running a program is executing its lines

A run first reads all of a program and then processes its statements, while `Session.executeLine`
reads a line and processes its statement at once. `LineStep` says what a line can do to an idle
session, and `LineRun` what lines do one after the other; as the session is idle again after each of
them, executing lines is such a run (`lineRun`). By induction on it, processing the statements does
the same to the session and to the world as executing the lines, and counts what happened at the
moments of the execution (`runLines_run`, `Tally.ofMoments`); the counts fit together
(`exact_ofMoments`); and the trail has no failure unless a record could not be written
(`failure_run`). `run_faithful` says what this makes of the command.
-/

namespace RitualGate

open Session (bind_run)

/-! ## Writing a record down -/

namespace Trail

/-- A trail is without failure as long as its records can be written. -/
theorem failure_push_writeOut (t : Trail) (r : AuditRecord) (w : World) :
    (t.push r (StateT.run (t.writeOut r) w).1).failure = none ↔
      t.failure = none ∧ (StateT.run (t.writeOut r) w).1 = .ok () := by
  cases hsink : t.sink with
  | none => simp [push, hsink, writeOut_run_detached hsink]
  | some path =>
    cases (StateT.run (t.writeOut r) w).1 with
    | error cause => simp [push, hsink]
    | ok u => simp [push, hsink]

end Trail

theorem Statement.parse_eq_none_iff {line : String} :
    parse line = .ok none ↔ isRemark line.toList = true := by
  rw [parse]
  split
  · rename_i hremark
    exact ⟨fun _ => hremark, fun _ => rfl⟩
  · rename_i hremark
    refine ⟨fun h => ?_, fun h => absurd h hremark⟩
    obtain ⟨ts, -, h⟩ := bind_eq_ok_iff.1 h
    obtain ⟨s, -, h⟩ := bind_eq_ok_iff.1 h
    cases h

/-! ## Lines -/

namespace Session

/-- What a line can do to an idle session: the answer, and the session and the world after it. -/
inductive LineStep (k : Collaborators) (s : Session) (w : World) (line : String) :
    Except RitualError (Option Execution) → Session → World → Prop
  | remark (h : Statement.parse line = .ok none) : LineStep k s w line (.ok none) s w
  | unread {e : SyntaxError} (h : Statement.parse line = .error e) :
    LineStep k s w line (.error (.syntaxError e)) s w
  | executed {st : Statement} {x : Execution} {s' : Session} {w' : World}
      (h : Statement.parse line = .ok (some st))
      (hprocess : StateT.run (s.process k st : StateM World _) w = ((s', .ok x), w'))
      (hidle : s'.phase = .idle) (hdescribes : Describes st x)
      (htrail : s'.trail = s.trail.push x.record
        (StateT.run (s.trail.writeOut x.record) { w with ticks := w.ticks + 1 }).1) :
    LineStep k s w line (.ok (some x)) s' w'

/-- What lines can do one after the other. -/
inductive LineRun (k : Collaborators) : Session → World → List String → Reached → Prop
  | nil (s : Session) (w : World) : LineRun k s w [] ⟨[], s, w⟩
  | cons {s s' : Session} {w w' : World} {line : String} {ls : List String}
      {answer : Except RitualError (Option Execution)} {r : Reached}
      (hrun : StateT.run (s.executeLine k line : StateM World _) w = ((s', answer), w'))
      (hstep : LineStep k s w line answer s' w') (hrest : LineRun k s' w' ls r) :
    LineRun k s w (line :: ls)
      { r with moments := ⟨.executeLine k line, s, answer, s'⟩ :: r.moments }

variable {k : Collaborators} {s s' : Session} {w w' : World} {line : String} {ls : List String}
  {answer : Except RitualError (Option Execution)} {r : Reached}

theorem LineStep.idle (h : LineStep k s w line answer s' w') (hs : s.phase = .idle) :
    s'.phase = .idle := by
  cases h with
  | remark => exact hs
  | unread => exact hs
  | executed _ _ hidle => exact hidle

theorem executeLine_step (k : Collaborators) (w : World) (line : String) (hs : s.phase = .idle) :
    ∃ answer s' w', StateT.run (s.executeLine k line : StateM World _) w = ((s', answer), w') ∧
      LineStep k s w line answer s' w' := by
  have ho : s.phase ≠ .closed := by simp [hs]
  cases hparse : Statement.parse line with
  | error e =>
    refine ⟨_, s, w, ?_, .unread hparse⟩
    simp only [executeLine, ho, ↓reduceIte, hparse]
    rfl
  | ok result =>
    cases result with
    | none =>
      refine ⟨_, s, w, ?_, .remark hparse⟩
      simp only [executeLine, ho, ↓reduceIte, hparse]
      rfl
    | some st =>
      obtain ⟨now, written, w', hprocess, hwritten⟩ := process_run_eq s k st w ho
      obtain ⟨o, d, hrecord, htrail⟩ := recorded_trail s k st now written
      have hdescribes := describes_recorded s k st now written
      refine ⟨_, _, w', ?_, .executed hparse hprocess rfl hdescribes ?_⟩
      · simp only [executeLine, ho, ↓reduceIte, hparse, bind_run, hprocess]
        rfl
      · rw [← hwritten, htrail, hrecord]

/-- Executing lines in an idle session never finds it closed. -/
theorem lineRun (k : Collaborators) (hs : s.phase = .idle) (w : World) (ls : List String) :
    LineRun k s w ls (s.run w (ls.map (.executeLine k))) := by
  induction ls generalizing s w with
  | nil => exact .nil s w
  | cons line ls ih =>
    obtain ⟨answer, s', w', hrun, hstep⟩ := executeLine_step k w line hs
    have hcons := LineRun.cons hrun hstep (ih (hstep.idle hs) w')
    have happly : StateT.run (Operation.apply (.executeLine k line) s : StateM World _) w =
      ((s', answer), w') := hrun
    rw [List.map_cons, run, happly]
    exact hcons

/-- The disk does not take the record of one of the lines. -/
def LosesRecord (k : Collaborators) (s : Session) (w : World) : List String → Prop
  | [] => False
  | line :: ls =>
    let r := StateT.run (s.executeLine k line : StateM World _) w
    (∃ x, r.1.2 = .ok (some x) ∧
      (StateT.run (s.trail.writeOut x.record) { w with ticks := w.ticks + 1 }).1 ≠ .ok ()) ∨
    LosesRecord k r.1.1 r.2 ls

/-- The trail of a session has a failure only from a record that could not be written. -/
theorem failure_run (h : LineRun k s w ls r) : r.session.trail.failure = none ↔
    s.trail.failure = none ∧ ¬ LosesRecord k s w ls := by
  induction h with
  | nil => simp [LosesRecord]
  | @cons s s' w w' line ls answer r hrun hstep hrest ih =>
    simp only [LosesRecord, hrun, not_or]
    rw [ih, ← and_assoc]
    refine and_congr_left' ?_
    cases hstep with
    | remark => simp
    | unread => simp
    | executed _ _ _ _ htrail =>
      rw [htrail, Trail.failure_push_writeOut]
      simp

end Session

/-! ## Counting -/

namespace Moment

/-- The execution at a moment, if a statement was processed. -/
def execution? (m : Moment) : Option Execution :=
  match m.answer with
  | .ok x => x
  | .error _ => none

/-- At this moment a statement was accepted and completed. -/
def completes (m : Moment) : Bool :=
  m.execution?.any fun x => x.accepted && x.outcome == .completed

/-- At this moment a statement was accepted that declares the failure of a ritual. -/
def declaresFailure (m : Moment) : Bool :=
  m.execution?.any Execution.accepted &&
    m.operation.request?.any fun (_, st) => st.family == .ritual && st.verb == .fail

/-- At this moment a statement was processed and not accepted. -/
def rejects (m : Moment) : Bool :=
  m.execution?.any fun x => !x.accepted

/-- At this moment a line was no statement. -/
def isUnread (m : Moment) : Bool :=
  match m.answer with
  | .error (.syntaxError _) => true
  | _ => false

end Moment

namespace Command

open Session (LineStep LineRun Reached)

namespace Tally

/-- The counts of some moments. -/
def ofMoments (ms : List Moment) : Tally where
  statements := ms.countP fun m => m.execution?.isSome
  completed := ms.countP Moment.completes
  failed := ms.countP Moment.declaresFailure
  rejected := ms.countP Moment.rejects
  syntaxErrors := ms.countP Moment.isUnread

instance : Add Tally where
  add t u := ⟨t.statements + u.statements, t.completed + u.completed, t.failed + u.failed,
    t.rejected + u.rejected, t.syntaxErrors + u.syntaxErrors⟩

theorem add_def (t u : Tally) : t + u = ⟨t.statements + u.statements, t.completed + u.completed,
    t.failed + u.failed, t.rejected + u.rejected, t.syntaxErrors + u.syntaxErrors⟩ := rfl

theorem zero_add (t : Tally) : zero + t = t := by
  simp [add_def, zero]

theorem add_assoc (t u v : Tally) : t + u + v = t + (u + v) := by
  simp [add_def, Nat.add_assoc]

theorem ofMoments_cons (m : Moment) (ms : List Moment) :
    ofMoments (m :: ms) = ofMoments [m] + ofMoments ms := by
  simp [ofMoments, add_def, List.countP_cons, Nat.add_comm]

theorem count_eq (t : Tally) (x : Execution) : t.count x = t + zero.count x := by
  unfold count
  split <;> simp [add_def, zero]

theorem countSyntaxError_eq (t : Tally) : t.countSyntaxError = t + zero.countSyntaxError := by
  simp [countSyntaxError, add_def, zero]

/-! What a moment counts for depends on its line. -/

section

variable {k : Collaborators} {s s' : Session} {line : String}

theorem ofMoments_remark : ofMoments [⟨.executeLine k line, s, .ok none, s'⟩] = zero := rfl

theorem ofMoments_unread {e : SyntaxError} :
    ofMoments [⟨.executeLine k line, s, .error (.syntaxError e), s'⟩] = zero.countSyntaxError := rfl

/-- Of the statements that are accepted, those that declare a failure are the ones that fail. -/
theorem declaresFailure_executed {st : Statement} {x : Execution}
    (hparse : Statement.parse line = .ok (some st)) (hdescribes : Describes st x) :
    (⟨.executeLine k line, s, .ok (some x), s'⟩ : Moment).declaresFailure =
      (x.accepted && x.outcome == .failed) := by
  have hrequest : (Operation.executeLine k line).request? = some (k, st) := by
    rw [Operation.request?, hparse]
  rw [Moment.declaresFailure, hrequest]
  simp only [Moment.execution?, Option.any_some]
  cases haccepted : x.accepted with
  | false => rfl
  | true =>
    have hdeclared := hdescribes.declared haccepted
    rw [Bool.true_and, Bool.true_and, Bool.eq_iff_iff]
    simpa using hdeclared.symm

theorem ofMoments_executed {st : Statement} {x : Execution}
    (hparse : Statement.parse line = .ok (some st)) (hdescribes : Describes st x) :
    ofMoments [⟨.executeLine k line, s, .ok (some x), s'⟩] = zero.count x := by
  cases haccepted : x.accepted <;> cases houtcome : x.outcome <;>
    simp [ofMoments, declaresFailure_executed hparse hdescribes, haccepted, houtcome,
      Moment.execution?, Moment.completes, Moment.rejects, Moment.isUnread, count, zero]

end

/-- How the counts of a run fit together. -/
structure Exact (s : Session) (ls : List String) (r : Reached) (t : Tally) : Prop where
  statements : t.statements = t.completed + t.failed + t.rejected
  records : r.session.trail.records.length = s.trail.records.length + t.statements
  lines : t.statements + t.syntaxErrors = ls.countP fun l => !Statement.isRemark l.toList

/-- A statement is counted once as such, and once by how it ended. -/
theorem count_zero (x : Execution) : let t := zero.count x
    t.statements = 1 ∧ t.completed + t.failed + t.rejected = 1 ∧ t.syntaxErrors = 0 := by
  unfold count
  split <;> exact ⟨rfl, rfl, rfl⟩

theorem countP_of_parse (line : String) (h : Statement.parse line ≠ .ok none) (ls : List String) :
    ((line :: ls).countP fun l => !Statement.isRemark l.toList) =
      (ls.countP fun l => !Statement.isRemark l.toList) + 1 := by
  have hremark := mt Statement.parse_eq_none_iff.2 h
  exact List.countP_cons_of_pos (by simp [hremark])

theorem exact_ofMoments {k : Collaborators} {s : Session} {w : World} {ls : List String} {r : Reached}
    (h : LineRun k s w ls r) : Exact s ls r (ofMoments r.moments) := by
  induction h with
  | nil => exact ⟨rfl, rfl, rfl⟩
  | @cons s s' w w' line ls answer r hrun hstep hrest ih =>
    obtain ⟨hstatements, hrecords, hlines⟩ := ih
    rw [ofMoments_cons]
    cases hstep with
    | remark hparse =>
      have hremark := Statement.parse_eq_none_iff.1 hparse
      rw [ofMoments_remark, zero_add]
      exact ⟨hstatements, hrecords, by rw [hlines, List.countP_cons_of_neg (by simp [hremark])]⟩
    | unread hparse =>
      have hcount := countP_of_parse line (by simp [hparse]) ls
      rw [ofMoments_unread, add_def]
      refine ⟨?_, ?_, ?_⟩ <;> dsimp only [countSyntaxError, zero] <;> omega
    | @executed st x _ _ hparse hprocess hidle hdescribes htrail =>
      have hcount := countP_of_parse line (by simp [hparse]) ls
      obtain ⟨hone, hends, herrors⟩ := count_zero x
      rw [htrail, Trail.push_records, List.length_append, List.length_singleton] at hrecords
      rw [ofMoments_executed hparse hdescribes, add_def]
      refine ⟨?_, ?_, ?_⟩ <;> dsimp only <;> omega

end Tally

/-! ## Running -/

/-- Processing the statements of lines is executing the lines. -/
theorem runLines_run {k : Collaborators} {s : Session} {w : World} {ls : List String} {r : Reached}
    (h : LineRun k s w ls r) (json : Bool) (n : Nat) (t : Tally) (report : Report) :
    ∃ report', StateT.run (runLines json k (parseLines n ls) ⟨s, t, report⟩ : StateM World _) w =
      ((⟨r.session, t + .ofMoments r.moments, report'⟩, none), r.world) := by
  induction h generalizing n t report with
  | nil => exact ⟨report, rfl⟩
  | @cons s s' w w' line ls answer r hrun hstep hrest ih =>
    rw [Tally.ofMoments_cons, ← Tally.add_assoc, parseLines]
    -- the number of a line goes into the report only
    cases hstep with
    | remark hparse =>
      rw [hparse, Tally.ofMoments_remark]
      exact ih (n + 1) t report
    | unread hparse =>
      rw [hparse, Tally.ofMoments_unread, ← Tally.countSyntaxError_eq]
      exact ih (n + 1) t.countSyntaxError _
    | @executed st x _ _ hparse hprocess hidle hdescribes htrail =>
      rw [hparse, Tally.ofMoments_executed hparse hdescribes, ← Tally.count_eq]
      dsimp only
      rw [runLines, bind_run, hprocess]
      exact ih (n + 1) (t.count x) _

theorem failure_eq_nil_iff (summary : RunSummary) : summary.failure = [] ↔
    summary.tally.rejected = 0 ∧ summary.tally.syntaxErrors = 0 ∧ summary.auditError = none := by
  unfold RunSummary.failure
  cases summary.auditError with
  | some e => simp
  | none =>
    dsimp only
    split
    · rename_i h
      simp [h]
    · rename_i h
      simpa using h

/-- A session starts idle, and no record of it has been lost. -/
theorem start_fresh {c : Config} {w w' : World} {s : Session}
    (h : StateT.run (Session.start c : StateM World _) w = (.ok s, w')) :
    s.phase = .idle ∧ s.trail.failure = none := by
  obtain ⟨-, t, rfl, rfl | ⟨path, hresume⟩⟩ := Session.start_cases h
  · exact ⟨rfl, rfl⟩
  · obtain ⟨rs, -, -, -, rfl⟩ := Trail.resume_eq_ok_iff.1 hresume
    exact ⟨rfl, rfl⟩

/-- Once its session is open, a run does to it and to the world what executing the lines of the
program does, and no statement is refused. Its summary counts the moments of that execution: each
statement has a record and ends in one way, each line that is no remark is counted, and the failures
are those that were declared. The command succeeds if nothing was rejected, every line could be read
and every record could be written. -/
theorem run_faithful {o : RunOptions} {w w₁ w₂ w₃ w₄ : World} {program : String}
    {project : Option Project} {base : Config} {s : Session}
    (hread : StateT.run (readProgram o.file : StateM World _) w = (.ok program, w₁))
    (hproject : StateT.run (openProject? o.root : StateM World _) w₁ = (.ok project, w₂))
    (hbase : StateT.run (baseConfig o.config project : StateM World _) w₂ = (.ok base, w₃))
    (hstart : StateT.run
      (Session.start (settleLog o.auditLog project base) : StateM World _) w₃ = (.ok s, w₄)) :
    let k := collaborators project
    let lines := Text.lines program
    let w₅ := { w₄ with ticks := w₄.ticks + 1 }
    let r := s.run w₅ (lines.map (.executeLine k))
    let tally := Tally.ofMoments r.moments
    let summary : RunSummary :=
      { program := o.file
        programDigest := Sha256.hexOfText program
        startedAt := (w₄.clock w₄.ticks).text
        finishedAt := (r.world.clock r.world.ticks).text
        tally
        auditLog := (settleLog o.auditLog project base).audit.logPath.map Path.text
        auditHead := r.session.trail.records.getLast?.map AuditRecord.hashbrown
        auditError := r.session.trail.failure.map WriteFailure.message }
    (∃ report,
      StateT.run (runLines o.json k (parseProgram program) ⟨s, .zero, .empty⟩ : StateM World _) w₅ =
        ((⟨r.session, tally, report⟩, none), r.world) ∧
      StateT.run (runCommand o : StateM World _) w =
        ((printSummary o.json report summary).fail summary.failure,
          { r.world with ticks := r.world.ticks + 1 })) ∧
    tally.Exact s lines r ∧
    ((StateT.run (runCommand o : StateM World _) w).1.succeeded = true ↔
      tally.rejected = 0 ∧ tally.syntaxErrors = 0 ∧ ¬ s.LosesRecord k w₅ lines) := by
  intro k lines w₅ r tally summary
  obtain ⟨hidle, hfailure⟩ := start_fresh hstart
  have hlineRun : LineRun k s w₅ lines r := Session.lineRun k hidle w₅ lines
  obtain ⟨report, hlines⟩ := runLines_run hlineRun o.json 1 .zero .empty
  rw [Tally.zero_add] at hlines
  have hcommand : StateT.run (runCommand o : StateM World _) w =
      ((printSummary o.json report summary).fail summary.failure,
        { r.world with ticks := r.world.ticks + 1 }) := by
    have hnow : StateT.run (Host.now : StateM World _) w₄ = (w₄.clock w₄.ticks, w₅) := rfl
    rw [runCommand, bind_run, hread]
    dsimp only
    rw [bind_run, hproject]
    dsimp only
    rw [bind_run, hbase]
    dsimp only
    rw [bind_run, hstart]
    dsimp only
    rw [runProgram, bind_run, hnow, bind_run, parseProgram, hlines]
    rfl
  refine ⟨⟨report, hlines, hcommand⟩, Tally.exact_ofMoments hlineRun, ?_⟩
  have herror : summary.auditError = none ↔ ¬ s.LosesRecord k w₅ lines := by
    rw [Option.map_eq_none_iff, Session.failure_run hlineRun]
    exact and_iff_right hfailure
  rw [hcommand, Report.succeeded, Report.fail, List.isEmpty_iff, failure_eq_nil_iff, herror]

/-- A program with a statement of each kind, remarks and a line that is no statement, on a disk that
does not take the second record. -/
theorem run_faithful_fault :
    let program := "// walk\nvoice.use \"@sage\"\nritual.dance\n\n" ++
      "ritual.engage \"healing_session\"\nritual.fail\n"
    let o : RunOptions := ⟨stdinName, none, none, some "log", false⟩
    let w : World := ⟨.empty, [], Text.encode program, fun n => ⟨n⟩, 0,
      fun n => if n = 1 then some 7 else none, 0, fun _ _ => false⟩
    let started := StateT.run
      (Session.start (settleLog o.auditLog none .default) : StateM World _) w
    let run (s : Session) := s.run { started.2 with ticks := started.2.ticks + 1 }
      ((Text.lines program).map (.executeLine (collaborators none)))
    ∃ s, started.1 = .ok s ∧ Tally.ofMoments (run s).moments = ⟨3, 1, 1, 1, 1⟩ ∧
      (run s).session.trail.failure.isSome = true ∧
      (Tally.ofMoments (run s).moments).Exact s (Text.lines program) (run s) ∧
      (StateT.run (runCommand o : StateM World _) w).1.succeeded = false := by
  intro program o w started run
  have hcounts : (started.1.toOption.map fun s =>
      (Tally.ofMoments (run s).moments, (run s).session.trail.failure.isSome)) =
        some (⟨3, 1, 1, 1, 1⟩, true) := by decide +kernel
  cases hstart : started.1 with
  | error e =>
    rw [hstart] at hcounts
    cases hcounts
  | ok s =>
    rw [hstart] at hcounts
    obtain ⟨htally, hfailure⟩ := Prod.mk.inj (Option.some.inj hcounts)
    have hread : StateT.run (readProgram o.file : StateM World _) w = (.ok program, w) :=
      Program.readProgram_stdin w program
    obtain ⟨-, hexact, hsucceeded⟩ := run_faithful hread rfl rfl (Prod.ext hstart rfl)
    refine ⟨s, rfl, htally, hfailure, hexact, ?_⟩
    rw [← Bool.not_eq_true, hsucceeded]
    rintro ⟨hrejected, -⟩
    have hone : (Tally.ofMoments (run s).moments).rejected = 1 := by rw [htally]
    exact absurd (hone.symm.trans hrejected) (by decide)

end Command

end RitualGate

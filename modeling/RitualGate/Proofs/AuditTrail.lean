import RitualGate.Proofs.Run

/-!
# The trail of a run

Whatever is done with a session, its records are those that it began with and one for each
statement that it processed, in order, and they are a chain. `Recorded` says so of a session in the
course of a run, and every step keeps it (`recorded_step`). What a record says of its statement is
`Describes`. `audit_complete` puts this together for every run.
-/

namespace RitualGate

/-- The record that was added at a moment, if one was. -/
def Moment.record? (m : Moment) : Option AuditRecord :=
  match m.answer with
  | .ok (some x) => some x.record
  | _ => none

/-- The record of an execution says what was processed and how that ended. -/
structure Describes (st : Statement) (x : Execution) : Prop where
  statementDigest : x.record.statementDigest = Sha256.hexOfText st.canonical
  keyword : x.record.keyword = st.family.name ++ "." ++ st.verb.name
  outcome : x.record.outcome = x.outcome
  handle : x.record.detail.handle = x.handle.map VoiceHandle.name
  substituted : x.record.detail.substituted = x.handle.any VoiceHandle.substituted
  /-- A refusal is recorded as a failure of its kind, and nothing else has a kind. -/
  refused : (∃ err, x.error = some err ∧ x.record.detail.errorKind = some err.kind ∧
    x.record.outcome = .failed) ↔ x.accepted = false
  accepted : x.accepted = true → x.record.detail.errorKind = none
  /-- Of the statements that are accepted, those that declare a failure fail. -/
  declared : x.accepted = true →
    (x.outcome = .failed ↔ st.family = .ritual ∧ st.verb = .fail)

namespace Session

/-! ## One statement -/

/-- A processed statement leaves the next record of the trail and nothing else in it. -/
theorem recorded_trail (s : Session) (c : Collaborators) (st : Statement) (now : Instant)
    (written : Except IoError Unit) : ∃ o d,
      (s.recorded c st now written).2.record = s.trail.next st o d now ∧
      (s.recorded c st now written).1.trail = s.trail.push (s.trail.next st o d now) written := by
  set e := { s with phase := .processing }.evaluate c st with he
  have hkept := evaluate_kept { s with phase := .processing } c st
  have htrail : e.session.trail = s.trail := hkept.trail
  refine ⟨e.outcome, e.detail, ?_, ?_⟩
  · rw [← htrail]
    rfl
  · rw [← htrail]
    rfl

theorem describes_recorded (s : Session) (c : Collaborators) (st : Statement) (now : Instant)
    (written : Except IoError Unit) : Describes st (s.recorded c st now written).2 := by
  set x := (s.recorded c st now written).2 with hx
  set e := { s with phase := .processing }.evaluate c st with he
  have herror : x.error = e.error? := rfl
  have houtcome : x.record.outcome = e.outcome := rfl
  have hkind : x.record.detail.errorKind = e.error?.map RitualError.kind := rfl
  have haccepted : x.accepted = e.error?.isNone := rfl
  refine ⟨rfl, rfl, rfl, rfl, rfl, ?_, ?_, ?_⟩
  · rw [herror, houtcome, hkind, haccepted]
    cases hr : e.result <;> simp [Evaluation.error?, Evaluation.outcome, hr]
  · rw [hkind, haccepted]
    cases hr : e.result <;> simp [Evaluation.error?, hr]
  · rw [haccepted]
    intro hok
    cases hr : e.result with
    | error err => simp [Evaluation.error?, hr] at hok
    | ok o =>
      have ho : x.outcome = o := by
        rw [show x.outcome = e.outcome from rfl, Evaluation.outcome, hr]
      rw [ho]
      exact evaluate_failed_iff { s with phase := .processing } c st hr

/-! ## One step -/

/-- The records of a session are those of the beginning and those added since, and they are a
chain. Between operations a session is idle or closed. -/
structure Recorded (s₀ : Session) (ms : List Moment) (s : Session) : Prop where
  records : s.trail.records = s₀.trail.records ++ ms.filterMap Moment.record?
  chain : Chain.verify s.trail.records = .ok ()
  phase : s.phase = .idle ∨ s.phase = .closed

section Step

variable {s₀ s s' : Session} {ms : List Moment} {op : Operation}
  {answer : Except RitualError (Option Execution)}

/-- What adds no record and neither opens nor reopens a session keeps the trail. -/
theorem Recorded.of_same (h : Recorded s₀ ms s) (ha : ∀ x, answer ≠ .ok (some x))
    (ht : s'.trail = s.trail) (hp : s'.phase = s.phase ∨ s'.phase = .closed) :
    Recorded s₀ (ms ++ [⟨op, s, answer, s'⟩]) s' where
  records := by
    have hnone : (⟨op, s, answer, s'⟩ : Moment).record? = none := by
      unfold Moment.record?
      split
      · rename_i x hx
        exact absurd hx (ha x)
      · rfl
    rw [ht, h.records, List.filterMap_append]
    simp [hnone]
  chain := ht ▸ h.chain
  phase := by
    rcases hp with hp | hp
    · exact hp ▸ h.phase
    · exact .inr hp

/-- Every step keeps the trail. -/
theorem recorded_step (h : Recorded s₀ ms s) (hstep : Step s op s' answer) :
    Recorded s₀ (ms ++ [⟨op, s, answer, s'⟩]) s' := by
  cases hstep with
  | @executed _ c st now written hr ho =>
    obtain ⟨o, d, hrecord, htrail⟩ := recorded_trail s c st now written
    refine ⟨?_, ?_, .inl rfl⟩
    · rw [htrail, Trail.push_records, h.records, List.filterMap_append, ← hrecord,
        List.append_assoc]
      rfl
    · rw [htrail]
      exact Trail.verify_push h.chain st o d now written
  | refused => exact h.of_same (by simp) rfl (.inl rfl)
  | unread => exact h.of_same (by simp) rfl (.inl rfl)
  | remark => exact h.of_same (by simp) rfl (.inl rfl)
  | clearContainment => exact h.of_same (by simp) rfl (.inl rfl)
  | reset => exact h.of_same (by simp) rfl (.inl rfl)
  | close => exact h.of_same (by simp) rfl (.inr rfl)

theorem records_of_step (hstep : Step s op s' answer) : s'.trail.records =
    s.trail.records ++ (⟨op, s, answer, s'⟩ : Moment).record?.toList := by
  cases hstep with
  | @executed _ c st now written hr ho =>
    obtain ⟨o, d, hrecord, htrail⟩ := recorded_trail s c st now written
    rw [htrail, Trail.push_records, ← hrecord]
    rfl
  | _ => exact (List.append_nil _).symm

theorem describes_of_step (hstep : Step s op s' answer) {x : Execution}
    (hx : answer = .ok (some x)) : ∃ k st, op.request? = some (k, st) ∧ Describes st x := by
  cases hstep with
  | @executed _ c st now written hr ho =>
    cases hx
    exact ⟨c, st, hr, describes_recorded s c st now written⟩
  | _ => cases hx

/-- A line that is no statement leaves a session as it is. -/
theorem same_of_unread (hstep : Step s op s' answer) {k : Collaborators} {line : String}
    (hop : op = .executeLine k line) (hline : ∀ st, Statement.parse line ≠ .ok (some st)) :
    s' = s := by
  cases hstep with
  | @executed _ c st now written hr ho =>
    rw [hop, Operation.request?] at hr
    split at hr
    · rename_i st' hst
      exact absurd hst (hline st')
    · cases hr
  | refused => rfl
  | unread => rfl
  | remark => rfl
  | _ => cases hop

/-- A closed session refuses and stays as it is. -/
theorem same_of_closed (hstep : Step s op s' answer) (hc : s.phase = .closed)
    (hop : op.isSubmission = true) : s' = s ∧ answer = .error .sessionClosed := by
  cases hstep with
  | executed now written hr ho => exact absurd hc ho
  | refused => exact ⟨rfl, rfl⟩
  | unread h ho => exact absurd hc ho
  | remark h ho => exact absurd hc ho
  | _ => cases hop

/-- Nothing opens a closed session again. -/
theorem closed_of_closed (hstep : Step s op s' answer) (hc : s.phase = .closed) :
    s'.phase = .closed := by
  cases hstep with
  | executed now written hr ho => exact absurd hc ho
  | close => rfl
  | _ => exact hc

end Step

/-! ## Whole runs -/

theorem recorded_run {c : Config} {t : Trail} (ht : Chain.verify t.records = .ok ()) (w : World)
    (ops : List Operation) : Recorded (ofConfig c t) ((ofConfig c t).run w ops).moments
      ((ofConfig c t).run w ops).session := by
  refine run_induction ⟨?_, ht, .inl rfl⟩ recorded_step w ops
  rw [List.filterMap_nil, List.append_nil]

/-- In every run from the start of a session, the records are those of the beginning and one for
each statement processed, in order, and they are a chain; each describes its statement; and what
processes no statement adds none. -/
theorem audit_complete {c : Config} {s₀ : Session} {w₀ w : World}
    (hstart : StateT.run (start c : StateM World _) w₀ = (.ok s₀, w)) (ops : List Operation) :
    Recorded s₀ (s₀.run w ops).moments (s₀.run w ops).session ∧
      ∀ m ∈ (s₀.run w ops).moments,
        m.after.trail.records = m.before.trail.records ++ m.record?.toList ∧
        (∀ x, m.answer = .ok (some x) →
          ∃ k st, m.operation.request? = some (k, st) ∧ Describes st x) ∧
        (∀ k line, m.operation = .executeLine k line →
          (∀ st, Statement.parse line ≠ .ok (some st)) → m.after = m.before) ∧
        (m.before.phase = .closed → m.operation.isSubmission = true →
          m.after = m.before ∧ m.answer = .error .sessionClosed) ∧
        (m.before.phase = .closed → m.after.phase = .closed) := by
  obtain ⟨-, t, ht, rfl⟩ := start_run hstart
  refine ⟨recorded_run ht w ops, fun m hm => ?_⟩
  obtain ⟨past, future, hsplit⟩ := List.append_of_mem hm
  obtain ⟨-, -, -, -, hstep⟩ := run_split hsplit
  exact ⟨records_of_step hstep, fun x hx => describes_of_step hstep hx,
    fun k line hop hline => same_of_unread hstep hop hline,
    fun hc hop => same_of_closed hstep hc hop, fun hc => closed_of_closed hstep hc⟩

/-- A session with a log on a disk that takes only the first record. -/
theorem audit_complete_fault :
    let k : Collaborators := ⟨Script.empty.respond, fun _ _ => .ok []⟩
    let c : Config := { Config.default with audit := ⟨"sha256", some (.ofText "log")⟩ }
    let w₀ : World := ⟨.empty, [], [], fun n => ⟨n⟩, 0, fun n => if n = 0 then none else some 1, 0,
      fun _ _ => false⟩
    let ops : List Operation := [.executeLine k "ritual.fail", .executeLine k "# a remark",
      .executeLine k "ritual.engage \"crisis\"", .close, .executeLine k "ritual.fail"]
    ∃ s₀ w, StateT.run (start c : StateM World _) w₀ = (.ok s₀, w) ∧
      (s₀.run w ops).moments.map Moment.operation = ops ∧
      Recorded s₀ (s₀.run w ops).moments (s₀.run w ops).session := by
  intro k c w₀ ops
  have hok : (StateT.run (start c : StateM World _) w₀).1.isOk = true := by decide +kernel
  rcases hstart : StateT.run (start c : StateM World _) w₀ with ⟨e | s₀, w⟩
  · rw [hstart] at hok
    cases hok
  · exact ⟨s₀, w, rfl, run_operations s₀ w ops, (audit_complete hstart ops).1⟩

end Session

end RitualGate

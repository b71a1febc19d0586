import RitualGate.Proofs.Budget
import RitualGate.Proofs.Replay
import RitualGate.Proofs.Routing

/-!
# What a rejection leaves behind

A statement can be stopped at seven points. The gate, the level, an unknown persona and a charge
that there is no room for stop it before anything has changed; a card that is not found and a
collaborator that fails stop it after its cost was paid. `Rejects` says what either leaves of the
session and of the answer. An evaluation that ends in an error took one of seven courses, and
`rejects_recorded` goes through them. What is consumed never exceeds the capacity of the current
level (`withinCapacity_run`), and `rejection_confined` says both of every state that a session can
come to.
-/

namespace RitualGate

open Governor (maxWord)

namespace ErrorKind

/-- The errors that stop a statement before its cost is paid. -/
def unpaid : List ErrorKind := [anchor, bandwidth, unknownPersona]

/-- The errors that stop a statement after its cost was paid. -/
def paid : List ErrorKind := [notFound, cancelled, timedOut, collaboratorFailed]

end ErrorKind

/-! ## The errors of each stage -/

theorem Router.validate_eq_error {r : Router} {p : Persona} {e : RitualError}
    (h : r.validate p = .error e) : e = .unknownPersona p := by
  unfold validate at h
  split at h
  · cases h
  · cases h
    rfl

theorem Router.resolve_eq_error {r : Router} {p : Persona} {contained : Bool} {e : RitualError}
    (h : r.resolve p contained = .error e) : e = .unknownPersona p := by
  unfold resolve at h
  split at h
  · cases h
  · split at h
    · cases h
    · cases h
      rfl

theorem DispatchError.kind_mem_paid (e : DispatchError) :
    (RitualError.dispatch e).kind ∈ ErrorKind.paid := by
  cases e <;> simp [RitualError.kind, ErrorKind.paid]

theorem Denies.kind_mem_paid {archive : Archive} {topic : String} {r : CardRef} {e : RitualError}
    (h : Denies archive topic r e) : e.kind ∈ ErrorKind.paid := by
  cases h with
  | failed => exact DispatchError.kind_mem_paid _
  | missing => simp [RitualError.kind, ErrorKind.paid]

theorem resolve_eq_error {archive : Archive} {topic : String} {refs asked : List CardRef}
    {e : RitualError} (h : resolve archive topic refs = (asked, .error e)) :
    e.kind ∈ ErrorKind.paid := by
  obtain ⟨_, _, _, -, -, -, hdenies⟩ := resolve_eq_error_iff.1 h
  exact hdenies.kind_mem_paid

namespace Session

theorem voiceFor_eq_error {s : Session} {st : Statement} {e : RitualError}
    (h : s.voiceFor st = .error e) : e.kind = .unknownPersona := by
  unfold voiceFor at h
  split at h
  · cases h
  · split at h
    · cases h
    · rename_i hr
      cases h
      rw [Router.resolve_eq_error hr]
      rfl

/-! ## What a rejected statement leaves -/

/-- `s.Rejects s' st x`: the session `s` answered the statement `st` by the rejection `x` and went
on as `s'`. All is as it was, except that the cost may have been paid already. -/
structure Rejects (s s' : Session) (st : Statement) (x : Execution) : Prop where
  granted : s'.grants.granted = s.grants.granted
  containment : s'.grants.containment = s.grants.containment
  voice : s'.voice = s.voice
  ritual : s'.ritual = s.ritual
  level : s'.governor.state.current = s.governor.state.current
  phase : s'.phase = .idle
  error : ∃ e, x.error = some e ∧
    ((e.kind ∈ ErrorKind.unpaid ∧ s'.governor.state.consumed = s.governor.state.consumed ∧
        x.handle = none ∧ x.response = none ∧ x.cards = []) ∨
      (e.kind ∈ ErrorKind.paid ∧ s'.governor.state.consumed.toNat =
          min (s.governor.state.consumed.toNat + (s.governor.costOf st).toNat) maxWord ∧
        x.response = none))

theorem charge_consumed {g g' : Governor} {cost : UInt32} (h : g.charge cost = .ok g') :
    g'.state.consumed.toNat = min (g.state.consumed.toNat + cost.toNat) maxWord ∧
      g'.state.consumed ≤ g'.capacity := by
  rcases g.charge_cases cost with ⟨hle, next, hnext, heq⟩ | ⟨-, e, heq⟩
  · cases heq.symm.trans h
    exact ⟨hnext, UInt32.le_iff_toNat_le.2 (hnext ▸ hle)⟩
  · cases heq.symm.trans h

/-- An error before the charge comes with nothing else. -/
theorem rejects_plain {s : Session} {st : Statement} {e : RitualError} (record : AuditRecord)
    (trail : Trail) (he : e.kind ∈ ErrorKind.unpaid) :
    let r := conclude (.plain { s with phase := .processing } (.error e)) st record trail
    s.Rejects r.1 st r.2 :=
  ⟨rfl, rfl, rfl, rfl, rfl, rfl, e, rfl, .inl ⟨he, rfl, rfl, rfl, rfl⟩⟩

/-- A statement whose evaluation ends in an error is rejected. -/
theorem rejects_recorded {s : Session} {c : Collaborators} {st : Statement} {now : Instant}
    {written : Except IoError Unit} (h : (s.recorded c st now written).2.accepted = false) :
    s.Rejects (s.recorded c st now written).1 st (s.recorded c st now written).2 := by
  have course := evaluate_course { s with phase := .processing } c st
  unfold recorded at h ⊢
  generalize { s with phase := .processing }.evaluate c st = e at course h ⊢
  cases course with
  | missingAnchors => exact rejects_plain _ _ (by simp [RitualError.kind, ErrorKind.unpaid])
  | lowLevel => exact rejects_plain _ _ (by simp [RitualError.kind, ErrorKind.unpaid])
  | overcharged => exact rejects_plain _ _ (by simp [RitualError.kind, ErrorKind.unpaid])
  | voiceUnknown _ _ _ _ hp =>
    obtain rfl := Router.validate_eq_error hp
    exact rejects_plain _ _ (by simp [RitualError.kind, ErrorKind.unpaid])
  | speakerUnknown _ _ hv =>
    exact rejects_plain _ _ (by simp [voiceFor_eq_error hv, ErrorKind.unpaid])
  | cardsFailed hp hr =>
    obtain ⟨hconsumed, -⟩ := charge_consumed hp.2.2.2
    exact ⟨rfl, rfl, rfl, rfl, charge_current hp.2.2.2, rfl, _, rfl,
      .inr ⟨resolve_eq_error hr, hconsumed, rfl⟩⟩
  | voiceFailed hp =>
    obtain ⟨hconsumed, -⟩ := charge_consumed hp.2.2.2
    exact ⟨rfl, rfl, rfl, rfl, charge_current hp.2.2.2, rfl, _, rfl,
      .inr ⟨DispatchError.kind_mem_paid _, hconsumed, rfl⟩⟩
  | _ => cases h

/-! ## Nothing exceeds the capacity -/

/-- No more is consumed than the capacity of the current level. -/
def WithinCapacity (s : Session) : Prop :=
  s.governor.state.consumed ≤ s.governor.capacity

theorem withinCapacity_set (g : Governor) (level : Level) :
    (g.set level).state.consumed ≤ (g.set level).capacity :=
  UInt32.le_iff_toNat_le.2 (Nat.zero_le _)

theorem evaluate_withinCapacity {s : Session} (c : Collaborators) (st : Statement)
    (h : s.WithinCapacity) : (s.evaluate c st).session.WithinCapacity := by
  have course := evaluate_course s c st
  generalize s.evaluate c st = e at course
  cases course with
  | levelSet =>
    simp only [Evaluation.plain, setLevel]
    split
    · exact h
    · exact withinCapacity_set _ _
  | cardsFailed hp => exact (charge_consumed hp.2.2.2).2
  | voiceFailed hp => exact (charge_consumed hp.2.2.2).2
  | fetched hp =>
    rw [WithinCapacity, engaged_governor]
    exact (charge_consumed hp.2.2.2).2
  | answered hp =>
    rw [WithinCapacity, engaged_governor]
    exact (charge_consumed hp.2.2.2).2
  | _ => exact h

theorem withinCapacity_step {s s' : Session} {op : Operation}
    {answer : Except RitualError (Option Execution)} (h : s.WithinCapacity)
    (hs : Step s op s' answer) : s'.WithinCapacity := by
  cases hs with
  | executed now written _ _ =>
    exact evaluate_withinCapacity (s := { s with phase := .processing }) _ _ h
  | reset => exact withinCapacity_set _ _
  | _ => exact h

theorem withinCapacity_run (c : Config) (t : Trail) (w : World) (ops : List Operation) :
    ((ofConfig c t).run w ops).session.WithinCapacity :=
  run_induction (P := fun _ s => s.WithinCapacity) (UInt32.le_iff_toNat_le.2 (Nat.zero_le _))
    withinCapacity_step w ops

/-! ## Rejections in every state -/

/-- Whatever a session has been through, it has consumed no more than its level allows, and a
statement that it rejects leaves it as it was, except for the cost if that was paid already. -/
theorem rejection_confined {c : Config} {s₀ : Session} {w₀ w : World}
    (hstart : StateT.run (start c : StateM World _) w₀ = (.ok s₀, w)) (ops : List Operation) :
    let s := (s₀.run w ops).session
    s.governor.state.consumed ≤ s.governor.capacity ∧
      ∀ (k : Collaborators) (st : Statement) (w₁ w₂ : World) (s' : Session) (x : Execution),
        StateT.run (s.process k st : StateM World _) w₁ = ((s', .ok x), w₂) →
        x.accepted = false → s.Rejects s' st x := by
  intro s
  obtain ⟨-, t, -, rfl⟩ := start_run hstart
  refine ⟨withinCapacity_run c t w ops, fun k st w₁ w₂ s' x hrun hrejected => ?_⟩
  obtain ⟨now, written, rfl, rfl⟩ := recorded_of_process hrun
  exact rejects_recorded hrejected

/-- While a ritual is engaged a companion is summoned with a card, and the archive gives up: the
summons is paid for and the ritual goes on. -/
theorem rejection_confined_cancelled :
    let k : Collaborators := ⟨Script.empty.respond, fun _ _ => .error .cancelled⟩
    let engage : Statement :=
      { family := .ritual, verb := .engage, subject := "walk", intent := some .general
        args := .empty, anchors := .empty, voice := none, bandwidth := none, cards := [] }
    let summon : Statement :=
      { engage with family := .companion, verb := .summon, cards := [.latest 2] }
    let w : World := ⟨.empty, [], [], fun _ => ⟨0⟩, 0, fun _ => none, 0, fun _ _ => false⟩
    let s := ((ofConfig .default .empty).run w [.process k engage]).session
    ∃ s' x w', StateT.run (s.process k summon : StateM World _) w = ((s', .ok x), w') ∧
      x.accepted = false ∧ s.Rejects s' summon x ∧ s'.ritual = some "walk" ∧
      s.governor.state.consumed = 1 ∧ s'.governor.state.consumed = 4 := by
  intro k engage summon w s
  have hstart : StateT.run (start .default : StateM World _) w =
      (.ok (ofConfig .default .empty), w) := rfl
  have hrejected (now written) : (s.recorded k summon now written).2.accepted = false := by
    dsimp only [s, w, k, summon, engage]
    rfl
  have hconsumed (now written) :
      (s.recorded k summon now written).1.governor.state.consumed = 4 := by
    dsimp only [s, w, k, summon, engage]
    rfl
  obtain ⟨now, written, w', hrun⟩ := process_run s k summon w nofun
  have hrejects : s.Rejects (s.recorded k summon now written).1 summon
      (s.recorded k summon now written).2 :=
    (rejection_confined hstart [.process k engage]).2 k summon w w' _ _ hrun (hrejected now written)
  exact ⟨_, _, w', hrun, hrejected now written, hrejects, hrejects.ritual, rfl,
    hconsumed now written⟩

end Session

end RitualGate

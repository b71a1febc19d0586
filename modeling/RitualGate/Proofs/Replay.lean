import RitualGate.Proofs.GateSafety

/-!
# The state of a session as a replay of its history

What a session holds between operations is decided by the statements that it accepted, by the last
reset and by the last end of containment; refusals, failures of collaborators and lines that say
nothing leave no trace in it. `Replays` says so piece by piece: the anchors given, containment, the
voice, the ritual and the level. An evaluation moves these pieces only if it accepts its statement
(`evaluate_moved`), so each step keeps `Replays` (`replays_step`), and `state_replays` says that it
holds throughout every run.
-/

namespace RitualGate

namespace Statement

/-- The persona that an accepted statement makes the voice of its session. -/
def namedVoice? (st : Statement) : Option Persona :=
  if st.family = .voice ∧ st.verb = .use then st.voice else none

/-- The level that an accepted statement sets. -/
def namedLevel? (st : Statement) : Option Level :=
  if st.family = .bandwidth ∧ st.verb = .set then st.bandwidth else none

/-- The ritual that is engaged once a ritual statement was accepted. -/
def engagedRitual? (st : Statement) : Option String :=
  if st.verb = .engage then some st.subject else none

theorem engagesContainment_iff {st : Statement} : st.engagesContainment = true ↔
    st.family = .anchor ∧ st.verb = .engage ∧
      ∃ a, st.anchors.has a = true ∧ a.kind = .containment := by
  simp [engagesContainment, and_assoc]

end Statement

/-! ## Histories -/

namespace Operation

/-- Whether an operation ends containment. -/
def isRelease : Operation → Bool
  | clearContainment => true
  | reset => true
  | _ => false

theorem isRelease_of_request? {op : Operation} {k : Collaborators × Statement}
    (hr : op.request? = some k) : op.isRelease = false := by
  cases op <;> first | rfl | cases hr

end Operation

/-- The statement that was accepted at a moment, if one was. -/
def Moment.accepted? (m : Moment) : Option Statement :=
  match m.operation.request?, m.answer with
  | some (_, st), .ok (some x) => if x.accepted then some st else none
  | _, _ => none

/-- The moments after the last one at which containment was ended. -/
def sinceRelease (ms : List Moment) : List Moment :=
  (ms.reverse.takeWhile fun m => !m.operation.isRelease).reverse

/-- The statements accepted at some moments, in order. -/
def accepted (ms : List Moment) : List Statement :=
  ms.filterMap Moment.accepted?

theorem sinceRelease_concat (ms : List Moment) (m : Moment) :
    sinceRelease (ms ++ [m]) =
      if m.operation.isRelease then [] else sinceRelease ms ++ [m] := by
  unfold sinceRelease
  cases h : m.operation.isRelease <;> simp [h]

theorem accepted_concat (ms : List Moment) (m : Moment) :
    accepted (ms ++ [m]) = accepted ms ++ m.accepted?.toList := by
  rw [accepted, List.filterMap_append, accepted]
  cases h : m.accepted? <;> simp [h]

namespace Moment

theorem accepted?_eq_some_iff {m : Moment} {st : Statement} :
    m.accepted? = some st ↔ ∃ k x, m.Executes k st x ∧ x.accepted = true := by
  constructor
  · intro h
    unfold accepted? at h
    split at h
    · rename_i k st' x hr hx
      split at h
      · rename_i hacc
        cases h
        exact ⟨k, x, ⟨hr, hx⟩, hacc⟩
      · cases h
    · cases h
  · rintro ⟨k, x, ⟨hr, hx⟩, hacc⟩
    simp [accepted?, hr, hx, hacc]

theorem gives_iff {m : Moment} {a : Anchor} :
    m.Gives a ↔ ∃ st, m.accepted? = some st ∧ st.family = .anchor ∧ st.anchors.has a = true := by
  simp only [Gives, accepted?_eq_some_iff]
  constructor
  · rintro ⟨k, st, x, hx, hacc, h⟩
    exact ⟨st, ⟨k, x, hx, hacc⟩, h⟩
  · rintro ⟨st, ⟨k, x, hx, hacc⟩, h⟩
    exact ⟨k, st, x, hx, hacc, h⟩

theorem accepted?_eq_none {m : Moment} (h : ∀ x, m.answer ≠ .ok (some x)) :
    m.accepted? = none := by
  rw [Option.eq_none_iff_forall_not_mem]
  intro st hst
  obtain ⟨k, x, hx, -⟩ := accepted?_eq_some_iff.1 hst
  exact h x hx.2

end Moment

namespace Session

/-! ## What an evaluation moves -/

/-- The voice, the ritual and the level of `s'` are those of `s`, or what an accepted statement makes
of them. -/
structure Moved (s s' : Session) (st : Statement) (accepted : Bool) : Prop where
  voice : s'.voice = if accepted then st.namedVoice?.or s.voice else s.voice
  ritual : s'.ritual =
    if accepted = true ∧ st.family = .ritual then st.engagedRitual? else s.ritual
  level : s'.governor.state.current =
    if accepted then st.namedLevel?.getD s.governor.state.current else s.governor.state.current

theorem charge_current {g g' : Governor} {cost : UInt32} (h : g.charge cost = .ok g') :
    g'.state.current = g.state.current := by
  unfold Governor.charge at h
  simp only at h
  split at h
  · cases h
    rfl
  · cases h

theorem setLevel_moved {s : Session} {st : Statement} (hf : st.family = .bandwidth)
    (hv : st.verb = .set) : Moved s (s.setLevel st) st true := by
  have hlevel : st.namedLevel? = st.bandwidth := by
    rw [Statement.namedLevel?, if_pos ⟨hf, hv⟩]
  unfold setLevel
  split
  · rename_i hb
    refine ⟨?_, ?_, ?_⟩ <;> simp [Statement.namedVoice?, hf, hlevel, hb]
  · rename_i level hb
    refine ⟨?_, ?_, ?_⟩ <;> simp [Statement.namedVoice?, hf, hlevel, hb, Governor.set]

/-- A dispatch takes neither a voice nor a level. It engages its ritual, if it is one. -/
theorem engaged_moved {s : Session} {st : Statement} {g : Governor} (hd : st.isDispatch = true)
    (hg : g.state.current = s.governor.state.current) :
    Moved s ({ s with governor := g }.engaged st) st true := by
  have hcases := Statement.isDispatch_iff.1 hd
  unfold engaged
  rcases hcases with ⟨hf, hv⟩ | ⟨hf, hv⟩ | ⟨hf, hv⟩ <;>
    refine ⟨?_, ?_, ?_⟩ <;>
    simp [Statement.namedVoice?, Statement.namedLevel?, Statement.engagedRitual?, hf, hv, hg]

/-- A statement of the language moves the voice, the ritual and the level only if it is accepted,
and then as its keyword says. -/
theorem evaluate_moved (s : Session) (c : Collaborators) {st : Statement}
    (hl : st.family.allows st.verb = true) :
    Moved s (s.evaluate c st).session st (s.evaluate c st).error?.isNone := by
  have course := evaluate_course s c st
  generalize s.evaluate c st = e at course
  have still {s' : Session} (hv : s'.voice = s.voice) (hr : s'.ritual = s.ritual)
      (hg : s'.governor.state.current = s.governor.state.current) : Moved s s' st false :=
    ⟨by simp [hv], by simp [hr], by simp [hg]⟩
  have dispatch {handle : Option VoiceHandle} {g : Governor} (hp : s.Paid st handle g) :
      st.isDispatch = true ∧ g.state.current = s.governor.state.current :=
    ⟨Statement.reachesOut_eq_isDispatch hl ▸ hp.2.1, charge_current hp.2.2.2⟩
  cases course with
  | missingAnchors => exact still rfl rfl rfl
  | lowLevel => exact still rfl rfl rfl
  | voiceUnknown => exact still rfl rfl rfl
  | speakerUnknown => exact still rfl rfl rfl
  | overcharged => exact still rfl rfl rfl
  | cardsFailed hp => exact still rfl rfl (dispatch hp).2
  | voiceFailed hp => exact still rfl rfl (dispatch hp).2
  | fetched hp => exact engaged_moved (dispatch hp).1 (dispatch hp).2
  | answered hp => exact engaged_moved (dispatch hp).1 (dispatch hp).2
  | levelSet ha hf hv => exact setLevel_moved hf hv
  | anchored ha hf =>
    refine ⟨?_, ?_, ?_⟩ <;>
      simp [Evaluation.plain, Evaluation.error?, Statement.namedVoice?, Statement.namedLevel?, hf]
  | voiceUnnamed ha hf hv h =>
    refine ⟨?_, ?_, ?_⟩ <;>
      simp [Evaluation.plain, Evaluation.error?, Statement.namedVoice?, Statement.namedLevel?, hf, h]
  | voiceTaken ha hf hv h =>
    refine ⟨?_, ?_, ?_⟩ <;>
      simp [Evaluation.plain, Evaluation.error?, Statement.namedVoice?, Statement.namedLevel?, hf,
        hv, h]
  | completed ha hf hv =>
    refine ⟨?_, ?_, ?_⟩ <;>
      simp [Evaluation.plain, Evaluation.error?, Statement.namedVoice?, Statement.namedLevel?,
        Statement.engagedRitual?, hf, hv]
  | failed ha hf hv =>
    refine ⟨?_, ?_, ?_⟩ <;>
      simp [Evaluation.plain, Evaluation.error?, Statement.namedVoice?, Statement.namedLevel?,
        Statement.engagedRitual?, hf, hv]

/-! ## The replay -/

/-- The state of a session is what the statements that it accepted make of it. -/
structure Replays (c : Config) (ms : List Moment) (s : Session) : Prop where
  granted : ∀ a, s.grants.granted.has a = true ↔
    ∃ st ∈ accepted (sinceReset ms), st.family = .anchor ∧ st.anchors.has a = true
  containment : s.grants.containment = true ↔
    ∃ st ∈ accepted (sinceRelease ms), st.family = .anchor ∧ st.verb = .engage ∧
      ∃ a, st.anchors.has a = true ∧ a.kind = .containment
  voice : s.voice = ((accepted (sinceReset ms)).filterMap Statement.namedVoice?).getLast?
  ritual : s.ritual = ((accepted (sinceReset ms)).filter fun st =>
    decide (st.family = .ritual)).getLast?.bind Statement.engagedRitual?
  level : s.governor.state.current = (((accepted (sinceReset ms)).filterMap
    Statement.namedLevel?).getLast?).getD c.bandwidth.initialLevel

theorem replays_start (c : Config) (t : Trail) : Replays c [] (ofConfig c t) where
  granted a := by simp [ofConfig, Grants.empty, AnchorSet.empty, sinceReset, accepted]
  containment := by simp [ofConfig, Grants.empty, sinceRelease, accepted]
  voice := rfl
  ritual := rfl
  level := rfl

section Step

variable {c : Config} {ms : List Moment} {s s' : Session} {op : Operation}
  {answer : Except RitualError (Option Execution)}

theorem accepted_sinceReset_concat {m : Moment} (h : m.operation.isReset = false) :
    accepted (sinceReset (ms ++ [m])) = accepted (sinceReset ms) ++ m.accepted?.toList := by
  rw [sinceReset_concat, h, if_neg Bool.false_ne_true, accepted_concat]

theorem accepted_sinceRelease_concat {m : Moment} (h : m.operation.isRelease = false) :
    accepted (sinceRelease (ms ++ [m])) = accepted (sinceRelease ms) ++ m.accepted?.toList := by
  rw [sinceRelease_concat, h, if_neg Bool.false_ne_true, accepted_concat]

/-- What accepts no statement and moves nothing keeps the replay. -/
theorem Replays.of_same (h : Replays c ms s) (hreset : op.isReset = false)
    (hrelease : op.isRelease = false) (ha : ∀ x, answer ≠ .ok (some x))
    (hgrants : s'.grants = s.grants) (hvoice : s'.voice = s.voice) (hritual : s'.ritual = s.ritual)
    (hgovernor : s'.governor = s.governor) : Replays c (ms ++ [⟨op, s, answer, s'⟩]) s' := by
  set m : Moment := ⟨op, s, answer, s'⟩ with hm
  have hnone : m.accepted? = none := Moment.accepted?_eq_none ha
  have hpast : accepted (sinceReset (ms ++ [m])) = accepted (sinceReset ms) := by
    rw [accepted_sinceReset_concat hreset, hnone, Option.toList_none, List.append_nil]
  have hheld : accepted (sinceRelease (ms ++ [m])) = accepted (sinceRelease ms) := by
    rw [accepted_sinceRelease_concat hrelease, hnone, Option.toList_none, List.append_nil]
  refine ⟨?_, ?_, ?_, ?_, ?_⟩
  · rw [hgrants, hpast]
    exact h.granted
  · rw [hgrants, hheld]
    exact h.containment
  · rw [hvoice, hpast]
    exact h.voice
  · rw [hritual, hpast]
    exact h.ritual
  · rw [hgovernor, hpast]
    exact h.level

theorem getLast?_filterMap_concat {α β : Type} (f : α → Option β) (l : List α) (a : α) :
    ((l ++ [a]).filterMap f).getLast? = (f a).or (l.filterMap f).getLast? := by
  rw [List.filterMap_append]
  cases h : f a <;> simp [h]

/-- Processing a statement of the language keeps the replay, whether the statement is accepted or
not. -/
theorem Replays.recorded (h : Replays c ms s) {k : Collaborators} {st : Statement} (now : Instant)
    (written : Except IoError Unit) (hr : op.request? = some (k, st))
    (hl : st.family.allows st.verb = true) :
    Replays c (ms ++ [⟨op, s, .ok (some (s.recorded k st now written).2),
      (s.recorded k st now written).1⟩]) (s.recorded k st now written).1 := by
  set x := (s.recorded k st now written).2 with hx
  set s' := (s.recorded k st now written).1 with hs'
  set m : Moment := ⟨op, s, .ok (some x), s'⟩ with hm
  have haccepted : m.accepted? = if x.accepted then some st else none := by
    simp [Moment.accepted?, hm, hr]
  have hpast : accepted (sinceReset (ms ++ [m])) =
      accepted (sinceReset ms) ++ m.accepted?.toList :=
    accepted_sinceReset_concat (Operation.isReset_of_request? hr)
  have hheld : accepted (sinceRelease (ms ++ [m])) =
      accepted (sinceRelease ms) ++ m.accepted?.toList :=
    accepted_sinceRelease_concat (Operation.isRelease_of_request? hr)
  obtain ⟨hvoice, hritual, hlevel⟩ : Moved s s' st x.accepted := by
    have hmoved := evaluate_moved { s with phase := .processing } k hl
    exact ⟨hmoved.voice, hmoved.ritual, hmoved.level⟩
  have hgrants : s'.grants = if x.accepted then s.grants.accept st else s.grants :=
    evaluate_grants { s with phase := .processing } k st
  have hgiven (a : Anchor) : s'.grants.granted.has a = true ↔
      s.grants.granted.has a = true ∨ m.Gives a := recorded_gives_iff hr a
  refine ⟨fun a => ?_, ?_, ?_, ?_, ?_⟩
  · rw [hgiven, h.granted, hpast, Moment.gives_iff]
    simp only [List.mem_append, Option.mem_toList, or_and_right, exists_or]
  · rw [hgrants, hheld, haccepted]
    by_cases hacc : x.accepted = true
    · rw [if_pos hacc, if_pos hacc]
      have hcontain : (s.grants.accept st).containment = true ↔
          s.grants.containment = true ∨ st.engagesContainment = true := by
        unfold Grants.accept
        split
        · exact Bool.or_eq_true_iff
        · rename_i hf
          simp [Statement.engagesContainment_iff, hf]
      rw [hcontain, h.containment, Statement.engagesContainment_iff]
      simp [or_and_right, exists_or]
    · rw [if_neg hacc, if_neg hacc, Option.toList_none, List.append_nil]
      exact h.containment
  · rw [hvoice, hpast, haccepted]
    by_cases hacc : x.accepted = true
    · rw [if_pos hacc, if_pos hacc, Option.toList_some, getLast?_filterMap_concat, h.voice]
    · rw [if_neg hacc, if_neg hacc, Option.toList_none, List.append_nil, h.voice]
  · rw [hritual, hpast, haccepted]
    by_cases hacc : x.accepted = true
    · by_cases hf : st.family = .ritual
      · simp [hacc, hf]
      · simp [hacc, hf, h.ritual]
    · simp [hacc, h.ritual]
  · rw [hlevel, hpast, haccepted]
    by_cases hacc : x.accepted = true
    · rw [if_pos hacc, if_pos hacc, Option.toList_some, getLast?_filterMap_concat, h.level]
      cases st.namedLevel? <;> rfl
    · rw [if_neg hacc, if_neg hacc, Option.toList_none, List.append_nil, h.level]

/-- Every step with a statement of the language keeps the replay. -/
theorem replays_step (h : Replays c ms s) (hinitial : s.governor.initial = c.bandwidth.initialLevel)
    (hl : op.Lawful) (hstep : Step s op s' answer) :
    Replays c (ms ++ [⟨op, s, answer, s'⟩]) s' := by
  cases hstep with
  | executed now written hr ho => exact h.recorded now written hr (hl.allows hr)
  | refused hs =>
    refine h.of_same ?_ ?_ (by simp) rfl rfl rfl rfl <;>
      cases op <;> first | rfl | cases hs
  | unread => exact h.of_same rfl rfl (by simp) rfl rfl rfl rfl
  | remark => exact h.of_same rfl rfl (by simp) rfl rfl rfl rfl
  | close => exact h.of_same rfl rfl (by simp) rfl rfl rfl rfl
  | clearContainment =>
    -- the end of containment starts its own history anew and leaves the others as they are
    have hpast : accepted (sinceReset (ms ++
        [⟨.clearContainment, s, .ok none, s.clearContainment⟩])) = accepted (sinceReset ms) := by
      rw [accepted_sinceReset_concat rfl]
      exact List.append_nil _
    refine ⟨?_, ?_, ?_, ?_, ?_⟩
    · rw [hpast]
      exact h.granted
    · rw [sinceRelease_concat]
      simp [Operation.isRelease, accepted, clearContainment, Grants.clearContainment]
    · rw [hpast]
      exact h.voice
    · rw [hpast]
      exact h.ritual
    · rw [hpast]
      exact h.level
  | reset =>
    have hpast : accepted (sinceReset (ms ++ [⟨.reset, s, .ok none, s.reset⟩])) = [] := by
      rw [sinceReset_concat]
      rfl
    refine ⟨fun a => ?_, ?_, ?_, ?_, ?_⟩
    · rw [hpast]
      simp [Session.reset, Grants.empty, AnchorSet.empty]
    · rw [sinceRelease_concat]
      simp [Operation.isRelease, accepted, Session.reset, Grants.empty]
    · rw [hpast]
      rfl
    · rw [hpast]
      rfl
    · rw [hpast]
      exact hinitial

theorem initial_of_step (hstep : Step s op s' answer) :
    s'.governor.initial = s.governor.initial := by
  cases hstep with
  | @executed _ k st => exact (evaluate_kept { s with phase := .processing } k st).initial
  | _ => rfl

end Step

/-! ## Whole runs -/

theorem replays_run {c : Config} {t : Trail} (w : World) (ops : List Operation) :
    ((ofConfig c t).run w ops).session.governor.initial = c.bandwidth.initialLevel ∧
      ((∀ m ∈ ((ofConfig c t).run w ops).moments, m.operation.Lawful) →
        Replays c ((ofConfig c t).run w ops).moments ((ofConfig c t).run w ops).session) := by
  refine run_induction (P := fun ms s => s.governor.initial = c.bandwidth.initialLevel ∧
    ((∀ m ∈ ms, m.operation.Lawful) → Replays c ms s)) ⟨rfl, fun _ => replays_start c t⟩ ?_ w ops
  rintro ms s op s' answer ⟨hinitial, ih⟩ hstep
  refine ⟨(initial_of_step hstep).trans hinitial, fun hlawful => ?_⟩
  have hpast : ∀ m ∈ ms, m.operation.Lawful := fun m hm => hlawful m (List.mem_append_left _ hm)
  exact replays_step (ih hpast) hinitial (hlawful ⟨op, s, answer, s'⟩ (by simp)) hstep

/-- After every run of operations from the start of a session, the state of the session is what the
statements that it accepted make of it. -/
theorem state_replays {c : Config} {s₀ : Session} {w₀ w : World}
    (hstart : StateT.run (start c : StateM World _) w₀ = (.ok s₀, w)) {ops : List Operation}
    (hops : ∀ op ∈ ops, op.Lawful) :
    Replays c (s₀.run w ops).moments (s₀.run w ops).session := by
  obtain ⟨-, t, -, rfl⟩ := start_run hstart
  refine (replays_run w ops).2 fun m hm => hops _ ?_
  rw [← run_operations (ofConfig c t) w ops]
  exact List.mem_map_of_mem hm

/-- Containment is engaged a second time, after its end, by a statement whose anchor is given
already. -/
theorem state_replays_containment :
    let k : Collaborators := ⟨Script.empty.respond, fun _ _ => .ok []⟩
    let contain : Statement :=
      { family := .anchor, verb := .engage, subject := "safe_containment", intent := none
        args := .empty, anchors := .ofList [⟨.containment, .explicit⟩], voice := none
        bandwidth := none, cards := [] }
    let engage : Statement :=
      { family := .ritual, verb := .engage, subject := "walk", intent := some .general
        args := .empty, anchors := .empty, voice := none, bandwidth := none, cards := [] }
    let w : World := ⟨.empty, [], [], fun _ => ⟨0⟩, 0, fun _ => none, 0, fun _ _ => false⟩
    let ops : List Operation := [.process k contain, .clearContainment, .process k engage,
      .process k contain]
    let r := (ofConfig .default .empty).run w ops
    (∀ op ∈ ops, op.Lawful) ∧ r.session.grants.containment = true ∧
      r.session.ritual = some "walk" ∧ Replays .default r.moments r.session := by
  intro k contain engage w ops r
  have hlawful : ∀ op ∈ ops, op.Lawful := by
    simp only [ops, List.forall_mem_cons]
    exact ⟨rfl, trivial, rfl, rfl, List.forall_mem_nil _⟩
  have hstart : StateT.run (start .default : StateM World _) w =
      (.ok (ofConfig .default .empty), w) := rfl
  have hcontained : r.session.grants.containment = true := by decide +kernel
  have hengaged : r.session.ritual = some "walk" := by decide +kernel
  exact ⟨hlawful, hcontained, hengaged, state_replays hstart hlawful⟩

end Session

end RitualGate

import RitualGate.Proofs.GateSafety

/-!
# Classification and routing

Two tables say what a statement does with the outside. `Statement.isDispatch` decides whether the
gate asks for the anchors of the intent, and `Session.perform` sends on to the collaborators
whatever it has no rule for (`Statement.reachesOut`). On the keywords of the language they agree.
On other pairs of a family and a verb they do not, `anchor` apart: such a statement passes the gate
without the anchors of its intent and is sent on all the same. `outreach_classified_iff` says for
which statements classification and routing agree, and `unlisted_verb_heard` shows one for which
they do not.
-/

namespace RitualGate

namespace Statement

theorem allows_of_isDispatch {st : Statement} (h : st.isDispatch = true) :
    st.family.allows st.verb = true := by
  rcases isDispatch_iff.1 h with ⟨hf, hv⟩ | ⟨hf, hv⟩ | ⟨hf, hv⟩ <;> rw [hf, hv] <;> rfl

/-- What stays inside the session is an anchor statement or has a keyword of the language. -/
theorem allows_of_not_reachesOut {st : Statement} (h : st.reachesOut = false) :
    st.family.allows st.verb = true ∨ st.family = .anchor := by
  unfold reachesOut at h
  cases hf : st.family <;> cases hv : st.verb <;>
    simp_all [Family.allows, Family.verbs]

end Statement

namespace Session

/-- The processing of a statement consumed bandwidth or called on a collaborator. -/
def Outreach (s s' : Session) (x : Execution) : Prop :=
  s.governor.state.consumed < s'.governor.state.consumed ∨ x.calls ≠ []

/-! ## What reaches out was sent on -/

theorem setLevel_consumed_le (s : Session) (st : Statement) :
    (s.setLevel st).governor.state.consumed ≤ s.governor.state.consumed := by
  unfold setLevel
  split
  · exact UInt32.le_refl _
  · rw [UInt32.le_iff_toNat_le]
    exact Nat.zero_le _

/-- Bandwidth is consumed, and calls are made, only for a statement that was admitted and that the
session does not handle by itself. -/
theorem admits_of_outreach {s : Session} {c : Collaborators} {st : Statement}
    (h : s.governor.state.consumed < (s.evaluate c st).session.governor.state.consumed ∨
      (s.evaluate c st).calls ≠ []) : s.Admits st ∧ st.reachesOut = true := by
  have course := evaluate_course s c st
  generalize s.evaluate c st = e at course h
  have still {e : Evaluation}
      (hle : e.session.governor.state.consumed ≤ s.governor.state.consumed)
      (hcalls : e.calls = [])
      (h : s.governor.state.consumed < e.session.governor.state.consumed ∨ e.calls ≠ []) :
      False := by
    rcases h with h | h
    · rw [UInt32.le_iff_toNat_le] at hle
      rw [UInt32.lt_iff_toNat_lt] at h
      omega
    · exact h hcalls
  cases course with
  | cardsFailed hp => exact ⟨hp.1, hp.2.1⟩
  | fetched hp => exact ⟨hp.1, hp.2.1⟩
  | voiceFailed hp => exact ⟨hp.1, hp.2.1⟩
  | answered hp => exact ⟨hp.1, hp.2.1⟩
  | levelSet => exact (still (setLevel_consumed_le s st) rfl h).elim
  | _ => exact (still (UInt32.le_refl _) rfl h).elim

/-! ## What is sent on is charged -/

theorem consult_governor (s : Session) (c : Collaborators) (st : Statement)
    (handle : Option VoiceHandle) : (s.consult c st handle).session.governor = s.governor := by
  rcases hr : resolve c.archive (topicOf st) st.cards with ⟨asked, e | cards⟩
  · simp only [consult, hr]
  · cases handle with
    | none =>
      simp only [consult, hr, speak]
      exact engaged_governor s st
    | some handle =>
      cases ha : c.responder handle st.args with
      | error e => simp only [consult, hr, speak, ha]
      | ok text =>
        simp only [consult, hr, speak, ha]
        exact engaged_governor s st

theorem perform_eq_dispatch {s : Session} {c : Collaborators} {st : Statement}
    (h : st.reachesOut = true) : s.perform c st = s.dispatch c st := by
  unfold perform
  split <;> simp_all [Statement.reachesOut]

/-- A session that holds every anchor and is contained, at a level with room for one dispatch. -/
def permissive : Session where
  policy := .empty
  grants := ⟨⟨fun _ => true⟩, true⟩
  governor := .new ⟨1, 2, 3⟩ ⟨1, fun _ => none⟩ .high
  router := ⟨[], "safe_containment"⟩
  defaultPersona := Config.default.defaultPersona
  trail := .empty
  voice := none
  ritual := none
  phase := .idle

theorem permissive_admits (st : Statement) : permissive.Admits st := by
  have hsatisfied : ∀ a : Anchor, permissive.grants.satisfies a = true := by
    rintro ⟨k, m⟩
    cases k <;> cases m <;> decide
  have hnone : (permissive.policy.missing st permissive.grants).isEmpty = true := by
    simp [AnchorSet.isEmpty, AnchorSet.toList, AnchorPolicy.missing, AnchorSet.filter, hsatisfied]
  refine ⟨by rw [AnchorPolicy.check, if_pos hnone], ?_⟩
  unfold Session.checkLevel Governor.checkLevel
  split
  · rfl
  · split
    · rfl
    · rename_i level _
      exact if_pos (by cases level <;> decide)

theorem permissive_voiceFor (st : Statement) : ∃ handle, permissive.voiceFor st = .ok handle := by
  unfold voiceFor
  split
  · exact ⟨none, rfl⟩
  · exact ⟨some _, rfl⟩

/-- The permissive session pays for every statement that it sends on. -/
theorem permissive_charged {st : Statement} (c : Collaborators) (h : st.reachesOut = true)
    (now : Instant) (written : Except IoError Unit) :
    permissive.governor.state.consumed <
      (permissive.recorded c st now written).1.governor.state.consumed := by
  let s : Session := { permissive with phase := .processing }
  have hcheck : s.policy.check st s.grants = .ok () := (permissive_admits st).1
  have hlevel : s.checkLevel st = .ok () := (permissive_admits st).2
  obtain ⟨handle, hvoice⟩ : ∃ handle, s.voiceFor st = .ok handle := permissive_voiceFor st
  obtain ⟨g, hg, hconsumed⟩ : ∃ g, s.governor.charge (s.governor.costOf st) = .ok g ∧
      g.state.consumed = 1 := ⟨_, rfl, rfl⟩
  have heval : s.evaluate c st = { s with governor := g }.consult c st handle := by
    rw [evaluate, hcheck]
    simp only [hlevel]
    rw [perform_eq_dispatch h, dispatch, hvoice]
    simp only [hg]
  have hafter : (permissive.recorded c st now written).1.governor.state.consumed = 1 := by
    change (s.evaluate c st).session.governor.state.consumed = 1
    rw [heval, consult_governor, hconsumed]
  rw [hafter]
  decide

/-! ## Where classification and routing agree -/

theorem recorded_of_process {s s' : Session} {k : Collaborators} {st : Statement} {w w' : World}
    {x : Execution}
    (h : StateT.run (s.process k st : StateM World _) w = ((s', .ok x), w')) :
    ∃ now written, s' = (s.recorded k st now written).1 ∧ x = (s.recorded k st now written).2 := by
  by_cases hc : s.phase = .closed
  · rw [process_closed_run s k st w hc] at h
    cases h
  · obtain ⟨now, written, w'', hrun⟩ := process_run s k st w hc
    rw [hrun] at h
    cases h
    exact ⟨now, written, rfl, rfl⟩

/-- The statements for which everything that consumes bandwidth or calls on a collaborator is
classified as a dispatch, and so has been given the anchors of its intent: those with a keyword of
the language and the anchor statements. -/
theorem outreach_classified_iff (st : Statement) :
    (∀ (s s' : Session) (k : Collaborators) (w w' : World) (x : Execution),
      StateT.run (s.process k st : StateM World _) w = ((s', .ok x), w') → Outreach s s' x →
      st.isDispatch = true ∧ ∀ i r, st.intent = some i → (s.policy.required i).has r = true →
        ∃ a, s.grants.granted.has a = true ∧ a.kind = r.kind ∧ r.mode ≤ a.mode) ↔
    st.family.allows st.verb = true ∨ st.family = .anchor := by
  constructor
  · intro h
    cases ho : st.reachesOut with
    | false => exact Statement.allows_of_not_reachesOut ho
    | true =>
      -- the permissive session sends the statement on, so the statement has to be a dispatch
      let k : Collaborators := ⟨Script.empty.respond, fun _ _ => .ok []⟩
      let w : World := ⟨.empty, [], [], fun _ => ⟨0⟩, 0, fun _ => none, 0, fun _ _ => false⟩
      obtain ⟨now, written, w', hrun⟩ := process_run permissive k st w (by decide)
      have hout : Outreach permissive (permissive.recorded k st now written).1
          (permissive.recorded k st now written).2 := .inl (permissive_charged k ho now written)
      exact .inl (Statement.allows_of_isDispatch (h _ _ _ _ _ _ hrun hout).1)
  · intro hst s s' k w w' x hrun hout
    obtain ⟨now, written, rfl, rfl⟩ := recorded_of_process hrun
    have hout : { s with phase := .processing }.Admits st ∧ st.reachesOut = true :=
      admits_of_outreach hout
    obtain ⟨⟨hcheck, -⟩, ho⟩ := hout
    have hdispatch : st.isDispatch = true := by
      rcases hst with hallows | hf
      · rw [← Statement.reachesOut_eq_isDispatch hallows]
        exact ho
      · rw [Statement.reachesOut, hf] at ho
        cases ho
    refine ⟨hdispatch, fun i r hi hr => ?_⟩
    exact AnchorPolicy.satisfied_of_check hcheck
      (AnchorPolicy.requiredFor_dispatch hdispatch (.inr ⟨i, hi, hr⟩))

/-- A ritual with a verb of the archive: no dispatch by its classification, and yet it is charged
and a voice hears of it, though its intent asks for a consent that nobody gave. -/
theorem unlisted_verb_heard :
    let k : Collaborators := ⟨Script.empty.respond, fun _ _ => .ok []⟩
    let st : Statement :=
      { family := .ritual, verb := .access, subject := "healing", intent := some .healing
        args := .empty, anchors := .empty, voice := none, bandwidth := none, cards := [] }
    let s := ofConfig .default .empty
    let w : World := ⟨.empty, [], [], fun _ => ⟨0⟩, 0, fun _ => none, 0, fun _ _ => false⟩
    ∃ s' x w' h, StateT.run (s.process k st : StateM World _) w = ((s', .ok x), w') ∧
      st.isDispatch = false ∧ x.calls = [.respond h .empty] ∧
      s.governor.state.consumed = 0 ∧ s'.governor.state.consumed = 1 ∧
      (s.policy.required .healing).has ⟨.consent, .explicit⟩ = true ∧
      s.grants.granted.toList = [] := by
  intro k st s w
  exact ⟨_, _, _, _, rfl, rfl, rfl, rfl, rfl, rfl, rfl⟩

end Session

end RitualGate

import RitualGate.Proofs.Run
import RitualGate.Proofs.WellFormed

/-!
# The safety of the gate

No collaborator is called on for a statement unless everything that the statement needs was given
before, and not taken back by a reset. `Provenance` ties the anchors that a session holds to the
moments at which they were given; a run begins with it and every step keeps it (`provenance_step`).
With what an evaluation has checked before its first call (`paid_of_calls`) it gives
`calls_authorized`, the safety of whole runs.
-/

namespace RitualGate

/-! ## The gate -/

/-- What passes the gate has been given everything that it needs. -/
theorem AnchorPolicy.satisfied_of_check {p : AnchorPolicy} {st : Statement} {g : Grants}
    (h : p.check st g = .ok ()) {r : Anchor} (hr : (p.requiredFor st).has r = true) :
    ∃ a, g.granted.has a = true ∧ a.kind = r.kind ∧ r.mode ≤ a.mode := by
  have hempty : (p.missing st g).isEmpty = true := by
    unfold check at h
    split at h
    · assumption
    · cases h
  have hsat : g.satisfies r = true := by
    have hnot : r ∉ (p.missing st g).toList := by
      rw [List.isEmpty_iff.1 hempty]
      exact List.not_mem_nil
    simpa [missing, AnchorSet.filter, hr] using hnot
  obtain ⟨a, ha, hs⟩ := List.any_eq_true.1 hsat
  rw [Anchor.satisfies, Bool.and_eq_true, decide_eq_true_eq, decide_eq_true_eq] at hs
  exact ⟨a, AnchorSet.mem_toList.1 ha, hs⟩

/-- A dispatch needs its own anchors and those that its intent asks for. -/
theorem AnchorPolicy.requiredFor_dispatch {p : AnchorPolicy} {st : Statement}
    (hd : st.isDispatch = true) {r : Anchor}
    (hr : st.anchors.has r = true ∨ ∃ i, st.intent = some i ∧ (p.required i).has r = true) :
    (p.requiredFor st).has r = true := by
  have hf : st.family ≠ .anchor := by
    intro hf
    simp [Statement.isDispatch, hf] at hd
  rw [requiredFor, if_neg hf, AnchorSet.union, Bool.or_eq_true]
  rcases hr with hr | ⟨i, hi, hr⟩
  · exact .inr hr
  · left
    rw [requiredByIntent, hi]
    simpa only [hd, ↓reduceIte] using hr

/-! ## Where anchors come from -/

namespace Operation

/-- An operation with a statement of the language: its verb is one of its family. What is read from
a line always is. -/
def Lawful : Operation → Prop
  | process _ st => st.family.allows st.verb = true
  | _ => True

theorem Lawful.allows {op : Operation} (h : op.Lawful) {c : Collaborators} {st : Statement}
    (hr : op.request? = some (c, st)) : st.family.allows st.verb = true := by
  cases op with
  | process c' st' =>
    cases hr
    exact h
  | executeLine c' line =>
    simp only [request?] at hr
    split at hr
    · rename_i hp
      cases hr
      exact (Statement.wellFormed_of_parse hp).allows
    · cases hr
  | _ => cases hr

theorem isReset_of_request? {op : Operation} {k : Collaborators × Statement}
    (hr : op.request? = some k) : op.isReset = false := by
  cases op <;> first | rfl | cases hr

end Operation

namespace Moment

/-- At this moment an anchor statement with an anchor was accepted. -/
def Gives (m : Moment) (a : Anchor) : Prop :=
  ∃ c st x, m.Executes c st x ∧ x.accepted = true ∧ st.family = .anchor ∧ st.anchors.has a = true

theorem not_gives {m : Moment} (h : ∀ x, m.answer ≠ .ok (some x)) (a : Anchor) : ¬ m.Gives a := by
  rintro ⟨c, st, x, hx, -⟩
  exact h x hx.2

end Moment

namespace Session

/-- The policy and the costs are those of the configuration, and the anchors given are those that
were accepted after the last reset. -/
structure Provenance (c : Config) (ms : List Moment) (s : Session) : Prop where
  policy : s.policy = c.policy
  costs : s.governor.costs = c.bandwidth.costs
  grants : ∀ a, s.grants.granted.has a = true ↔ ∃ m ∈ sinceReset ms, m.Gives a

theorem provenance_start (c : Config) (t : Trail) : Provenance c [] (ofConfig c t) where
  policy := rfl
  costs := rfl
  grants a := by simp [ofConfig, Grants.empty, AnchorSet.empty, sinceReset]

section Step

variable {c : Config} {ms : List Moment} {s s' : Session} {op : Operation}
  {answer : Except RitualError (Option Execution)}

/-- What adds no moment at which anchors are given, and gives none, keeps the provenance. -/
theorem Provenance.of_same (h : Provenance c ms s) (hop : op.isReset = false)
    (ha : ∀ x, answer ≠ .ok (some x)) (hp : s'.policy = s.policy)
    (hc : s'.governor.costs = s.governor.costs) (hg : s'.grants.granted = s.grants.granted) :
    Provenance c (ms ++ [⟨op, s, answer, s'⟩]) s' where
  policy := hp.trans h.policy
  costs := hc.trans h.costs
  grants a := by
    have hnone : ¬ (⟨op, s, answer, s'⟩ : Moment).Gives a := Moment.not_gives ha a
    rw [hg, h.grants, sinceReset_concat, hop, if_neg Bool.false_ne_true]
    simp [hnone]

theorem recorded_gives_iff {k : Collaborators} {st : Statement} {now : Instant}
    {written : Except IoError Unit} (hr : op.request? = some (k, st)) (a : Anchor) :
    (s.recorded k st now written).1.grants.granted.has a = true ↔ s.grants.granted.has a = true ∨
      (⟨op, s, .ok (some (s.recorded k st now written).2), (s.recorded k st now written).1⟩ :
        Moment).Gives a := by
  set x := (s.recorded k st now written).2 with hx
  have hgives : (⟨op, s, .ok (some x), (s.recorded k st now written).1⟩ : Moment).Gives a ↔
      x.accepted = true ∧ st.family = .anchor ∧ st.anchors.has a = true := by
    constructor
    · rintro ⟨k', st', x', ⟨hr', hx'⟩, h⟩
      cases hr.symm.trans hr'
      cases hx'
      exact h
    · intro h
      exact ⟨k, st, x, ⟨hr, rfl⟩, h⟩
  have hgrants : (s.recorded k st now written).1.grants =
      if x.accepted then s.grants.accept st else s.grants :=
    evaluate_grants { s with phase := .processing } k st
  rw [hgives, hgrants]
  by_cases hacc : x.accepted = true
  · rw [if_pos hacc, Grants.accept]
    by_cases hf : st.family = .anchor
    · simp [hf, hacc, AnchorSet.union]
    · simp [hf]
  · simp [hacc]

/-- Every step keeps the provenance of anchors. -/
theorem provenance_step (h : Provenance c ms s) (hstep : Step s op s' answer) :
    Provenance c (ms ++ [⟨op, s, answer, s'⟩]) s' := by
  cases hstep with
  | @executed _ k st now written hr ho =>
    have hkept := evaluate_kept { s with phase := .processing } k st
    refine ⟨hkept.policy.trans h.policy, hkept.costs.trans h.costs, fun a => ?_⟩
    rw [recorded_gives_iff hr, h.grants, sinceReset_concat, Operation.isReset_of_request? hr,
      if_neg Bool.false_ne_true]
    simp [or_and_right, exists_or]
  | refused hs =>
    refine h.of_same ?_ (by simp) rfl rfl rfl
    cases op <;> first | rfl | cases hs
  | unread => exact h.of_same rfl (by simp) rfl rfl rfl
  | remark => exact h.of_same rfl (by simp) rfl rfl rfl
  | clearContainment => exact h.of_same rfl (by simp) rfl rfl rfl
  | close => exact h.of_same rfl (by simp) rfl rfl rfl
  | reset =>
    refine ⟨h.policy, h.costs, fun a => ?_⟩
    rw [sinceReset_concat]
    simp [Operation.isReset, reset, Grants.empty, AnchorSet.empty]

end Step

theorem provenance_run {c : Config} {t : Trail} (w : World) (ops : List Operation) :
    Provenance c ((ofConfig c t).run w ops).moments ((ofConfig c t).run w ops).session :=
  run_induction (provenance_start c t) provenance_step w ops

/-! ## Calls on collaborators -/

/-- What has to be the case for the calls `x.calls` at a moment `m` after the moments `past`, in the
processing of `st` with the collaborators `k`. -/
structure Authorized (c : Config) (past : List Moment) (m : Moment) (k : Collaborators)
    (st : Statement) (x : Execution) : Prop where
  /-- The statement is a dispatch. -/
  keyword : (st.family = .ritual ∧ st.verb = .engage) ∨
    (st.family = .companion ∧ st.verb = .summon) ∨ (st.family = .archive ∧ st.verb = .access)
  /-- What the statement and its intent ask for was given after the last reset. -/
  anchors : ∀ r, (st.anchors.has r = true ∨
      ∃ i, st.intent = some i ∧ (c.policy.required i).has r = true) →
    ∃ m' ∈ sinceReset past, ∃ k' st' x' a, m'.Executes k' st' x' ∧ x'.accepted = true ∧
      st'.family = .anchor ∧ (st'.verb = .require ∨ st'.verb = .engage) ∧
      st'.anchors.has a = true ∧ a.kind = r.kind ∧ r.mode ≤ a.mode
  /-- The level that the statement declares is not above the current one. -/
  level : ∀ l, st.bandwidth = some l → l ≤ m.before.governor.state.current
  /-- The cost was paid. -/
  paid : ∃ g, m.before.governor.charge (c.bandwidth.costs.costOf st) = .ok g ∧ m.after.governor = g
  /-- The archive was asked in order, and then the voice that the router gives. -/
  calls : ∃ handle, m.before.voiceFor st = .ok handle ∧ CallsInOrder k st handle x.calls
  /-- A look into the archive asks no voice. -/
  silent : st.family = .archive → ∃ asked, asked <+: st.cards ∧ x.calls = lookups st asked

theorem checkLevel_le {s : Session} {st : Statement} (h : s.checkLevel st = .ok ())
    (hf : st.family ≠ .bandwidth) {l : Level} (hl : st.bandwidth = some l) :
    l ≤ s.governor.state.current := by
  rw [checkLevel, if_neg hf, Governor.checkLevel, hl] at h
  by_contra hle
  simp [hle] at h

theorem lookups_of_archive {s : Session} {k : Collaborators} {st : Statement}
    {handle : Option VoiceHandle} {calls : List Call} (hf : st.family = .archive)
    (hv : s.voiceFor st = .ok handle) (hc : CallsInOrder k st handle calls) :
    ∃ asked, asked <+: st.cards ∧ calls = lookups st asked := by
  rw [voiceFor, if_pos hf] at hv
  cases hv
  rcases hc with hc | ⟨-, h, hsome, -⟩
  · exact hc
  · cases hsome

theorem verb_of_anchor {st : Statement} (h : st.family.allows st.verb = true)
    (hf : st.family = .anchor) : st.verb = .require ∨ st.verb = .engage := by
  rw [hf] at h
  simpa [Family.allows, Family.verbs] using h

/-- What is paid for in the processing of a statement is paid by the session as it was before. -/
theorem paid_of_recorded {s : Session} {k : Collaborators} {st : Statement} {now : Instant}
    {written : Except IoError Unit} (h : (s.recorded k st now written).2.calls ≠ []) :
    ∃ handle g, s.Paid st handle g ∧ (s.recorded k st now written).1.governor = g ∧
      CallsInOrder k st handle (s.recorded k st now written).2.calls :=
  paid_of_calls { s with phase := .processing } k st h

/-- In every run from the start of a session, the calls at every moment are authorized. -/
theorem calls_authorized {c : Config} {s₀ : Session} {w₀ w : World}
    (hstart : StateT.run (start c : StateM World _) w₀ = (.ok s₀, w)) {ops : List Operation}
    (hops : ∀ op ∈ ops, op.Lawful) {past future : List Moment} {m : Moment}
    (hm : (s₀.run w ops).moments = past ++ m :: future) {k : Collaborators} {st : Statement}
    {x : Execution} (hx : m.Executes k st x) (hcalls : x.calls ≠ []) :
    Authorized c past m k st x := by
  obtain ⟨-, t, -, rfl⟩ := start_run hstart
  obtain ⟨earlier, rfl, hbefore, ⟨later, rfl⟩, hstep⟩ := run_split hm
  obtain ⟨hearlier, hop⟩ : (∀ op ∈ earlier, op.Lawful) ∧ m.operation.Lawful :=
    ⟨fun op h => hops op (by simp [h]), hops _ (by simp)⟩
  have hprov : Provenance c ((ofConfig c t).run w earlier).moments m.before :=
    hbefore ▸ provenance_run w earlier
  obtain ⟨hrequest, hanswer⟩ := hx
  obtain ⟨now, written, rfl, hafter⟩ := recorded_of_step hstep hrequest hanswer
  -- everything that was checked before the first call, by the session as it was before the moment
  obtain ⟨handle, g, ⟨⟨hcheck, hlevel⟩, hout, hvoice, hcharge⟩, hgovernor, horder⟩ :=
    paid_of_recorded hcalls
  rw [Statement.reachesOut_eq_isDispatch (hop.allows hrequest)] at hout
  refine ⟨Statement.isDispatch_iff.1 hout, fun r hr => ?_, fun l hl => ?_, ⟨g, ?_, ?_⟩,
    ⟨handle, hvoice, horder⟩, fun hf => lookups_of_archive hf hvoice horder⟩
  · have hcheck : c.policy.check st m.before.grants = .ok () := hprov.policy ▸ hcheck
    obtain ⟨a, ha, hkind, hmode⟩ :=
      AnchorPolicy.satisfied_of_check hcheck (AnchorPolicy.requiredFor_dispatch hout hr)
    obtain ⟨m', hm', k', st', x', hx', hacc, hf, hhas⟩ := (hprov.grants a).1 ha
    have hlawful : m'.operation.Lawful := by
      refine hearlier _ ?_
      rw [← run_operations (ofConfig c t) w earlier]
      exact List.mem_map_of_mem (mem_of_mem_sinceReset hm')
    exact ⟨m', hm', k', st', x', a, hx', hacc, hf, verb_of_anchor (hlawful.allows hx'.1) hf, hhas,
      hkind, hmode⟩
  · refine checkLevel_le hlevel (fun hf => ?_) hl
    simp [Statement.isDispatch, hf] at hout
  · have hcosts : m.before.governor.costs = c.bandwidth.costs := hprov.costs
    rw [← hcosts]
    exact hcharge
  · rw [hafter]
    exact hgovernor

/-- Consent by a human, and then a ritual that heals. -/
theorem calls_authorized_healing :
    let k : Collaborators := ⟨Script.empty.respond, fun _ _ => .ok []⟩
    let consent : Statement :=
      { family := .anchor, verb := .require, subject := "consent:human", intent := none
        args := .empty, anchors := .ofList [⟨.consent, .human⟩], voice := none, bandwidth := none
        cards := [] }
    let heal : Statement :=
      { family := .ritual, verb := .engage, subject := "heal", intent := some .healing
        args := .empty, anchors := .ofList [⟨.consent, .implicit⟩], voice := none
        bandwidth := some .low, cards := [.latest 2] }
    let w : World := ⟨.empty, [], [], fun _ => ⟨0⟩, 0, fun _ => none, 0, fun _ _ => false⟩
    let s₀ := ofConfig .default .empty
    ∃ past m x, (s₀.run w [.process k consent, .process k heal]).moments = past ++ m :: [] ∧
      m.Executes k heal x ∧ x.calls ≠ [] ∧ Authorized .default past m k heal x := by
  intro k consent heal w s₀
  have hlawful : ∀ op ∈ [Operation.process k consent, .process k heal], op.Lawful := by
    intro op hop
    rcases List.mem_cons.1 hop with rfl | hop
    · exact rfl
    · obtain rfl := List.mem_singleton.1 hop
      exact rfl
  have hstart : StateT.run (start .default : StateM World _) w = (.ok s₀, w) := rfl
  obtain ⟨past, m, hm, hop, x, hanswer, hcalls⟩ : ∃ past m,
      (s₀.run w [.process k consent, .process k heal]).moments = past ++ m :: [] ∧
      m.operation = .process k heal ∧ ∃ x, m.answer = .ok (some x) ∧ x.calls ≠ [] := by
    simp only [run]
    exact ⟨[_], _, rfl, rfl, _, rfl, List.cons_ne_nil _ _⟩
  have hx : m.Executes k heal x := ⟨by rw [hop]; rfl, hanswer⟩
  exact ⟨past, m, x, hm, hx, hcalls, calls_authorized hstart hlawful hm hx hcalls⟩

end Session

end RitualGate

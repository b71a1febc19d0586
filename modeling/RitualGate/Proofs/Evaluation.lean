import RitualGate.Proofs.Resolution
import RitualGate.Session.Process

/-!
# The ways of an evaluation

`Course s c st e` lists every way in which the evaluation of `st` in the session `s` can go, with
what was checked on the way and the evaluation `e` that it ends in. `evaluate_course` says that
`Session.evaluate` takes one of them, and everything that is known of an evaluation follows by
cases: which parts of a session it keeps (`evaluate_kept`), which anchors it gives
(`evaluate_grants`), when it calls on a collaborator (`paid_of_calls`) and how its outcome depends
on the keyword (`evaluate_failed_iff`).
-/

namespace RitualGate

namespace Statement

/-- Whether the evaluation of a statement ends with the collaborators: its keyword is none of those
that a session handles by itself. -/
def reachesOut (st : Statement) : Bool :=
  match st.family, st.verb with
  | .anchor, _ => false
  | .voice, .use => false
  | .bandwidth, .set => false
  | .ritual, .complete => false
  | .ritual, .fail => false
  | _, _ => true

/-- Of the keywords of the language, those that reach out are the dispatches. -/
theorem reachesOut_eq_isDispatch {st : Statement} (h : st.family.allows st.verb = true) :
    st.reachesOut = st.isDispatch := by
  unfold reachesOut isDispatch
  cases hf : st.family <;> cases hv : st.verb <;> simp_all [Family.allows, Family.verbs]

theorem isDispatch_iff {st : Statement} : st.isDispatch = true ↔
    (st.family = .ritual ∧ st.verb = .engage) ∨ (st.family = .companion ∧ st.verb = .summon) ∨
      (st.family = .archive ∧ st.verb = .access) := by
  unfold isDispatch
  cases st.family <;> cases st.verb <;> simp

end Statement

namespace Session

/-- The two checks that stand before everything else. -/
def Admits (s : Session) (st : Statement) : Prop :=
  s.policy.check st s.grants = .ok () ∧ s.checkLevel st = .ok ()

/-- A session that a dispatch has paid for. -/
def Paid (s : Session) (st : Statement) (handle : Option VoiceHandle) (g : Governor) : Prop :=
  s.Admits st ∧ st.reachesOut = true ∧ s.voiceFor st = .ok handle ∧
    s.governor.charge (s.governor.costOf st) = .ok g

/-- The calls on the archive for some references. -/
def lookups (st : Statement) (asked : List CardRef) : List Call :=
  asked.map fun r => Call.lookup r (topicOf st)

/-- Every way in which an evaluation can go. -/
inductive Course (s : Session) (c : Collaborators) (st : Statement) : Evaluation → Prop
  | missingAnchors {e : MissingAnchors} (h : s.policy.check st s.grants = .error e) :
    Course s c st (.plain s (.error (.anchor e)))
  | lowLevel {e : BandwidthError} (hc : s.policy.check st s.grants = .ok ())
      (h : s.checkLevel st = .error e) :
    Course s c st (.plain s (.error (.bandwidth e)))
  | anchored (ha : s.Admits st) (hf : st.family = .anchor) :
    Course s c st (.plain { s with grants := s.grants.accept st } (.ok .completed))
  | voiceUnnamed (ha : s.Admits st) (hf : st.family = .voice) (hv : st.verb = .use)
      (h : st.voice = none) :
    Course s c st (.plain s (.ok .completed))
  | voiceUnknown {p : Persona} {e : RitualError} (ha : s.Admits st) (hf : st.family = .voice)
      (hv : st.verb = .use) (h : st.voice = some p) (hp : s.router.validate p = .error e) :
    Course s c st (.plain s (.error e))
  | voiceTaken {p : Persona} (ha : s.Admits st) (hf : st.family = .voice) (hv : st.verb = .use)
      (h : st.voice = some p) (hp : s.router.validate p = .ok ()) :
    Course s c st (.plain { s with voice := some p } (.ok .completed))
  | levelSet (ha : s.Admits st) (hf : st.family = .bandwidth) (hv : st.verb = .set) :
    Course s c st (.plain (s.setLevel st) (.ok .completed))
  | completed (ha : s.Admits st) (hf : st.family = .ritual) (hv : st.verb = .complete) :
    Course s c st (.plain { s with ritual := none } (.ok .completed))
  | failed (ha : s.Admits st) (hf : st.family = .ritual) (hv : st.verb = .fail) :
    Course s c st { Evaluation.plain { s with ritual := none } (.ok .failed) with
      reason := some (declaredReason st) }
  | speakerUnknown {e : RitualError} (ha : s.Admits st) (ho : st.reachesOut = true)
      (h : s.voiceFor st = .error e) :
    Course s c st (.plain s (.error e))
  | overcharged {handle : Option VoiceHandle} {e : BandwidthError} (ha : s.Admits st)
      (ho : st.reachesOut = true) (hv : s.voiceFor st = .ok handle)
      (h : s.governor.charge (s.governor.costOf st) = .error e) :
    Course s c st (.plain s (.error (.bandwidth e)))
  | cardsFailed {handle : Option VoiceHandle} {g : Governor} {asked : List CardRef}
      {e : RitualError} (hp : s.Paid st handle g)
      (h : resolve c.archive (topicOf st) st.cards = (asked, .error e)) :
    Course s c st
      { session := { s with governor := g }, result := .error e, handle, response := none
        cards := [], reason := none, calls := lookups st asked }
  | fetched {g : Governor} {asked : List CardRef} {cards : List ResolvedCard}
      (hp : s.Paid st none g) (h : resolve c.archive (topicOf st) st.cards = (asked, .ok cards)) :
    Course s c st
      { session := { s with governor := g }.engaged st, result := .ok .completed, handle := none
        response := none, cards, reason := none, calls := lookups st asked }
  | voiceFailed {handle : VoiceHandle} {g : Governor} {asked : List CardRef}
      {cards : List ResolvedCard} {e : DispatchError} (hp : s.Paid st (some handle) g)
      (h : resolve c.archive (topicOf st) st.cards = (asked, .ok cards))
      (hr : c.responder handle st.args = .error e) :
    Course s c st
      { session := { s with governor := g }, result := .error (.dispatch e), handle := some handle
        response := none, cards, reason := none
        calls := lookups st asked ++ [.respond handle st.args] }
  | answered {handle : VoiceHandle} {g : Governor} {asked : List CardRef}
      {cards : List ResolvedCard} {text : String} (hp : s.Paid st (some handle) g)
      (h : resolve c.archive (topicOf st) st.cards = (asked, .ok cards))
      (hr : c.responder handle st.args = .ok text) :
    Course s c st
      { session := { s with governor := g }.engaged st, result := .ok .completed
        handle := some handle, response := some text, cards, reason := none
        calls := lookups st asked ++ [.respond handle st.args] }

section Evaluate

variable (s : Session) (c : Collaborators) (st : Statement)

theorem consult_course {s : Session} {st : Statement} {handle : Option VoiceHandle} {g : Governor}
    (hp : s.Paid st handle g) : Course s c st ({ s with governor := g }.consult c st handle) := by
  rcases h : resolve c.archive (topicOf st) st.cards with ⟨asked, e | cards⟩
  · simp only [consult, h]
    exact .cardsFailed hp h
  · cases handle with
    | none =>
      simp only [consult, h, speak]
      exact .fetched hp h
    | some handle =>
      cases hr : c.responder handle st.args with
      | error e =>
        simp only [consult, h, speak, hr]
        exact .voiceFailed hp h hr
      | ok text =>
        simp only [consult, h, speak, hr]
        exact .answered hp h hr

theorem dispatch_course {s : Session} {st : Statement} (ha : s.Admits st)
    (ho : st.reachesOut = true) : Course s c st (s.dispatch c st) := by
  unfold dispatch
  cases hv : s.voiceFor st with
  | error e => exact .speakerUnknown ha ho hv
  | ok handle =>
    cases hg : s.governor.charge (s.governor.costOf st) with
    | error e => exact .overcharged ha ho hv hg
    | ok g => exact consult_course c ⟨ha, ho, hv, hg⟩

theorem useVoice_course {s : Session} {st : Statement} (ha : s.Admits st) (hf : st.family = .voice)
    (hv : st.verb = .use) : Course s c st (s.useVoice st) := by
  cases h : st.voice with
  | none =>
    simp only [useVoice, h]
    exact .voiceUnnamed ha hf hv h
  | some p =>
    cases hp : s.router.validate p with
    | error e =>
      simp only [useVoice, h, hp]
      exact .voiceUnknown ha hf hv h hp
    | ok _ =>
      simp only [useVoice, h, hp]
      exact .voiceTaken ha hf hv h hp

theorem perform_course {s : Session} {st : Statement} (ha : s.Admits st) :
    Course s c st (s.perform c st) := by
  unfold perform
  split
  case h_1 hf => exact .anchored ha hf
  case h_2 hf hv => exact useVoice_course c ha hf hv
  case h_3 hf hv => exact .levelSet ha hf hv
  case h_4 hf hv => exact .completed ha hf hv
  case h_5 hf hv => exact .failed ha hf hv
  case h_6 h1 h2 h3 h4 h5 =>
    refine dispatch_course c ha ?_
    unfold Statement.reachesOut
    split <;> simp_all

/-- An evaluation takes one of the courses. -/
theorem evaluate_course : Course s c st (s.evaluate c st) := by
  unfold evaluate
  cases hc : s.policy.check st s.grants with
  | error e => exact .missingAnchors hc
  | ok _ =>
    cases hl : s.checkLevel st with
    | error e => exact .lowLevel hc hl
    | ok _ => exact perform_course c ⟨hc, hl⟩

/-! ## What an evaluation keeps -/

/-- The parts of a session that no statement changes. -/
structure Kept (s s' : Session) : Prop where
  policy : s'.policy = s.policy
  router : s'.router = s.router
  defaultPersona : s'.defaultPersona = s.defaultPersona
  capacities : s'.governor.capacities = s.governor.capacities
  costs : s'.governor.costs = s.governor.costs
  initial : s'.governor.initial = s.governor.initial
  trail : s'.trail = s.trail
  phase : s'.phase = s.phase

theorem Kept.of_charge {s : Session} {cost : UInt32} {g : Governor}
    (h : s.governor.charge cost = .ok g) : Kept s { s with governor := g } := by
  unfold Governor.charge at h
  simp only at h
  split at h
  · cases h
    exact ⟨rfl, rfl, rfl, rfl, rfl, rfl, rfl, rfl⟩
  · cases h

theorem Kept.engaged {s s' : Session} (h : Kept s s') : Kept s (s'.engaged st) := by
  unfold Session.engaged
  split
  · exact ⟨h.policy, h.router, h.defaultPersona, h.capacities, h.costs, h.initial, h.trail, h.phase⟩
  · exact h

theorem evaluate_kept : Kept s (s.evaluate c st).session := by
  have course := evaluate_course s c st
  generalize s.evaluate c st = e at course
  cases course with
  | levelSet =>
    simp only [Evaluation.plain, setLevel]
    split <;> exact ⟨rfl, rfl, rfl, rfl, rfl, rfl, rfl, rfl⟩
  | cardsFailed hp => exact .of_charge hp.2.2.2
  | voiceFailed hp => exact .of_charge hp.2.2.2
  | fetched hp => exact Kept.engaged st (.of_charge hp.2.2.2)
  | answered hp => exact Kept.engaged st (.of_charge hp.2.2.2)
  | _ => exact ⟨rfl, rfl, rfl, rfl, rfl, rfl, rfl, rfl⟩

/-! ## The anchors that an evaluation gives -/

theorem setLevel_grants (s : Session) (st : Statement) : (s.setLevel st).grants = s.grants := by
  unfold setLevel
  split <;> rfl

theorem engaged_grants (s : Session) (st : Statement) : (s.engaged st).grants = s.grants := by
  unfold engaged
  split <;> rfl

/-- A statement gives its anchors if it is accepted. Only anchor statements have some to give. -/
theorem evaluate_grants : (s.evaluate c st).session.grants =
    if (s.evaluate c st).error?.isNone then s.grants.accept st else s.grants := by
  have course := evaluate_course s c st
  generalize s.evaluate c st = e at course
  have same {s' : Session} (hs : s'.grants = s.grants) (hf : st.family ≠ .anchor) :
      s'.grants = s.grants.accept st := by
    rw [hs, Grants.accept, if_neg hf]
  have out (ho : st.reachesOut = true) : st.family ≠ .anchor := by
    intro hf
    simp [Statement.reachesOut, hf] at ho
  cases course with
  | anchored => rfl
  | voiceUnnamed ha hf => exact same rfl (by simp [hf])
  | @voiceTaken p ha hf =>
    have hs : { s with voice := some p }.grants = s.grants := rfl
    exact same hs (by simp [hf])
  | levelSet ha hf => exact same (setLevel_grants s st) (by simp [hf])
  | completed ha hf => exact same rfl (by simp [hf])
  | failed ha hf => exact same rfl (by simp [hf])
  | fetched hp => exact same (engaged_grants _ st) (out hp.2.1)
  | answered hp => exact same (engaged_grants _ st) (out hp.2.1)
  | _ => rfl

/-! ## When an evaluation calls on a collaborator -/

/-- The archive was asked for some of the references, from the first on. -/
theorem resolve_asked (archive : Archive) (topic : String) (refs : List CardRef) :
    (resolve archive topic refs).1 <+: refs := by
  obtain ⟨shares, hshares⟩ | ⟨before, r, after, e, rfl, hbefore, he⟩ :=
    shares_or_denies archive topic refs
  · simp only [resolve_of_serves hshares, List.prefix_rfl]
  · rw [resolve_of_denies hbefore he]
    exact ⟨after, by simp⟩

/-- Where the references were resolved, the archive was asked for all of them and gave what each of
them needs. -/
theorem resolve_ok {archive : Archive} {topic : String} {refs asked : List CardRef}
    {cards : List ResolvedCard} (h : resolve archive topic refs = (asked, .ok cards)) :
    asked = refs ∧ ∀ r ∈ refs, ∃ found, archive r topic = .ok found ∧
      ∀ id, r = .id id → found ≠ [] := by
  obtain ⟨rfl, shares, hshares, -⟩ := resolve_eq_ok_iff.1 h
  exact ⟨rfl, exists_shares_iff.1 ⟨shares, hshares⟩⟩

/-- The calls of a dispatch that goes to a voice or to none: the archive is asked for the references
in their order, and the voice once at most, after the archive has answered for every one. -/
def CallsInOrder (c : Collaborators) (st : Statement) (handle : Option VoiceHandle)
    (calls : List Call) : Prop :=
  (∃ asked, asked <+: st.cards ∧ calls = lookups st asked) ∨
    (∀ r ∈ st.cards, ∃ found, c.archive r (topicOf st) = .ok found ∧
      ∀ id, r = .id id → found ≠ []) ∧
    ∃ h, handle = some h ∧ calls = lookups st st.cards ++ [.respond h st.args]

theorem engaged_governor (s : Session) (st : Statement) :
    (s.engaged st).governor = s.governor := by
  unfold engaged
  split <;> rfl

/-- Calls are made only by a statement that was admitted and paid for, and in order. -/
theorem paid_of_calls (h : (s.evaluate c st).calls ≠ []) :
    ∃ handle g, s.Paid st handle g ∧ (s.evaluate c st).session.governor = g ∧
      CallsInOrder c st handle (s.evaluate c st).calls := by
  have course := evaluate_course s c st
  generalize s.evaluate c st = e at course h
  cases course with
  | cardsFailed hp hr =>
    refine ⟨_, _, hp, rfl, .inl ⟨_, ?_, rfl⟩⟩
    simpa only [hr] using resolve_asked c.archive (topicOf st) st.cards
  | fetched hp hr =>
    refine ⟨_, _, hp, engaged_governor _ _, .inl ⟨_, ?_, rfl⟩⟩
    simpa only [hr] using resolve_asked c.archive (topicOf st) st.cards
  | voiceFailed hp hr =>
    obtain ⟨rfl, hall⟩ := resolve_ok hr
    exact ⟨_, _, hp, rfl, .inr ⟨hall, _, rfl, rfl⟩⟩
  | answered hp hr =>
    obtain ⟨rfl, hall⟩ := resolve_ok hr
    exact ⟨_, _, hp, engaged_governor _ _, .inr ⟨hall, _, rfl, rfl⟩⟩
  | _ => exact absurd rfl h

/-! ## How an evaluation ends -/

/-- An accepted statement ends in failure exactly if it declares one. -/
theorem evaluate_failed_iff {o : Outcome} (h : (s.evaluate c st).result = .ok o) :
    o = .failed ↔ st.family = .ritual ∧ st.verb = .fail := by
  have course := evaluate_course s c st
  generalize s.evaluate c st = e at course h
  have out {st : Statement} (ho : st.reachesOut = true) :
      ¬ (st.family = .ritual ∧ st.verb = .fail) := by
    rintro ⟨hf, hv⟩
    simp [Statement.reachesOut, hf, hv] at ho
  cases course with
  | failed ha hf hv =>
    cases h
    simp [hf, hv]
  | fetched hp =>
    cases h
    simpa using out hp.2.1
  | answered hp =>
    cases h
    simpa using out hp.2.1
  | _ =>
    cases h <;> simp [*]

end Evaluate

end Session

end RitualGate

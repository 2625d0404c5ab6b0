import Uptimepage.Store.Lifecycle

/-!
# The closing public update

An incident the public has seen should get one closing `resolved` update each time it is
resolved.  Three paths resolve an incident and two modules write the update, under
different conditions: the operational store when the incident is public or its timeline
has a `published` entry, the incident writer only when it is public.
-/

namespace Uptimepage

namespace Db

variable {lower : String → String}

/-- The incident is on a status page now. -/
def Visible (db : Db) (org : OrgId) (id : Uuid) : Prop :=
  ∃ r, db.incident org id = some r ∧ r.visibility = .onStatusPage

/-- Closing updates the incident has got so far. -/
def closings (db : Db) (org : OrgId) (id : Uuid) : Nat :=
  db.updates.countP fun u => u.org == org && u.incidentId == id && u.phase == .resolved

/-- Operation `o` ends the incident. -/
def Resolves (lower : String → String) (now : Time) (o : StoreOp) (db : Db) (org : OrgId)
    (id : Uuid) : Prop :=
  ∃ r r', db.incident org id = some r ∧ r.state ≠ .resolved ∧
    (db.exec lower now o).2.incident org id = some r' ∧ r'.state = .resolved

/-- The resolution comes through the operational store. -/
def viaOps : StoreOp → Bool
  | .resolve .. | .autoResolve .. => true
  | _ => false

/-- What the two modules look at before they write the closing update. -/
def Announced (o : StoreOp) (db : Db) (org : OrgId) (id : Uuid) : Prop :=
  db.Visible org id ∨ (viaOps o = true ∧ db.incidentWasPublished org id = true)

variable {now began : Time} {o : StoreOp} {db : Db} {org org' : OrgId} {t : Transition}
  {r : IncidentRow} {message : String} {id' : Uuid}

theorem resolves_cases {id : Uuid} (h : Resolves lower now o db org id) :
    ∃ r, db.incident org id = some r ∧ r.state ≠ .resolved ∧
      ((∃ began actor note, o = .resolve began org id actor note) ∨
        (∃ began, o = .autoResolve began org id) ∨
        ∃ endedAt, o = .close org id endedAt ∧ r.endedAt = none) := by
  obtain ⟨r, r', hr, hne, hr', hres⟩ := h
  obtain ⟨rfl, rfl⟩ := incident_org_id hr
  refine ⟨r, hr, hne, ?_⟩
  have hstep := exec_incident lower now o db r.org r.id
  simp only [hr, hr'] at hstep
  cases hstep with
  | same => exact absurd hres hne
  | acknowledged => simp [ackRow] at hres
  | resolved => exact .inl ⟨_, _, _, rfl⟩
  | autoResolved => exact .inr (.inl ⟨_, rfl⟩)
  | reopened => simp [reopenRow] at hres
  | closed hopen => exact .inr (.inr ⟨_, rfl, hopen⟩)
  | published => exact absurd hres hne
  | unpublished => exact absurd hres hne
  | begun => exact absurd hres hne
  | escalated => exact absurd hres hne
  | bumped => exact absurd hres hne
  | leased => exact absurd hres hne

theorem applyTransition_closings {id : Uuid} (ht : t.publicResolution = some message)
    (hvis : (t.update began r).visibility = r.visibility) (hne : r.state ≠ .resolved) :
    (db.applyTransition began org id t r .resolved).closings org id =
      db.closings org id + (if r.visibility = .onStatusPage ∨
        db.incidentWasPublished org id = true then 1 else 0) := by
  have hrow : (t.row began r .resolved).visibility = r.visibility := by
    simp [Transition.row, hne, hvis]
  simp only [closings, applyTransition, List.countP_append, Transition.closing, ht, hrow]
  by_cases hc : r.visibility = .onStatusPage ∨ db.incidentWasPublished org id = true
  · simp [hc, hne]
  · simp [hc]

theorem resolving_transition {id : Uuid}
    (htr : t.transition = .resolve ∨ t.transition = .autoResolve)
    (ht : t.publicResolution = some message) (hr : db.incident org id = some r)
    (hvis : (t.update began r).visibility = r.visibility) (hne : r.state ≠ .resolved)
    (hmoved : (db.transition began org id t).2.incident org id ≠ some r) :
    (db.transition began org id t).2.closings org id =
      db.closings org id + (if r.visibility = .onStatusPage ∨
        db.incidentWasPublished org id = true then 1 else 0) := by
  rcases transition_cases db began org id t with ⟨h, -⟩ | ⟨cur, next, hcur, -, hnext, h⟩
  · rw [h] at hmoved
    exact absurd hr hmoved
  · obtain rfl : cur = r := Option.some.inj (hcur.symm.trans hr)
    obtain rfl : next = .resolved := by
      rcases htr with htr | htr <;> rw [htr] at hnext <;> cases hs : cur.state <;>
        simp_all [nextState]
    rw [h]
    exact applyTransition_closings ht hvis hne

theorem visible_iff {id : Uuid} (hr : db.incident org id = some r) :
    db.Visible org id ↔ r.visibility = .onStatusPage := by
  constructor
  · rintro ⟨r₀, hr₀, hv⟩
    rw [hr] at hr₀
    obtain rfl := Option.some.inj hr₀
    exact hv
  · exact fun hv => ⟨r, hr, hv⟩

theorem resolves_closings {id : Uuid} (h : Resolves lower now o db org id) :
    (Announced o db org id → (db.exec lower now o).2.closings org id = db.closings org id + 1) ∧
    (¬ Announced o db org id → (db.exec lower now o).2.closings org id = db.closings org id) := by
  have hmoved : ∀ r, db.incident org id = some r →
      (db.exec lower now o).2.incident org id ≠ some r := by
    obtain ⟨r, r', hr, hne, hr', hres⟩ := h
    intro r₀ hr₀ heq
    obtain rfl : r₀ = r := Option.some.inj (hr₀.symm.trans hr)
    obtain rfl : r' = r₀ := Option.some.inj (hr'.symm.trans heq)
    exact hne hres
  obtain ⟨r, hr, hne, ⟨began, actor, note, rfl⟩ | ⟨began, rfl⟩ | ⟨endedAt, rfl, hopen⟩⟩ :=
    resolves_cases h
  · have hc := resolving_transition (t := resolveTransition actor note) (.inl rfl) rfl hr rfl hne
      (hmoved r hr)
    simp only [Announced, visible_iff hr, viaOps, true_and]
    refine ⟨fun ha => ?_, fun ha => ?_⟩
    · rw [if_pos ha] at hc
      exact hc
    · rw [if_neg ha] at hc
      exact hc
  · have hc := resolving_transition (t := autoResolveTransition) (.inr rfl) rfl hr rfl hne
      (hmoved r hr)
    simp only [Announced, visible_iff hr, viaOps, true_and]
    refine ⟨fun ha => ?_, fun ha => ?_⟩
    · rw [if_pos ha] at hc
      exact hc
    · rw [if_neg ha] at hc
      exact hc
  · have hvia : viaOps (.close org id endedAt) = false := rfl
    simp only [Announced, visible_iff hr, hvia, Bool.false_eq_true, false_and, or_false]
    simp only [exec, close, hr, hopen, Option.isSome_none, Bool.false_eq_true, ↓reduceIte]
    refine ⟨fun ha => ?_, fun ha => ?_⟩
    · simp [ha, closings, insertUpdate, updateIncident]
    · simp [ha, closings, updateIncident]

theorem quiet_transition {id : Uuid}
    (htr : ∀ s next, nextState s t.transition = .ok next → s ≠ next →
      t.publicResolution ≠ none → next = .resolved)
    (hupd : ∀ r, t.publicResolution ≠ none → (t.update began r).state = .resolved ∧
      (t.update began r).org = r.org ∧ (t.update began r).id = r.id)
    (hquiet : ¬ ∃ r r', db.incident org id = some r ∧ r.state ≠ .resolved ∧
      (db.transition began org' id' t).2.incident org id = some r' ∧ r'.state = .resolved) :
    (db.transition began org' id' t).2.closings org id = db.closings org id := by
  rcases transition_cases db began org' id' t with ⟨h, -⟩ | ⟨cur, next, hcur, -, hnext, h⟩
  · rw [h]
  · rw [h] at hquiet ⊢
    simp only [closings, applyTransition, List.countP_append, Nat.add_eq_left]
    unfold Transition.closing
    split
    · rfl
    · next message hp =>
      split
      · next hc =>
        -- the closing update is of the incident that moved, which is not this one
        have hp' : t.publicResolution ≠ none := by simp [hp]
        obtain rfl := htr _ _ hnext hc.1 hp'
        have hrow : t.row began cur .resolved = t.update began cur := if_neg hc.1
        have hkey : ¬ (org' = org ∧ id' = id) := by
          rintro ⟨rfl, rfl⟩
          have hnew : (db.applyTransition began org' id' t cur .resolved).incident org' id' =
              some (t.row began cur .resolved) :=
            updateIncident_incident hcur (by rw [hrow]; exact (hupd cur hp').2)
          exact hquiet ⟨cur, _, hcur, hc.1, hnew, by rw [hrow]; exact (hupd cur hp').1⟩
        simp only [List.countP_singleton]
        by_cases ho : org' = org
        · have hid : id' ≠ id := fun e => hkey ⟨ho, e⟩
          simp [hid]
        · simp [ho]
      · rfl

theorem quiet_close {id : Uuid} {endedAt : Time}
    (hlife : ∀ i ∈ db.incidents, Lifecycle i.toOpsIncident)
    (h : ¬ Resolves lower now (.close org' id' endedAt) db org id) :
    (db.close now org' id' endedAt).2.closings org id = db.closings org id := by
  simp only [Resolves, exec] at h
  unfold close at h ⊢
  cases hcur : db.incident org' id' with
  | none => rfl
  | some cur =>
    simp only [hcur] at h
    by_cases hended : cur.endedAt.isSome = true
    · simp only [hended, ↓reduceIte]
    · have hkey : ¬ (org' = org ∧ id' = id) := by
        rintro ⟨rfl, rfl⟩
        have hne : cur.state ≠ .resolved := fun e =>
          hended ((hlife cur (incident_mem hcur)).ended.mpr e)
        have hnew : (db.updateIncident org' id' fun _ => closedRow endedAt now cur).incident
            org' id' = some (closedRow endedAt now cur) :=
          updateIncident_incident hcur ⟨rfl, rfl⟩
        refine h ⟨cur, closedRow endedAt now cur, hcur, hne, ?_, rfl⟩
        simp only [hended, Bool.false_eq_true, ↓reduceIte]
        split <;> exact hnew
      simp only [hended, Bool.false_eq_true, ↓reduceIte]
      split
      · simp only [closings, insertUpdate, updateIncident, List.countP_append,
          List.countP_singleton, Nat.add_eq_left]
        by_cases ho : org' = org
        · have hid : id' ≠ id := fun e => hkey ⟨ho, e⟩
          simp [hid]
        · simp [ho]
      · rfl

theorem quiet_closings {id : Uuid} (hlife : ∀ i ∈ db.incidents, Lifecycle i.toOpsIncident)
    (h : ¬ Resolves lower now o db org id) :
    (db.exec lower now o).2.closings org id = db.closings org id := by
  cases o with
  | acknowledge began org' id' actor note g =>
    exact quiet_transition (by simp [ackTransition]) (by simp [ackTransition]) h
  | resolve began org' id' actor note =>
    exact quiet_transition (fun s next hn _ _ => by cases s <;> simp_all [resolveTransition, nextState])
      (fun r _ => ⟨rfl, rfl, rfl⟩) h
  | autoResolve began org' id' =>
    exact quiet_transition
      (fun s next hn _ _ => by cases s <;> simp_all [autoResolveTransition, nextState])
      (fun r _ => ⟨rfl, rfl, rfl⟩) h
  | reopen began org' id' actor note =>
    exact quiet_transition (by simp [reopenTransition]) (by simp [reopenTransition]) h
  | declare began org' new actor =>
    simp only [exec, declare]
    split <;> rfl
  | publish began org' id' title description actor =>
    simp only [exec, publish]
    split
    · rfl
    · split
      · simp [closings, insertUpdate, insertEvent, updateIncident]
      · rfl
  | unpublish began org' id' actor =>
    simp only [exec, unpublish]
    split <;> rfl
  | appendEvent org' id' kind actor message =>
    simp only [exec, appendEvent]
    split <;> rfl
  | insertOpen org' new =>
    simp only [exec, insertOpen]
    split
    · rfl
    · split <;> rfl
  | close org' id' endedAt => exact quiet_close hlife h
  | beginEscalation org' id' policyId level nextAt => simp [exec, beginEscalation, closings]
  | recordEscalation org' id' level round nextAt => simp [exec, recordEscalation, closings]
  | bumpRenotifyCount org' id' => simp [exec, bumpRenotifyCount, closings]
  | _ => rfl

/-! ## Whole runs -/

/-- The incident has been on a status page in some state of the run. -/
def Seen (lower : String → String) (db : Db) (ops : List (Time × StoreOp)) (org : OrgId)
    (id : Uuid) : Prop :=
  ∃ pre, pre <+: ops ∧ (db.run lower pre).Visible org id

/-- Exactly one closing update per resolution of an incident the public has seen, and none
at any other step. -/
def ClosedOnce (lower : String → String) (db : Db) (ops : List (Time × StoreOp)) (org : OrgId)
    (id : Uuid) : Prop :=
  ∀ pre now o post, ops = pre ++ (now, o) :: post →
    (Resolves lower now o (db.run lower pre) org id → Seen lower db pre org id →
      (db.run lower (pre ++ [(now, o)])).closings org id =
        (db.run lower pre).closings org id + 1) ∧
    (¬ Resolves lower now o (db.run lower pre) org id →
      (db.run lower (pre ++ [(now, o)])).closings org id = (db.run lower pre).closings org id)

theorem run_snoc (db : Db) (pre : List (Time × StoreOp)) (now : Time) (o : StoreOp) :
    db.run lower (pre ++ [(now, o)]) = ((db.run lower pre).exec lower now o).2 := by
  simp [run]

end Db

/-- **When the closing update is written once per resolution**: exactly in the runs where
every resolution of an incident the public has seen finds it still public, or goes through
the operational store with a `published` entry on its timeline. -/
theorem closing_update_iff (lower : String → String) (ops : List (Time × StoreOp)) (org : OrgId)
    (id : Uuid) :
    Db.ClosedOnce lower Db.empty ops org id ↔
      ∀ pre now o post, ops = pre ++ (now, o) :: post →
        Db.Resolves lower now o (Db.empty.run lower pre) org id →
        Db.Seen lower Db.empty pre org id →
        Db.Announced o (Db.empty.run lower pre) org id := by
  constructor
  · intro h pre now o post hops hres hseen
    have hone := (h pre now o post hops).1 hres hseen
    by_contra hnot
    rw [Db.run_snoc, (Db.resolves_closings hres).2 hnot] at hone
    omega
  · intro h pre now o post hops
    refine ⟨fun hres hseen => ?_, fun hquiet => ?_⟩
    · rw [Db.run_snoc]
      exact (Db.resolves_closings hres).1 (h pre now o post hops hres hseen)
    · rw [Db.run_snoc]
      exact Db.quiet_closings (Db.run_lifecycle pre (by simp [Db.empty])) hquiet

/-- A public outage, unpublished before the monitor recovers: the writer closes it and tells
nobody. -/
theorem closing_update_missed :
    let page : Settings := { Settings.empty with components := [⟨1, 7, true, none⟩] }
    let ops : List (Time × StoreOp) :=
      [(1, .configure page), (10, .insertOpen 1 ⟨7, 5, .down, 2, none, [], []⟩),
        (20, .unpublish 20 1 0 (.user 3)), (30, .close 1 0 29)]
    ¬ Db.ClosedOnce id Db.empty ops 1 0 := by
  intro page ops h
  have hone := (h [(1, .configure page), (10, .insertOpen 1 ⟨7, 5, .down, 2, none, [], []⟩),
    (20, .unpublish 20 1 0 (.user 3))] 30 (.close 1 0 29) [] rfl).1
    ⟨_, _, rfl, by decide, rfl, rfl⟩
    ⟨[(1, .configure page), (10, .insertOpen 1 ⟨7, 5, .down, 2, none, [], []⟩)],
      ⟨_, rfl⟩, _, rfl, rfl⟩
  revert hone
  decide

end Uptimepage

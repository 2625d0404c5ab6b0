import Uptimepage.Store.Ops

/-!
# What one operation can do to each table

`transition_cases` is the inversion of the shared lifecycle transaction.
-/

namespace Uptimepage

namespace Db

variable {lower : String → String} {now : Time} {db db' : Db} {org : OrgId} {id : Uuid}

variable {i : IncidentRow} {next s : IncidentState}

theorem incident_org_id (h : db.incident org id = some i) : i.org = org ∧ i.id = id := by
  have := List.find?_some h
  simpa using this

theorem incident_mem (h : db.incident org id = some i) : i ∈ db.incidents :=
  List.mem_of_find?_eq_some h

/-! ## The transition core -/

theorem transition_cases (db : Db) (now : Time) (org : OrgId) (id : Uuid) (t : Transition) :
    ((db.transition now org id t).2 = db ∧
        ∀ i, (db.transition now org id t).1 ≠ .ok (.updated i)) ∨
      ∃ cur next, db.incident org id = some cur ∧
        (∀ g, t.expectGeneration = some g → db.reopenCount org id = g) ∧
        nextState cur.state t.transition = .ok next ∧
        db.transition now org id t = (.ok (.updated (t.row now cur next).toOpsIncident),
          db.applyTransition now org id t cur next) := by
  unfold transition
  split
  · exact .inl ⟨rfl, by simp⟩
  · next cur hcur =>
    split
    · exact .inl ⟨rfl, by simp⟩
    · next hgen =>
      split
      · exact .inl ⟨rfl, by simp⟩
      · next next hnext =>
        split
        · exact .inl ⟨rfl, by simp⟩
        · refine .inr ⟨cur, next, hcur, ?_, hnext, rfl⟩
          intro g hg
          simpa [hg] using hgen

theorem updateIncident_incident {cur row : IncidentRow} (hcur : db.incident org id = some cur)
    (hkey : row.org = cur.org ∧ row.id = cur.id) :
    (db.updateIncident org id fun _ => row).incident org id = some row := by
  obtain ⟨rfl, rfl⟩ := incident_org_id hcur
  exact Table.find?_update_self hcur (by simp [hkey])

theorem acknowledge_from (h : nextState s .acknowledge = .ok next) (hne : s ≠ next) :
    s = .triggered := by
  cases s <;> simp_all [nextState]

theorem resolve_from {t : IncidentTransition} (ht : t = .resolve ∨ t = .autoResolve)
    (h : nextState s t = .ok next) (hne : s ≠ next) : s ≠ .resolved := by
  rcases ht with rfl | rfl <;> cases s <;> simp_all [nextState]

theorem reopen_from (h : nextState s .reopen = .ok next) (hne : s ≠ next) : s = .resolved := by
  cases s <;> simp_all [nextState]

section
variable (db : Db) (org : OrgId) (id : Uuid) (f : IncidentRow → IncidentRow)

theorem updateTriggered_eq :
    (db.updateTriggered org id f).2 =
      { db with incidents := (db.updateTriggered org id f).2.incidents } := by
  unfold updateTriggered
  split
  · rfl
  · split <;> rfl

@[simp] theorem updateTriggered_events : (db.updateTriggered org id f).2.events = db.events := by
  rw [updateTriggered_eq]

@[simp] theorem updateTriggered_updates :
    (db.updateTriggered org id f).2.updates = db.updates := by
  rw [updateTriggered_eq]

end

/-! ## Rows of `incidents` -/

/-- What operation `o` can do to a row: nothing, or the write it is for.  The timer and
acknowledgement columns are written only in the states the guards name. -/
inductive RowStep (now : Time) : StoreOp → IncidentRow → IncidentRow → Prop
  | same {o r} : RowStep now o r r
  | acknowledged {began actor note g r} : r.state = .triggered →
      RowStep now (.acknowledge began r.org r.id actor note g) r (ackRow actor began r)
  | resolved {began actor note r} : r.state ≠ .resolved →
      RowStep now (.resolve began r.org r.id actor note) r (resolveRow actor began r)
  | autoResolved {began r} : r.state ≠ .resolved →
      RowStep now (.autoResolve began r.org r.id) r (resolveRow .system began r)
  | reopened {began actor note r} : r.state = .resolved →
      RowStep now (.reopen began r.org r.id actor note) r (reopenRow began r)
  | closed {endedAt r} : r.endedAt = none →
      RowStep now (.close r.org r.id endedAt) r (closedRow endedAt now r)
  | published {began title description actor r} :
      RowStep now (.publish began r.org r.id title description actor) r
        (setVisibility .onStatusPage began r)
  | unpublished {began actor r} :
      RowStep now (.unpublish began r.org r.id actor) r (setVisibility .internal began r)
  | begun {policyId level nextAt r} : r.state = .triggered →
      RowStep now (.beginEscalation r.org r.id policyId level nextAt) r
        (armRow (some policyId) level 0 nextAt now r)
  | escalated {level round nextAt r} : r.state = .triggered →
      RowStep now (.recordEscalation r.org r.id level round nextAt) r
        (armRow r.escalationPolicyId level round nextAt now r)
  | bumped {r} : r.state = .triggered →
      RowStep now (.bumpRenotifyCount r.org r.id) r (bumpRow now r)
  | leased {at_ limit leaseSecs r} : escalationDue at_ r = true →
      RowStep now (.dueForEscalation at_ limit leaseSecs) r
        (leaseRow (some (at_ + seconds (max leaseSecs 1))) r)

variable {o : StoreOp} {r r' : IncidentRow}

theorem RowStep.targetId_eq (h : RowStep now o r r') : r'.targetId = r.targetId := by
  cases h <;> rfl

/-- A row an operation inserts. -/
inductive RowNew (now : Time) (db : Db) : StoreOp → IncidentRow → Prop
  | declared {began org new actor} :
      RowNew now db (.declare began org new actor) (db.declaredRow began org new)
  | opened {org new} : RowNew now db (.insertOpen org new) (db.openedRow now org new)

/-- `rows` are the table's rows rewritten one by one, each as `o` may. -/
def Rewrites (now : Time) (o : StoreOp) (db : Db) (rows : List IncidentRow) : Prop :=
  ∃ f : IncidentRow → IncidentRow, rows = db.incidents.map f ∧
    (∀ r, (f r).org = r.org ∧ (f r).id = r.id) ∧
    (∀ r ∈ db.incidents, ∃ r₀ ∈ db.incidents, RowStep now o r₀ (f r)) ∧
    ∀ org id r, db.incident org id = some r → RowStep now o r (f r)

theorem rewrites_refl : Rewrites now o db db.incidents :=
  ⟨id, by simp, by simp, fun r hr => ⟨r, hr, .same⟩, fun _ _ _ _ => .same⟩

theorem rewrites_update {cur : IncidentRow} (hcur : db.incident org id = some cur)
    (hs : RowStep now o cur r') (hkey : r'.org = cur.org ∧ r'.id = cur.id) :
    Rewrites now o db (db.updateIncident org id fun _ => r').incidents := by
  obtain ⟨horg, hid⟩ := incident_org_id hcur
  refine ⟨fun r => if r.org == org && r.id == id then r' else r, rfl, ?_, ?_, ?_⟩
  · intro r
    by_cases hr : r.org = org ∧ r.id = id
    · simp [hr, hkey, horg, hid]
    · simp [hr]
  · intro r hr
    by_cases hk : r.org = org ∧ r.id = id
    · exact ⟨cur, incident_mem hcur, by simpa [hk] using hs⟩
    · exact ⟨r, hr, by simpa [hk] using .same⟩
  · intro org₁ id₁ r hr
    by_cases hk : r.org = org ∧ r.id = id
    · obtain ⟨rfl, rfl⟩ := incident_org_id hr
      obtain rfl : r = cur := by
        rw [hk.1, hk.2, hcur] at hr
        exact (Option.some.inj hr).symm
      simpa [hk] using hs
    · simpa [hk] using .same

variable {began : Time} {t : Transition}

theorem rewrites_transition
    (hkey : ∀ at_ r, (t.update at_ r).org = r.org ∧ (t.update at_ r).id = r.id)
    (hstep : ∀ cur next, cur.org = org → cur.id = id →
      nextState cur.state t.transition = .ok next → cur.state ≠ next →
      RowStep now o cur (t.update began cur)) :
    Rewrites now o db (db.transition began org id t).2.incidents := by
  rcases transition_cases db began org id t with ⟨h, -⟩ | ⟨cur, next, hcur, -, hnext, h⟩
  · rw [h]
    exact rewrites_refl
  · rw [h]
    obtain ⟨horg, hid⟩ := incident_org_id hcur
    have hrow : RowStep now o cur (t.row began cur next) ∧
        (t.row began cur next).org = cur.org ∧ (t.row began cur next).id = cur.id := by
      unfold Transition.row
      split
      · exact ⟨.same, rfl, rfl⟩
      · next hne => exact ⟨hstep cur next horg hid hnext hne, hkey began cur⟩
    exact rewrites_update hcur hrow.1 hrow.2

theorem rewrites_triggered {f : IncidentRow → IncidentRow}
    (hkey : ∀ r, (f r).org = r.org ∧ (f r).id = r.id)
    (hstep : ∀ cur, cur.org = org → cur.id = id → cur.state = .triggered → RowStep now o cur (f cur)) :
    Rewrites now o db (db.updateTriggered org id f).2.incidents := by
  unfold updateTriggered
  split
  · exact rewrites_refl
  · next cur hcur =>
    obtain ⟨horg, hid⟩ := incident_org_id hcur
    split
    · next ht => exact rewrites_update hcur (hstep cur horg hid ht) (hkey cur)
    · exact rewrites_refl

theorem rewrites_lease (at_ : Time) (limit : Nat) (leaseSecs : Int) :
    Rewrites now (.dueForEscalation at_ limit leaseSecs) db
      (db.dueForEscalation at_ limit leaseSecs).2.incidents := by
  refine ⟨_, rfl, ?_, ?_, ?_⟩
  · intro r
    split <;> exact ⟨rfl, rfl⟩
  · intro r hr
    refine ⟨r, hr, ?_⟩
    split
    · next hp =>
      have hdue := Table.mem_firstBy (List.contains_iff_mem.mp hp)
      exact .leased (List.mem_filter.mp hdue).2
    · exact .same
  · intro org id r _
    split
    · next hp =>
      have hdue := Table.mem_firstBy (List.contains_iff_mem.mp hp)
      exact .leased (List.mem_filter.mp hdue).2
    · exact .same

theorem exec_incidents (lower : String → String) (now : Time) (o : StoreOp) (db : Db) :
    (∃ r, RowNew now db o r ∧ (db.exec lower now o).2.incidents = db.incidents ++ [r] ∧
        db.nextId < (db.exec lower now o).2.nextId) ∨
      Rewrites now o db (db.exec lower now o).2.incidents := by
  cases o with
  | declare began org new actor =>
    simp only [exec, declare]
    split
    · exact .inr rewrites_refl
    · exact .inl ⟨_, .declared, rfl, Nat.lt_add_right 1 (Nat.lt_succ_self _)⟩
  | insertOpen org new =>
    simp only [exec, insertOpen]
    split
    · exact .inr rewrites_refl
    · split
      · exact .inr rewrites_refl
      · exact .inl ⟨_, .opened, rfl, Nat.lt_succ_self _⟩
  | acknowledge began org id actor note g =>
    refine .inr (rewrites_transition (fun _ _ => ⟨rfl, rfl⟩) ?_)
    rintro cur next rfl rfl hnext hne
    exact .acknowledged (acknowledge_from hnext hne)
  | resolve began org id actor note =>
    refine .inr (rewrites_transition (fun _ _ => ⟨rfl, rfl⟩) ?_)
    rintro cur next rfl rfl hnext hne
    exact .resolved (resolve_from (.inl rfl) hnext hne)
  | autoResolve began org id =>
    refine .inr (rewrites_transition (fun _ _ => ⟨rfl, rfl⟩) ?_)
    rintro cur next rfl rfl hnext hne
    exact .autoResolved (resolve_from (.inr rfl) hnext hne)
  | reopen began org id actor note =>
    refine .inr (rewrites_transition (fun _ _ => ⟨rfl, rfl⟩) ?_)
    rintro cur next rfl rfl hnext hne
    exact .reopened (reopen_from hnext hne)
  | publish began org id title description actor =>
    simp only [exec, publish]
    split
    · exact .inr rewrites_refl
    · next cur hcur =>
      obtain ⟨rfl, rfl⟩ := incident_org_id hcur
      have h : Rewrites now (.publish began cur.org cur.id title description actor) db _ :=
        rewrites_update hcur .published ⟨rfl, rfl⟩
      refine .inr ?_
      split <;> exact h
  | unpublish began org id actor =>
    simp only [exec, unpublish]
    split
    · exact .inr rewrites_refl
    · next cur hcur =>
      obtain ⟨rfl, rfl⟩ := incident_org_id hcur
      exact .inr (rewrites_update hcur .unpublished ⟨rfl, rfl⟩)
  | close org id endedAt =>
    simp only [exec, close]
    split
    · exact .inr rewrites_refl
    · next cur hcur =>
      obtain ⟨rfl, rfl⟩ := incident_org_id hcur
      split
      · exact .inr rewrites_refl
      · next hopen =>
        have h : Rewrites now (.close cur.org cur.id endedAt) db _ :=
          rewrites_update hcur (.closed (by simpa using hopen)) ⟨rfl, rfl⟩
        refine .inr ?_
        dsimp only
        split <;> exact h
  | beginEscalation org id policyId level nextAt =>
    exact .inr (rewrites_triggered (fun _ => ⟨rfl, rfl⟩) (by rintro cur rfl rfl h; exact .begun h))
  | recordEscalation org id level round nextAt =>
    exact .inr (rewrites_triggered (fun _ => ⟨rfl, rfl⟩)
      (by rintro cur rfl rfl h; exact .escalated h))
  | bumpRenotifyCount org id =>
    exact .inr (rewrites_triggered (fun _ => ⟨rfl, rfl⟩) (by rintro cur rfl rfl h; exact .bumped h))
  | dueForEscalation at_ limit leaseSecs => exact .inr (rewrites_lease at_ limit leaseSecs)
  | appendEvent org id kind actor message =>
    simp only [exec, appendEvent]
    split
    · exact .inr rewrites_refl
    · exact .inr rewrites_refl
  | _ => exact .inr rewrites_refl

theorem exec_mem_incidents (h : r' ∈ (db.exec lower now o).2.incidents) :
    (∃ r ∈ db.incidents, RowStep now o r r') ∨ RowNew now db o r' := by
  rcases exec_incidents lower now o db with ⟨r, hr, heq, -⟩ | ⟨f, heq, -, hstep, -⟩
  · rw [heq] at h
    rcases List.mem_append.mp h with h | h
    · exact .inl ⟨r', h, .same⟩
    · obtain rfl : r' = r := by simpa using h
      exact .inr hr
  · rw [heq] at h
    obtain ⟨r, hr, rfl⟩ := List.mem_map.mp h
    exact .inl (hstep r hr)

theorem exec_incident (lower : String → String) (now : Time) (o : StoreOp) (db : Db)
    (org : OrgId) (id : Uuid) :
    match db.incident org id, (db.exec lower now o).2.incident org id with
    | some r, some r' => RowStep now o r r'
    | none, some r' => RowNew now db o r'
    | none, none => True
    | some _, none => False := by
  rcases exec_incidents lower now o db with ⟨r, hr, heq, -⟩ | ⟨f, heq, hkey, -, hstep⟩
  · unfold incident
    rw [heq, List.find?_append]
    cases h : db.incidents.find? fun i => i.org == org && i.id == id with
    | some r₀ => exact .same
    | none =>
      by_cases hk : (r.org == org && r.id == id) = true
      · simp only [Option.none_or, List.find?_cons, hk]
        exact hr
      · simp [hk]
  · have hfind : (db.exec lower now o).2.incident org id = (db.incident org id).map f := by
      unfold incident
      rw [heq, List.find?_map]
      congr 2
      funext r
      simp [Function.comp, hkey r]
    rw [hfind]
    cases h : db.incident org id with
    | none => trivial
    | some r => exact hstep org id r h

theorem exec_incident_some (lower : String → String) (now : Time) (o : StoreOp)
    (h : db.incident org id = some r) :
    ∃ r', (db.exec lower now o).2.incident org id = some r' ∧ RowStep now o r r' := by
  have hstep := exec_incident lower now o db org id
  rw [h] at hstep
  cases hnew : (db.exec lower now o).2.incident org id with
  | none => simp [hnew] at hstep
  | some r' =>
    simp only [hnew] at hstep
    exact ⟨r', rfl, hstep⟩

/-! ## Timeline and narration -/

/-- The timeline entry operation `o` writes when it writes one: organisation, incident,
kind and time. -/
def entry (now : Time) (db : Db) : StoreOp → Option (OrgId × Uuid × IncidentEventKind × Time)
  | .declare began org _ _ => some (org, db.nextId, .triggered, began)
  | .acknowledge began org id _ _ _ => some (org, id, .acknowledged, began)
  | .resolve began org id _ _ => some (org, id, .resolved, began)
  | .autoResolve began org id => some (org, id, .resolved, began)
  | .reopen began org id _ _ => some (org, id, .reopened, began)
  | .publish began org id _ _ _ => some (org, id, .published, began)
  | .unpublish began org id _ => some (org, id, .unpublished, began)
  | .appendEvent org id kind _ _ => some (org, id, kind, now)
  | _ => none

/-- `new` is what `o` may add to the timeline. -/
def Logged (now : Time) (o : StoreOp) (db db' : Db) : Prop :=
  ∃ new, db'.events = db.events ++ new ∧
    (new = [] ∨ ∃ e, new = [e] ∧
      entry now db o = some (e.org, e.incidentId, e.kind, e.occurredAt))

theorem logged_refl (h : db'.events = db.events) : Logged now o db db' :=
  ⟨[], by simp [h], .inl rfl⟩

theorem logged_insert {at_ : Time} {kind : IncidentEventKind} {actor : Actor}
    {message : Option String} (ho : entry now db o = some (org, id, kind, at_))
    (h : db'.events = (db.insertEvent at_ org id kind actor message).events) :
    Logged now o db db' :=
  ⟨_, h, .inr ⟨_, rfl, ho⟩⟩

theorem logged_transition (ho : entry now db o = some (org, id, t.eventKind, began)) :
    Logged now o db (db.transition began org id t).2 := by
  rcases transition_cases db began org id t with ⟨h, -⟩ | ⟨cur, next, -, -, -, h⟩
  · exact logged_refl (by rw [h])
  · exact logged_insert ho (by rw [h]; rfl)

theorem exec_events (lower : String → String) (now : Time) (o : StoreOp) (db : Db) :
    Logged now o db (db.exec lower now o).2 := by
  cases o with
  | declare began org new actor =>
    simp only [exec, declare]
    split
    · exact logged_refl rfl
    · exact ⟨_, rfl, .inr ⟨_, rfl, rfl⟩⟩
  | acknowledge began org id actor note g => exact logged_transition rfl
  | resolve began org id actor note => exact logged_transition rfl
  | autoResolve began org id => exact logged_transition rfl
  | reopen began org id actor note => exact logged_transition rfl
  | publish began org id title description actor =>
    simp only [exec, publish]
    split
    · exact logged_refl rfl
    · split <;> exact logged_insert rfl rfl
  | unpublish began org id actor =>
    simp only [exec, unpublish]
    split
    · exact logged_refl rfl
    · exact logged_insert rfl rfl
  | appendEvent org id kind actor message =>
    simp only [exec, appendEvent]
    split
    · exact logged_refl rfl
    · exact logged_insert rfl rfl
  | insertOpen org new =>
    simp only [exec, insertOpen]
    split
    · exact logged_refl rfl
    · split <;> exact logged_refl rfl
  | close org id endedAt =>
    simp only [exec, close]
    split
    · exact logged_refl rfl
    · split
      · exact logged_refl rfl
      · dsimp only
        split <;> exact logged_refl rfl
  | beginEscalation org id policyId level nextAt =>
    exact logged_refl (updateTriggered_events ..)
  | recordEscalation org id level round nextAt =>
    exact logged_refl (updateTriggered_events ..)
  | bumpRenotifyCount org id => exact logged_refl (updateTriggered_events ..)
  | _ => exact logged_refl rfl

end Db

end Uptimepage

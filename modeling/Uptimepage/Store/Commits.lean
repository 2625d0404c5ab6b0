import Uptimepage.Store.Frame

/-!
# Committed lifecycle calls

Which answers mean that a lifecycle transaction went through, and what it left behind.
`settled_exec` is the one-way door: an incident that was acknowledged or resolved goes
back to triggered only by a reopen that commits.
-/

namespace Uptimepage

/-- The transaction went through. -/
def committed : Except StoreError LifecycleOutcome → Bool
  | .ok (.updated _) => true
  | _ => false

/-- A committed acknowledge, resolve or close of the incident. -/
def StoreOp.halts (org : OrgId) (k : Uuid) : (o : StoreOp) → Except StoreError o.Ret → Bool
  | .acknowledge _ org' id _ _ _, r => org' == org && id == k && committed r
  | .resolve _ org' id _ _, r => org' == org && id == k && committed r
  | .autoResolve _ org' id, r => org' == org && id == k && committed r
  | .close org' id _, r =>
    org' == org && id == k && match (r : Except StoreError Bool) with
      | .ok closed => closed
      | .error _ => false
  | _, _ => false

def StoreOp.reopens (org : OrgId) (k : Uuid) : (o : StoreOp) → Except StoreError o.Ret → Bool
  | .reopen _ org' id _ _, r => org' == org && id == k && committed r
  | _, _ => false

namespace Db

variable {lower : String → String} {now : Time} {db db' : Db} {org : OrgId} {k : Uuid}

def triggered (db : Db) (org : OrgId) (k : Uuid) : Bool :=
  (db.incident org k).any fun i => i.state == .triggered

/-- The incident exists and is acknowledged or resolved. -/
def Settled (db : Db) (org : OrgId) (k : Uuid) : Prop :=
  ∃ i, db.incident org k = some i ∧ i.state ≠ .triggered

theorem Settled.not_triggered (h : db.Settled org k) : db.triggered org k = false := by
  obtain ⟨i, hi, hs⟩ := h
  simp [triggered, hi, hs]

theorem Settled.of_eq (h : db.Settled org k) (heq : db' = db) : db'.Settled org k := heq ▸ h

variable {began : Time} {t : Transition} {o : StoreOp}

theorem transition_committed
    (hkey : ∀ at_ r, (t.update at_ r).org = r.org ∧ (t.update at_ r).id = r.id)
    (h : committed (db.transition began org k t).1 = true) :
    ∃ cur next, db.incident org k = some cur ∧ nextState cur.state t.transition = .ok next ∧
      (∀ g, t.expectGeneration = some g → db.reopenCount org k = g) ∧
      (db.transition began org k t).2 = db.applyTransition began org k t cur next ∧
      (db.transition began org k t).2.incident org k = some (t.row began cur next) := by
  rcases transition_cases db began org k t with ⟨-, hno⟩ | ⟨cur, next, hcur, hgen, hnext, heq⟩
  · unfold committed at h
    split at h
    · next i hi => exact absurd hi (hno i)
    · cases h
  · refine ⟨cur, next, hcur, hnext, hgen, by rw [heq], ?_⟩
    rw [heq]
    have hrow : (t.row began cur next).org = cur.org ∧ (t.row began cur next).id = cur.id := by
      unfold Transition.row
      split
      · exact ⟨rfl, rfl⟩
      · exact hkey began cur
    exact updateIncident_incident hcur hrow

theorem transition_settled
    (hkey : ∀ at_ r, (t.update at_ r).org = r.org ∧ (t.update at_ r).id = r.id)
    (hstate : ∀ at_ r s next, nextState s t.transition = .ok next →
      next ≠ .triggered ∧ (t.update at_ r).state = next)
    (h : committed (db.transition began org k t).1 = true) :
    (db.transition began org k t).2.Settled org k := by
  obtain ⟨cur, next, -, hnext, -, -, hrow⟩ := transition_committed hkey h
  refine ⟨_, hrow, ?_⟩
  obtain ⟨hne, hupd⟩ := hstate began cur _ _ hnext
  unfold Transition.row
  split
  · next heq => rw [heq]; exact hne
  · rw [hupd]; exact hne

theorem halts_settled (h : o.halts org k (db.exec lower now o).1 = true) :
    (db.exec lower now o).2.Settled org k := by
  cases o with
  | acknowledge began org' id actor note g =>
    simp only [StoreOp.halts, Bool.and_eq_true, beq_iff_eq] at h
    obtain ⟨⟨rfl, rfl⟩, h⟩ := h
    refine transition_settled (fun _ _ => ⟨rfl, rfl⟩) (fun at_ r s next hnext => ?_) h
    cases s <;> simp_all [ackTransition, nextState, ackRow] <;> simp [← hnext]
  | resolve began org' id actor note =>
    simp only [StoreOp.halts, Bool.and_eq_true, beq_iff_eq] at h
    obtain ⟨⟨rfl, rfl⟩, h⟩ := h
    refine transition_settled (fun _ _ => ⟨rfl, rfl⟩) (fun at_ r s next hnext => ?_) h
    cases s <;> simp_all [resolveTransition, nextState, resolveRow] <;> simp [← hnext]
  | autoResolve began org' id =>
    simp only [StoreOp.halts, Bool.and_eq_true, beq_iff_eq] at h
    obtain ⟨⟨rfl, rfl⟩, h⟩ := h
    refine transition_settled (fun _ _ => ⟨rfl, rfl⟩) (fun at_ r s next hnext => ?_) h
    cases s <;> simp_all [autoResolveTransition, nextState, resolveRow] <;> simp [← hnext]
  | close org' id endedAt =>
    simp only [StoreOp.halts, Bool.and_eq_true, beq_iff_eq] at h
    obtain ⟨⟨rfl, rfl⟩, h⟩ := h
    simp only [exec, close] at h ⊢
    split at h
    · cases h
    · next cur hcur =>
      split at h
      · cases h
      · next hopen =>
        rw [if_neg hopen]
        have hrow : (db.updateIncident org' id fun _ => closedRow endedAt now cur).incident org' id
            = some (closedRow endedAt now cur) := updateIncident_incident hcur ⟨rfl, rfl⟩
        refine ⟨closedRow endedAt now cur, ?_, by simp [closedRow]⟩
        dsimp only
        split <;> exact hrow
  | _ => cases h

theorem settled_exec (h : db.Settled org k)
    (hre : o.reopens org k (db.exec lower now o).1 = false) :
    (db.exec lower now o).2.Settled org k := by
  obtain ⟨i, hi, hs⟩ := h
  obtain ⟨i', hnew, hstep⟩ := exec_incident_some lower now o hi
  refine ⟨i', hnew, ?_⟩
  cases hstep with
  | same => exact hs
  | acknowledged ht => simp [ackRow]
  | resolved hne => simp [resolveRow]
  | autoResolved hne => simp [resolveRow]
  | closed hopen => simp [closedRow]
  | published => exact hs
  | unpublished => exact hs
  | begun ht => exact absurd ht hs
  | escalated ht => exact absurd ht hs
  | bumped ht => exact absurd ht hs
  | leased hdue =>
    simp only [escalationDue, Bool.and_eq_true, beq_iff_eq] at hdue
    exact absurd hdue.1 hs
  | @reopened began actor note _ hres =>
    obtain ⟨rfl, rfl⟩ := incident_org_id hi
    rcases transition_cases db began i.org i.id (reopenTransition actor note) with
      ⟨hsame, -⟩ | ⟨cur, next, -, -, -, heq⟩
    · change (db.reopen began i.org i.id actor note).2.incident i.org i.id = _ at hnew
      rw [reopen, hsame, hi] at hnew
      rw [← Option.some.inj hnew]
      exact hs
    · simp only [StoreOp.reopens, exec, reopen, heq, committed] at hre
      simp at hre

/-! ## Resolutions -/

theorem triggered_lease (lower : String → String) (now : Time) (db : Db) (org : OrgId) (k : Uuid)
    (at_ : Time) (limit : Nat) (leaseSecs : Int) :
    (db.exec lower now (.dueForEscalation at_ limit leaseSecs)).2.triggered org k =
      db.triggered org k := by
  unfold triggered
  cases hi : db.incident org k with
  | none =>
    cases hnew : (db.exec lower now (.dueForEscalation at_ limit leaseSecs)).2.incident org k with
    | none => rfl
    | some i =>
      have hstep := exec_incident lower now (.dueForEscalation at_ limit leaseSecs) db org k
      simp only [hi, hnew] at hstep
      cases hstep
  | some i =>
    obtain ⟨i', hnew, hstep⟩ :=
      exec_incident_some lower now (.dueForEscalation at_ limit leaseSecs) hi
    rw [hnew]
    cases hstep <;> rfl

/-! ## Episodes -/

/-- Operations that write no `reopened` entry but a reopen's. -/
def countsEpisodes : StoreOp → Prop
  | .appendEvent _ _ kind _ _ => kind ≠ .reopened
  | _ => True

theorem reopen_counts {actor : Actor} {note : Option String}
    (h : committed (db.reopen began org k actor note).1 = true) :
    (db.reopen began org k actor note).2.reopenCount org k = db.reopenCount org k + 1 ∧
      ∀ at_, (db.reopen began org k actor note).2.reopensBefore org k at_ =
        db.reopensBefore org k at_ + if began ≤ at_ then 1 else 0 := by
  rcases transition_cases db began org k (reopenTransition actor note) with
    ⟨-, hno⟩ | ⟨cur, next, -, -, -, heq⟩
  · unfold committed at h
    split at h
    · next i hi => exact absurd hi (hno i)
    · cases h
  · have hev : (db.reopen began org k actor note).2.events =
        (db.insertEvent began org k .reopened actor note).events := by
      rw [reopen, heq]
      rfl
    constructor
    · simp [reopenCount, hev, insertEvent, List.countP_append]
    · intro at_
      simp [reopensBefore, hev, insertEvent, List.countP_append, List.countP_cons]

theorem exec_reopens (ho : countsEpisodes o) (h : o.reopens org k (db.exec lower now o).1 = false) :
    (db.exec lower now o).2.reopenCount org k = db.reopenCount org k ∧
      ∀ at_, (db.exec lower now o).2.reopensBefore org k at_ = db.reopensBefore org k at_ := by
  have hsame : ∀ {db' : Db}, db'.events = db.events →
      db'.reopenCount org k = db.reopenCount org k ∧
        ∀ at_, db'.reopensBefore org k at_ = db.reopensBefore org k at_ := by
    intro db' heq
    simp [reopenCount, reopensBefore, heq]
  obtain ⟨new, hnew, hcase⟩ := exec_events lower now o db
  rcases hcase with rfl | ⟨e, rfl, hentry⟩
  · exact hsame (by simpa using hnew)
  · by_cases hkind : e.kind = .reopened ∧ e.org = org ∧ e.incidentId = k
    · obtain ⟨hkind, rfl, rfl⟩ := hkind
      cases o with
      | reopen began org' id actor note =>
        simp only [entry, Option.some.injEq, Prod.mk.injEq] at hentry
        obtain ⟨rfl, rfl, -, -⟩ := hentry
        have hno : committed (db.reopen began e.org e.incidentId actor note).1 = false := by
          simpa [StoreOp.reopens, exec] using h
        refine hsame ?_
        rcases transition_cases db began e.org e.incidentId (reopenTransition actor note) with
          ⟨heq, -⟩ | ⟨cur, next, -, -, -, heq⟩
        · exact congrArg Db.events heq
        · rw [reopen, heq] at hno
          cases hno
      | appendEvent org' id kind actor message =>
        simp only [entry, Option.some.injEq, Prod.mk.injEq] at hentry
        exact absurd (hentry.2.2.1.trans hkind) ho
      | _ =>
        simp only [entry, Option.some.injEq, Prod.mk.injEq, reduceCtorEq] at hentry
        try (rw [hkind] at hentry; simp at hentry)
    · have hmiss : (e.incidentId == k && e.org == org && e.kind == .reopened) = false := by
        simp only [Bool.and_eq_false_iff, beq_eq_false_iff_ne]
        by_contra hall
        push Not at hall
        exact hkind ⟨hall.2, hall.1.2, hall.1.1⟩
      constructor
      · simp [reopenCount, hnew, List.countP_append, hmiss]
      · intro at_
        simp [reopensBefore, hnew, List.countP_append, hmiss]

theorem reopenCount_mono (lower : String → String) (now : Time) (o : StoreOp) (db : Db)
    (org : OrgId) (k : Uuid) :
    db.reopenCount org k ≤ (db.exec lower now o).2.reopenCount org k := by
  obtain ⟨new, hnew, -⟩ := exec_events lower now o db
  simp [reopenCount, hnew, List.countP_append]

theorem reopensBefore_le (db : Db) (org : OrgId) (k : Uuid) (at_ : Time) :
    db.reopensBefore org k at_ ≤ db.reopenCount org k := by
  unfold reopensBefore reopenCount
  exact List.countP_mono_left fun e _ h => by simp_all

end Db

end Uptimepage

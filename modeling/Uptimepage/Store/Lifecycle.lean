import Uptimepage.Store.Frame
import Uptimepage.Store.Memory

/-!
# The lifecycle invariant

The state of an incident lives in several columns that many operations write piecemeal.
`Lifecycle` is what ties them together; `rowStep_lifecycle` shows that no write of any
operation breaks it, and `run_lifecycle` carries it along every run, from an empty
database.  `MemStore.run_lifecycle` is the same for the in-memory double.
-/

namespace Uptimepage

/-- The columns agree: an incident has ended exactly when it is resolved, only a triggered
one escalates, and a triggered one carries no acknowledgement. -/
structure Lifecycle (i : OpsIncident) : Prop where
  ended : i.endedAt.isSome ↔ i.state = .resolved
  acked : i.state = .acknowledged → i.acknowledgedAt.isSome ∧ i.nextEscalationAt = none
  stopped : i.state = .resolved → i.nextEscalationAt = none
  unacked : i.state = .triggered → i.acknowledgedAt = none ∧ i.acknowledgedBy = none

namespace Db

variable {lower : String → String}

variable {now : Time} {o : StoreOp} {r : IncidentRow} {db : Db}

theorem rowStep_lifecycle {r' : IncidentRow} (h : RowStep now o r r')
    (hr : Lifecycle r.toOpsIncident) : Lifecycle r'.toOpsIncident := by
  obtain ⟨hended, hacked, hstopped, hunacked⟩ := hr
  cases h with
  | same => exact ⟨hended, hacked, hstopped, hunacked⟩
  | acknowledged ht =>
    have hopen : r.endedAt.isSome = false := by simp [← Bool.not_eq_true, hended, ht]
    constructor <;> simp [ackRow, hopen]
  | resolved hne => constructor <;> simp [resolveRow]
  | autoResolved hne => constructor <;> simp [resolveRow]
  | reopened hres => constructor <;> simp [reopenRow]
  | closed hopen => constructor <;> simp [closedRow]
  | published => exact ⟨hended, hacked, hstopped, hunacked⟩
  | unpublished => exact ⟨hended, hacked, hstopped, hunacked⟩
  | begun ht => constructor <;> simp_all [armRow]
  | escalated ht => constructor <;> simp_all [armRow]
  | bumped ht => exact ⟨hended, hacked, hstopped, hunacked⟩
  | leased hdue =>
    have ht : r.state = .triggered := by
      simp only [escalationDue, Bool.and_eq_true, beq_iff_eq] at hdue
      exact hdue.1
    constructor <;> simp_all [leaseRow]

theorem rowNew_lifecycle (h : RowNew now db o r) : Lifecycle r.toOpsIncident := by
  cases h with
  | declared => constructor <;> simp [declaredRow]
  | opened => constructor <;> simp [openedRow]

theorem exec_lifecycle (h : ∀ i ∈ db.incidents, Lifecycle i.toOpsIncident) :
    ∀ i ∈ (db.exec lower now o).2.incidents, Lifecycle i.toOpsIncident := by
  intro i hi
  rcases exec_mem_incidents hi with ⟨r, hr, hstep⟩ | hnew
  · exact rowStep_lifecycle hstep (h r hr)
  · exact rowNew_lifecycle hnew

def run (lower : String → String) (db : Db) (ops : List (Time × StoreOp)) : Db :=
  ops.foldl (fun db o => (db.exec lower o.1 o.2).2) db

theorem run_lifecycle (ops : List (Time × StoreOp))
    (h : ∀ i ∈ db.incidents, Lifecycle i.toOpsIncident) :
    ∀ i ∈ (db.run lower ops).incidents, Lifecycle i.toOpsIncident := by
  induction ops generalizing db with
  | nil => exact h
  | cons o ops ih => exact ih (exec_lifecycle h)

variable {org : OrgId}

theorem acknowledge_again {id : Uuid} {cur : OpsIncident} (hcur : db.get org id = some cur)
    (hack : cur.state = .acknowledged) (began : Time) (actor : Actor) (note : Option String)
    (g : Option Nat) : (db.acknowledge began org id actor note g).2.get org id = some cur := by
  obtain ⟨row, hrow, rfl⟩ := Option.map_eq_some_iff.mp hcur
  obtain ⟨row', hnew, hstep⟩ :=
    exec_incident_some (fun s => s) began (.acknowledge began org id actor note g) hrow
  have hsame : row' = row := by
    cases hstep with
    | same => rfl
    | acknowledged ht => simp [ht] at hack
  rw [hsame] at hnew
  exact Option.map_eq_some_iff.mpr ⟨row, hnew, rfl⟩

theorem reopen_updated {db' : Db} {began : Time} {id : Uuid} {actor : Actor}
    {note : Option String} {i : OpsIncident}
    (h : db.reopen began org id actor note = (.ok (.updated i), db')) :
    db'.get org id = some i ∧ i.state = .triggered ∧ i.acknowledgedAt = none ∧
      i.acknowledgedBy = none := by
  rcases transition_cases db began org id (reopenTransition actor note) with
    ⟨-, hno⟩ | ⟨cur, next, hcur, -, hnext, heq⟩
  · exact absurd (by rw [← reopen, h]) (hno i)
  · rw [reopen, heq] at h
    have hres : cur.state = .resolved ∧ next = .triggered := by
      cases hs : cur.state <;> simp_all [reopenTransition, nextState]
    have hrow : (reopenTransition actor note).row began cur next = reopenRow began cur := by
      simp [Transition.row, hres, reopenTransition]
    rw [hrow] at h
    simp only [Prod.mk.injEq, Except.ok.injEq, LifecycleOutcome.updated.injEq] at h
    obtain ⟨rfl, rfl⟩ := h
    refine ⟨?_, rfl, rfl, rfl⟩
    have hget : (db.updateIncident org id fun _ => reopenRow began cur).incident org id =
        some (reopenRow began cur) := updateIncident_incident hcur ⟨rfl, rfl⟩
    unfold get
    rw [Option.map_eq_some_iff]
    refine ⟨reopenRow began cur, ?_, rfl⟩
    rw [← hget, ← hrow]
    rfl

end Db

namespace MemStore

variable {p : OpsIncident → Bool} {f : OpsIncident → OpsIncident} {l : List OpsIncident}
  {i : OpsIncident} {m : MemStore} {now : Time} {actor : Actor} {note : Option String}

theorem mem_rewriteFirst (h : i ∈ rewriteFirst p f l) :
    i ∈ l ∨ ∃ i₀, l.find? p = some i₀ ∧ i = f i₀ := by
  induction l with
  | nil => simp [rewriteFirst] at h
  | cons i₀ l ih =>
    simp only [rewriteFirst] at h
    split at h
    · next hp =>
      rcases List.mem_cons.mp h with rfl | h
      · exact .inr ⟨i₀, by simp [hp], rfl⟩
      · exact .inl (List.mem_cons_of_mem _ h)
    · next hp =>
      rcases List.mem_cons.mp h with rfl | h
      · exact .inl List.mem_cons_self
      · rcases ih h with h | ⟨j, hj, rfl⟩
        · exact .inl (List.mem_cons_of_mem _ h)
        · exact .inr ⟨j, by simpa [hp] using hj, rfl⟩

theorem apply_lifecycle {id : Uuid} {t : IncidentTransition} {kind : IncidentEventKind}
    {g : Option Nat} {mutate : OpsIncident → OpsIncident} (h : ∀ i ∈ m.incidents, Lifecycle i)
    (hmut : ∀ i next, Lifecycle i → nextState i.state t = .ok next → i.state ≠ next →
      Lifecycle { mutate i with updatedAt := now }) :
    ∀ i ∈ (m.apply now id t kind actor note g mutate).2.incidents, Lifecycle i := by
  unfold apply
  split
  · exact h
  · next cur hcur =>
    split
    · exact h
    · split
      · exact h
      · next next hnext =>
        intro i hi
        rcases mem_rewriteFirst hi with hi | ⟨i₀, hi₀, rfl⟩
        · exact h i hi
        · obtain rfl : cur = i₀ := Option.some.inj (hcur.symm.trans hi₀)
          have hcurl := h cur (List.mem_of_find?_eq_some hi₀)
          dsimp only
          split
          · exact hcurl
          · next hne => exact hmut cur next hcurl hnext hne

theorem claim_lifecycle {leaseTo : Time} {room : Nat} (h : ∀ i ∈ l, Lifecycle i) :
    ∀ i ∈ (claim now leaseTo room l).2, Lifecycle i := by
  induction l generalizing room with
  | nil => simp [claim]
  | cons i l ih =>
    have hi := h i List.mem_cons_self
    have hl : ∀ j ∈ l, Lifecycle j := fun j hj => h j (List.mem_cons_of_mem _ hj)
    unfold claim
    split
    · next hdue =>
      have ht : i.state = .triggered := by
        simp only [escalationDue, Bool.and_eq_true, beq_iff_eq] at hdue
        exact hdue.1
      cases room with
      | zero => exact h
      | succ room =>
        refine List.forall_mem_cons.mpr ⟨?_, ih hl⟩
        obtain ⟨hended, hacked, hstopped, hunacked⟩ := hi
        constructor <;> simp_all
    · exact List.forall_mem_cons.mpr ⟨hi, ih hl⟩

theorem arm_lifecycle {id : Uuid} (h : ∀ i ∈ m.incidents, Lifecycle i)
    (hf : ∀ i, Lifecycle i → i.state = .triggered → Lifecycle (f i)) :
    ∀ i ∈ rewriteFirst (triggeredWithId id) f m.incidents, Lifecycle i := by
  intro i hi
  rcases mem_rewriteFirst hi with hi | ⟨i₀, hi₀, rfl⟩
  · exact h i hi
  · have ht := List.find?_some hi₀
    simp only [triggeredWithId, Bool.and_eq_true, beq_iff_eq] at ht
    exact hf i₀ (h i₀ (List.mem_of_find?_eq_some hi₀)) ht.2

theorem exec_lifecycle {o : MemOp} (h : ∀ i ∈ m.incidents, Lifecycle i) :
    ∀ i ∈ (m.exec now o).incidents, Lifecycle i := by
  cases o with
  | declare new actor =>
    intro i hi
    rcases List.mem_append.mp hi with hi | hi
    · exact h i hi
    · obtain rfl := List.mem_singleton.mp hi
      constructor <;> simp
  | acknowledge id actor note g =>
    refine apply_lifecycle h fun i next hi hnext hne => ?_
    have ht := Db.acknowledge_from hnext hne
    obtain ⟨hended, hacked, hstopped, hunacked⟩ := hi
    constructor <;> simp_all
  | resolve id actor note => exact apply_lifecycle h fun i next _ _ _ => by constructor <;> simp
  | autoResolve id => exact apply_lifecycle h fun i next _ _ _ => by constructor <;> simp
  | reopen id actor note =>
    refine apply_lifecycle h fun i next hi hnext hne => ?_
    have hres := Db.reopen_from hnext hne
    have hstop := hi.stopped hres
    constructor <;> simp
  | beginEscalation id policyId level nextAt =>
    exact arm_lifecycle h fun i hi ht => by
      obtain ⟨hended, hacked, hstopped, hunacked⟩ := hi
      constructor <;> simp_all
  | recordEscalation id level round nextAt =>
    exact arm_lifecycle h fun i hi ht => by
      obtain ⟨hended, hacked, hstopped, hunacked⟩ := hi
      constructor <;> simp_all
  | dueForEscalation at_ limit leaseSecs => exact claim_lifecycle h

theorem run_lifecycle (ops : List (Time × MemOp)) (h : ∀ i ∈ m.incidents, Lifecycle i) :
    ∀ i ∈ (m.run ops).incidents, Lifecycle i := by
  induction ops generalizing m with
  | nil => exact h
  | cons o ops ih => exact ih (exec_lifecycle h)

theorem rewriteFirst_eq_self (h : l.find? p = some i) (hf : f i = i) : rewriteFirst p f l = l := by
  induction l with
  | nil => rfl
  | cons i₀ l ih =>
    unfold rewriteFirst
    split
    · next hp =>
      obtain rfl : i₀ = i := by simpa [hp] using h
      rw [hf]
    · next hp => rw [ih (by simpa [hp] using h)]

theorem find?_rewriteFirst (h : l.find? p = some i) (hf : p (f i) = true) :
    (rewriteFirst p f l).find? p = some (f i) := by
  induction l with
  | nil => simp at h
  | cons i₀ l ih =>
    unfold rewriteFirst
    split
    · next hp =>
      obtain rfl : i₀ = i := by simpa [hp] using h
      simp [hf]
    · next hp => simpa [hp] using ih (by simpa [hp] using h)

theorem acknowledge_again {id : Uuid} {cur : OpsIncident} (hcur : m.get id = some cur)
    (hack : cur.state = .acknowledged) (now : Time) (actor : Actor) (note : Option String)
    (g : Option Nat) : (m.acknowledge now id actor note g).2.get id = some cur := by
  unfold acknowledge apply
  rw [hcur]
  dsimp only
  split
  · exact hcur
  · rw [hack]
    have hrows := rewriteFirst_eq_self (f := fun i => if i.state = .acknowledged then i else
      { i with state := .acknowledged, acknowledgedAt := i.acknowledgedAt.or (some now),
               acknowledgedBy := i.acknowledgedBy.or actor.userId, nextEscalationAt := none,
               updatedAt := now }) hcur (if_pos hack)
    simp only [nextState, pushEvent, get, hrows]
    exact hcur

theorem reopen_updated {m' : MemStore} {id : Uuid}
    (h : m.reopen now id actor note = (.updated i, m')) :
    m'.get id = some i ∧ i.state = .triggered ∧ i.acknowledgedAt = none ∧
      i.acknowledgedBy = none := by
  unfold reopen apply at h
  split at h
  · cases h
  · next cur hcur =>
    split at h
    · cases h
    · split at h
      · cases h
      · next next hnext =>
        have hres : cur.state = .resolved ∧ next = .triggered := by
          cases hs : cur.state <;> simp_all [nextState]
        simp only [hres, Prod.mk.injEq, LifecycleOutcome.updated.injEq] at h
        obtain ⟨rfl, rfl⟩ := h
        refine ⟨?_, rfl, rfl, rfl⟩
        have hid : cur.id = id := by simpa using List.find?_some hcur
        refine (find?_rewriteFirst hcur ?_).trans ?_
        · simp [hres, hid]
        · simp [hres]

end MemStore

/-- **The lifecycle invariant**, over every run of either store from empty. -/
theorem incident_lifecycle (lower : String → String) (ops : List (Time × StoreOp))
    (memOps : List (Time × MemOp)) :
    let db := Db.empty.run lower ops
    let m := MemStore.empty.run memOps
    ((∀ i ∈ db.incidents, Lifecycle i.toOpsIncident) ∧
      (∀ began org id actor note i db',
        db.reopen began org id actor note = (.ok (.updated i), db') →
        db'.get org id = some i ∧ i.state = .triggered ∧ i.acknowledgedAt = none ∧
          i.acknowledgedBy = none) ∧
      ∀ began org id actor note g cur, db.get org id = some cur → cur.state = .acknowledged →
        (db.acknowledge began org id actor note g).2.get org id = some cur) ∧
    (∀ i ∈ m.incidents, Lifecycle i) ∧
      (∀ now id actor note i m', m.reopen now id actor note = (.updated i, m') →
        m'.get id = some i ∧ i.state = .triggered ∧ i.acknowledgedAt = none ∧
          i.acknowledgedBy = none) ∧
      ∀ now id actor note g cur, m.get id = some cur → cur.state = .acknowledged →
        (m.acknowledge now id actor note g).2.get id = some cur := by
  refine ⟨⟨Db.run_lifecycle ops (by simp [Db.empty]), ?_, ?_⟩,
    MemStore.run_lifecycle memOps (by simp [MemStore.empty]), ?_, ?_⟩
  · intro began org id actor note i db' h
    exact Db.reopen_updated h
  · intro began org id actor note g cur hcur hack
    exact Db.acknowledge_again hcur hack began actor note g
  · intro now id actor note i m' h
    exact MemStore.reopen_updated h
  · intro now id actor note g cur hcur hack
    exact MemStore.acknowledge_again hcur hack now actor note g

/-- An outage of monitor 7 that user 3 took, with the writes of user 4 after it. -/
theorem incident_lifecycle_taken :
    let ops : List (Time × StoreOp) :=
      [(10, .insertOpen 1 ⟨7, 5, .down, 2, none, [], []⟩),
        (20, .acknowledge 20 1 0 (.user 3) none none)]
    let memOps : List (Time × MemOp) :=
      [(10, .declare ⟨none, .major, .high, some 7, .internal, true, true⟩ (.user 3)),
        (20, .acknowledge 0 (.user 3) none none)]
    let db := Db.empty.run id ops
    let m := MemStore.empty.run memOps
    (∃ cur, db.get 1 0 = some cur ∧ cur.acknowledgedBy = some 3 ∧
      (db.acknowledge 30 1 0 (.user 4) none none).2.get 1 0 = some cur) ∧
    (∃ i, ((db.resolve 30 1 0 (.user 4) none).2.reopen 40 1 0 (.user 4) none).1 =
        .ok (.updated i) ∧ i.acknowledgedBy = none) ∧
    (∃ cur, m.get 0 = some cur ∧ cur.acknowledgedBy = some 3 ∧
      (m.acknowledge 30 0 (.user 4) none none).2.get 0 = some cur) ∧
    ∃ i, ((m.resolve 30 0 (.user 4) none).2.reopen 40 0 (.user 4) none).1 = .updated i ∧
      i.acknowledgedBy = none := by
  intro ops memOps db m
  refine ⟨⟨_, rfl, rfl, ?_⟩, ⟨_, rfl, ?_⟩, ⟨_, rfl, rfl, ?_⟩, ⟨_, rfl, ?_⟩⟩
  · exact (incident_lifecycle id ops memOps).1.2.2 30 1 0 (.user 4) none none _ rfl rfl
  · exact ((incident_lifecycle id (ops ++ [(30, .resolve 30 1 0 (.user 4) none)]) memOps).1.2.1
      40 1 0 (.user 4) none _ _ rfl).2.2.2
  · exact (incident_lifecycle id ops memOps).2.2.2 30 0 (.user 4) none none _ rfl rfl
  · exact ((incident_lifecycle id ops (memOps ++ [(30, .resolve 0 (.user 4) none)])).2.2.1
      40 0 (.user 4) none _ _ rfl).2.2.2

end Uptimepage

import Uptimepage.Store.Frame

/-!
# What one operation can do to the paging log

The paging log only grows, and a row of it changes only in its delivery columns:
`exec_notifications` says so, with `NoteStep` for one row.  `exec_targets` says that the
monitors are touched by console edits alone.  `Keyed` is what the primary keys give.
-/

namespace Uptimepage

namespace Db

variable {lower : String → String} {now : Time} {db db' : Db} {org : OrgId} {id : Uuid}

/-- What operation `o` can do to a row of the paging log. -/
inductive NoteStep : StoreOp → NotificationRow → NotificationRow → Prop
  | same {o n} : NoteStep o n n
  | marked {oc n} : NoteStep (.markNotification n.org n.id oc) n (markRow oc n)
  | acked {at_ n} : NoteStep (.markAcked n.org n.id at_) n { n with ackedAt := some at_ }
  | cleared {n} : NoteStep (.clearReceipt n.org n.id) n { n with providerReceipt := none }
  | unlinked {cid n} : n.channelId = some cid →
      NoteStep (.deleteChannel n.org cid) n { n with channelId := none }

variable {o : StoreOp} {n n' : NotificationRow}

theorem NoteStep.keeps (h : NoteStep o n n') :
    n'.id = n.id ∧ n'.org = n.org ∧ n'.incidentId = n.incidentId ∧ n'.reason = n.reason ∧
      n'.transport = n.transport ∧ n'.createdAt = n.createdAt := by
  cases h <;> exact ⟨rfl, rfl, rfl, rfl, rfl, rfl⟩

theorem NoteStep.status (h : NoteStep o n n') :
    n'.status = n.status ∨ ∃ oc, o = .markNotification n.org n.id oc ∧ n'.status = oc.status := by
  cases h with
  | marked => exact .inr ⟨_, rfl, rfl⟩
  | _ => exact .inl rfl

theorem NoteStep.sentAt (h : NoteStep o n n') :
    n'.sentAt = n.sentAt ∨ ∃ oc, o = .markNotification n.org n.id oc ∧ n'.sentAt = oc.sentAt := by
  cases h with
  | marked => exact .inr ⟨_, rfl, rfl⟩
  | _ => exact .inl rfl

/-- `rows` are the log's rows rewritten one by one, each as `o` may. -/
def Reworks (o : StoreOp) (db : Db) (rows : List NotificationRow) : Prop :=
  ∃ f : NotificationRow → NotificationRow, rows = db.notifications.map f ∧
    ∀ n, NoteStep o n (f n)

theorem reworks_refl {rows : List NotificationRow} (h : rows = db.notifications) :
    Reworks o db rows :=
  ⟨id, by simp [h], fun _ => .same⟩

theorem reworks_update {f : NotificationRow → NotificationRow}
    (h : ∀ n, n.org = org → n.id = id → NoteStep o n (f n)) :
    Reworks o db (db.updateNotification org id f).notifications := by
  refine ⟨fun n => if n.id == id && n.org == org then f n else n, rfl, fun n => ?_⟩
  by_cases hn : n.id = id ∧ n.org = org
  · simpa [hn] using h n hn.2 hn.1
  · simpa [hn] using .same

/-- Operations that write the paging log or the settings. -/
def writesLog : StoreOp → Bool
  | .recordNotification _ | .markNotification .. | .markAcked .. | .clearReceipt ..
  | .deleteChannel .. | .configure _ | .recordDeliveryOutcome .. => true
  | _ => false

/-- `db'` has the log and the settings of `db`, and no id of `db` is free in it. -/
def Aside (db db' : Db) : Prop :=
  db'.notifications = db.notifications ∧ db'.settings = db.settings ∧ db.nextId ≤ db'.nextId

theorem aside_refl : Aside db db := ⟨rfl, rfl, le_refl _⟩

theorem aside_transition (began : Time) (org : OrgId) (id : Uuid) (t : Transition) :
    Aside db (db.transition began org id t).2 := by
  rcases transition_cases db began org id t with ⟨h, -⟩ | ⟨cur, next, -, -, -, h⟩
  · rw [h]
    exact aside_refl
  · rw [h]
    exact ⟨rfl, rfl, Nat.le_succ _⟩

theorem aside_triggered (org : OrgId) (id : Uuid) (f : IncidentRow → IncidentRow) :
    Aside db (db.updateTriggered org id f).2 := by
  rw [updateTriggered_eq]
  exact ⟨rfl, rfl, le_refl _⟩

theorem exec_aside (h : writesLog o = false) : Aside db (db.exec lower now o).2 := by
  cases o with
  | recordNotification n => cases h
  | markNotification org id oc => cases h
  | markAcked org id at_ => cases h
  | clearReceipt org id => cases h
  | deleteChannel org id => cases h
  | configure s => cases h
  | recordDeliveryOutcome org id delivered => cases h
  | declare began org new actor =>
    simp only [exec, declare]
    split
    · exact aside_refl
    · exact ⟨rfl, rfl, Nat.le_add_right _ 2⟩
  | acknowledge began org id actor note g => exact aside_transition ..
  | resolve began org id actor note => exact aside_transition ..
  | autoResolve began org id => exact aside_transition ..
  | reopen began org id actor note => exact aside_transition ..
  | publish began org id title description actor =>
    simp only [exec, publish]
    split
    · exact aside_refl
    · split <;> exact ⟨rfl, rfl, Nat.le_succ _⟩
  | unpublish began org id actor =>
    simp only [exec, unpublish]
    split
    · exact aside_refl
    · exact ⟨rfl, rfl, Nat.le_succ _⟩
  | appendEvent org id kind actor message =>
    simp only [exec, appendEvent]
    split
    · exact aside_refl
    · exact ⟨rfl, rfl, Nat.le_succ _⟩
  | insertOpen org new =>
    simp only [exec, insertOpen]
    split
    · exact aside_refl
    · split
      · exact aside_refl
      · exact ⟨rfl, rfl, Nat.le_succ _⟩
  | close org id endedAt =>
    simp only [exec, close]
    split
    · exact aside_refl
    · split
      · exact aside_refl
      · dsimp only
        split <;> exact aside_refl
  | beginEscalation org id policyId level nextAt => exact aside_triggered ..
  | recordEscalation org id level round nextAt => exact aside_triggered ..
  | bumpRenotifyCount org id => exact aside_triggered ..
  | _ => exact aside_refl

theorem exec_notifications (lower : String → String) (now : Time) (o : StoreOp) (db : Db) :
    (∃ n, o = .recordNotification n ∧
        (db.exec lower now o).2.notifications = db.notifications ++ [db.recordedRow now n]) ∨
      Reworks o db (db.exec lower now o).2.notifications := by
  cases ho : writesLog o with
  | false => exact .inr (reworks_refl (exec_aside ho).1)
  | true =>
    cases o with
    | recordNotification n => exact .inl ⟨n, rfl, rfl⟩
    | markNotification org id oc =>
      exact .inr (reworks_update fun n horg hid => by subst horg hid; exact .marked)
    | markAcked org id at_ =>
      exact .inr (reworks_update fun n horg hid => by subst horg hid; exact .acked)
    | clearReceipt org id =>
      exact .inr (reworks_update fun n horg hid => by subst horg hid; exact .cleared)
    | deleteChannel org id =>
      refine .inr ⟨_, rfl, fun n => ?_⟩
      split
      · next hn =>
        simp only [Bool.and_eq_true, beq_iff_eq] at hn
        obtain ⟨rfl, hc⟩ := hn
        exact .unlinked hc
      · exact .same
    | configure s => exact .inr (reworks_refl rfl)
    | recordDeliveryOutcome org id delivered => exact .inr (reworks_refl rfl)
    | _ => cases ho

theorem sentAt_mark (lower : String → String) (now : Time) {oc : NotificationOutcome}
    (h : n ∈ (db.exec lower now (.markNotification org id oc)).2.notifications)
    (horg : n.org = org) (hid : n.id = id) : n.sentAt = oc.sentAt := by
  obtain ⟨m, -, rfl⟩ := List.mem_map.mp h
  by_cases hm : m.id = id ∧ m.org = org
  · simp [hm, markRow]
  · have hno : (m.id == id && m.org == org) = false := by simpa using hm
    simp only [hno, Bool.false_eq_true, if_false] at horg hid
    exact absurd ⟨hid, horg⟩ hm

theorem exec_targets (lower : String → String) (now : Time) (o : StoreOp) (db : Db) :
    (∃ s, o = .configure s ∧ (db.exec lower now o).2.settings = s) ∨
      (db.exec lower now o).2.settings.targets = db.settings.targets := by
  cases ho : writesLog o with
  | false => exact .inr (by rw [(exec_aside ho).2.1])
  | true =>
    cases o with
    | configure s => exact .inl ⟨s, rfl, rfl⟩
    | recordNotification n => exact .inr rfl
    | markNotification org id oc => exact .inr rfl
    | markAcked org id at_ => exact .inr rfl
    | clearReceipt org id => exact .inr rfl
    | deleteChannel org id => exact .inr rfl
    | recordDeliveryOutcome org id delivered => exact .inr rfl
    | _ => cases ho

theorem exec_nextId (lower : String → String) (now : Time) (o : StoreOp) (db : Db) :
    db.nextId ≤ (db.exec lower now o).2.nextId := by
  cases ho : writesLog o with
  | false => exact (exec_aside ho).2.2
  | true =>
    cases o with
    | recordNotification n => exact Nat.le_succ _
    | markNotification org id oc => exact le_refl _
    | markAcked org id at_ => exact le_refl _
    | clearReceipt org id => exact le_refl _
    | deleteChannel org id => exact le_refl _
    | configure s => exact le_refl _
    | recordDeliveryOutcome org id delivered => exact le_refl _
    | _ => cases ho

/-! ## Primary keys -/

/-- Ids are handed out once: `incidents` and the paging log have distinct ids, all of them
already handed out. -/
structure Keyed (db : Db) : Prop where
  incidents : (db.incidents.map (·.id)).Nodup
  incidents_lt : ∀ i ∈ db.incidents, i.id < db.nextId
  notifications : (db.notifications.map (·.id)).Nodup
  notifications_lt : ∀ n ∈ db.notifications, n.id < db.nextId

theorem keyed_empty : Keyed Db.empty :=
  ⟨List.nodup_nil, fun _ h => absurd h List.not_mem_nil, List.nodup_nil,
    fun _ h => absurd h List.not_mem_nil⟩

theorem RowNew.id_eq {r : IncidentRow} (h : RowNew now db o r) : r.id = db.nextId := by
  cases h <;> rfl

theorem nodup_append_next {α : Type} {key : α → Uuid} {rows : List α} {next : Uuid} {r : α}
    (h : (rows.map key).Nodup) (hlt : ∀ x ∈ rows, key x < next) (hr : key r = next) :
    ((rows ++ [r]).map key).Nodup := by
  rw [List.map_append, List.nodup_append]
  refine ⟨h, List.nodup_singleton _, fun a ha b hb => ?_⟩
  obtain ⟨x, hx, rfl⟩ := List.mem_map.mp ha
  have hb' : b = next := by simpa [hr] using hb
  rw [hb']
  exact Nat.ne_of_lt (hlt x hx)

theorem exec_keyed (h : Keyed db) : Keyed (db.exec lower now o).2 := by
  have hnext := exec_nextId lower now o db
  have hinc : ((db.exec lower now o).2.incidents.map (·.id)).Nodup ∧
      ∀ i ∈ (db.exec lower now o).2.incidents, i.id < (db.exec lower now o).2.nextId := by
    rcases exec_incidents lower now o db with ⟨r, hr, heq, hlt⟩ | ⟨f, heq, hkey, -, -⟩
    · rw [heq]
      refine ⟨nodup_append_next h.incidents h.incidents_lt hr.id_eq, fun i hi => ?_⟩
      rcases List.mem_append.mp hi with hi | hi
      · exact lt_of_lt_of_le (h.incidents_lt i hi) hnext
      · obtain rfl : i = r := by simpa using hi
        exact hr.id_eq ▸ hlt
    · rw [heq]
      refine ⟨?_, fun i hi => ?_⟩
      · rw [List.map_map]
        have : (fun i => (f i).id) = fun i : IncidentRow => i.id := funext fun i => (hkey i).2
        simpa [Function.comp_def, this] using h.incidents
      · obtain ⟨r, hr, rfl⟩ := List.mem_map.mp hi
        rw [(hkey r).2]
        exact lt_of_lt_of_le (h.incidents_lt r hr) hnext
  refine ⟨hinc.1, hinc.2, ?_, ?_⟩
  · rcases exec_notifications lower now o db with ⟨n, rfl, heq⟩ | ⟨f, heq, hstep⟩
    · rw [heq]
      exact nodup_append_next h.notifications h.notifications_lt rfl
    · rw [heq, List.map_map]
      have : (fun n => (f n).id) = fun n : NotificationRow => n.id :=
        funext fun n => (hstep n).keeps.1
      simpa [Function.comp_def, this] using h.notifications
  · intro n hn
    rcases exec_notifications lower now o db with ⟨m, rfl, heq⟩ | ⟨f, heq, hstep⟩
    · rw [heq] at hn
      rcases List.mem_append.mp hn with hn | hn
      · exact lt_of_lt_of_le (h.notifications_lt n hn) hnext
      · obtain rfl : n = db.recordedRow now m := by simpa using hn
        exact Nat.lt_succ_self _
    · rw [heq] at hn
      obtain ⟨m, hm, rfl⟩ := List.mem_map.mp hn
      rw [(hstep m).keeps.1]
      exact lt_of_lt_of_le (h.notifications_lt m hm) hnext

theorem Keyed.incident_eq (h : Keyed db) {i : IncidentRow} (hi : i ∈ db.incidents) :
    db.incident i.org i.id = some i := by
  cases hfind : db.incident i.org i.id with
  | none =>
    have := List.find?_eq_none.mp hfind i hi
    simp at this
  | some j =>
    have hj := incident_mem hfind
    have hid := (incident_org_id hfind).2
    rw [List.inj_on_of_nodup_map h.incidents hj hi hid]

end Db

end Uptimepage

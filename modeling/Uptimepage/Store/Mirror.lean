import Uptimepage.Store.Double
import Uptimepage.Store.OneOpen

/-!
# The double mirrors Postgres

`Mirrors` relates a state of the double to one of Postgres that holds one organisation: the
same rows in the same order, up to `updated_at`, and the same timeline and paging log.
`Db.Kept` is what the Postgres side keeps on its own, through every call.
-/

namespace Uptimepage

/-- The same incident, but for when it was last written. -/
def OpsIncident.Mirrors (i j : OpsIncident) : Prop := ∃ t, i = { j with updatedAt := t }

def LifecycleOutcome.Mirrors : LifecycleOutcome → LifecycleOutcome → Prop
  | .updated i, .updated j => i.Mirrors j
  | a, b => a = b

/-- A row of the double beside the organisation's row in Postgres. -/
structure RowMirrors (org : OrgId) (i : OpsIncident) (r : IncidentRow) : Prop where
  org : r.org = org
  same : i.Mirrors r.toOpsIncident

structure Mirrors (org : OrgId) (s : InMemoryIncidentOpsStore) (db : Db) : Prop where
  nextId : s.nextId = db.nextId
  incidents : List.Forall₂ (RowMirrors org) s.incidents db.incidents
  events : db.events = s.events.map fun e => ⟨e, org⟩
  notifications : db.notifications = s.notifications.map fun n => ⟨n.2, n.1⟩
  single : ∀ n ∈ s.notifications, n.1 = org

/-- What no call of the trait breaks in Postgres: distinct keys, columns that agree, the
unique indexes on open incidents, and rows in the order they started. -/
structure Db.Kept (db : Db) : Prop where
  keyed : db.Keyed
  lifecycle : ∀ i ∈ db.incidents, Lifecycle i.toOpsIncident
  oneOpen : ∀ origin, db.OneOpenOf origin
  ordered : db.incidents.Pairwise fun i j => i.startedAt ≤ j.startedAt

/-- Nothing is dated after `now`. -/
structure Db.Dated (now : Time) (db : Db) : Prop where
  events : ∀ e ∈ db.events, e.occurredAt ≤ now
  incidents : ∀ i ∈ db.incidents, i.startedAt ≤ now

namespace Db

variable {lower : String → String} {now : Time} {db : Db} {org : OrgId} {id : Uuid}

/-! ## What Postgres keeps -/

theorem exec_ordered {o : StoreOp} (hkeyed : Keyed db)
    (hnew : ∀ r, RowNew now db o r → ∀ i ∈ db.incidents, i.startedAt ≤ r.startedAt)
    (h : db.incidents.Pairwise fun i j => i.startedAt ≤ j.startedAt) :
    (db.exec lower now o).2.incidents.Pairwise fun i j => i.startedAt ≤ j.startedAt := by
  rcases exec_incidents lower now o db with ⟨r, hr, heq, -⟩ | ⟨f, heq, -, -, hstep⟩
  · rw [heq, List.pairwise_append]
    refine ⟨h, List.pairwise_singleton _ _, fun i hi j hj => ?_⟩
    obtain rfl := List.mem_singleton.mp hj
    exact hnew _ hr i hi
  · rw [heq, List.pairwise_map]
    refine h.imp_of_mem fun {i j} hi hj hij => ?_
    rw [(hstep _ _ i (hkeyed.incident_eq hi)).keeps.2.2.2,
      (hstep _ _ j (hkeyed.incident_eq hj)).keeps.2.2.2]
    exact hij

theorem Kept.exec (h : Kept db) (hdated : db.Dated now) (c : OpsCall) :
    Kept (db.exec lower now (c.op org now)).2 where
  keyed := exec_keyed h.keyed
  lifecycle := exec_lifecycle h.lifecycle
  oneOpen := fun origin => exec_oneOpenOf h.keyed (h.oneOpen origin)
  ordered := by
    refine exec_ordered h.keyed ?_ h.ordered
    intro r hr i hi
    cases c with
    | declare new actor =>
      cases hr
      exact hdated.incidents i hi
    | _ => cases hr

theorem Kept.openConflict (h : Kept db) {cur : IncidentRow} (hcur : db.incident org id = some cur)
    (hopen : cur.endedAt = none) : db.openConflict org id cur.targetId cur.origin = false := by
  obtain ⟨rfl, rfl⟩ := incident_org_id hcur
  unfold Db.openConflict
  split
  · rfl
  · next t ht =>
    rw [List.any_eq_false]
    intro j hj hbad
    simp only [Bool.and_eq_true, beq_iff_eq, bne_iff_ne, Option.isNone_iff_eq_none] at hbad
    obtain ⟨⟨⟨⟨horg, hid⟩, htarget⟩, hjopen⟩, horigin⟩ := hbad
    refine hid (h.oneOpen cur.origin j hj cur (incident_mem hcur) horigin rfl hjopen hopen horg
      ?_ ?_)
    · rw [htarget, ht]
    · simp [htarget]

theorem updateTriggered_rows (hkeyed : Keyed db) (org : OrgId) (id : Uuid)
    (f : IncidentRow → IncidentRow) :
    let q (r : IncidentRow) : Bool := r.org == org && r.id == id && r.state == .triggered
    (db.updateTriggered org id f).1 = db.incidents.any q ∧
      (db.updateTriggered org id f).2.incidents = Table.update q f db.incidents := by
  intro q
  have hmiss (h : ∀ r ∈ db.incidents, q r = false) :
      false = db.incidents.any q ∧ db.incidents = Table.update q f db.incidents := by
    have hnone : db.incidents.find? q = none := by
      rw [List.find?_eq_none]
      intro r hr
      rw [h r hr]
      exact Bool.false_ne_true
    exact ⟨(List.any_eq_false.mpr fun r hr => by simp [h r hr]).symm,
      (Table.update_of_find?_none hnone).symm⟩
  unfold updateTriggered
  cases hr : db.incident org id with
  | none =>
    refine hmiss fun r hmem => ?_
    have := List.find?_eq_none.mp hr r hmem
    simp only [q]
    rw [Bool.not_eq_true] at this
    rw [this, Bool.false_and]
  | some cur =>
    have hcur : ∀ r ∈ db.incidents, (r.org == org && r.id == id) = true → r = cur := by
      intro r hmem hq
      simp only [Bool.and_eq_true, beq_iff_eq] at hq
      have := hkeyed.incident_eq hmem
      rw [hq.1, hq.2, hr] at this
      exact (Option.some.inj this).symm
    dsimp only
    split
    · next ht =>
      obtain ⟨horg, hid⟩ := incident_org_id hr
      refine ⟨(List.any_eq_true.mpr ⟨cur, incident_mem hr, by simp [q, horg, hid, ht]⟩).symm, ?_⟩
      refine List.map_congr_left fun r hmem => ?_
      by_cases hk : (r.org == org && r.id == id) = true
      · rw [hcur r hmem hk]
        simp [q, horg, hid, ht]
      · rw [if_neg hk, if_neg]
        simp only [q, Bool.and_eq_true] at hk ⊢
        exact fun hq => hk hq.1
    · next ht =>
      refine hmiss fun r hmem => ?_
      by_contra hq
      rw [Bool.not_eq_false] at hq
      simp only [q, Bool.and_eq_true] at hq
      have := hcur r hmem (by simpa using hq.1)
      rw [this] at hq
      exact ht (by simpa using hq.2)

end Db

/-! ## Looking up and rewriting mirrored rows -/

namespace RowMirrors

variable {org : OrgId} {i : OpsIncident} {r : IncidentRow}

theorem id_eq (h : RowMirrors org i r) : i.id = r.id := by
  obtain ⟨t, rfl⟩ := h.same
  rfl

theorem state_eq (h : RowMirrors org i r) : i.state = r.state := by
  obtain ⟨t, rfl⟩ := h.same
  rfl

theorem targetId_eq (h : RowMirrors org i r) : i.targetId = r.targetId := by
  obtain ⟨t, rfl⟩ := h.same
  rfl

theorem due_eq (h : RowMirrors org i r) :
    { InMemoryIncidentOpsStore.due i with org := org } = r.due := by
  obtain ⟨rfl, t, rfl⟩ := h
  rfl

end RowMirrors

namespace MemStore

theorem rewriteFirst_id (p : OpsIncident → Bool) (l : List OpsIncident) :
    rewriteFirst p (fun i => i) l = l := by
  induction l with
  | nil => rfl
  | cons i l ih =>
    unfold rewriteFirst
    rw [ih, ite_self]

theorem rewriteFirst_eq_update {p : OpsIncident → Bool} {f : OpsIncident → OpsIncident}
    {l : List OpsIncident} (hone : l.Pairwise fun i j => p i = true → p j = false) :
    rewriteFirst p f l = Table.update p f l := by
  induction l with
  | nil => rfl
  | cons i l ih =>
    obtain ⟨hi, hl⟩ := List.pairwise_cons.mp hone
    have hmap : Table.update p f (i :: l) = (if p i then f i else i) :: Table.update p f l := rfl
    unfold rewriteFirst
    rw [hmap]
    split
    · next hp =>
      rw [Table.update_of_find?_none]
      rw [List.find?_eq_none]
      intro j hj
      rw [hi j hj hp]
      exact Bool.false_ne_true
    · rw [ih hl]

end MemStore

namespace Mirrors

variable {org : OrgId} {s : InMemoryIncidentOpsStore} {db : Db} {id : Uuid} {now : Time}

theorem empty (org : OrgId) (settings : Settings) :
    Mirrors org .empty { Db.empty with settings := settings } :=
  ⟨rfl, .nil, rfl, rfl, fun _ h => absurd h List.not_mem_nil⟩

theorem find (h : Mirrors org s db) (id : Uuid) :
    Option.Rel (RowMirrors org) (s.get id) (db.incident org id) := by
  refine Table.find?_rel h.incidents fun i r hir => ?_
  rw [hir.id_eq, hir.org]
  simp

theorem ids (h : Mirrors org s db) : s.incidents.map (·.id) = db.incidents.map (·.id) :=
  Table.map_rel h.incidents fun _ _ hir => hir.id_eq

theorem one (h : Mirrors org s db) (hkept : db.Kept) (p : OpsIncident → Bool)
    (hp : ∀ i, p i = true → i.id = id) :
    s.incidents.Pairwise fun i j => p i = true → p j = false := by
  have hnodup : s.incidents.Pairwise fun i j => i.id ≠ j.id := by
    rw [← List.pairwise_map (f := fun i : OpsIncident => i.id) (R := (· ≠ ·)), h.ids]
    exact hkept.keyed.incidents
  refine hnodup.imp fun {i j} hne hi => ?_
  by_contra hj
  rw [Bool.not_eq_false] at hj
  exact hne ((hp i hi).trans (hp j hj).symm)

variable {f : OpsIncident → OpsIncident} {g : IncidentRow → IncidentRow}

theorem rewrite (h : Mirrors org s db) (hkept : db.Kept) (id : Uuid) {p : OpsIncident → Bool}
    {q : IncidentRow → Bool} (hp : ∀ i, p i = true → i.id = id)
    (hpq : ∀ i r, RowMirrors org i r → p i = q r)
    (hfg : ∀ i r, RowMirrors org i r → r ∈ db.incidents → q r = true →
      RowMirrors org (f i) (g r)) :
    List.Forall₂ (RowMirrors org) (MemStore.rewriteFirst p f s.incidents)
      (Table.update q g db.incidents) := by
  rw [MemStore.rewriteFirst_eq_update (h.one hkept p hp)]
  exact Table.update_rel h.incidents (fun i r hir _ _ => hpq i r hir)
    fun i r hir _ hr hq => hfg i r hir hr hq

theorem reopenCount (h : Mirrors org s db) (hdated : db.Dated now) (id : Uuid) :
    s.reopenCount now id = db.reopenCount org id := by
  have hpast := hdated.events
  unfold MemStore.reopenCount Db.reopenCount
  rw [h.events] at hpast ⊢
  rw [List.countP_map]
  refine List.countP_congr fun e he => ?_
  have hle : e.occurredAt ≤ now := hpast ⟨e, org⟩ (List.mem_map_of_mem he)
  simp [hle]

/-! ## The calls -/

theorem log (h : Mirrors org s db) (now : Time) {id id' : Uuid} (hid : id = id')
    (kind : IncidentEventKind) (actor : Actor) (note : Option String) :
    Mirrors org (s.onRows ((), s.toMemStore.pushEvent now id kind actor note)).2
      (db.insertEvent now org id' kind actor note) where
  nextId := congrArg (· + 1) h.nextId
  incidents := h.incidents
  events := by
    show db.events ++ _ = List.map _ (s.events ++ _)
    rw [List.map_append, h.events, h.nextId, hid]
    rfl
  notifications := h.notifications
  single := h.single

theorem rows (h : Mirrors org s db) {l : List OpsIncident} {l' : List IncidentRow}
    (hrows : List.Forall₂ (RowMirrors org) l l') :
    Mirrors org { s with incidents := l } { db with incidents := l' } :=
  ⟨h.nextId, hrows, h.events, h.notifications, h.single⟩

theorem transition (h : Mirrors org s db) (hkept : db.Kept) (hdated : db.Dated now)
    {t : Db.Transition} {mutate : OpsIncident → OpsIncident}
    (hwrite : ∀ i r, RowMirrors org i r →
      RowMirrors org { mutate i with updatedAt := now } (t.update now r))
    (hclear : ∀ cur next, db.incident org id = some cur →
      nextState cur.state t.transition = .ok next → cur.state ≠ next →
      (t.update now cur).endedAt = none → db.openConflict org id cur.targetId cur.origin = false) :
    let a := s.apply now id t.transition t.eventKind t.actor t.note t.expectGeneration mutate
    let b := db.transition now org id t
    ∃ o, b.1 = .ok o ∧ a.1.Mirrors o ∧ Mirrors org (s.onRows a).2 b.2 := by
  have hfind := h.find id
  unfold MemStore.apply Db.transition
  cases hr : db.incident org id with
  | none =>
    rw [hr] at hfind
    cases hi : s.get id with
    | some i => rw [hi] at hfind; cases hfind
    | none => exact ⟨_, rfl, rfl, h⟩
  | some cur =>
    rw [hr] at hfind
    cases hi : s.get id with
    | none => rw [hi] at hfind; cases hfind
    | some i =>
      rw [hi] at hfind
      have hir : RowMirrors org i cur := by cases hfind; assumption
      dsimp only
      rw [h.reopenCount hdated id]
      split
      · exact ⟨_, rfl, rfl, h⟩
      · rw [hir.state_eq]
        cases hnext : nextState cur.state t.transition with
        | error err => exact ⟨_, rfl, rfl, h⟩
        | ok next =>
          dsimp only
          rw [if_neg]
          · have hrow : RowMirrors org
                (if cur.state = next then i else { mutate i with updatedAt := now })
                (t.row now cur next) := by
              unfold Db.Transition.row
              split
              · exact hir
              · exact hwrite i cur hir
            refine ⟨_, rfl, hrow.same, ?_⟩
            have hrows := h.rewrite hkept id (p := fun j => j.id == id)
              (q := fun r => r.org == org && r.id == id)
              (f := fun j => if j.state = next then j else { mutate j with updatedAt := now })
              (g := fun _ => t.row now cur next) (by simp)
              (fun j r hjr => by rw [hjr.id_eq, hjr.org]; simp) fun j r hjr hmem hq => ?_
            · have hlog := (h.rows hrows).log now (Eq.refl id) t.eventKind t.actor t.note
              exact ⟨hlog.nextId, hlog.incidents, hlog.events, hlog.notifications, hlog.single⟩
            · -- the row named is the one found
              obtain rfl : r = cur := by
                simp only [Bool.and_eq_true, beq_iff_eq] at hq
                have := hkept.keyed.incident_eq hmem
                rw [hq.1, hq.2, hr] at this
                exact (Option.some.inj this).symm
              unfold Db.Transition.row
              rw [hjr.state_eq]
              split
              · exact hjr
              · exact hwrite j r hjr
          · rintro ⟨hne, hopen, hconflict⟩
            rw [Db.Transition.row, if_neg hne, Option.isNone_iff_eq_none] at hopen
            rw [hclear cur next hr hnext hne hopen] at hconflict
            cases hconflict

theorem declare (h : Mirrors org s db) {new : NewManualIncident} {actor : Actor}
    (hclear : db.openConflict org db.nextId new.targetId .manual = false) :
    (db.declare now org new actor).1 = .ok (s.declare now new actor).1 ∧
      Mirrors org (s.onRows (s.declare now new actor)).2 (db.declare now org new actor).2 := by
  have hinc : (s.declare now new actor).1 = (db.declaredRow now org new).toOpsIncident := by
    unfold MemStore.declare Db.declaredRow
    rw [h.nextId]
  have hrow : RowMirrors org (s.declare now new actor).1 (db.declaredRow now org new) :=
    ⟨rfl, now, hinc⟩
  unfold Db.declare
  rw [hclear, if_neg Bool.false_ne_true]
  refine ⟨congrArg Except.ok hinc.symm, ?_⟩
  have hnext := h.nextId
  have hadded : Mirrors org
      { s with nextId := s.nextId + 1, incidents := s.incidents ++ [(s.declare now new actor).1] }
      { db with
        nextId := db.nextId + 1
        incidents := db.incidents ++ [db.declaredRow now org new] } :=
    ⟨by rw [hnext], List.rel_append h.incidents (.cons hrow .nil), h.events, h.notifications,
      h.single⟩
  exact hadded.log now hnext .triggered actor none

theorem recordNotification (h : Mirrors org s db) (now : Time) {n : NewIncidentNotification}
    (hn : n.org = org) :
    (db.recordNotification now n).1 = (s.recordNotification now n).1 ∧
      Mirrors org (s.recordNotification now n).2 (db.recordNotification now n).2 := by
  refine ⟨h.nextId.symm, congrArg (· + 1) h.nextId, h.incidents, h.events, ?_, ?_⟩
  · show db.notifications ++ _ = List.map _ (s.notifications ++ _)
    rw [List.map_append, h.notifications]
    unfold Db.recordedRow
    rw [← h.nextId]
    rfl
  · intro x hx
    rcases List.mem_append.mp hx with hx | hx
    · exact h.single x hx
    · rw [List.mem_singleton.mp hx]
      exact hn

theorem updateTriggered (h : Mirrors org s db) (hkept : db.Kept) (id : Uuid)
    (hfg : ∀ i r, RowMirrors org i r → RowMirrors org (f i) (g r)) :
    (db.updateTriggered org id g).1 = s.incidents.any (MemStore.triggeredWithId id) ∧
      Mirrors org
        { s with incidents := MemStore.rewriteFirst (MemStore.triggeredWithId id) f s.incidents }
        (db.updateTriggered org id g).2 := by
  obtain ⟨hans, hrows⟩ := Db.updateTriggered_rows hkept.keyed org id g
  have hpq (i : OpsIncident) (r : IncidentRow) (hir : RowMirrors org i r) :
      MemStore.triggeredWithId id i =
        (r.org == org && r.id == id && r.state == .triggered) := by
    unfold MemStore.triggeredWithId
    rw [hir.id_eq, hir.state_eq, hir.org]
    simp
  refine ⟨hans.trans (Table.any_rel h.incidents hpq).symm, ?_⟩
  have hmirrors := h.rows (h.rewrite hkept id (fun i hi => ?_) hpq fun i r hir _ _ => hfg i r hir)
  · rw [Db.updateTriggered_eq, hrows]
    exact hmirrors
  · unfold MemStore.triggeredWithId at hi
    simp only [Bool.and_eq_true, beq_iff_eq] at hi
    exact hi.1

theorem bumpRenotifyCount (h : Mirrors org s db) (hkept : db.Kept) (now : Time) (id : Uuid) :
    Mirrors org (s.bumpRenotifyCount id) (db.bumpRenotifyCount now org id) := by
  have hrows := (h.updateTriggered hkept id (f := fun i => i) (g := Db.bumpRow now)
    fun i r hir => by
      obtain ⟨horg, t, rfl⟩ := hir
      exact ⟨horg, t, rfl⟩).2
  rw [MemStore.rewriteFirst_id] at hrows
  exact ⟨hrows.nextId, hrows.incidents, hrows.events, hrows.notifications, hrows.single⟩

end Mirrors

end Uptimepage

import Uptimepage.Store.OneOpen
import Uptimepage.Writer.Tick

/-!
# One open incident, one signal

What a writer relies on of its store (`LawfulStore`), and that the Postgres store and the
in-memory one keep to it.
-/

namespace Uptimepage

open Async

namespace Writer

section

variable {σ ο : Type} {is : IncidentStore σ ο} {Inv : σ → Prop} {lookback : Int}

/-- The contract of a store, on states that keep its invariant. -/
structure LawfulStore (is : IncidentStore σ ο) (Inv : σ → Prop) : Prop where
  oneOpen : ∀ {st}, Inv st → ∀ org targetId, (is.openFor st org targetId).length ≤ 1
  nodup : ∀ {st}, Inv st → (is.incidents st).Nodup
  inserted : ∀ {st st' now org new id}, Inv st →
    is.insertOpen now org new st = (.ok (some id), st') →
    Inv st' ∧ is.incidents st' = is.incidents st ++ [id] ∧ is.isOpen st id = false ∧
      ∀ k, is.isOpen st' k = (is.isOpen st k || k == id)
  notInserted : ∀ {st st' now org new r}, is.insertOpen now org new st = (r, st') →
    (∀ id, r ≠ .ok (some id)) → st' = st
  closed : ∀ {st st' now org id endedAt}, Inv st →
    is.close now org id endedAt st = (true, st') →
    Inv st' ∧ is.incidents st' = is.incidents st ∧ is.isOpen st id = true ∧
      ∀ k, is.isOpen st' k = (is.isOpen st k && k != id)
  notClosed : ∀ {st st' now org id endedAt}, is.close now org id endedAt st = (false, st') → st' = st
  operated : ∀ {st} now o, Inv st →
    Inv (is.operate now o st) ∧ is.incidents (is.operate now o st) = is.incidents st

/-- How often others opened the incident again, and how often they ended it. -/
def openedElsewhere (is : IncidentStore σ ο) (s : Writer σ) (id : Uuid) : Nat :=
  s.moves.countP fun m => !is.isOpen m.1 id && is.isOpen m.2 id

def endedElsewhere (is : IncidentStore σ ο) (s : Writer σ) (id : Uuid) : Nat :=
  s.moves.countP fun m => is.isOpen m.1 id && !is.isOpen m.2 id

/-- What is promised of the writers' signals.  Every insert and every reopen of an incident
is followed by one end, the writers' or somebody else's, or the incident is open. -/
structure OneSignal (is : IncidentStore σ ο) (s : Writer σ) : Prop where
  oneOpen : ∀ org targetId, (is.openFor s.store org targetId).length ≤ 1
  opened : ∀ id, s.emittedCount id .opened + s.heldCount id .opened =
    if id ∈ is.incidents s.store then 1 else 0
  resolved : ∀ id, s.emittedCount id .resolved + s.heldCount id .resolved = s.closed.count id
  ended : ∀ id ∈ is.incidents s.store,
    s.closed.count id + s.endedElsewhere is id + (is.isOpen s.store id).toNat =
      1 + s.openedElsewhere is id

/-- The history agrees with the store. -/
structure Recorded (is : IncidentStore σ ο) (Inv : σ → Prop) (s : Writer σ) : Prop where
  inv : Inv s.store
  inserted : s.inserted = is.incidents s.store
  balance : ∀ id, s.inserted.count id + s.openedElsewhere is id =
    s.closed.count id + s.endedElsewhere is id + (is.isOpen s.store id).toNat

theorem recorded_start {st : σ} (hinv : Inv st) (hempty : is.incidents st = [])
    (hclosed : ∀ id, is.isOpen st id = false) : Recorded is Inv (start st) := by
  refine ⟨hinv, hempty.symm, fun id => ?_⟩
  simp [start, openedElsewhere, endedElsewhere, hclosed]

theorem recorded_step {s s' : Writer σ} {e : WriterEvent ο} (hlaw : LawfulStore is Inv)
    (h : Recorded is Inv s) (hstep : s.step is lookback e = some s') : Recorded is Inv s' := by
  cases step_move hstep with
  | read org target tagged now => exact ⟨h.inv, h.inserted, h.balance⟩
  | @quiet _ i t todo st hi _ _ hst =>
    have hsame : st = s.store := by
      rcases hst with heq | ⟨now, new, r, hins, hno⟩ | ⟨now, id, endedAt, hclose⟩
      · exact heq
      · exact hlaw.notInserted hins hno
      · exact hlaw.notClosed hclose
    subst hsame
    exact ⟨h.inv, h.inserted, h.balance⟩
  | @inserted i t new rest now id st _ _ _ hins =>
    obtain ⟨hinv, hids, hfresh, hopen⟩ := hlaw.inserted h.inv hins
    refine ⟨hinv, ?_, fun k => ?_⟩
    · show s.inserted ++ [id] = is.incidents st
      rw [hids, h.inserted]
    · have hbefore := h.balance k
      show (s.inserted ++ [id]).count k + s.openedElsewhere is k =
        s.closed.count k + s.endedElsewhere is k + (is.isOpen st k).toNat
      rw [hopen, List.count_append, List.count_singleton]
      by_cases hk : k = id
      · subst hk
        simp only [hfresh, Bool.toNat_false, beq_self_eq_true, Bool.or_true, Bool.toNat_true,
          if_true] at hbefore ⊢
        omega
      · have hne : (id == k) = false := by simpa using fun heq : id = k => hk heq.symm
        have hne' : (k == id) = false := by simpa using hk
        rw [hne, hne', Bool.or_false, if_neg Bool.false_ne_true]
        omega
  | @closed i t id endedAt rest now st _ _ _ hclose =>
    obtain ⟨hinv, hids, hwas, hopen⟩ := hlaw.closed h.inv hclose
    refine ⟨hinv, ?_, fun k => ?_⟩
    · show s.inserted = is.incidents st
      rw [hids, h.inserted]
    · have hbefore := h.balance k
      show s.inserted.count k + s.openedElsewhere is k =
        (s.closed ++ [id]).count k + s.endedElsewhere is k + (is.isOpen st k).toNat
      rw [hopen, List.count_append, List.count_singleton]
      by_cases hk : k = id
      · subst hk
        simp only [hwas, Bool.toNat_true, bne_self_eq_false, Bool.and_false, Bool.toNat_false,
          beq_self_eq_true, if_true] at hbefore ⊢
        omega
      · have hne : (id == k) = false := by simpa using fun heq : id = k => hk heq.symm
        have hne' : (k != id) = true := by simpa using hk
        rw [hne, hne', Bool.and_true, if_neg Bool.false_ne_true]
        omega
  | signalled _ _ => exact ⟨h.inv, h.inserted, h.balance⟩
  | operated now o =>
    obtain ⟨hinv, hids⟩ := hlaw.operated now o h.inv
    refine ⟨hinv, h.inserted.trans hids.symm, fun k => ?_⟩
    have hbefore := h.balance k
    simp only [openedElsewhere, endedElsewhere, List.countP_append, List.countP_singleton]
      at hbefore ⊢
    cases hb : is.isOpen s.store k <;> cases ha : is.isOpen (is.operate now o s.store) k <;>
      simp_all <;> omega

theorem oneSignal_of_lawful {s : Writer σ} {st : σ} {ok : Writer σ → WriterEvent ο → Prop}
    (hlaw : LawfulStore is Inv) (hinv : Inv st) (hempty : is.incidents st = [])
    (hclosed : ∀ id, is.isOpen st id = false)
    (hrun : Run (step is lookback) ok (start st) s) : OneSignal is s := by
  have hrec : Recorded is Inv s := hrun.invariant (recorded_start hinv hempty hclosed)
    fun _ _ _ hu _ hstep => recorded_step hlaw hu hstep
  have hacc : s.Accounted :=
    hrun.invariant (accounted_start st) fun _ _ _ hu _ hstep => accounted_step hu hstep
  refine ⟨hlaw.oneOpen hrec.inv, fun id => ?_, hacc.resolved, fun id hid => ?_⟩
  · rw [hacc.opened id, hrec.inserted, (hlaw.nodup hrec.inv).count]
  · have hbalance := hrec.balance id
    rw [hrec.inserted, (hlaw.nodup hrec.inv).count, if_pos hid] at hbalance
    omega

end

/-! ## Postgres -/

def byOthers : StoreOp → Bool
  | .insertOpen _ _ | .close _ _ _ => false
  | _ => true

def pgStore (lower : String → String) : IncidentStore Db { o : StoreOp // byOthers o = true } where
  openFor := Db.openForPairs
  insertOpen now org new db := db.insertOpen now org new
  close now org id endedAt db := db.close now org id endedAt
  operate now o db := (db.exec lower now o.1).2
  incidents db := (db.incidents.filter fun i => i.origin == .monitor).map (·.id)
  isOpen db id := db.incidents.any fun i => i.id == id && i.endedAt.isNone

section

variable {lower : String → String} {now : Time} {db db' : Db} {org : OrgId} {id : Uuid}

/-- The primary keys and the unique index. -/
def PgInv (db : Db) : Prop := db.Keyed ∧ db.OneOpen

theorem pgInv_empty : PgInv Db.empty := by
  refine ⟨Db.keyed_empty, fun i hi => ?_⟩
  cases hi

theorem pgInv_exec (h : PgInv db) (o : StoreOp) : PgInv (db.exec lower now o).2 :=
  ⟨Db.exec_keyed h.1, Db.exec_oneOpen h.1 h.2⟩

theorem pg_openFor_length (h : PgInv db) (targetId : Uuid) :
    (db.openForPairs org targetId).length ≤ 1 := by
  obtain ⟨hkeyed, hone⟩ := h
  have hnodup : ((db.openForPairs org targetId).map (·.id)).Nodup := by
    unfold Db.openForPairs
    rw [List.map_map]
    exact hkeyed.incidents.sublist (List.filter_sublist.map _)
  have hmem : ∀ x ∈ db.openForPairs org targetId, ∃ i ∈ db.incidents, i.id = x.id ∧
      i.org = org ∧ i.targetId = some targetId ∧ i.endedAt = none ∧ i.origin = .monitor := by
    intro x hx
    obtain ⟨i, hi, rfl⟩ := List.mem_map.mp hx
    obtain ⟨hi, hp⟩ := List.mem_filter.mp hi
    simp only [Bool.and_eq_true, beq_iff_eq, Option.isNone_iff_eq_none] at hp
    exact ⟨i, hi, rfl, hp.1.1.1, hp.1.1.2, hp.1.2, hp.2⟩
  have hsame : ∀ x ∈ db.openForPairs org targetId, ∀ y ∈ db.openForPairs org targetId,
      x.id = y.id := by
    intro x hx y hy
    obtain ⟨i, hi, hix, hiorg, hit, hie, hio⟩ := hmem x hx
    obtain ⟨j, hj, hjy, hjorg, hjt, hje, hjo⟩ := hmem y hy
    rw [← hix, ← hjy]
    exact hone i hi j hj hio hjo hie hje (hiorg.trans hjorg.symm) (hit.trans hjt.symm)
      (by rw [hit]; exact Option.some_ne_none _)
  match hlist : db.openForPairs org targetId with
  | [] => exact Nat.zero_le _
  | [_] => exact le_refl _
  | x :: y :: rest =>
    rw [hlist] at hnodup hsame
    have heq := hsame x List.mem_cons_self y (List.mem_cons_of_mem _ List.mem_cons_self)
    simp [heq] at hnodup

variable {new : NewOpenIncident} {endedAt : Time}

theorem pg_inserted (h : PgInv db) (hins : db.insertOpen now org new = (.ok (some id), db')) :
    PgInv db' ∧ (pgStore lower).incidents db' = (pgStore lower).incidents db ++ [id] ∧
      (pgStore lower).isOpen db id = false ∧
      ∀ k, (pgStore lower).isOpen db' k = ((pgStore lower).isOpen db k || k == id) := by
  have hexec : (db.exec lower now (.insertOpen org new)).2 = db' := congrArg Prod.snd hins
  have hinv : PgInv db' := by
    rw [← hexec]
    exact pgInv_exec h _
  rcases Db.insertOpen_cases db now org new with ⟨-, hno⟩ | ⟨-, heq⟩
  · exact absurd (congrArg Prod.fst hins) (hno id)
  · rw [heq] at hins
    obtain ⟨hid, rfl⟩ := Prod.mk.inj hins
    obtain rfl : db.nextId = id := Option.some.inj (Except.ok.inj hid)
    refine ⟨hinv, ?_, ?_, fun k => ?_⟩
    · simp [pgStore, Db.openedRow]
    · refine List.any_eq_false.mpr fun i hi => ?_
      have hlt := h.1.incidents_lt i hi
      simp [Nat.ne_of_lt hlt]
    · simp only [pgStore, List.any_append, List.any_cons, List.any_nil, Bool.or_false]
      rw [show (db.openedRow now org new).id = db.nextId from rfl,
        show (db.openedRow now org new).endedAt = none from rfl]
      rw [Option.isNone_none, Bool.and_true, Bool.beq_comm]

theorem pg_notInserted {r : Except StoreError (Option Uuid)}
    (hins : db.insertOpen now org new = (r, db')) (hno : ∀ id, r ≠ .ok (some id)) : db' = db := by
  rcases Db.insertOpen_cases db now org new with ⟨hsame, -⟩ | ⟨-, heq⟩
  · rw [hins] at hsame
    exact hsame
  · rw [heq] at hins
    obtain ⟨rfl, -⟩ := Prod.mk.inj hins
    exact absurd rfl (hno _)

theorem pg_close_rows (h : PgInv db) (hclose : db.close now org id endedAt = (true, db')) :
    (∃ cur ∈ db.incidents, cur.id = id ∧ cur.endedAt = none) ∧
      db'.incidents =
        db.incidents.map fun i => if i.id = id then Db.closedRow endedAt now i else i := by
  unfold Db.close at hclose
  split at hclose
  · cases hclose
  · next cur hcur =>
    split at hclose
    · cases hclose
    · next hopen =>
      have hmem := Db.incident_mem hcur
      obtain ⟨horg, hid⟩ := Db.incident_org_id hcur
      refine ⟨⟨cur, hmem, hid, by simpa using hopen⟩, ?_⟩
      have hupdate : db'.incidents = Table.update (fun i => i.org == org && i.id == id)
          (fun _ => Db.closedRow endedAt now cur) db.incidents := by
        obtain ⟨-, rfl⟩ := Prod.mk.inj hclose
        split
        · rfl
        · rfl
      rw [hupdate]
      refine List.map_congr_left fun i hi => ?_
      by_cases heq : i.id = id
      · obtain rfl : i = cur :=
          List.inj_on_of_nodup_map h.1.incidents hi hmem (heq.trans hid.symm)
        simp [horg, hid]
      · simp [heq]

theorem pg_closed (h : PgInv db) (hclose : db.close now org id endedAt = (true, db')) :
    PgInv db' ∧ (pgStore lower).incidents db' = (pgStore lower).incidents db ∧
      (pgStore lower).isOpen db id = true ∧
      ∀ k, (pgStore lower).isOpen db' k = ((pgStore lower).isOpen db k && k != id) := by
  have hexec : (db.exec lower now (.close org id endedAt)).2 = db' := congrArg Prod.snd hclose
  have hinv : PgInv db' := by
    rw [← hexec]
    exact pgInv_exec h _
  obtain ⟨⟨cur, hmem, hid, hopen⟩, hrows⟩ := pg_close_rows h hclose
  refine ⟨hinv, ?_, ?_, fun k => ?_⟩
  · simp only [pgStore]
    rw [hrows, List.filter_map, List.map_map]
    have hkeeps : ∀ i : IncidentRow,
        (if i.id = id then Db.closedRow endedAt now i else i).origin = i.origin ∧
          (if i.id = id then Db.closedRow endedAt now i else i).id = i.id := by
      intro i
      split
      · exact ⟨rfl, rfl⟩
      · exact ⟨rfl, rfl⟩
    simp only [Function.comp_def, (hkeeps _).1, (hkeeps _).2]
  · exact List.any_eq_true.mpr ⟨cur, hmem, by simpa [hid] using hopen⟩
  · rw [Bool.eq_iff_iff]
    simp only [pgStore, hrows, List.any_eq_true, Bool.and_eq_true, beq_iff_eq, bne_iff_ne]
    constructor
    · rintro ⟨i', hi', rfl, hnone⟩
      obtain ⟨i, hi, rfl⟩ := List.mem_map.mp hi'
      split at hnone
      · cases hnone
      · next hne =>
        rw [if_neg hne]
        exact ⟨⟨i, hi, rfl, hnone⟩, hne⟩
    · rintro ⟨⟨i, hi, rfl, hnone⟩, hne⟩
      exact ⟨i, List.mem_map.mpr ⟨i, hi, if_neg hne⟩, rfl, hnone⟩

theorem pg_notClosed (hclose : db.close now org id endedAt = (false, db')) : db' = db := by
  unfold Db.close at hclose
  split at hclose
  · exact (Prod.mk.inj hclose).2.symm
  · split at hclose
    · exact (Prod.mk.inj hclose).2.symm
    · cases hclose

theorem pg_operated (o : { o : StoreOp // byOthers o = true }) (h : PgInv db) :
    PgInv ((pgStore lower).operate now o db) ∧
      (pgStore lower).incidents ((pgStore lower).operate now o db) =
        (pgStore lower).incidents db := by
  obtain ⟨o, ho⟩ := o
  refine ⟨pgInv_exec h o, ?_⟩
  simp only [pgStore]
  rcases Db.exec_incidents lower now o db with ⟨r, hnew, heq, -⟩ | ⟨f, heq, -, -, hstep⟩
  · cases hnew with
    | declared =>
      rw [heq, List.filter_append]
      exact congrArg _ (List.append_nil _)
    | opened => cases ho
  · have hkeeps : ∀ i ∈ db.incidents, (f i).origin = i.origin ∧ (f i).id = i.id := by
      intro i hi
      obtain ⟨-, hid, horigin, -⟩ := (hstep i.org i.id i (h.1.incident_eq hi)).keeps
      exact ⟨horigin, hid⟩
    rw [heq, List.filter_map, List.map_map]
    have hfilter : db.incidents.filter ((fun i => i.origin == IncidentOrigin.monitor) ∘ f) =
        db.incidents.filter fun i => i.origin == .monitor := by
      refine List.filter_congr fun i hi => ?_
      rw [Function.comp_apply, (hkeeps i hi).1]
    rw [hfilter]
    exact List.map_congr_left fun i hi => (hkeeps i (List.mem_of_mem_filter hi)).2

theorem pg_lawful (lower : String → String) : LawfulStore (pgStore lower) PgInv where
  oneOpen h _ targetId := pg_openFor_length h targetId
  nodup h := h.1.incidents.sublist (List.filter_sublist.map _)
  inserted := pg_inserted
  notInserted := pg_notInserted
  closed := pg_closed
  notClosed := pg_notClosed
  operated _ o h := pg_operated o h

end

/-! ## In memory -/

/-- Nobody but the writers touches the double. -/
def memStore : IncidentStore InMemoryIncidentStore Empty where
  openFor m _ targetId := m.openForPairs targetId
  insertOpen _ _ new m :=
    let r := m.insertOpen new
    (.ok r.1, r.2)
  close _ _ id endedAt m := m.close id endedAt
  operate _ o _ := o.elim
  incidents m := m.rows.map (·.id)
  isOpen m id := m.rows.any fun i => i.id == id && i.endedAt.isNone

section

variable {m m' : InMemoryIncidentStore} {now : Time} {org : OrgId} {id : Uuid}

structure MemInv (m : InMemoryIncidentStore) : Prop where
  nodup : (m.rows.map (·.id)).Nodup
  lt : ∀ i ∈ m.rows, i.id < m.nextId
  oneOpen : ∀ targetId,
    (m.rows.filter fun i => i.targetId == targetId && i.endedAt.isNone).length ≤ 1

theorem memInv_empty : MemInv InMemoryIncidentStore.empty := by
  refine ⟨List.nodup_nil, fun i hi => ?_, fun _ => Nat.zero_le _⟩
  cases hi

theorem mem_inserted {new : NewOpenIncident} (h : MemInv m)
    (hins : memStore.insertOpen now org new m = (.ok (some id), m')) :
    MemInv m' ∧ memStore.incidents m' = memStore.incidents m ++ [id] ∧
      memStore.isOpen m id = false ∧
      ∀ k, memStore.isOpen m' k = (memStore.isOpen m k || k == id) := by
  simp only [memStore, InMemoryIncidentStore.insertOpen] at hins
  split at hins
  · cases hins
  · next hclear =>
    obtain ⟨hid, rfl⟩ := Prod.mk.inj hins
    obtain rfl : m.nextId = id := Option.some.inj (Except.ok.inj hid)
    refine ⟨⟨?_, ?_, fun targetId => ?_⟩, ?_, ?_, fun k => ?_⟩
    · exact Db.nodup_append_next h.nodup h.lt rfl
    · intro i hi
      rcases List.mem_append.mp hi with hold | hnew
      · exact Nat.lt_succ_of_lt (h.lt i hold)
      · rw [List.mem_singleton.mp hnew]
        exact Nat.lt_succ_self _
    · by_cases htarget : new.targetId = targetId
      · -- the bucket of this target had nothing open
        have hnone : m.rows.filter (fun i => i.targetId == targetId && i.endedAt.isNone) = [] := by
          rw [List.filter_eq_nil_iff]
          intro i hi hp
          exact hclear (List.any_eq_true.mpr ⟨i, hi, htarget ▸ hp⟩)
        rw [List.filter_append, hnone]
        exact List.length_filter_le _ _
      · have hother : (new.targetId == targetId) = false := by simpa using htarget
        simpa [List.filter_append, hother] using h.oneOpen targetId
    · simp [memStore]
    · refine List.any_eq_false.mpr fun i hi => ?_
      simp [Nat.ne_of_lt (h.lt i hi)]
    · simp only [memStore, List.any_append, List.any_cons, List.any_nil, Bool.or_false,
        Option.isNone_none, Bool.and_true]
      rw [Bool.beq_comm]

theorem mem_notInserted {new : NewOpenIncident} {r : Except StoreError (Option Uuid)}
    (hins : memStore.insertOpen now org new m = (r, m')) (hno : ∀ id, r ≠ .ok (some id)) :
    m' = m := by
  simp only [memStore, InMemoryIncidentStore.insertOpen] at hins
  split at hins
  · exact (Prod.mk.inj hins).2.symm
  · obtain ⟨rfl, -⟩ := Prod.mk.inj hins
    exact absurd rfl (hno _)

theorem mem_closed {endedAt : Time} (h : MemInv m)
    (hclose : memStore.close now org id endedAt m = (true, m')) :
    MemInv m' ∧ memStore.incidents m' = memStore.incidents m ∧ memStore.isOpen m id = true ∧
      ∀ k, memStore.isOpen m' k = (memStore.isOpen m k && k != id) := by
  simp only [memStore, InMemoryIncidentStore.close] at hclose
  split at hclose
  · next hopen =>
    obtain ⟨-, rfl⟩ := Prod.mk.inj hclose
    let hit (i : MemIncident) : Bool := i.id == id && i.endedAt.isNone
    let ended (i : MemIncident) : MemIncident := { i with endedAt := some endedAt }
    have hkeep : ∀ i, (ended i).id = i.id := fun _ => rfl
    have hids : (Table.update hit ended m.rows).map (·.id) = m.rows.map (·.id) :=
      Table.map_update hkeep m.rows
    refine ⟨⟨?_, ?_, fun targetId => ?_⟩, hids, hopen, fun k => ?_⟩
    · exact hids ▸ h.nodup
    · intro i hi
      rcases Table.mem_update hi with hold | ⟨i₀, hi₀, -, rfl⟩
      · exact h.lt i hold
      · exact h.lt i₀ hi₀
    · refine le_trans ?_ (h.oneOpen targetId)
      rw [← List.countP_eq_length_filter, ← List.countP_eq_length_filter, Table.update,
        List.countP_map]
      refine List.countP_mono_left fun i _ hp => ?_
      simp only [Function.comp_apply] at hp
      split at hp
      · simp at hp
      · exact hp
    · rw [Bool.eq_iff_iff]
      simp only [memStore, List.any_eq_true, Bool.and_eq_true, beq_iff_eq, bne_iff_ne]
      constructor
      · rintro ⟨i', hi', rfl, hnone⟩
        obtain ⟨i, hi, rfl⟩ := List.mem_map.mp hi'
        split at hnone
        · cases hnone
        · next hmiss =>
          rw [if_neg hmiss]
          refine ⟨⟨i, hi, rfl, hnone⟩, fun heq => ?_⟩
          exact hmiss (by simp [heq, hnone])
      · rintro ⟨⟨i, hi, rfl, hnone⟩, hne⟩
        refine ⟨i, List.mem_map.mpr ⟨i, hi, ?_⟩, rfl, hnone⟩
        simp [hne]
  · cases hclose

theorem mem_notClosed {endedAt : Time}
    (hclose : memStore.close now org id endedAt m = (false, m')) : m' = m := by
  simp only [memStore, InMemoryIncidentStore.close] at hclose
  split at hclose
  · cases hclose
  · exact (Prod.mk.inj hclose).2.symm

theorem mem_lawful : LawfulStore memStore MemInv where
  oneOpen h _ targetId := by
    simpa [memStore, InMemoryIncidentStore.openForPairs] using h.oneOpen targetId
  nodup h := h.nodup
  inserted := mem_inserted
  notInserted := mem_notInserted
  closed := mem_closed
  notClosed := mem_notClosed
  operated _ o _ := o.elim

end

/-- **One open incident, one signal**: on either store, for every interleaving of writer
ticks, and on Postgres with everybody else's operations between them. -/
theorem one_open_one_signal (lower : String → String) (lookback : Int) :
    (∀ s, Run (step (pgStore lower) lookback) (fun _ _ => True) (start Db.empty) s →
      OneSignal (pgStore lower) s) ∧
    ∀ s, Run (step memStore lookback) (fun _ _ => True) (start InMemoryIncidentStore.empty) s →
      OneSignal memStore s := by
  refine ⟨fun s hrun => ?_, fun s hrun => ?_⟩
  · exact oneSignal_of_lawful (pg_lawful lower) pgInv_empty rfl (fun _ => rfl) hrun
  · exact oneSignal_of_lawful mem_lawful memInv_empty rfl (fun _ => rfl) hrun

section

open Decide.Sample

/-- Two ticks find the same outage and one of them opens the incident; on Postgres an
operator resolves it before a third tick can.  In memory the third tick closes it. -/
theorem one_open_one_signal_raced :
    (∃ s, Run (step (pgStore id) (seconds 600)) (fun _ _ => True) (start Db.empty) s ∧
      s.ticks.length = 3 ∧ s.emitted.map (·.signal.reason) = [.opened] ∧ s.closed = [] ∧
      OneSignal (pgStore id) s) ∧
    ∃ s, Run (step memStore (seconds 600)) (fun _ _ => True)
        (start InMemoryIncidentStore.empty) s ∧
      s.ticks.length = 3 ∧ s.emitted.map (·.signal.reason) = [.opened, .resolved] ∧
      OneSignal memStore s := by
  let bad : List (String × CheckResult) := [("eu", result 0 .down), ("eu", result 60 .down)]
  let good : List (String × CheckResult) :=
    bad ++ [("eu", result 120 .up), ("eu", result 180 .up)]
  constructor
  · let events : List (WriterEvent { o : StoreOp // byOthers o = true }) :=
      [.read 1 target bad (seconds 70), .read 1 target bad (seconds 75), .write 0 (seconds 80),
        .write 1 (seconds 80), .signal 0 true, .read 1 target good (seconds 190),
        .operate (seconds 195) ⟨.resolve (seconds 195) 1 0 (.user 3) none, rfl⟩,
        .write 2 (seconds 200)]
    obtain ⟨s, hrun, hs⟩ : ∃ s : Writer Db,
        Run (step (pgStore id) (seconds 600)) (fun _ _ => True) (start Db.empty) s ∧
        s.ticks.length = 3 ∧ s.emitted.map (·.signal.reason) = [.opened] ∧
          s.closed = [] :=
      exists_run_satisfying events (by decide +kernel)
    obtain ⟨hticks, hemitted, hclosed⟩ := hs
    exact ⟨s, hrun, hticks, hemitted, hclosed, (one_open_one_signal id (seconds 600)).1 s hrun⟩
  · let events : List (WriterEvent Empty) :=
      [.read 1 target bad (seconds 70), .read 1 target bad (seconds 75), .write 0 (seconds 80),
        .write 1 (seconds 80), .signal 0 true, .read 1 target good (seconds 190),
        .write 2 (seconds 200), .signal 2 true]
    obtain ⟨s, hrun, hs⟩ : ∃ s : Writer InMemoryIncidentStore,
        Run (step memStore (seconds 600)) (fun _ _ => True)
          (start InMemoryIncidentStore.empty) s ∧
        s.ticks.length = 3 ∧
          s.emitted.map (·.signal.reason) = [.opened, .resolved] :=
      exists_run_satisfying events (by decide +kernel)
    obtain ⟨hticks, hemitted⟩ := hs
    exact ⟨s, hrun, hticks, hemitted, (one_open_one_signal id (seconds 600)).2 s hrun⟩

end

end Writer

end Uptimepage

import Uptimepage.Store.Ledger
import Uptimepage.Store.Lifecycle

/-!
# One open incident

The partial unique indexes on open incidents, one for each origin, as an invariant:
`exec_oneOpenOf` shows that every operation keeps it, `exec_oneOpen` that of the monitors.
-/

namespace Uptimepage

namespace Db

variable {lower : String → String} {now : Time} {db : Db} {o : StoreOp}

/-- A monitor has at most one open incident of its own. -/
def OneOpen (db : Db) : Prop :=
  ∀ i ∈ db.incidents, ∀ j ∈ db.incidents, i.origin = .monitor → j.origin = .monitor →
    i.endedAt = none → j.endedAt = none → i.org = j.org → i.targetId = j.targetId →
    i.targetId ≠ none → i.id = j.id

/-- The index of one origin. -/
def OneOpenOf (origin : IncidentOrigin) (db : Db) : Prop :=
  ∀ i ∈ db.incidents, ∀ j ∈ db.incidents, i.origin = origin → j.origin = origin →
    i.endedAt = none → j.endedAt = none → i.org = j.org → i.targetId = j.targetId →
    i.targetId ≠ none → i.id = j.id

variable {origin : IncidentOrigin}

theorem RowStep.keeps {r r' : IncidentRow} (h : RowStep now o r r') :
    r'.org = r.org ∧ r'.id = r.id ∧ r'.origin = r.origin ∧ r'.startedAt = r.startedAt := by
  cases h <;> exact ⟨rfl, rfl, rfl, rfl⟩

theorem RowStep.open_cases {r r' : IncidentRow} (h : RowStep now o r r')
    (hopen : r'.endedAt = none) :
    r.endedAt = none ∨ ∃ began actor note, o = .reopen began r.org r.id actor note := by
  cases h with
  | resolved _ => exact .inl (Option.or_eq_none_iff.mp hopen).1
  | autoResolved _ => exact .inl (Option.or_eq_none_iff.mp hopen).1
  | reopened _ => exact .inr ⟨_, _, _, rfl⟩
  | closed hnone => exact .inl hnone
  | _ => exact .inl hopen

theorem reopen_cases (db : Db) (began : Time) (org : OrgId) (id : Uuid) (actor : Actor)
    (note : Option String) :
    (db.reopen began org id actor note).2.incidents = db.incidents ∨
      ∃ cur, db.incident org id = some cur ∧
        db.openConflict org id cur.targetId cur.origin = false := by
  unfold reopen transition
  split
  · exact .inl rfl
  · next cur hcur =>
    split
    · exact .inl rfl
    · split
      · exact .inl rfl
      · next next hnext =>
        split
        · exact .inl rfl
        · next hclear =>
          refine .inr ⟨cur, hcur, ?_⟩
          have hres : cur.state = .resolved ∧ next = .triggered := by
            cases hs : cur.state <;> simp_all [reopenTransition, nextState]
          by_contra hconflict
          apply hclear
          simp_all [Transition.row, reopenTransition, reopenRow]

theorem openConflict_eq_false {org : OrgId} {id : Uuid} {targetId : Option Uuid}
    {origin : IncidentOrigin} (h : db.openConflict org id targetId origin = false)
    (htarget : targetId ≠ none) {i : IncidentRow} (hi : i ∈ db.incidents) (horg : i.org = org)
    (heq : i.targetId = targetId) (hopen : i.endedAt = none) (horigin : i.origin = origin) :
    i.id = id := by
  unfold openConflict at h
  cases targetId with
  | none => exact absurd rfl htarget
  | some t =>
    by_contra hne
    have := List.any_eq_false.mp h i hi
    simp [horg, hne, heq, hopen, horigin] at this

theorem insertOpen_cases (db : Db) (now : Time) (org : OrgId) (new : NewOpenIncident) :
    ((db.insertOpen now org new).2 = db ∧ ∀ id, (db.insertOpen now org new).1 ≠ .ok (some id)) ∨
      (db.openConflict org db.nextId (some new.targetId) .monitor = false ∧
        db.insertOpen now org new = (.ok (some db.nextId), { db with
          nextId := db.nextId + 1
          incidents := db.incidents ++ [db.openedRow now org new] })) := by
  unfold insertOpen
  split
  · refine .inl ⟨rfl, fun id hid => ?_⟩
    cases hid
  · split
    · refine .inl ⟨rfl, fun id hid => ?_⟩
      cases hid
    · next hclear => exact .inr ⟨by simpa using hclear, rfl⟩

theorem declare_cases (db : Db) (began : Time) (org : OrgId) (new : NewManualIncident)
    (actor : Actor) :
    db.declare began org new actor = (.error .alreadyOpen, db) ∨
      db.openConflict org db.nextId new.targetId .manual = false := by
  unfold declare
  split
  · exact .inl rfl
  · next hclear => exact .inr (by simpa using hclear)

theorem rewrites_oneOpen (hkeyed : Keyed db) (h : OneOpenOf origin db)
    (hrows : Rewrites now o db (db.exec lower now o).2.incidents) :
    OneOpenOf origin (db.exec lower now o).2 := by
  obtain ⟨f, heq, -, -, hstep⟩ := hrows
  have hrow : ∀ r ∈ db.incidents, RowStep now o r (f r) :=
    fun r hr => hstep r.org r.id r (hkeyed.incident_eq hr)
  -- a reopened row has no open neighbour
  have halone : ∀ r ∈ db.incidents, ∀ r' ∈ db.incidents, (f r).endedAt = none →
      r.endedAt ≠ none → r'.endedAt = none → r.origin = origin → r'.origin = origin →
      r.org = r'.org → r.targetId = r'.targetId → r.targetId ≠ none → r.id = r'.id := by
    intro r hr r' hr' hopen hended hopen' horigin horigin' horg htarget hsome
    rcases (hrow r hr).open_cases hopen with hno | ⟨began, actor, note, rfl⟩
    · exact absurd hno hended
    · rcases reopen_cases db began r.org r.id actor note with hsame | ⟨cur, hcur, hclear⟩
      · have hmem : f r ∈ db.incidents := by
          have : f r ∈ (db.exec lower now (.reopen began r.org r.id actor note)).2.incidents :=
            heq ▸ List.mem_map_of_mem hr
          rwa [show (db.exec lower now (.reopen began r.org r.id actor note)).2.incidents =
            db.incidents from hsame] at this
        have hid : f r = r := List.inj_on_of_nodup_map hkeyed.incidents hmem hr (hrow r hr).keeps.2.1
        exact absurd (hid ▸ hopen) hended
      · obtain rfl : cur = r := by
          rw [hkeyed.incident_eq hr] at hcur
          exact (Option.some.inj hcur).symm
        exact (openConflict_eq_false hclear hsome hr' horg.symm htarget.symm hopen'
          (horigin'.trans horigin.symm)).symm
  intro i' hi' j' hj' hio hjo hie hje horg htarget hsome
  rw [heq] at hi' hj'
  obtain ⟨i, hi, rfl⟩ := List.mem_map.mp hi'
  obtain ⟨j, hj, rfl⟩ := List.mem_map.mp hj'
  obtain ⟨hiorg, hiid, hiorigin, -⟩ := (hrow i hi).keeps
  obtain ⟨hjorg, hjid, hjorigin, -⟩ := (hrow j hj).keeps
  rw [hiorg, hjorg] at horg
  rw [(hrow i hi).targetId_eq, (hrow j hj).targetId_eq] at htarget
  rw [(hrow i hi).targetId_eq] at hsome
  rw [hiorigin] at hio
  rw [hjorigin] at hjo
  rw [hiid, hjid]
  by_cases hiwas : i.endedAt = none
  · by_cases hjwas : j.endedAt = none
    · exact h i hi j hj hio hjo hiwas hjwas horg htarget hsome
    · exact (halone j hj i hi hje hjwas hiwas hjo hio horg.symm htarget.symm
        (htarget ▸ hsome)).symm
  · by_cases hjwas : j.endedAt = none
    · exact halone i hi j hj hie hiwas hjwas hio hjo horg htarget hsome
    · -- both are the one row the reopen names
      rcases (hrow i hi).open_cases hie with hno | ⟨_, _, _, hop⟩
      · exact absurd hno hiwas
      · rcases (hrow j hj).open_cases hje with hno | ⟨_, _, _, hop'⟩
        · exact absurd hno hjwas
        · rw [hop] at hop'
          injection hop'

theorem exec_oneOpenOf (hkeyed : Keyed db) (h : OneOpenOf origin db) :
    OneOpenOf origin (db.exec lower now o).2 := by
  rcases exec_incidents lower now o db with ⟨r, hnew, heq, -⟩ | hrows
  · -- no other incident of the origin is open on the new row's monitor
    have halone : ∀ i ∈ db.incidents, i.origin = origin → r.origin = origin →
        i.endedAt = none → i.org = r.org → i.targetId = r.targetId → i.targetId ≠ none →
        i.id = r.id := by
      intro i hi hio hro hie horg htarget hsome
      obtain rfl := hro
      cases hnew with
      | @declared began org new actor =>
        rcases declare_cases db began org new actor with hsame | hclear
        · have hlen := congrArg List.length heq
          rw [show (db.exec lower now (.declare began org new actor)).2 = db by
            rw [exec, hsame]] at hlen
          simp at hlen
        · have hdeclared : new.targetId ≠ none := fun hnone => hsome (htarget.trans hnone)
          exact openConflict_eq_false hclear hdeclared hi horg htarget hie hio
      | @opened org new =>
        rcases insertOpen_cases db now org new with ⟨hsame, -⟩ | ⟨hclear, -⟩
        · have hlen := congrArg List.length heq
          rw [show (db.exec lower now (.insertOpen org new)).2 = db from hsame] at hlen
          simp at hlen
        · exact openConflict_eq_false hclear (Option.some_ne_none _) hi horg htarget hie hio
    intro i hi j hj hio hjo hie hje horg htarget hsome
    rw [heq] at hi hj
    rcases List.mem_append.mp hi with hiold | hinew
    · rcases List.mem_append.mp hj with hjold | hjnew
      · exact h i hiold j hjold hio hjo hie hje horg htarget hsome
      · obtain rfl := List.mem_singleton.mp hjnew
        exact halone i hiold hio hjo hie horg htarget hsome
    · obtain rfl := List.mem_singleton.mp hinew
      rcases List.mem_append.mp hj with hjold | hjnew
      · exact (halone j hjold hjo hio hje horg.symm htarget.symm (htarget ▸ hsome)).symm
      · rw [List.mem_singleton.mp hjnew]
  · exact rewrites_oneOpen hkeyed h hrows

theorem exec_oneOpen (hkeyed : Keyed db) (h : OneOpen db) : OneOpen (db.exec lower now o).2 :=
  exec_oneOpenOf hkeyed h

/-- **What holds of the incident tables after any calls**, by whomever: ids are told apart, no
monitor has two open incidents of one origin, and more calls add to the timeline at its end. -/
theorem run_consistent (lower : String → String) (ops ops' : List (Time × StoreOp)) :
    (Db.empty.run lower ops).Keyed ∧
      (∀ origin, (Db.empty.run lower ops).OneOpenOf origin) ∧
      ∃ new, ((Db.empty.run lower ops).run lower ops').events =
        (Db.empty.run lower ops).events ++ new ∧ new.length ≤ ops'.length := by
  have hkeep : ∀ (ops : List (Time × StoreOp)) (db : Db), db.Keyed →
      (∀ origin, db.OneOpenOf origin) →
      (db.run lower ops).Keyed ∧ ∀ origin, (db.run lower ops).OneOpenOf origin := by
    intro ops
    induction ops with
    | nil => exact fun db hkeyed hopen => ⟨hkeyed, hopen⟩
    | cons o ops ih =>
      exact fun db hkeyed hopen => ih _ (exec_keyed hkeyed) fun origin =>
        exec_oneOpenOf hkeyed (hopen origin)
  have hgrow : ∀ (ops : List (Time × StoreOp)) (db : Db), ∃ new,
      (db.run lower ops).events = db.events ++ new ∧ new.length ≤ ops.length := by
    intro ops
    induction ops with
    | nil => exact fun db => ⟨[], (List.append_nil _).symm, Nat.le_refl _⟩
    | cons o ops ih =>
      intro db
      obtain ⟨first, hfirst, hentry⟩ := exec_events lower o.1 o.2 db
      obtain ⟨rest, hrest, hlen⟩ := ih (db.exec lower o.1 o.2).2
      refine ⟨first ++ rest, ?_, ?_⟩
      · rw [← List.append_assoc, ← hfirst]
        exact hrest
      · rcases hentry with rfl | ⟨e, rfl, -⟩
        · exact Nat.le_succ_of_le hlen
        · exact Nat.succ_le_succ hlen
  obtain ⟨hkeyed, hopen⟩ := hkeep ops Db.empty keyed_empty fun origin _ hi => by cases hi
  exact ⟨hkeyed, hopen, hgrow ops' _⟩

end Db

end Uptimepage

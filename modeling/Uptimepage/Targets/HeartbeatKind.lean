import Uptimepage.Async.Tasks
import Uptimepage.Sql.Rows
import Uptimepage.Targets.FlowCap

/-!
# Heartbeat rows and check kinds

A PATCH that rewrites a check commits it and then reconciles the heartbeat row with what it
wrote: `ensure` for a heartbeat, `remove` for any other kind.  So the last reconciliation need not
be that of the last rewrite (`heartbeat_kind_diverges`).
-/

namespace Uptimepage.Targets.HeartbeatKind

open Async Sql FlowCap

/-- A row of `heartbeat_monitors`; its token is not read here. -/
structure HeartbeatMonitor where
  targetId : Uuid
  orgId : OrgId
deriving DecidableEq

structure Store where
  targets : Rows FlowCap.Monitor.id
  heartbeats : Rows HeartbeatMonitor.targetId

namespace Store

def target? (st : Store) (org : OrgId) (id : Uuid) : Option FlowCap.Monitor :=
  (st.targets.get? id).filter fun t => t.orgId == org

/-- `HeartbeatStore::get`. -/
def heartbeat? (st : Store) (org : OrgId) (id : Uuid) : Option HeartbeatMonitor :=
  (st.heartbeats.get? id).filter fun h => h.orgId == org

/-- `TargetStore::update`, of the check. -/
def update (st : Store) (org : OrgId) (id : Uuid) (check : Option CheckSpec) : Store :=
  { st with
    targets := st.targets.update (fun t => t.id == id && t.orgId == org)
      (fun t => { t with check := check.getD t.check }) fun _ => rfl }

/-- The `INSERT` of `ensure`, scoped to the organisation by the target it selects. -/
def insert (st : Store) (org : OrgId) (id : Uuid) : Store :=
  match st.target? org id with
  | some t => { st with heartbeats := st.heartbeats.insert ⟨t.id, t.orgId⟩ }
  | none => st

def remove (st : Store) (org : OrgId) (id : Uuid) : Store :=
  { st with heartbeats := st.heartbeats.delete fun h => h.orgId == org && h.targetId == id }

end Store

inductive Phase
  | updating (org : OrgId) (id : Uuid) (check : Option CheckSpec)
  /-- `ensure` looks for a row. -/
  | getting (org : OrgId) (id : Uuid)
  | inserting (org : OrgId) (id : Uuid)
  /-- `ensure` reads the row it answers with. -/
  | rereading (org : OrgId) (id : Uuid)
  | removing (org : OrgId) (id : Uuid)
  | done
deriving DecidableEq

structure Request where
  org : OrgId
  id : Uuid
  check : Option CheckSpec
deriving DecidableEq

inductive Choice
  | ok
  /-- The statement fails, or the process ends before it. -/
  | fails
deriving DecidableEq

/-- `sync_heartbeat_kind` of the row that the update returned. -/
def syncHeartbeatKind (t : FlowCap.Monitor) : Phase :=
  if t.check.isPassive then .getting t.orgId t.id else .removing t.orgId t.id

def next (st : Store) : Phase → Choice → Option (Store × Phase)
  | .done, _ => none
  | _, .fails => some (st, .done)
  | .updating org id check, .ok =>
    match (st.update org id check).target? org id with
    | some t => some (st.update org id check,
        if check.isSome then syncHeartbeatKind t else .done)
    | none => some (st, .done)
  | .getting org id, .ok =>
    some (st, if (st.heartbeat? org id).isSome then .done else .inserting org id)
  | .inserting org id, .ok => some (st.insert org id, .rereading org id)
  | .rereading _ _, .ok => some (st, .done)
  | .removing org id, .ok => some (st.remove org id, .done)

def program : Program Store Phase Request Choice Empty where
  first := fun r => .updating r.org r.id r.check
  next := next
  outer := fun st _ => st

/-! ## What keeps rows and checks together -/

/-- The monitor whose row a request is yet to reconcile, and for which kind. -/
def Phase.syncs : Phase → Option (OrgId × Uuid × Bool)
  | getting org id | inserting org id => some (org, id, true)
  | removing org id => some (org, id, false)
  | _ => none

/-- Whether the stored check is a heartbeat. -/
def Store.kind? (st : Store) (org : OrgId) (id : Uuid) : Option Bool :=
  (st.target? org id).map fun t => t.check.isPassive

def Store.hasRow (st : Store) (org : OrgId) (id : Uuid) : Bool := (st.heartbeat? org id).isSome

/-- A request other than the one in slot `i` has the stored kind to reconcile. -/
def awaited (s : Pooled Store Phase) (i : Nat) (org : OrgId) (id : Uuid) : Bool :=
  (s.store.kind? org id).any fun k =>
    (s.tasks.eraseIdx i).any fun q => q.syncs == some (org, id, k)

/-- A row is written for the stored kind, or while the request that wrote that kind is yet to
reconcile it; and none fails to reconcile what differs from the stored kind, unless another is
to. -/
def current (s : Pooled Store Phase) : Act Request Choice Empty → Bool
  | .go i choice =>
    match s.tasks[i]?, choice with
    | some (.inserting org id), .ok =>
      s.store.kind? org id == some true || awaited s i org id
    | some (.removing org id), .ok =>
      s.store.kind? org id == some false || awaited s i org id
    | some p, .fails =>
      match p.syncs with
      | some (org, id, k) =>
        s.store.kind? org id != some k || s.store.hasRow org id == k || awaited s i org id
      | none => true
    | _, _ => true
  | _ => true

/-! ## What the statements do to kinds and rows -/

section

variable {st : Store} {org org' : OrgId} {id id' : Uuid}

theorem target?_eq_some {t : FlowCap.Monitor} :
    st.target? org id = some t ↔ t ∈ st.targets.rows ∧ t.id = id ∧ t.orgId = org := by
  unfold Store.target?
  rw [Option.filter_eq_some_iff, Rows.get?_eq_some, beq_iff_eq, and_assoc]

theorem heartbeat?_eq_some {h : HeartbeatMonitor} :
    st.heartbeat? org id = some h ↔ h ∈ st.heartbeats.rows ∧ h.targetId = id ∧ h.orgId = org := by
  unfold Store.heartbeat?
  rw [Option.filter_eq_some_iff, Rows.get?_eq_some, beq_iff_eq, and_assoc]

theorem hasRow_iff : st.hasRow org id = true ↔ ⟨id, org⟩ ∈ st.heartbeats.rows := by
  unfold Store.hasRow
  rw [Option.isSome_iff_exists]
  constructor
  · rintro ⟨⟨id', org'⟩, h⟩
    obtain ⟨hmem, rfl, rfl⟩ := heartbeat?_eq_some.1 h
    exact hmem
  · intro h
    exact ⟨⟨id, org⟩, heartbeat?_eq_some.2 ⟨h, rfl, rfl⟩⟩

theorem target?_update (check : Option CheckSpec) :
    (st.update org id check).target? org' id' =
      (st.target? org' id').map fun t =>
        if id' = id ∧ org' = org then { t with check := check.getD t.check } else t := by
  unfold Store.target? Store.update
  dsimp only
  rw [Rows.get?_update]
  cases hget : st.targets.get? id' with
  | none => rfl
  | some t =>
    have hid : t.id = id' := (Rows.get?_eq_some.1 hget).2
    subst hid
    simp only [Option.map_some, Bool.and_eq_true, beq_iff_eq]
    by_cases horg : t.orgId = org'
    · subst horg
      have hsame : ∀ t' : FlowCap.Monitor, t'.orgId = t.orgId →
          (some t').filter (fun t' => t'.orgId == t.orgId) = some t' := by
        intro t' ht'
        exact Option.filter_some_pos (beq_iff_eq.mpr ht')
      rw [hsame t rfl, Option.map_some]
      split
      · exact hsame _ rfl
      · exact hsame t rfl
    · have hother : ∀ t' : FlowCap.Monitor, t'.orgId = t.orgId →
          (some t').filter (fun t => t.orgId == org') = none := by
        intro t' ht'
        refine Option.filter_some_neg ?_
        rw [beq_eq_false_iff_ne, ht']
        exact horg
      rw [hother t rfl, Option.map_none]
      split
      · exact hother _ rfl
      · exact hother t rfl

theorem kind?_update_of (check : Option CheckSpec) (h : ¬(id' = id ∧ org' = org)) :
    (st.update org id check).kind? org' id' = st.kind? org' id' := by
  unfold Store.kind?
  rw [target?_update, Option.map_map]
  simp only [Function.comp_def, if_neg h]

theorem kind?_update_none : (st.update org id none).kind? org' id' = st.kind? org' id' := by
  unfold Store.kind?
  rw [target?_update, Option.map_map]
  congr 1
  funext t
  simp only [Function.comp_def, Option.getD_none, ite_self]

theorem target?_insert : (st.insert org id).target? org' id' = st.target? org' id' := by
  unfold Store.insert
  split <;> rfl

theorem hasRow_update (check : Option CheckSpec) :
    (st.update org id check).hasRow org' id' = st.hasRow org' id' := rfl

/-- A heartbeat row is of its monitor's organisation. -/
def Scoped (st : Store) : Prop :=
  ∀ h ∈ st.heartbeats.rows, (st.target? h.orgId h.targetId).isSome = true

theorem hasRow_insert (hscoped : Scoped st) (ht : (st.target? org id).isSome = true) :
    (st.insert org id).hasRow org' id' = (st.hasRow org' id' || (id' == id && org' == org)) := by
  obtain ⟨t, ht⟩ := Option.isSome_iff_exists.mp ht
  obtain ⟨htmem, rfl, rfl⟩ := target?_eq_some.1 ht
  have hinsert : (st.insert t.orgId t.id).heartbeats = st.heartbeats.insert ⟨t.id, t.orgId⟩ := by
    unfold Store.insert
    rw [ht]
  rw [Bool.eq_iff_iff, Bool.or_eq_true, hasRow_iff, hasRow_iff, hinsert, Bool.and_eq_true,
    beq_iff_eq, beq_iff_eq]
  constructor
  · intro h
    rcases Rows.mem_insert h with h | h
    · exact .inl h
    · exact .inr ⟨congrArg HeartbeatMonitor.targetId h, congrArg HeartbeatMonitor.orgId h⟩
  · rintro (h | ⟨rfl, rfl⟩)
    · exact Rows.mem_insert_of_mem h
    · cases hget : st.heartbeats.get? t.id with
      | none => exact Rows.mem_insert_self hget
      | some h =>
        -- the row that is in the way is the monitor's own
        obtain ⟨hmem, hid⟩ := Rows.get?_eq_some.1 hget
        obtain ⟨t', ht'⟩ := Option.isSome_iff_exists.mp (hscoped h hmem)
        obtain ⟨htmem', hid', horg'⟩ := target?_eq_some.1 ht'
        have heq : t' = t := Rows.eq_of_key htmem' htmem (hid'.trans hid)
        have hrow : h = ⟨t.id, t.orgId⟩ := by
          cases h
          simp only [HeartbeatMonitor.mk.injEq]
          exact ⟨hid, by rw [← heq]; exact horg'.symm⟩
        exact Rows.mem_insert_of_mem (hrow ▸ hmem)

theorem hasRow_remove : (st.remove org id).hasRow org' id' =
    (st.hasRow org' id' && !(id' == id && org' == org)) := by
  rw [Bool.eq_iff_iff, Bool.and_eq_true, hasRow_iff, hasRow_iff]
  unfold Store.remove
  rw [Rows.mem_delete]
  dsimp only
  rw [Bool.not_eq_true', Bool.and_comm]

theorem Scoped.update (h : Scoped st) (check : Option CheckSpec) :
    Scoped (st.update org id check) := by
  intro r hr
  rw [target?_update, Option.isSome_map]
  exact h r hr

theorem Scoped.insert (h : Scoped st) : Scoped (st.insert org id) := by
  intro r hr
  rw [target?_insert]
  unfold Store.insert at hr
  split at hr
  · next t ht =>
    rcases Rows.mem_insert hr with hr | rfl
    · exact h r hr
    · obtain ⟨-, rfl, rfl⟩ := target?_eq_some.1 ht
      rw [ht, Option.isSome_some]
  · exact h r hr

theorem Scoped.remove (h : Scoped st) : Scoped (st.remove org id) := by
  intro r hr
  exact h r (Rows.mem_delete.1 hr).1

end

/-! ## The invariant -/

section

variable {s s' : Pooled Store Phase} {org : OrgId} {id : Uuid}

/-- A row is as its check's kind asks, or a request that wrote this kind is yet to see to it. -/
structure Followed (s : Pooled Store Phase) : Prop where
  inOrg : Scoped s.store
  stored : ∀ q ∈ s.tasks, ∀ org id k, q.syncs = some (org, id, k) →
    (s.store.target? org id).isSome = true
  rows : ∀ org id k, s.store.kind? org id = some k →
    s.store.hasRow org id = k ∨ ∃ q ∈ s.tasks, q.syncs = some (org, id, k)

variable {st : Store} {t : FlowCap.Monitor} {i : Nat} {p p' : Phase}

theorem syncs_update {check : CheckSpec}
    (h : (st.update org id (some check)).target? org id = some t) :
    (syncHeartbeatKind t).syncs = some (org, id, t.check.isPassive) := by
  obtain ⟨-, rfl, rfl⟩ := target?_eq_some.1 h
  unfold syncHeartbeatKind
  cases t.check.isPassive <;> rfl

theorem Followed.quiet (h : Followed s) (hp : s.tasks[i]? = some p)
    (hp' : p'.syncs = p.syncs ∨ (p'.syncs = none ∧ ∀ org id k, p.syncs = some (org, id, k) →
      s.store.kind? org id = some k → s.store.hasRow org id = k ∨
        ∃ q ∈ s.tasks.eraseIdx i, q.syncs = some (org, id, k))) :
    Followed ⟨s.store, s.tasks.set i p'⟩ := by
  refine ⟨h.inOrg, ?_, ?_⟩
  · refine forall_mem_set h.stored ?_
    intro org id k hk
    rcases hp' with hsame | ⟨hnone, -⟩
    · exact h.stored p (List.mem_of_getElem? hp) org id k (hsame ▸ hk)
    · rw [hnone] at hk
      cases hk
  · intro org id k hk
    rcases h.rows org id k hk with hrow | hex
    · exact .inl hrow
    · by_cases hsync : p.syncs = some (org, id, k)
      · rcases hp' with hsame | ⟨-, hleft⟩
        · exact .inr ⟨p', mem_set_self hp p', hsame.trans hsync⟩
        · rcases hleft org id k hsync hk with hrow | ⟨q, hq, hqk⟩
          · exact .inl hrow
          · exact .inr ⟨q, mem_set_of_mem_eraseIdx hq, hqk⟩
      · exact .inr (exists_mem_set hp hsync hex)

theorem awaited_iff : awaited s i org id = true ↔
    ∃ k, s.store.kind? org id = some k ∧
      ∃ q ∈ s.tasks.eraseIdx i, q.syncs = some (org, id, k) := by
  unfold awaited
  rw [Option.any_eq_true]
  simp only [List.any_eq_true, beq_iff_eq]

theorem Followed.reconciled (h : Followed s) {k : Bool} (hp : s.tasks[i]? = some p)
    (hsync : p.syncs = some (org, id, k)) (hnone : p'.syncs = none) (hscoped : Scoped st)
    (htarget : ∀ org' id', st.target? org' id' = s.store.target? org' id')
    (hself : st.hasRow org id = k) (hothers : ∀ org' id', ¬(org' = org ∧ id' = id) →
      st.hasRow org' id' = s.store.hasRow org' id')
    (hcurrent : s.store.kind? org id = some k ∨ awaited s i org id = true) :
    Followed ⟨st, s.tasks.set i p'⟩ := by
  have hkind : ∀ org' id', st.kind? org' id' = s.store.kind? org' id' :=
    fun org' id' => congrArg _ (htarget org' id')
  refine ⟨hscoped, ?_, ?_⟩
  · refine forall_mem_set ?_ ?_
    · intro q hq org' id' k' hk'
      rw [htarget]
      exact h.stored q hq org' id' k' hk'
    · intro org' id' k' hk'
      rw [hnone] at hk'
      cases hk'
  · intro org' id' k' hk'
    dsimp only at hk' ⊢
    rw [hkind] at hk'
    by_cases hmine : org' = org ∧ id' = id
    · obtain ⟨rfl, rfl⟩ := hmine
      rcases hcurrent with hstored | hawaited
      · left
        rw [hself]
        exact Option.some.inj (hstored.symm.trans hk')
      · right
        obtain ⟨k'', hk'', q, hq, hqk⟩ := awaited_iff.1 hawaited
        obtain rfl : k'' = k' := Option.some.inj (hk''.symm.trans hk')
        exact ⟨q, mem_set_of_mem_eraseIdx hq, hqk⟩
    · rw [hothers org' id' hmine]
      rcases h.rows org' id' k' hk' with hrow | hex
      · exact .inl hrow
      · right
        refine exists_mem_set hp ?_ hex
        rw [hsync]
        intro heq
        cases heq
        exact hmine ⟨rfl, rfl⟩

theorem Followed.updated (h : Followed s) {check : Option CheckSpec}
    (hp : s.tasks[i]? = some (.updating org id check))
    (ht : (s.store.update org id check).target? org id = some t) :
    Followed ⟨s.store.update org id check,
      s.tasks.set i (if check.isSome then syncHeartbeatKind t else .done)⟩ := by
  have hlive : ∀ org' id', ((s.store.update org id check).target? org' id').isSome =
      (s.store.target? org' id').isSome := by
    intro org' id'
    rw [target?_update, Option.isSome_map]
  have hpsync : ∀ org' id' k, (Phase.updating org id check).syncs ≠ some (org', id', k) := by
    intro org' id' k heq
    cases heq
  refine ⟨h.inOrg.update check, ?_, ?_⟩
  · refine forall_mem_set ?_ ?_
    · intro q hq org' id' k hk
      rw [hlive]
      exact h.stored q hq org' id' k hk
    · intro org' id' k hk
      cases check with
      | none => cases hk
      | some check =>
        simp only [Option.isSome_some, ↓reduceIte] at hk
        rw [syncs_update ht] at hk
        cases hk
        rw [ht, Option.isSome_some]
  · intro org' id' k hk
    dsimp only at hk ⊢
    rw [hasRow_update]
    cases check with
    | none =>
      rw [kind?_update_none] at hk
      exact (h.rows org' id' k hk).imp_right (exists_mem_set hp (hpsync org' id' k))
    | some check =>
      by_cases hmine : id' = id ∧ org' = org
      · obtain ⟨rfl, rfl⟩ := hmine
        right
        refine ⟨_, mem_set_self hp _, ?_⟩
        rw [Option.isSome_some, if_pos rfl, syncs_update ht]
        unfold Store.kind? at hk
        rw [ht, Option.map_some] at hk
        rw [Option.some.inj hk]
      · rw [kind?_update_of _ hmine] at hk
        exact (h.rows org' id' k hk).imp_right (exists_mem_set hp (hpsync org' id' k))

theorem Followed.failed (h : Followed s) (hp : s.tasks[i]? = some p)
    (hcurrent : current s (.go i .fails) = true) : Followed ⟨s.store, s.tasks.set i .done⟩ := by
  refine h.quiet hp (.inr ⟨rfl, ?_⟩)
  intro org id k hsync hk
  have hallowed : (s.store.kind? org id != some k || s.store.hasRow org id == k ||
      awaited s i org id) = true := by
    unfold current at hcurrent
    cases p <;> simp_all [Phase.syncs]
  simp only [Bool.or_eq_true, bne_iff_ne, ne_eq, beq_iff_eq] at hallowed
  rcases hallowed with (hother | hrow) | hawaited
  · exact absurd hk hother
  · exact .inl hrow
  · obtain ⟨k', hk', q, hq, hqk⟩ := awaited_iff.1 hawaited
    obtain rfl : k' = k := Option.some.inj (hk'.symm.trans hk)
    exact .inr ⟨q, hq, hqk⟩

theorem Followed.went (h : Followed s) {choice : Choice} (hp : s.tasks[i]? = some p)
    (hnext : next s.store p choice = some (st, p')) (hcurrent : current s (.go i choice) = true) :
    Followed ⟨st, s.tasks.set i p'⟩ := by
  cases choice with
  | fails =>
    have hfailed : st = s.store ∧ p' = .done := by
      cases p <;> cases hnext <;> exact ⟨rfl, rfl⟩
    obtain ⟨rfl, rfl⟩ := hfailed
    exact h.failed hp hcurrent
  | ok =>
    cases p with
    | updating org id check =>
      simp only [next] at hnext
      split at hnext
      · next t ht =>
        cases hnext
        exact h.updated hp ht
      · cases hnext
        exact h.quiet hp (.inl rfl)
    | getting org id =>
      cases hnext
      refine h.quiet hp ?_
      split
      · next hrow =>
        refine .inr ⟨rfl, ?_⟩
        intro org' id' k hsync _
        cases hsync
        exact .inl hrow
      · exact .inl rfl
    | inserting org id =>
      cases hnext
      have htarget := h.stored _ (List.mem_of_getElem? hp) org id true rfl
      have hrow : ∀ org' id', (s.store.insert org id).hasRow org' id' =
          (s.store.hasRow org' id' || (id' == id && org' == org)) :=
        fun _ _ => hasRow_insert h.inOrg htarget
      refine h.reconciled hp rfl rfl h.inOrg.insert (fun _ _ => target?_insert) ?_ ?_ ?_
      · simp [hrow]
      · intro org' id' hne
        rw [hrow]
        simp only [Bool.or_eq_left_iff_imp, Bool.and_eq_true, beq_iff_eq]
        rintro ⟨rfl, rfl⟩
        exact absurd ⟨rfl, rfl⟩ hne
      · simpa [current, hp] using hcurrent
    | rereading org id =>
      cases hnext
      exact h.quiet hp (.inl rfl)
    | removing org id =>
      cases hnext
      refine h.reconciled hp rfl rfl h.inOrg.remove (fun _ _ => rfl) ?_ ?_ ?_
      · simp [hasRow_remove]
      · intro org' id' hne
        rw [hasRow_remove]
        have hother : (id' == id && org' == org) = false := by
          rw [Bool.and_eq_false_iff, beq_eq_false_iff_ne, beq_eq_false_iff_ne]
          by_cases hid : id' = id
          · exact .inr fun horg => hne ⟨horg, hid⟩
          · exact .inl hid
        rw [hother, Bool.not_false, Bool.and_true]
      · simpa [current, hp] using hcurrent
    | done => cases hnext

theorem Followed.step (h : Followed s) {e : Act Request Choice Empty}
    (hcurrent : current s e = true) (heq : program.step s e = some s') : Followed s' := by
  cases Program.stepped heq with
  | begin request =>
    refine ⟨h.inOrg, ?_, ?_⟩
    · intro q hq org id k hk
      rcases List.mem_append.mp hq with hq | hq
      · exact h.stored q hq org id k hk
      · rw [List.mem_singleton.mp hq] at hk
        cases hk
    · intro org id k hk
      refine (h.rows org id k hk).imp_right ?_
      rintro ⟨q, hq, hqk⟩
      exact ⟨q, List.mem_append_left _ hq, hqk⟩
  | go hp hnext => exact h.went hp hnext hcurrent
  | outer o => cases o

/-- **Heartbeat rows follow the check kind**: when all PATCHes have ended, a monitor has a row
exactly if its stored check is a heartbeat, as long as no row was written for an overwritten kind
and none left to nobody. -/
theorem heartbeat_rows_follow {s₀ : Pooled Store Phase} (hscoped : Scoped s₀.store)
    (hidle : s₀.tasks = [])
    (hstart : ∀ org id t, s₀.store.target? org id = some t →
      (s₀.store.heartbeat? org id).isSome = t.check.isPassive)
    (hrun : Run program.step (fun s e => current s e = true) s₀ s)
    (hdone : ∀ p ∈ s.tasks, p = .done) :
    ∀ org id t, s.store.target? org id = some t →
      ((s.store.heartbeat? org id).isSome = true ↔ t.check.isPassive = true) := by
  have hinit : Followed s₀ := by
    refine ⟨hscoped, by simp [hidle], ?_⟩
    intro org id k hk
    obtain ⟨t, ht, rfl⟩ := Option.map_eq_some_iff.mp hk
    exact .inl (hstart org id t ht)
  have hend : Followed s := hrun.invariant hinit fun _ _ _ h hok heq => h.step hok heq
  intro org id t ht
  rcases hend.rows org id t.check.isPassive (congrArg _ ht) with hrow | ⟨q, hq, hqk⟩
  · unfold Store.hasRow at hrow
    rw [hrow]
  · rw [hdone q hq] at hqk
    cases hqk

end

/-! ## Two PATCHes at once -/

namespace Two

def site : CheckSpec := .tcp ⟨"db.example.com", 5432, 3000⟩

def beat : CheckSpec := .heartbeat ⟨60, 300, none⟩

def start : Pooled Store Phase :=
  ⟨⟨Rows.empty.insert ⟨7, 1, beat⟩, Rows.empty.insert ⟨7, 1⟩⟩, []⟩

/-- The monitor becomes a tcp monitor and a heartbeat again; the first request removes the row
when the second has found it. -/
def crossed : List (Act Request Choice Empty) :=
  [.begin ⟨1, 7, some site⟩, .go 0 .ok, .begin ⟨1, 7, some beat⟩, .go 1 .ok, .go 1 .ok, .go 0 .ok]

/-- The second begins when the first has ended. -/
def oneByOne : List (Act Request Choice Empty) :=
  [.begin ⟨1, 7, some site⟩, .go 0 .ok, .go 0 .ok, .begin ⟨1, 7, some beat⟩, .go 1 .ok, .go 1 .ok,
    .go 1 .ok, .go 1 .ok]

theorem start_scoped : Scoped start.store := by
  intro h hmem
  obtain rfl : h = ⟨7, 1⟩ := by simpa [start, Rows.insert, Rows.empty] using hmem
  decide

theorem start_rows : ∀ org id t, start.store.target? org id = some t →
    (start.store.heartbeat? org id).isSome = t.check.isPassive := by
  intro org id t ht
  obtain ⟨hmem, rfl, rfl⟩ := target?_eq_some.1 ht
  obtain rfl : t = ⟨7, 1, beat⟩ := by simpa [start, Rows.insert, Rows.empty] using hmem
  decide

end Two

theorem heartbeat_rows_follow_rewritten : ∃ s, s.tasks = [.done, .done] ∧
    (s.store.target? 1 7).map FlowCap.Monitor.check = some Two.beat ∧
    Run program.step (fun s e => current s e = true) Two.start s ∧
    (s.store.heartbeat? 1 7).isSome = true := by
  obtain ⟨s, hrun, hend⟩ := exists_run_of_steps (show
    (steps (guarded program.step current) Two.start Two.oneByOne).any
      (fun s => s.tasks == [.done, .done] &&
        (s.store.target? 1 7).map FlowCap.Monitor.check == some Two.beat) = true by decide +kernel)
  obtain ⟨htasks, hcheck⟩ := Bool.and_eq_true_iff.mp hend
  have hcurrent : Run program.step (fun s e => current s e = true) Two.start s :=
    hrun.unguard fun _ _ h => h
  have htasks' := beq_iff_eq.mp htasks
  have hcheck' := beq_iff_eq.mp hcheck
  obtain ⟨t, ht, hbeat⟩ := Option.map_eq_some_iff.mp hcheck'
  have hfollow := heartbeat_rows_follow Two.start_scoped rfl Two.start_rows hcurrent
    (by simp [htasks'])
  exact ⟨s, htasks', hcheck', hcurrent, (hfollow 1 7 t ht).mpr (by rw [hbeat]; rfl)⟩

/-- Two PATCHes end with a heartbeat monitor that no ping can reach. -/
theorem heartbeat_kind_diverges : ¬ ∀ (s₀ s : Pooled Store Phase), Scoped s₀.store →
    s₀.tasks = [] →
    (∀ org id t, s₀.store.target? org id = some t →
      (s₀.store.heartbeat? org id).isSome = t.check.isPassive) →
    Run program.step (fun _ _ => True) s₀ s → (∀ p ∈ s.tasks, p = .done) →
    ∀ org id t, s.store.target? org id = some t →
      ((s.store.heartbeat? org id).isSome = true ↔ t.check.isPassive = true) := by
  intro h
  obtain ⟨s, hrun, hend⟩ := exists_run_of_steps (show
    (steps program.step Two.start Two.crossed).any
      (fun s => s.tasks == [.done, .done] && !(s.store.heartbeat? 1 7).isSome &&
        (s.store.target? 1 7).map FlowCap.Monitor.check == some Two.beat) = true by decide +kernel)
  simp only [Bool.and_eq_true, beq_iff_eq, Bool.not_eq_true'] at hend
  obtain ⟨⟨htasks, hrow⟩, hcheck⟩ := hend
  obtain ⟨t, ht, hbeat⟩ := Option.map_eq_some_iff.mp hcheck
  have hfollow := h Two.start s Two.start_scoped rfl Two.start_rows hrun (by simp [htasks]) 1 7 t ht
  rw [hrow, hbeat] at hfollow
  exact absurd (hfollow.mpr rfl) Bool.false_ne_true

end Uptimepage.Targets.HeartbeatKind

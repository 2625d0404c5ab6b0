import Uptimepage.Orgs.Account
import Uptimepage.Orgs.Restore

/-!
# Two ways to lift a tombstone

`restore_org` arms an organisation's heartbeats again: the anchor that they are measured from froze
when it was deleted.
-/

namespace Uptimepage.Orgs

open Async Sql

/-! ## An organisation's own rows -/

/-- The audit log is not among them: its entry names the way that was taken. -/
structure OrgRows where
  row : Option Organization
  memberships : List Membership
  targets : List Monitor
  heartbeats : List HeartbeatMonitor
  resources : List Resource
deriving DecidableEq

namespace Db

def rowsOf (db : Db) (org : OrgId) : OrgRows where
  row := db.org? org
  memberships := db.memberships.rows.filter fun m => m.orgId == org
  targets := db.targets.rows.filter fun t => t.orgId == org
  heartbeats := db.heartbeats.rows.filter fun h => h.orgId == org
  resources := db.resources.filter fun r => r.orgId == org

end Db

namespace HeartbeatMonitor

def arm (now : Time) (h : HeartbeatMonitor) : HeartbeatMonitor := { h with armedAt := now }

theorem arm_eq_self {now : Time} {h : HeartbeatMonitor} : h.arm now = h ↔ h.armedAt = now := by
  constructor
  · intro heq
    rw [← heq]
    rfl
  · rintro rfl
    rfl

theorem armedAt_le_successAt (h : HeartbeatMonitor) : h.armedAt ≤ h.successAt := by
  unfold successAt
  split
  · exact Int.le_max_right _ _
  · exact Int.le_refl _

end HeartbeatMonitor

namespace OrgRows

/-- What lifting the tombstone makes of the rows. -/
def lifted (now : Time) (rows : OrgRows) : OrgRows :=
  { rows with row := rows.row.map (Organization.stamp none now) }

def rearmed (now : Time) (rows : OrgRows) : OrgRows :=
  { rows with heartbeats := rows.heartbeats.map (HeartbeatMonitor.arm now) }

theorem eq_rearmed_iff {now : Time} {rows : OrgRows} :
    rows = rows.rearmed now ↔ ∀ h ∈ rows.heartbeats, h.armedAt = now := by
  constructor
  · intro heq h hh
    have hmap : rows.heartbeats.map (HeartbeatMonitor.arm now) = rows.heartbeats.map fun h => h := by
      rw [List.map_id']
      exact (congrArg OrgRows.heartbeats heq).symm
    exact HeartbeatMonitor.arm_eq_self.1 (List.map_inj_left.mp hmap h hh)
  · intro harmed
    have hmap : rows.heartbeats.map (HeartbeatMonitor.arm now) = rows.heartbeats := by
      conv_rhs => rw [← List.map_id' rows.heartbeats]
      exact List.map_congr_left fun h hh => HeartbeatMonitor.arm_eq_self.2 (harmed h hh)
    unfold rearmed
    rw [hmap]

end OrgRows

/-! ## What the writes do to them -/

section

variable {db : Db} {org : OrgId} {now : Time}

/-- What a tombstone's lifting may have made of the organisation, and nothing else. -/
def Unchanged (db : Db) (org : OrgId) (now : Time) (db' : Db) : Prop :=
  db'.rowsOf org = db.rowsOf org ∨ db'.rowsOf org = (db.rowsOf org).lifted now

theorem rowsOf_setOrgDeleted (org' : OrgId) :
    (db.apply (.setOrgDeleted org' none now)).rowsOf org =
      { db.rowsOf org with
        row := (db.org? org).map fun r => if r.id == org' then r.stamp none now else r } := by
  unfold Db.rowsOf
  rw [Db.org?_setOrgDeleted]
  rfl

theorem org?_setOrgDeleted_self :
    ((db.org? org).map fun r => if r.id == org then r.stamp none now else r) =
      (db.org? org).map (Organization.stamp none now) := by
  cases h : db.org? org with
  | none => rfl
  | some o => rw [Option.map_some, if_pos (beq_iff_eq.mpr (Rows.get?_eq_some.1 h).2), Option.map_some]

theorem org?_setOrgDeleted_ne {org' : OrgId} (hne : org' ≠ org) :
    ((db.org? org).map fun r => if r.id == org' then r.stamp none now else r) = db.org? org := by
  cases h : db.org? org with
  | none => rfl
  | some o =>
    have hid : o.id ≠ org' := (Rows.get?_eq_some.1 h).2.trans_ne hne.symm
    rw [Option.map_some, if_neg (by rw [beq_iff_eq]; exact hid)]

theorem Unchanged.setOrgDeleted {db' : Db} (h : Unchanged db org now db') (org' : OrgId) :
    Unchanged db org now (db'.apply (.setOrgDeleted org' none now)) := by
  have hrow : (db'.rowsOf org).row = db'.org? org := rfl
  unfold Unchanged
  rw [rowsOf_setOrgDeleted]
  by_cases hid : org' = org
  · right
    rw [hid, org?_setOrgDeleted_self, ← hrow]
    rcases h with h | h
    · rw [h]
      rfl
    · rw [h]
      unfold OrgRows.lifted
      rw [Option.map_map]
      rfl
  · rw [org?_setOrgDeleted_ne hid, ← hrow]
    exact h

end

namespace RestoreAccount

def code : Code Db Key Write Phase UserId Nat where
  apply := Db.apply
  next := restoreAccount
  first := .start
  failed := .failed
  outer db elapsed := { db with now := db.now + elapsed }

def Phase.now? : Phase → Option Time
  | .lockUser _ now | .read _ now => some now
  | .reopen t | .select t | .lift t _ _ | .commit t _ => some t.now
  | .start _ | .returned _ _ | .failed => none

/-- The transaction is as old as the clock. -/
def Prompt (db : Db) (p : Phase) : Prop := ∀ now, p.now? = some now → now = db.now

variable {db : Db} {p q : Phase} {s : State Db Key Write Phase} {org : OrgId} {user : UserId}

theorem Prompt.run {keys : List Key} {writes : List Write} (h : Prompt db p)
    (hnext : restoreAccount (code.view db (written p)) p = some (.run keys writes q)) :
    Prompt db q := by
  have hsame : q.now? = p.now? → Prompt db q := fun heq now hq => h now (heq ▸ hq)
  cases p with
  | start user =>
    cases hnext
    exact fun now hq => (Option.some.inj hq).symm
  | read user now =>
    simp only [restoreAccount] at hnext
    split at hnext <;> cases hnext
    exact hsame rfl
  | reopen t =>
    simp only [restoreAccount] at hnext
    split at hnext <;> cases hnext
    exact hsame rfl
  | lift t lifted rest =>
    cases rest with
    | nil =>
      cases hnext
      exact hsame rfl
    | cons org rest =>
      simp only [restoreAccount] at hnext
      split at hnext
      · split at hnext <;> cases hnext
        exact hsame rfl
      · cases hnext
        exact hsame rfl
  | lockUser | select =>
    cases hnext
    exact hsame rfl
  | commit | returned | failed => cases hnext

theorem next_end (db : Db) (p q : Phase)
    (h : restoreAccount db p = some (.commit q) ∨ restoreAccount db p = some (.rollback q)) :
    (∃ user outcome, q = .returned user outcome) ∨ q = .failed := by
  cases p with
  | read user now | reopen t =>
    simp only [restoreAccount] at h
    split at h <;> rcases h with h | h <;> cases h
    exact .inl ⟨_, _, rfl⟩
  | lift t lifted rest =>
    cases rest with
    | nil => rcases h with h | h <;> cases h
    | cons org rest =>
      simp only [restoreAccount] at h
      split at h
      · split at h <;> rcases h with h | h <;> cases h
        exact .inr rfl
      · rcases h with h | h <;> cases h
  | commit t lifted =>
    rcases h with h | h <;> cases h
    exact .inl ⟨_, _, rfl⟩
  | start | lockUser | select | returned | failed => rcases h with h | h <;> cases h

theorem unchanged_lifts (db : Db) (org : OrgId) (t : Tx) (lifted : List OrgId) :
    Unchanged db org t.now (code.view db (t.lifts lifted)) := by
  refine code.view_kept (P := Unchanged db org t.now) ?_ (.inl rfl)
  intro db' w hw h
  rcases List.mem_cons.mp hw with rfl | hw
  · exact h
  · obtain ⟨org', -, hw⟩ := List.mem_flatMap.mp hw
    rcases List.mem_cons.mp hw with rfl | hw
    · exact h.setOrgDeleted org'
    · rw [List.mem_singleton.mp hw]
      exact h

theorem rowsOf_alone
    (hrun : Run code.step (fun _ e => e = .go 0) ⟨db, [⟨.start user, [], []⟩]⟩ s)
    (hgone : db.isLive org = false) (hlive : s.db.isLive org = true) :
    s.db.rowsOf org = (db.rowsOf org).lifted db.now := by
  have hannotated : Annotated code.next written locks Write.touches := restoreAccount_annotated
  have halone := hannotated.alone (Prompt db)
    (fun _ _ _ _ h hnext => h.run hnext)
    (fun db p q h db' => by
      rcases next_end db p q h with ⟨_, _, rfl⟩ | rfl <;> rfl)
    rfl (fun _ h => by cases h) hrun
  rcases halone with hdb | ⟨p, q, hprompt, hnext, hdb⟩
  · rw [hdb, hgone] at hlive
    cases hlive
  · cases p with
    | commit t lifted =>
      have hnow : t.now = db.now := hprompt t.now rfl
      rw [hdb, ← hnow]
      rcases unchanged_lifts db org t lifted with hsame | hlifted
      · have hrow : (code.view db (t.lifts lifted)).org? org = db.org? org :=
          congrArg OrgRows.row hsame
        rw [hdb, Db.isLive] at hlive
        change ((code.view db (t.lifts lifted)).org? org).any Organization.live = true at hlive
        rw [hrow, ← Db.isLive, hgone] at hlive
        cases hlive
      · exact hlifted
    | read | reopen =>
      simp only [code, restoreAccount] at hnext
      split at hnext <;> cases hnext
    | lift t lifted rest =>
      cases rest with
      | nil => cases hnext
      | cons org rest =>
        simp only [code, restoreAccount] at hnext
        split at hnext
        · split at hnext <;> cases hnext
        · cases hnext
    | start | lockUser | select | returned | failed => cases hnext

end RestoreAccount

namespace RestoreOrg

def code (env : Env) : Code Db Key Write Phase RestoreOrg Nat where
  apply := Db.apply
  next := restoreOrg env
  first := .start
  failed := .failed
  outer db elapsed := { db with now := db.now + elapsed }

def Phase.tx? : Phase → Option Tx
  | .lockAccount t | .allowance t | .lockRow t | .update t _ | .counts t _ | .rearm t _
  | .adopt t _ _ | .commit t _ _ _ | .diagnose t => some t
  | .start _ | .returned _ _ | .failed => none

def Phase.armed? : Phase → Option (List Uuid)
  | .adopt _ _ armed | .commit _ _ armed _ => some armed
  | _ => none

structure Prompt (db : Db) (p : Phase) : Prop where
  now : ∀ t, p.tx? = some t → t.now = db.now
  armed : ∀ t armed, p.tx? = some t → p.armed? = some armed → armed = db.heartbeatsOf t.r.org

variable {env : Env} {db : Db} {p q : Phase} {s : State Db Key Write Phase} {org : OrgId}
  {r : RestoreOrg}

theorem Prompt.run {keys : List Key} {writes : List Write} (h : Prompt db p)
    (hnext : restoreOrg env ((code env).view db (written p)) p = some (.run keys writes q)) :
    Prompt db q := by
  have hsame : q.tx? = p.tx? → q.armed? = p.armed? → Prompt db q := by
    intro htx harmed
    exact ⟨fun t ht => h.now t (htx ▸ ht), fun t armed ht ha => h.armed t armed (htx ▸ ht) (harmed ▸ ha)⟩
  cases p with
  | start r =>
    simp only [restoreOrg] at hnext
    split at hnext <;> cases hnext
    refine ⟨?_, by rintro _ _ _ ⟨⟩⟩
    intro t ht
    cases ht
    rfl
  | allowance t | update t prev | counts t prev =>
    simp only [restoreOrg] at hnext
    split at hnext <;> cases hnext
    exact hsame rfl rfl
  | lockRow t =>
    simp only [restoreOrg] at hnext
    split at hnext <;> cases hnext <;> exact hsame rfl rfl
  | rearm t prev =>
    cases hnext
    refine ⟨fun t' ht => h.now t' ht, ?_⟩
    intro t' armed ht harmed
    cases ht
    exact (Option.some.inj harmed).symm
  | lockAccount t | adopt t prev armed =>
    cases hnext
    exact hsame rfl rfl
  | commit | diagnose | returned | failed => cases hnext

theorem next_end (db : Db) (p q : Phase)
    (h : restoreOrg env db p = some (.commit q) ∨ restoreOrg env db p = some (.rollback q)) :
    ∃ r outcome, q = .returned r outcome := by
  cases p with
  | start | allowance | update | counts =>
    simp only [restoreOrg] at h
    split at h <;> rcases h with h | h <;> cases h
    exact ⟨_, _, rfl⟩
  | lockRow =>
    simp only [restoreOrg] at h
    split at h <;> rcases h with h | h <;> cases h
  | commit | diagnose =>
    rcases h with h | h <;> cases h
    exact ⟨_, _, rfl⟩
  | lockAccount | rearm | adopt | returned | failed => rcases h with h | h <;> cases h

theorem heartbeats_rearms (t : Tx) (armed : List Uuid) (db : Db) :
    ((code env).view db (t.rearms armed)).heartbeats.rows =
      Table.update (fun h => armed.contains h.targetId) (HeartbeatMonitor.arm t.now)
        db.heartbeats.rows := by
  induction armed generalizing db with
  | nil => exact (List.map_id' _).symm
  | cons target armed ih =>
    show ((code env).view (db.apply (.setArmed target t.now)) (t.rearms armed)).heartbeats.rows = _
    rw [ih]
    show Table.update _ _ (Table.update _ (HeartbeatMonitor.arm t.now) db.heartbeats.rows) = _
    unfold Table.update
    rw [List.map_map]
    refine List.map_congr_left fun h _ => ?_
    by_cases hone : h.targetId = target
    · subst hone
      simp [HeartbeatMonitor.arm]
    · simp [HeartbeatMonitor.arm, hone]

theorem heartbeats_written (env : Env) (db : Db) (t : Tx) (prev : Organization) (armed : List Uuid)
    (adopted : List String) :
    ((code env).view db (written (.commit t prev armed adopted))).heartbeats.rows =
      Table.update (fun h => armed.contains h.targetId) (HeartbeatMonitor.arm t.now)
        db.heartbeats.rows := by
  have hadopts : ∀ db', ((code env).view db' (t.adopts adopted)).heartbeats = db'.heartbeats := by
    intro db'
    refine (code env).view_kept (P := fun d => d.heartbeats = db'.heartbeats) ?_ rfl
    intro d w hw hd
    obtain ⟨v, -, rfl⟩ := List.mem_map.mp hw
    exact hd
  rw [written, Code.view_append, hadopts, Code.view_append, heartbeats_rearms]
  rfl

theorem tables_written (env : Env) (db : Db) (t : Tx) (prev : Organization) (armed : List Uuid)
    (adopted : List String) :
    let db' := (code env).view db (written (.commit t prev armed adopted))
    db'.orgs = (db.apply t.lift).orgs ∧ db'.memberships = db.memberships ∧
      db'.targets = db.targets ∧ db'.resources = db.resources := by
  have hrest : ∀ w ∈ t.entry :: (t.rearms armed ++ t.adopts adopted), ∀ d : Db,
      (d.apply w).orgs = d.orgs ∧ (d.apply w).memberships = d.memberships ∧
        (d.apply w).targets = d.targets ∧ (d.apply w).resources = d.resources := by
    intro w hw d
    rcases List.mem_cons.mp hw with rfl | hw
    · exact ⟨rfl, rfl, rfl, rfl⟩
    · rcases List.mem_append.mp hw with hw | hw
      · obtain ⟨v, -, rfl⟩ := List.mem_map.mp hw
        exact ⟨rfl, rfl, rfl, rfl⟩
      · obtain ⟨v, -, rfl⟩ := List.mem_map.mp hw
        exact ⟨rfl, rfl, rfl, rfl⟩
  have hsplit : written (.commit t prev armed adopted) =
      t.lift :: t.entry :: (t.rearms armed ++ t.adopts adopted) := by
    simp only [written, List.cons_append, List.nil_append]
  dsimp only
  rw [hsplit, Code.view_cons]
  refine (code env).view_kept (P := fun d => d.orgs = (db.apply t.lift).orgs ∧
    d.memberships = db.memberships ∧ d.targets = db.targets ∧ d.resources = db.resources) ?_
    ⟨rfl, rfl, rfl, rfl⟩
  rintro d w hw ⟨horgs, hmemberships, htargets, hresources⟩
  obtain ⟨horgs', hmemberships', htargets', hresources'⟩ := hrest w hw d
  exact ⟨horgs'.trans horgs, hmemberships'.trans hmemberships, htargets'.trans htargets,
    hresources'.trans hresources⟩

theorem heartbeats_of_org {t : Tx} :
    (Table.update (fun h => (db.heartbeatsOf org).contains h.targetId) (HeartbeatMonitor.arm t.now)
      db.heartbeats.rows).filter (fun h => h.orgId == org) =
      (db.heartbeats.rows.filter fun h => h.orgId == org).map (HeartbeatMonitor.arm t.now) := by
  rw [Table.filter_update (f := HeartbeatMonitor.arm t.now) fun _ => rfl]
  refine List.map_congr_left fun h hh => if_pos ?_
  exact List.contains_iff_mem.mpr (List.mem_map.mpr ⟨h, hh, rfl⟩)

theorem rowsOf_alone
    (hrun : Run (code env).step (fun _ e => e = .go 0) ⟨db, [⟨.start r, [], []⟩]⟩ s)
    (hgone : db.isLive org = false) (hlive : s.db.isLive org = true) :
    s.db.rowsOf org = ((db.rowsOf org).lifted db.now).rearmed db.now := by
  have hannotated : Annotated (code env).next written locks Write.touches :=
    restoreOrg_annotated env
  have halone := hannotated.alone (Prompt db)
    (fun _ _ _ _ h hnext => h.run hnext)
    (fun db p q h db' => by
      obtain ⟨_, _, rfl⟩ := next_end db p q h
      rfl)
    rfl (by constructor <;> intro _ <;> simp [Phase.tx?]) hrun
  rcases halone with hdb | ⟨p, q, hprompt, hnext, hdb⟩
  · rw [hdb, hgone] at hlive
    cases hlive
  · cases p with
    | commit t prev armed adopted =>
      have hnow : t.now = db.now := hprompt.now t rfl
      obtain rfl : armed = db.heartbeatsOf t.r.org := hprompt.armed t armed rfl rfl
      obtain ⟨horgs, hmemberships, htargets, hresources⟩ :=
        tables_written env db t prev (db.heartbeatsOf t.r.org) adopted
      have hheartbeats := heartbeats_written env db t prev (db.heartbeatsOf t.r.org) adopted
      rw [← hdb] at horgs hmemberships htargets hresources hheartbeats
      have hrow : s.db.org? org =
          (db.org? org).map fun o => if o.id == t.r.org then o.stamp none t.now else o := by
        unfold Db.org?
        rw [horgs]
        exact Db.org?_setOrgDeleted org t.r.org none t.now
      have horg : t.r.org = org := by
        by_contra hne
        rw [org?_setOrgDeleted_ne hne] at hrow
        rw [Db.isLive, hrow, ← Db.isLive, hgone] at hlive
        cases hlive
      rw [← horg, org?_setOrgDeleted_self, horg] at hrow
      rw [horg] at hheartbeats
      rw [← hnow]
      unfold Db.rowsOf OrgRows.rearmed OrgRows.lifted
      rw [hrow, hmemberships, htargets, hresources, hheartbeats, heartbeats_of_org]
    | start | allowance | lockRow | update | counts =>
      simp only [code, restoreOrg] at hnext
      split at hnext <;> cases hnext
    | lockAccount | rearm | adopt | diagnose | returned | failed => cases hnext

end RestoreOrg

/-! ## The two compared -/

/-- **The two ways agree exactly where there is nothing to arm**: they leave the same rows, with
every heartbeat armed at the restore, if and only if every heartbeat had been armed at that very
moment. -/
theorem restores_agree_iff {env : Env} {db db' : Db} {user : UserId} {r : RestoreOrg}
    {s₁ : State Db Key Write RestoreAccount.Phase} {s₂ : State Db Key Write RestoreOrg.Phase}
    {org : OrgId} (hsame : db.rowsOf org = db'.rowsOf org) (hnow : db.now = db'.now)
    (hgone : db.isLive org = false)
    (hrun₁ : Run RestoreAccount.code.step (fun _ e => e = .go 0) ⟨db, [⟨.start user, [], []⟩]⟩ s₁)
    (hlive₁ : s₁.db.isLive org = true)
    (hrun₂ : Run (RestoreOrg.code env).step (fun _ e => e = .go 0) ⟨db', [⟨.start r, [], []⟩]⟩ s₂)
    (hlive₂ : s₂.db.isLive org = true) :
    (s₁.db.rowsOf org = s₂.db.rowsOf org ∧
      ∀ h ∈ s₁.db.heartbeats.rows, h.orgId = org → h.armedAt = db.now ∧ db.now ≤ h.successAt) ↔
    ∀ h ∈ db.heartbeats.rows, h.orgId = org → h.armedAt = db.now := by
  have hgone' : db'.isLive org = false := by
    have hrow : db.org? org = db'.org? org := congrArg OrgRows.row hsame
    rw [Db.isLive, ← hrow]
    exact hgone
  have h₁ := RestoreAccount.rowsOf_alone hrun₁ hgone hlive₁
  have h₂ := RestoreOrg.rowsOf_alone hrun₂ hgone' hlive₂
  rw [← hsame, ← hnow] at h₂
  have hheartbeats : (s₁.db.rowsOf org).heartbeats = (db.rowsOf org).heartbeats := by
    rw [h₁]
    rfl
  have hmem : ∀ {d : Db} {h : HeartbeatMonitor},
      h ∈ (d.rowsOf org).heartbeats ↔ h ∈ d.heartbeats.rows ∧ h.orgId = org := by
    intro d h
    rw [← beq_iff_eq (a := h.orgId)]
    exact List.mem_filter
  rw [h₂, h₁, OrgRows.eq_rearmed_iff]
  constructor
  · rintro ⟨harmed, -⟩ h hh horg
    exact harmed h (hmem.mpr ⟨hh, horg⟩)
  · intro harmed
    refine ⟨fun h hh => harmed h (hmem.mp hh).1 (hmem.mp hh).2, fun h hh horg => ?_⟩
    have hold : h ∈ (db.rowsOf org).heartbeats := hheartbeats ▸ hmem.mpr ⟨hh, horg⟩
    have hat := harmed h (hmem.mp hold).1 horg
    exact ⟨hat, hat ▸ h.armedAt_le_successAt⟩

namespace One

def env : Env := ⟨fun _ => ⟨5, 5, 5, 5, 5, 5, 5, 5, 5, 5⟩, 30⟩

/-- User 1 has deleted organisation 10 and closed the account. -/
def db : Db where
  now := 6
  users := .single ⟨1, some 5⟩
  accounts := .single ⟨1, some 1⟩
  orgs := .single ⟨10, "ten", "Ten", 1, some 5, 5⟩
  memberships := .single ⟨1, 10, .owner, 0⟩
  sessions := .empty
  targets := .single ⟨7, 10, false⟩
  heartbeats := .empty
  resources := []
  audit := [⟨10, some 1, .orgDeleted, 5⟩]
  purgeQueue := .empty
  measurements := []

/-- The monitor is a heartbeat. -/
def beating : Db := { db with heartbeats := .single ⟨7, 10, 0, none⟩ }

/-- It is armed at the moment of the restore. -/
def armed : Db := { db with heartbeats := .single ⟨7, 10, 6, none⟩ }

def goes {Request : Type} (n : Nat) : List (Event Request Nat) := List.replicate n (.go 0)

theorem run_of_goes {Phase Request : Type} {code : Code Db Key Write Phase Request Nat}
    {s t : State Db Key Write Phase} {n : Nat} (h : steps code.step s (goes n) = some t) :
    Run code.step (fun _ e => e = .go 0) s t :=
  .of_steps_allowed h fun _ he _ => List.eq_of_mem_replicate he

end One

theorem restores_agree_iff_armed : ∃ s₁ s₂,
    Run RestoreAccount.code.step (fun _ e => e = .go 0) ⟨One.armed, [⟨.start 1, [], []⟩]⟩ s₁ ∧
    Run (RestoreOrg.code One.env).step (fun _ e => e = .go 0)
      ⟨One.armed, [⟨.start ⟨10, 1⟩, [], []⟩]⟩ s₂ ∧
    s₁.db.isLive 10 = true ∧ s₁.db.heartbeats.rows = [⟨7, 10, 6, none⟩] ∧
    s₁.db.rowsOf 10 = s₂.db.rowsOf 10 := by
  obtain ⟨s₁, hsteps₁, hend₁⟩ := (Option.any_eq_true _ _).mp (show
    (steps RestoreAccount.code.step ⟨One.armed, [⟨.start 1, [], []⟩]⟩ (One.goes 8)).any
      (fun s => s.db.isLive 10 && s.db.heartbeats.rows == [⟨7, 10, 6, none⟩]) = true by
    decide +kernel)
  obtain ⟨s₂, hsteps₂, hlive₂⟩ := (Option.any_eq_true _ _).mp (show
    (steps (RestoreOrg.code One.env).step ⟨One.armed, [⟨.start ⟨10, 1⟩, [], []⟩]⟩
      (One.goes 9)).any (fun s => s.db.isLive 10) = true by decide +kernel)
  have hrun₁ := One.run_of_goes hsteps₁
  have hrun₂ := One.run_of_goes hsteps₂
  obtain ⟨hlive₁, hrows⟩ := Bool.and_eq_true_iff.mp hend₁
  have hagree := restores_agree_iff rfl rfl (by decide) hrun₁ hlive₁ hrun₂ hlive₂
  have harmed : ∀ h ∈ One.armed.heartbeats.rows, h.orgId = 10 → h.armedAt = One.armed.now := by
    decide
  exact ⟨s₁, s₂, hrun₁, hrun₂, hlive₁, beq_iff_eq.mp hrows, (hagree.mpr harmed).1⟩

/-- The heartbeat is armed by one of them only. -/
theorem restored_unarmed : ¬ ∀ (env : Env) (db : Db) (user : UserId) (r : RestoreOrg)
    (s₁ : State Db Key Write RestoreAccount.Phase) (s₂ : State Db Key Write RestoreOrg.Phase)
    (org : OrgId), db.isLive org = false →
    Run RestoreAccount.code.step (fun _ e => e = .go 0) ⟨db, [⟨.start user, [], []⟩]⟩ s₁ →
    s₁.db.isLive org = true →
    Run (RestoreOrg.code env).step (fun _ e => e = .go 0) ⟨db, [⟨.start r, [], []⟩]⟩ s₂ →
    s₂.db.isLive org = true →
    s₁.db.rowsOf org = s₂.db.rowsOf org ∧
      ∀ h ∈ s₁.db.heartbeats.rows, h.orgId = org → h.armedAt = db.now ∧ db.now ≤ h.successAt := by
  intro h
  obtain ⟨s₁, hsteps₁, hend₁⟩ := (Option.any_eq_true _ _).mp (show
    (steps RestoreAccount.code.step ⟨One.beating, [⟨.start 1, [], []⟩]⟩ (One.goes 8)).any
      (fun s => s.db.isLive 10 && s.db.heartbeats.rows == [⟨7, 10, 0, none⟩]) = true by
    decide +kernel)
  obtain ⟨s₂, hsteps₂, hlive₂⟩ := (Option.any_eq_true _ _).mp (show
    (steps (RestoreOrg.code One.env).step ⟨One.beating, [⟨.start ⟨10, 1⟩, [], []⟩]⟩
      (One.goes 9)).any (fun s => s.db.isLive 10) = true by decide +kernel)
  have hrun₁ := One.run_of_goes hsteps₁
  have hrun₂ := One.run_of_goes hsteps₂
  obtain ⟨hlive₁, hrows⟩ := Bool.and_eq_true_iff.mp hend₁
  obtain ⟨-, harmed⟩ := h One.env One.beating 1 ⟨10, 1⟩ s₁ s₂ 10 (by decide) hrun₁ hlive₁ hrun₂ hlive₂
  have hmem : (⟨7, 10, 0, none⟩ : HeartbeatMonitor) ∈ s₁.db.heartbeats.rows := by
    rw [beq_iff_eq.mp hrows]
    exact List.mem_singleton.mpr rfl
  have hnow : (0 : Time) = 6 := (harmed _ hmem rfl).1
  exact absurd hnow (by decide)

end Uptimepage.Orgs

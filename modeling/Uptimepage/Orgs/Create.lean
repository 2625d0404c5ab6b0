import Uptimepage.Orgs.Quota

/-!
# Organisations are created and renamed

`create_org_with_owner` and `update_org_fields` of `storage/orgs.rs`, statement by statement.  Both
look for the slug among all organisations, tombstones included, and later write it under the unique
index, which is over the live ones.
-/

namespace Uptimepage.Orgs

open Sql

/-! ## `create_org_with_owner` -/

/-- `id` and `newAccount` are the identifiers that the database draws for new rows. -/
structure CreateOrg where
  id : OrgId
  newAccount : AccountId
  user : UserId
  slug : String
  name : String
deriving DecidableEq

namespace CreateOrg

inductive Outcome
  | created
  | ownerLimit
  | slugTaken
deriving DecidableEq

structure Tx where
  r : CreateOrg
  now : Time
  account : AccountId
  opened : Bool
deriving DecidableEq

inductive Phase
  | start (r : CreateOrg)
  | ensureAccount (r : CreateOrg) (now : Time)
  | lockAccount (t : Tx)
  | allowance (t : Tx)
  | probe (t : Tx)
  | reserve (t : Tx)
  | insert (t : Tx)
  | owner (t : Tx)
  | audit (t : Tx)
  | commit (t : Tx)
  | returned (r : CreateOrg) (outcome : Outcome)
  | failed
deriving DecidableEq

namespace Tx

def row (t : Tx) : Organization := ⟨t.r.id, t.r.slug, t.r.name, t.account, none, t.now⟩

def membership (t : Tx) : Membership := ⟨t.r.user, t.r.id, .owner, t.now⟩

def entry (t : Tx) : Write := .insertAudit ⟨t.r.id, some t.r.user, .orgCreated, t.now⟩

def opening (t : Tx) : List Write :=
  if t.opened then [.insertAccount ⟨t.account, some t.r.user⟩] else []

def keys (t : Tx) : List Key := [.accountRow t.r.user]

def accountKeys (t : Tx) : List Key := .account t.account :: t.keys

def rowKeys (t : Tx) : List Key :=
  .slugRow (toAsciiLowercase t.r.slug) :: .orgRow t.r.id :: t.accountKeys

end Tx

def written : Phase → List Write
  | .lockAccount t | .allowance t | .probe t | .reserve t | .insert t => t.opening
  | .owner t => t.opening ++ [.insertOrg t.row]
  | .audit t => t.opening ++ [.insertOrg t.row] ++ [.insertMembership t.membership]
  | .commit t =>
    t.opening ++ [.insertOrg t.row] ++ [.insertMembership t.membership] ++ [t.entry]
  | _ => []

def locks : Phase → List Key
  | .lockAccount t => t.keys
  | .allowance t | .probe t | .reserve t => t.accountKeys
  | .insert t | .owner t => t.rowKeys
  | .audit t | .commit t => .membershipRow t.r.user t.r.id :: t.rowKeys
  | _ => []

end CreateOrg

/-- The slug is looked for among tombstones too, or their restore would collide. -/
def createOrgWithOwner (env : Env) (db : Db) : CreateOrg.Phase → Action CreateOrg.Phase
  | .start r => some (.run [] [] (.ensureAccount r db.now))
  | .ensureAccount r now =>
    match db.accountForUser r.user with
    | some account => some (.run [.accountRow r.user] [] (.lockAccount ⟨r, now, account, false⟩))
    | none =>
      some (.run [.accountRow r.user] [.insertAccount ⟨r.newAccount, some r.user⟩]
        (.lockAccount ⟨r, now, r.newAccount, true⟩))
  | .lockAccount t => some (.run [.account t.account] [] (.allowance t))
  | .allowance t =>
    if (env.plan t.account).maxOrgs ≤ db.liveOrgCount t.account then
      some (.rollback (.returned t.r .ownerLimit))
    else some (.run [] [] (.probe t))
  | .probe t =>
    if db.slugHeld t.r.slug none then some (.rollback (.returned t.r .slugTaken))
    else some (.run [] [] (.reserve t))
  | .reserve t =>
    some (.run [.slugRow (toAsciiLowercase t.r.slug), .orgRow t.r.id] [] (.insert t))
  | .insert t =>
    if db.slugLive t.r.slug none then some (.rollback (.returned t.r .slugTaken))
    else if (db.org? t.r.id).isSome then some (.rollback .failed)
    else some (.run [] [.insertOrg t.row] (.owner t))
  | .owner t =>
    some (.run [.membershipRow t.r.user t.r.id] [.insertMembership t.membership] (.audit t))
  | .audit t => some (.run [] [t.entry] (.commit t))
  | .commit t => some (.commit (.returned t.r .created))
  | .returned _ _ | .failed => none

namespace CreateOrg

variable {t : Tx} {w : Write} {k : Key}

theorem touches_opening (hw : w ∈ t.opening) (hk : w.touches k) : k ∈ t.keys := by
  unfold Tx.opening at hw
  split at hw
  · rw [List.mem_singleton.mp hw] at hk
    obtain ⟨user, huser, rfl⟩ := hk
    exact List.mem_singleton.mpr (congrArg Key.accountRow (Option.some.inj huser).symm)
  · cases hw

theorem touches_insertOrg (hw : w ∈ t.opening ++ [.insertOrg t.row]) (hk : w.touches k) :
    k ∈ t.rowKeys := by
  unfold Tx.rowKeys Tx.accountKeys
  simp only [List.mem_cons]
  rcases List.mem_append.mp hw with hw | hw
  · exact .inr (.inr (.inr (touches_opening hw hk)))
  · rw [List.mem_singleton.mp hw] at hk
    rcases hk with hk | hk
    · exact .inr (.inl hk)
    · exact .inl hk

theorem touches_insertMembership
    (hw : w ∈ t.opening ++ [.insertOrg t.row] ++ [.insertMembership t.membership])
    (hk : w.touches k) : k ∈ Key.membershipRow t.r.user t.r.id :: t.rowKeys := by
  rcases List.mem_append.mp hw with hw | hw
  · exact List.mem_cons_of_mem _ (touches_insertOrg hw hk)
  · rw [List.mem_singleton.mp hw] at hk
    exact List.mem_cons.mpr (.inl hk)

theorem touches_written {p : Phase} (hw : w ∈ written p) (hk : w.touches k) : k ∈ locks p := by
  cases p with
  | lockAccount t => exact touches_opening hw hk
  | allowance t | probe t | reserve t => exact List.mem_cons_of_mem _ (touches_opening hw hk)
  | insert t => exact touches_insertOrg (List.mem_append_left _ hw) hk
  | owner t => exact touches_insertOrg hw hk
  | audit t => exact touches_insertMembership hw hk
  | commit t =>
    rcases List.mem_append.mp hw with hw | hw
    · exact touches_insertMembership hw hk
    · rw [List.mem_singleton.mp hw] at hk
      exact hk.elim
  | start | ensureAccount | returned | failed => cases hw

end CreateOrg

theorem createOrgWithOwner_annotated (env : Env) :
    Annotated (createOrgWithOwner env) CreateOrg.written CreateOrg.locks Write.touches where
  follows := by
    intro db p m h
    cases p <;> simp only [createOrgWithOwner] at h <;> try split at h
    all_goals try split at h
    all_goals cases h
    all_goals simp +contextual [Move.Follows, CreateOrg.written, CreateOrg.locks,
      CreateOrg.Tx.opening, CreateOrg.Tx.keys, CreateOrg.Tx.accountKeys, CreateOrg.Tx.rowKeys]
  covered := fun _ _ hw _ hk => CreateOrg.touches_written hw hk

/-! ## `update_org_fields` -/

structure UpdateOrg where
  org : OrgId
  actor : UserId
  newName : Option String
  newSlug : Option String
deriving DecidableEq

namespace UpdateOrg

inductive Outcome
  | updated
  | notFound
  | slugTaken
deriving DecidableEq

/-- A transaction that has locked the row, as it was. -/
structure Tx where
  r : UpdateOrg
  now : Time
  prev : Organization
deriving DecidableEq

inductive Phase
  | start (r : UpdateOrg)
  | probe (r : UpdateOrg) (now : Time)
  | lockRow (r : UpdateOrg) (now : Time)
  | reserve (t : Tx)
  | update (t : Tx)
  | audit (t : Tx)
  | commit (t : Tx)
  | returned (r : UpdateOrg) (outcome : Outcome)
  | failed
deriving DecidableEq

namespace Tx

def slug (t : Tx) : String := t.r.newSlug.getD t.prev.slug

def name (t : Tx) : String := t.r.newName.getD t.prev.name

def fields (t : Tx) : Write := .setOrgFields t.r.org t.slug t.name t.now

/-- One row for each field that has changed. -/
def entries (t : Tx) : List Write :=
  (if t.slug ≠ t.prev.slug then
    [.insertAudit ⟨t.r.org, some t.r.actor, .orgSlugChanged, t.now⟩] else []) ++
  (if t.name ≠ t.prev.name then
    [.insertAudit ⟨t.r.org, some t.r.actor, .orgRenamed, t.now⟩] else [])

def keys (t : Tx) : List Key :=
  [.slugRow (toAsciiLowercase t.slug), .slugRow (toAsciiLowercase t.prev.slug), .orgRow t.r.org]

end Tx

def written : Phase → List Write
  | .audit t => [t.fields]
  | .commit t => t.fields :: t.entries
  | _ => []

def locks : Phase → List Key
  | .reserve t => [.orgRow t.r.org]
  | .update t | .audit t | .commit t => t.keys
  | _ => []

end UpdateOrg

def updateOrgFields (db : Db) : UpdateOrg.Phase → Action UpdateOrg.Phase
  | .start r => some (.run [] [] (.probe r db.now))
  | .probe r now =>
    match r.newSlug with
    | none => some (.run [] [] (.lockRow r now))
    | some slug =>
      if !db.isLive r.org then some (.rollback (.returned r .notFound))
      else if db.slugHeld slug (some r.org) then some (.rollback (.returned r .slugTaken))
      else some (.run [] [] (.lockRow r now))
  | .lockRow r now =>
    match (db.org? r.org).filter Organization.live with
    | some prev => some (.run [.orgRow r.org] [] (.reserve ⟨r, now, prev⟩))
    | none => some (.rollback (.returned r .notFound))
  | .reserve t =>
    some (.run [.slugRow (toAsciiLowercase t.slug), .slugRow (toAsciiLowercase t.prev.slug)] []
      (.update t))
  | .update t =>
    if db.slugLive t.slug (some t.r.org) then some (.rollback (.returned t.r .slugTaken))
    else some (.run [] [t.fields] (.audit t))
  | .audit t => some (.run [] t.entries (.commit t))
  | .commit t => some (.commit (.returned t.r .updated))
  | .returned _ _ | .failed => none

namespace UpdateOrg

theorem touches_fields {t : Tx} {k : Key} (hk : t.fields.touches k) : k ∈ t.keys := by
  rcases hk with rfl | rfl
  · exact List.mem_cons_of_mem _ (List.mem_cons_of_mem _ List.mem_cons_self)
  · exact List.mem_cons_self

theorem not_touches_entries {t : Tx} {w : Write} {k : Key} (hw : w ∈ t.entries) :
    ¬w.touches k := by
  rcases List.mem_append.mp hw with hw | hw <;> split at hw
  · rw [List.mem_singleton.mp hw]
    exact id
  · cases hw
  · rw [List.mem_singleton.mp hw]
    exact id
  · cases hw

theorem touches_written {p : Phase} {w : Write} {k : Key} (hw : w ∈ written p)
    (hk : w.touches k) : k ∈ locks p := by
  cases p with
  | audit t => exact touches_fields (List.mem_singleton.mp hw ▸ hk)
  | commit t =>
    rcases List.mem_cons.mp hw with rfl | hw
    · exact touches_fields hk
    · exact absurd hk (not_touches_entries hw)
  | start | probe | lockRow | reserve | update | returned | failed => cases hw

end UpdateOrg

theorem updateOrgFields_annotated :
    Annotated updateOrgFields UpdateOrg.written UpdateOrg.locks Write.touches where
  follows := by
    intro db p m h
    cases p <;> simp only [updateOrgFields] at h <;> try split at h
    all_goals try split at h
    all_goals try split at h
    all_goals cases h
    all_goals simp +contextual [Move.Follows, UpdateOrg.written, UpdateOrg.locks,
      UpdateOrg.Tx.keys]
  covered := fun _ _ hw _ hk => UpdateOrg.touches_written hw hk

end Uptimepage.Orgs

import Uptimepage.Orgs.Quota

/-!
# An account is reopened

`restore_account` of `auth/account.rs`, statement by statement: it lifts the tombstones that are
not older than the user's.  An audit row is written with the statement it reports on.
-/

namespace Uptimepage.Orgs

open Sql

namespace RestoreAccount

inductive Outcome
  | restored (orgs : List OrgId)
  | notDeleted
deriving DecidableEq

/-- A transaction that has read when the account was closed. -/
structure Tx where
  user : UserId
  now : Time
  deletedAt : Time
deriving DecidableEq

inductive Phase
  | start (user : UserId)
  | lockUser (user : UserId) (now : Time)
  | read (user : UserId) (now : Time)
  | reopen (t : Tx)
  | select (t : Tx)
  | lift (t : Tx) (lifted rest : List OrgId)
  | commit (t : Tx) (lifted : List OrgId)
  | returned (user : UserId) (outcome : Outcome)
  | failed
deriving DecidableEq

namespace Tx

def reopen (t : Tx) : Write := .setUserDeleted t.user none

def lift (t : Tx) (org : OrgId) : List Write :=
  [.setOrgDeleted org none t.now,
    .insertAudit ⟨org, some t.user, .userDeletionRecovered, t.now⟩]

def lifts (t : Tx) (orgs : List OrgId) : List Write := t.reopen :: orgs.flatMap t.lift

def rowKeys (t : Tx) (orgs : List OrgId) : List Key :=
  orgs.map .orgRow ++ [.userRow t.user, .userDelete t.user]

end Tx

def written : Phase → List Write
  | .select t => t.lifts []
  | .lift t lifted _ | .commit t lifted => t.lifts lifted
  | _ => []

def locks : Phase → List Key
  | .read user _ => [.userDelete user]
  | .reopen t => [.userDelete t.user]
  | .select t => t.rowKeys []
  | .lift t lifted _ | .commit t lifted => t.rowKeys lifted
  | _ => []

end RestoreAccount

namespace Db

/-- A tombstone that is not older than `since`. -/
def fallen (db : Db) (since : Time) (org : OrgId) : Option Organization :=
  (db.org? org).filter fun o => o.deletedAt.any fun deletedAt => decide (since ≤ deletedAt)

/-- The user's own such organisations. -/
def fallenOf (db : Db) (user : UserId) (since : Time) : List OrgId :=
  (db.orgs.rows.filter fun o =>
    db.isOwner user o.id && (db.fallen since o.id).isSome).map Organization.id

end Db

/-- One `UPDATE` lifts the tombstones: its snapshot says which, and each row is looked at again
when it is locked.  A slug that a live organisation has by now breaks it off. -/
def restoreAccount (db : Db) : RestoreAccount.Phase → Action RestoreAccount.Phase
  | .start user => some (.run [] [] (.lockUser user db.now))
  | .lockUser user now => some (.run [.userDelete user] [] (.read user now))
  | .read user now =>
    match (db.users.get? user).bind User.deletedAt with
    | some deletedAt => some (.run [] [] (.reopen ⟨user, now, deletedAt⟩))
    | none => some (.rollback (.returned user .notDeleted))
  | .reopen t =>
    if (db.users.get? t.user).any fun u => u.deletedAt.isSome then
      some (.run [.userRow t.user] [t.reopen] (.select t))
    else some (.rollback (.returned t.user .notDeleted))
  | .select t => some (.run [] [] (.lift t [] (db.fallenOf t.user t.deletedAt)))
  | .lift t lifted (org :: rest) =>
    match db.fallen t.deletedAt org with
    | some o =>
      if db.slugLive o.slug (some org) then some (.rollback .failed)
      else
        some (.run [.orgRow org, .slugRow (toAsciiLowercase o.slug)] (t.lift org)
          (.lift t (lifted ++ [org]) rest))
    | none => some (.run [] [] (.lift t lifted rest))
  | .lift t lifted [] => some (.run [] [] (.commit t lifted))
  | .commit t lifted => some (.commit (.returned t.user (.restored lifted)))
  | .returned _ _ | .failed => none

namespace RestoreAccount

variable {t : Tx} {lifted : List OrgId} {w : Write} {k : Key}

theorem touches_lifts (hw : w ∈ t.lifts lifted) (hk : w.touches k) : k ∈ t.rowKeys lifted := by
  rcases List.mem_cons.mp hw with rfl | hw
  · exact List.mem_append_right _ (List.mem_cons.mpr (.inl hk))
  · obtain ⟨org, horg, hw⟩ := List.mem_flatMap.mp hw
    rcases List.mem_cons.mp hw with rfl | hw
    · exact List.mem_append_left _ (List.mem_map.mpr ⟨org, horg, hk.symm⟩)
    · rw [List.mem_singleton.mp hw] at hk
      exact hk.elim

theorem lifts_append (t : Tx) (lifted : List OrgId) (org : OrgId) :
    t.lifts (lifted ++ [org]) = t.lifts lifted ++ t.lift org := by
  unfold Tx.lifts
  rw [List.flatMap_append, List.flatMap_singleton, List.cons_append]

theorem follows (db : Db) (p : Phase) (m : Move Key Write Phase)
    (h : restoreAccount db p = some m) : m.Follows written locks p := by
  cases p with
  | lift t lifted rest =>
    cases rest with
    | nil =>
      cases h
      exact ⟨(List.append_nil _).symm, fun k hk => .inr hk⟩
    | cons org rest =>
      simp only [restoreAccount] at h
      split at h
      · split at h <;> cases h
        · exact ⟨rfl, rfl⟩
        · refine ⟨lifts_append t lifted org, fun k hk => ?_⟩
          simp only [locks, Tx.rowKeys, List.map_append, List.map_cons, List.map_nil,
            List.mem_append, List.mem_cons, List.not_mem_nil, or_false] at hk ⊢
          rcases hk with (hk | hk) | hk
          · exact .inr (.inl hk)
          · exact .inl (.inl hk)
          · exact .inr (.inr hk)
      · cases h
        exact ⟨(List.append_nil _).symm, fun k hk => .inr hk⟩
  | reopen t =>
    simp only [restoreAccount] at h
    split at h <;> cases h
    · refine ⟨rfl, fun k hk => ?_⟩
      rcases List.mem_cons.mp hk with rfl | hk
      · exact .inl (List.mem_singleton.mpr rfl)
      · exact .inr hk
    · exact ⟨rfl, rfl⟩
  | read user now =>
    simp only [restoreAccount] at h
    split at h <;> cases h
    · exact ⟨rfl, fun k hk => .inr hk⟩
    · exact ⟨rfl, rfl⟩
  | lockUser user now =>
    cases h
    exact ⟨rfl, fun k hk => .inl hk⟩
  | start | select =>
    cases h
    exact ⟨(List.append_nil _).symm, fun k hk => .inr hk⟩
  | commit =>
    cases h
    exact ⟨rfl, rfl⟩
  | returned | failed => cases h

end RestoreAccount

theorem restoreAccount_annotated :
    Annotated restoreAccount RestoreAccount.written RestoreAccount.locks Write.touches where
  follows := RestoreAccount.follows
  covered := by
    intro p w hw k hk
    cases p with
    | select | lift | commit => exact RestoreAccount.touches_lifts hw hk
    | start | lockUser | read | reopen | returned | failed => cases hw

end Uptimepage.Orgs

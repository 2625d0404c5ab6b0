import Uptimepage.Auth.MagicLink
import Uptimepage.Orgs.Members
import Uptimepage.Sql.Solo

/-!
# Invitations

The rows of `invitations` and the statements of `auth/invitations.rs` on them, and
`storage/orgs.rs::add_member` as one step: its transaction holds the lock of the account from
before its insert to its commit, and `solo_addMember` is that one step against its statements.
-/

namespace Uptimepage

open Sql

structure Invitation where
  id : Uuid
  orgId : OrgId
  inviterId : UserId
  email : String
  role : Orgs.Role
  tokenHash : String
  tokenPrefix : String
  createdAt : Time
  expiresAt : Time
  acceptedAt : Option Time
  declinedAt : Option Time
deriving DecidableEq

namespace Invitation

/-- The predicate of `idx_invitations_one_pending`. -/
def pending (r : Invitation) : Bool := r.acceptedAt.isNone && r.declinedAt.isNone

def redeemable (now : Time) (r : Invitation) : Bool := r.pending && decide (now < r.expiresAt)

def stamp (acceptedAt : Option Time) (r : Invitation) : Invitation := { r with acceptedAt }

def decline (now : Time) (r : Invitation) : Invitation := { r with declinedAt := some now }

/-- What no statement changes. -/
def bare (r : Invitation) : Invitation := { r with acceptedAt := none, declinedAt := none }

@[simp] theorem stamp_id (acceptedAt : Option Time) (r : Invitation) :
    (r.stamp acceptedAt).id = r.id := rfl

@[simp] theorem decline_id (now : Time) (r : Invitation) : (r.decline now).id = r.id := rfl

section

variable {r r' : Invitation}

theorem id_of_bare (h : r.bare = r'.bare) : r.id = r'.id :=
  show r.bare.id = r'.bare.id from congrArg Invitation.id h

theorem orgId_of_bare (h : r.bare = r'.bare) : r.orgId = r'.orgId :=
  show r.bare.orgId = r'.bare.orgId from congrArg Invitation.orgId h

theorem email_of_bare (h : r.bare = r'.bare) : r.email = r'.email :=
  show r.bare.email = r'.bare.email from congrArg Invitation.email h

theorem bare_of_pending (h : r.pending = true) : r.bare = r := by
  simp only [pending, Bool.and_eq_true, Option.isNone_iff_eq_none] at h
  obtain ⟨haccepted, hdeclined⟩ := h
  cases r
  cases haccepted
  cases hdeclined
  rfl

end

theorem stamp_of_pending {r : Invitation} (h : r.pending = true) : r.stamp none = r := by
  have hnone : r.acceptedAt = none := by
    simp only [pending, Bool.and_eq_true, Option.isNone_iff_eq_none] at h
    exact h.1
  rw [stamp, ← hnone]

end Invitation

structure NewInvitation where
  id : Uuid
  orgId : OrgId
  inviterId : UserId
  email : String
  role : Orgs.Role
  token : String
  tokenSalt : Nat
  /-- The clock of the process. -/
  appNow : Time
  expiryHours : Nat
  maxPending : Nat

/-- `lower` is that of `CITEXT`. -/
structure InvitationEnv where
  lower : String → String
  hashes : Hashes
  /-- `users.email`. -/
  emailOf : UserId → String

abbrev InvitationRows : Type := Rows Invitation.id

namespace InvitationRows

/-- A pending row of the organisation and the address, other than the one in `but`. -/
def held (env : InvitationEnv) (t : InvitationRows) (org : OrgId) (email : String)
    (but : Option Uuid) : Bool :=
  t.rows.any fun r => r.pending && r.orgId == org && env.lower r.email == env.lower email &&
    some r.id != but

def findPendingById (t : InvitationRows) (now : Time) (id : Uuid) : Option Invitation :=
  (t.get? id).filter (Invitation.redeemable now)

def findPendingByToken (env : InvitationEnv) (t : InvitationRows) (now : Time) (token : String) :
    Option Invitation :=
  (t.rows.filter fun r => r.tokenPrefix == slicePrefix token && r.redeemable now).find? fun r =>
    env.hashes.verify token r.tokenHash

/-- `WHERE id = $1 AND org_id = $2 AND p`. -/
def affects (t : InvitationRows) (org : OrgId) (id : Uuid) (p : Invitation → Bool) : Bool :=
  (t.get? id).any fun r => r.orgId == org && p r

def markAccepted (t : InvitationRows) (now : Time) (org : OrgId) (id : Uuid) : InvitationRows :=
  t.update (fun r => r.id == id && r.orgId == org && r.redeemable now)
    (Invitation.stamp (some now)) (Invitation.stamp_id (some now))

/-- `none` when the index refuses. -/
def unmarkAccepted (env : InvitationEnv) (t : InvitationRows) (org : OrgId) (id : Uuid) :
    Option InvitationRows :=
  if (t.get? id).any fun r => r.orgId == org && r.acceptedAt.isSome && r.declinedAt.isNone &&
      held env t org r.email (some id) then none
  else some (t.update (fun r => r.id == id && r.orgId == org && r.acceptedAt.isSome)
    (Invitation.stamp none) (Invitation.stamp_id none))

def markDeclined (t : InvitationRows) (now : Time) (org : OrgId) (id : Uuid) : InvitationRows :=
  t.update (fun r => r.id == id && r.orgId == org && r.redeemable now)
    (Invitation.decline now) (Invitation.decline_id now)

def revoke (t : InvitationRows) (org : OrgId) (id : Uuid) : InvitationRows :=
  t.delete fun r => r.id == id && r.orgId == org && r.pending

def countPending (t : InvitationRows) (db : Orgs.Db) (account : Orgs.AccountId) : Nat :=
  (t.rows.filter fun r => (db.liveOrgs account).contains r.orgId && r.redeemable db.now).length

/-- The row that `create` inserts, unless it refuses.  It holds the lock of the account. -/
def create? (env : InvitationEnv) (t : InvitationRows) (db : Orgs.Db) (new : NewInvitation) :
    Option Invitation :=
  match db.accountForOrg new.orgId with
  | none => none
  | some account =>
    if held env t new.orgId new.email none then none
    else if new.maxPending ≤ countPending t db account then none
    else
      some {
        id := new.id
        orgId := new.orgId
        inviterId := new.inviterId
        email := new.email
        role := new.role
        tokenHash := env.hashes.hash new.tokenSalt new.token
        tokenPrefix := slicePrefix new.token
        createdAt := db.now
        expiresAt := new.appNow + seconds (new.expiryHours * 3600)
        acceptedAt := none
        declinedAt := none }

end InvitationRows

namespace InvitationRows

variable {env : InvitationEnv} {t : InvitationRows} {now : Time} {org : OrgId} {id : Uuid}
  {row : Invitation}

theorem findPendingById_some (h : t.findPendingById now id = some row) :
    row ∈ t.rows ∧ row.redeemable now = true := by
  obtain ⟨hget, hrow⟩ := Option.filter_eq_some_iff.mp h
  exact ⟨(Rows.get?_eq_some.1 hget).1, hrow⟩

theorem findPendingByToken_some {token : String}
    (h : findPendingByToken env t now token = some row) :
    row ∈ t.rows ∧ row.redeemable now = true := by
  obtain ⟨hmem, hrow⟩ := List.mem_filter.mp (List.mem_of_find?_eq_some h)
  exact ⟨hmem, (Bool.and_eq_true_iff.mp hrow).2⟩

theorem affects_iff {p : Invitation → Bool} :
    t.affects org id p = true ↔ ∃ r ∈ t.rows, r.id = id ∧ r.orgId = org ∧ p r = true := by
  unfold affects
  rw [Option.any_eq_true]
  constructor
  · rintro ⟨r, hget, hcond⟩
    obtain ⟨hr, hid⟩ := Rows.get?_eq_some.1 hget
    obtain ⟨horg, hp⟩ := Bool.and_eq_true_iff.mp hcond
    exact ⟨r, hr, hid, beq_iff_eq.mp horg, hp⟩
  · rintro ⟨r, hr, hid, horg, hp⟩
    exact ⟨r, Rows.get?_eq_some.2 ⟨hr, hid⟩, by rw [horg, hp]; simp⟩

theorem markAccepted_of_not_affects
    (h : t.affects org id (Invitation.redeemable now) = false) : t.markAccepted now org id = t := by
  refine Rows.ext (Table.update_of_find?_none (List.find?_eq_none.mpr fun r hr hcond => ?_))
  simp only [Bool.and_eq_true, beq_iff_eq] at hcond
  have hthere := affects_iff.2 ⟨r, hr, hcond.1.1, hcond.1.2, hcond.2⟩
  rw [h] at hthere
  cases hthere

end InvitationRows

/-! ## A seat -/

namespace Orgs

def Db.addMember (db : Db) (r : AddMember) (maxMembers : Int) : Db × AddMember.Outcome :=
  match db.accountForOrg r.org with
  | none => (db, .orgNotFound)
  | some account =>
    if (db.membership? r.user r.org).isSome then (db, .alreadyMember)
    else
      let inserted := db.apply (.insertMembership (r.row db.now))
      let members : Int := inserted.countMembers account
      if members > maxMembers then (db, .limitReached (members - 1) maxMembers)
      else (inserted.apply (.insertAudit ⟨r.org, some r.actor, .memberAdded, db.now⟩), .added)

/-- **`Db.addMember` is what the statements of `addMember` do with nobody else about.** -/
theorem solo_addMember {env : Env} {db : Db} {r : AddMember} {account : AccountId}
    (h : db.accountForOrg r.org = some account) :
    solo Db.apply (addMember env) 6 db [] (.start r) =
      some ((db.addMember r (env.plan account).memberLimit).1,
        .returned (db.addMember r (env.plan account).memberLimit).2) := by
  have hstart : addMember env db (.start r) = some (.run [] [] (.lockAccount r db.now account)) := by
    simp only [addMember, h]
  rw [solo_run hstart, solo_run (by rfl)]
  unfold Db.addMember
  rw [h]
  dsimp only
  split
  · next hmember =>
    have hinsert : addMember env db (.insert r db.now account) =
        some (.rollback (.returned .alreadyMember)) := if_pos hmember
    rw [solo_rollback hinsert, solo_end (by rfl)]
  · next hmember =>
    have hinsert : addMember env db (.insert r db.now account) =
        some (.run [.membershipRow r.user r.org] [.insertMembership (r.row db.now)]
          (.count r db.now account)) := if_neg hmember
    rw [solo_run hinsert]
    split
    · next hover =>
      have hcount : addMember env (db.apply (.insertMembership (r.row db.now)))
          (.count r db.now account) = some (.rollback (.returned (.limitReached
            (((db.apply (.insertMembership (r.row db.now))).countMembers account : Int) - 1)
            (env.plan account).memberLimit))) := if_pos hover
      rw [solo_rollback hcount, solo_end (by rfl)]
    · next hfits =>
      have hcount : addMember env (db.apply (.insertMembership (r.row db.now)))
          (.count r db.now account) = some (.run []
            [.insertAudit ⟨r.org, some r.actor, .memberAdded, db.now⟩] (.commit r db.now account)) :=
        if_neg hfits
      rw [solo_run hcount, solo_commit (by rfl), solo_end (by rfl)]
      rfl

/-- The request's user is a member of the organisation afterwards. -/
def AddMember.Outcome.joins : AddMember.Outcome → Bool
  | .added | .alreadyMember => true
  | _ => false

variable {db : Db} {r : AddMember} {maxMembers : Int}

theorem membership?_insertMembership (db : Db) (row : Membership) :
    ((db.apply (.insertMembership row)).membership? row.userId row.orgId).isSome = true := by
  cases h : db.memberships.get? row.key with
  | none =>
    have hmem : row ∈ (db.memberships.insert row).rows := Rows.mem_insert_self h
    exact Option.isSome_iff_exists.mpr ⟨row, Rows.get?_eq_some.2 ⟨hmem, rfl⟩⟩
  | some m => exact Option.isSome_iff_exists.mpr ⟨m, Rows.get?_insert_of_some h⟩

theorem Db.addMember_joins (h : (db.addMember r maxMembers).2.joins = true) :
    ((db.addMember r maxMembers).1.membership? r.user r.org).isSome = true := by
  unfold addMember at h ⊢
  split at h <;> dsimp only at h ⊢
  · cases h
  · split at h
    · next hmember => rwa [if_pos hmember]
    · next hmember =>
      rw [if_neg hmember]
      split at h
      · cases h
      · next hfits =>
        rw [if_neg hfits]
        exact membership?_insertMembership db (r.row db.now)

theorem Db.addMember_refused (h : (db.addMember r maxMembers).2.joins = false) :
    (db.addMember r maxMembers).1 = db := by
  unfold addMember at h ⊢
  split at h <;> dsimp only at h ⊢
  split at h
  · cases h
  · next hmember =>
    rw [if_neg hmember]
    split at h
    · next hover => rw [if_pos hover]
    · cases h

theorem Db.addMember_limitReached (horg : (db.org? r.org).isSome = true)
    (h : (db.addMember r maxMembers).2.joins = false) :
    ∃ current limit, (db.addMember r maxMembers).2 = .limitReached current limit := by
  obtain ⟨org, horg⟩ := Option.isSome_iff_exists.mp horg
  have haccount : db.accountForOrg r.org = some org.accountId := by rw [accountForOrg, horg]; rfl
  unfold addMember at h ⊢
  rw [haccount] at h ⊢
  dsimp only at h ⊢
  split at h
  · cases h
  · next hmember =>
    rw [if_neg hmember]
    split at h
    · next hover =>
      rw [if_pos hover]
      exact ⟨_, _, rfl⟩
    · cases h

theorem Db.addMember_kept (db : Db) (r : AddMember) (maxMembers : Int) :
    (db.addMember r maxMembers).1.orgs = db.orgs ∧ (db.addMember r maxMembers).1.users = db.users ∧
      ∀ user org, (db.membership? user org).isSome = true →
        ((db.addMember r maxMembers).1.membership? user org).isSome = true := by
  unfold addMember
  split <;> dsimp only
  · exact ⟨rfl, rfl, fun _ _ h => h⟩
  · split
    · exact ⟨rfl, rfl, fun _ _ h => h⟩
    · split
      · exact ⟨rfl, rfl, fun _ _ h => h⟩
      · refine ⟨rfl, rfl, fun user org h => ?_⟩
        obtain ⟨m, hm⟩ := Option.isSome_iff_exists.mp h
        exact Option.isSome_iff_exists.mpr ⟨m, Rows.get?_insert_of_some hm⟩

end Orgs

end Uptimepage

import Uptimepage.Orgs.Quota

/-!
# Members come

`add_member` of `storage/orgs.rs`, statement by statement.  An audit row is written with the
statement it reports on.  `now()` is when the transaction began, so each phase carries it.
-/

namespace Uptimepage.Orgs

open Sql

/-! ## `add_member` -/

structure AddMember where
  org : OrgId
  actor : UserId
  user : UserId
  role : Role
deriving DecidableEq

namespace AddMember

inductive Outcome
  | added
  | alreadyMember
  | limitReached (current limit : Int)
  | orgNotFound
deriving DecidableEq

inductive Phase
  | start (r : AddMember)
  | lockAccount (r : AddMember) (now : Time) (account : AccountId)
  | insert (r : AddMember) (now : Time) (account : AccountId)
  | count (r : AddMember) (now : Time) (account : AccountId)
  | commit (r : AddMember) (now : Time) (account : AccountId)
  | returned (outcome : Outcome)
deriving DecidableEq

def row (r : AddMember) (now : Time) : Membership := ⟨r.user, r.org, r.role, now⟩

end AddMember

def addMember (env : Env) (db : Db) : AddMember.Phase → Action AddMember.Phase
  | .start r =>
    match db.accountForOrg r.org with
    | some account => some (.run [] [] (.lockAccount r db.now account))
    | none => some (.rollback (.returned .orgNotFound))
  | .lockAccount r now account => some (.run [.account account] [] (.insert r now account))
  | .insert r now account =>
    if (db.membership? r.user r.org).isSome then some (.rollback (.returned .alreadyMember))
    else
      some (.run [.membershipRow r.user r.org] [.insertMembership (r.row now)]
        (.count r now account))
  | .count r now account =>
    let members : Int := db.countMembers account
    let limit := (env.plan account).memberLimit
    if members > limit then some (.rollback (.returned (.limitReached (members - 1) limit)))
    else
      some (.run [] [.insertAudit ⟨r.org, some r.actor, .memberAdded, now⟩] (.commit r now account))
  | .commit _ _ _ => some (.commit (.returned .added))
  | .returned _ => none

end Uptimepage.Orgs

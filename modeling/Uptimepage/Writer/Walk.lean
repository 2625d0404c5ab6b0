import Mathlib.Data.Prod.Lex
import Uptimepage.Sql.Keyset
import Uptimepage.Sql.Rows
import Uptimepage.Writer.Decide

/-!
# The writer's walk over the monitors

One `tick_once` of the incident writer: it reads the enabled monitors of every live organisation
page by page and goes on from the last monitor of each page.  `next_enabled_target_page` leaves
out the rows that do not decode, and reads on from the last raw row when a whole page does not, so
that an empty page means that there is nothing left.
-/

namespace Uptimepage

open Sql

/-- `TargetRow` with its organisation.  `regionPolicy` is `none` where the column does not
parse. -/
structure OrgTargetRow where
  orgId : OrgId
  id : Uuid
  checkSpec : String
  intervalSecs : Int
  enabled : Bool
  alerts : String
  regionPolicy : Option RegionIncidentPolicy
  alertConfirmations : Int
  planHoldAt : Option Time
deriving DecidableEq

structure OrganizationRow where
  id : OrgId
  deletedAt : Option Time
deriving DecidableEq

/-- `organizations` and `targets`, each with its primary key. -/
structure WalkDb where
  organizations : Rows OrganizationRow.id
  targets : Rows OrgTargetRow.id

/-- `PublicTargetCursor`, in the order of `(org_id, id)`. -/
abbrev PublicTargetCursor := OrgId ×ₗ Uuid

def PublicTargetCursor.after (orgId : OrgId) (targetId : Uuid) : PublicTargetCursor :=
  toLex (orgId, targetId)

def OrgTargetRow.key (r : OrgTargetRow) : PublicTargetCursor := .after r.orgId r.id

/-- `t.enabled = true AND o.deleted_at IS NULL AND t.plan_hold_at IS NULL`, with the join. -/
def WalkDb.watched (db : WalkDb) (r : OrgTargetRow) : Bool :=
  r.enabled && (db.organizations.get? r.orgId).any (·.deletedAt.isNone) && r.planHoldAt.isNone

namespace TargetWalk

section

variable (readable : OrgTargetRow → Bool)

/-- `decode_target_row`; `readable` says that the check spec decrypts and parses, and that the
alerts parse. -/
def decodeTargetRow (r : OrgTargetRow) : Option (OrgId × ProbedTarget) :=
  if readable r then
    some (r.orgId, {
      id := r.id
      interval := (max r.intervalSecs 0).toNat
      alertConfirmations := (max r.alertConfirmations 1).toNat
      regionPolicy := r.regionPolicy.getD .majority })
  else none

def decodeTargetsSkipping (rows : List OrgTargetRow) : List (OrgId × ProbedTarget) :=
  rows.filterMap (decodeTargetRow readable)

variable (floor : OrgId → ProbedTarget → Nat)

end

/-! ## One page -/

section

variable {readable : OrgTargetRow → Bool} {floor : OrgId → ProbedTarget → Nat} {db : WalkDb}
  {limit fuel : Nat} {cursor : Option PublicTargetCursor} {r : OrgTargetRow} {t : OrgId × ProbedTarget}

/-- What the walk has still to read. -/
def toRead (db : WalkDb) (cursor : Option PublicTargetCursor) : List OrgTargetRow :=
  Keyset.rest OrgTargetRow.key cursor (db.targets.rows.filter db.watched)

/-- What a page of the walk is: all that is left to read, undecodable, or the first rows of it
down to a decodable one. -/
inductive Paged (readable : OrgTargetRow → Bool) (db : WalkDb)
    (cursor : Option PublicTargetCursor) : List (OrgId × ProbedTarget) → Prop
  | done (none : decodeTargetsSkipping readable (toRead db cursor) = []) : Paged readable db cursor []
  | page {pre post : List OrgTargetRow} {last : OrgTargetRow} {t : OrgId × ProbedTarget}
      (split : toRead db cursor = pre ++ last :: post)
      (decodes : decodeTargetRow readable last = some t) :
      Paged readable db cursor (decodeTargetsSkipping readable pre ++ [t])

end

namespace One

def row (orgId : OrgId) (id : Uuid) (checkSpec : String) : OrgTargetRow where
  orgId := orgId
  id := id
  checkSpec := checkSpec
  intervalSecs := 60
  enabled := true
  alerts := ""
  regionPolicy := none
  alertConfirmations := 2
  planHoldAt := none

def readable (r : OrgTargetRow) : Bool := r.checkSpec ≠ ""

/-- Organisation 1 has monitors 5 and 6, of which 5 does not decode. -/
def db : WalkDb where
  organizations := ⟨[⟨1, none⟩], by decide⟩
  targets := ⟨[row 1 6 "http", row 1 5 ""], by decide⟩

def deleted : WalkDb where
  organizations := ⟨[⟨2, some 0⟩], by decide⟩
  targets := ⟨[row 2 7 "http"], by decide⟩

end One

end TargetWalk

end Uptimepage

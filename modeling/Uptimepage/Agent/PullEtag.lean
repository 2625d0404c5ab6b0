import Mathlib
import Uptimepage.Agent.RegionPull
import Uptimepage.Async.Run
import Uptimepage.Secrets.Crypto
import Uptimepage.Series.Runs
import Uptimepage.Variables.Deletes

/-!
# The validator of a region's pull

`region_pull_etag` and the pull it stands for: `list_enabled_targets_for_region`, the variables
put into a check, and the plan's floor under its interval (`quotas/effective.rs`).
-/

namespace Uptimepage.RegionPull

open Async Sql Targets Variables

/-! ## What is printed -/

def hexDigits : List Char := "0123456789abcdef".toList

/-- Functions of the database and of the hash crate. -/
structure Printer where
  /-- `id::text`. -/
  uuidText : Uuid → String
  uuidText_injective : Function.Injective uuidText
  uuidText_chars : ∀ id, ∀ c ∈ (uuidText id).toList, c ∈ '-' :: hexDigits
  /-- `extract(epoch from t)::text`. -/
  epochText : Time → String
  epochText_injective : Function.Injective epochText
  epochText_chars : ∀ t, ∀ c ∈ (epochText t).toList, c ∈ '-' :: '.' :: hexDigits
  md5 : String → String
  md5_chars : ∀ s, ∀ c ∈ (md5 s).toList, c ∈ hexDigits
  sha256Hex : String → String
  sha256Hex_chars : ∀ s, ∀ c ∈ (sha256Hex s).toList, c ∈ hexDigits
  /-- `check_spec->>'type'`. -/
  kindOf : String → Option String

structure VariableRow where
  id : Uuid
  orgId : OrgId
  key : String
  isSecret : Bool
  value : String
  updatedAt : Time
deriving DecidableEq

/-- The tables a pull reads, and the plans that are resolved for it. -/
structure World (pr : Printer) (Region : Type) where
  db : Db Region
  /-- `kind` is a generated column. -/
  generated : ∀ t ∈ db.targets.rows, t.kind = pr.kindOf t.checkSpec
  orgVariables : Rows VariableRow.id
  /-- `UNIQUE (org_id, key)`. -/
  keyed : ∀ v ∈ orgVariables.rows, ∀ v' ∈ orgVariables.rows,
    v.orgId = v'.orgId → v.key = v'.key → v = v'
  limitForOrg : OrgId → Option Plan
  /-- Plans are what the migrations seed. -/
  planIds : ∀ org, ∀ p ∈ limitForOrg org, ',' ∉ p.id.toList

/-! ## The pull -/

/-- The kinds that interpolate, and the others. -/
inductive Check
  | http (http : Variables.HttpCheck)
  | flow (flow : Variables.FlowCheck)
  | other (check : Targets.CheckSpec)
deriving DecidableEq

namespace Check

def kind : Check → String
  | http _ => "http"
  | flow _ => "flow"
  | other check => check.kind

def isPassive : Check → Bool
  | other check => check.isPassive
  | _ => false

/-- `spec_uses_vars`. -/
def usesVars : Check → Bool
  | http check => check.usesVars
  | flow check => check.usesVars
  | other _ => false

def resolve (env : Env) (vars : VarMap) : Check → Except ResolveError Check
  | http check => (resolveHttpSpec env check vars).map http
  | flow check => (resolveFlowSpec check vars).map flow
  | other check => .ok (other check)

end Check

/-- What an agent acts on; the check has the timeout. -/
structure Target where
  id : Uuid
  check : Check
  interval : Nat
  enabled : Bool
deriving DecidableEq

/-- How stored texts are read. -/
structure Reader where
  /-- `decrypt_in_place`, then `serde_json`. -/
  decodeCheck : Uuid → String → Option Check
  decodeAlerts : String → Bool
  env : Env
  cipher : Option Secrets.Cipher

namespace Reader
variable (rd : Reader)

def decodeTargetRow (t : TargetRow) : Option (OrgId × Target) :=
  (rd.decodeCheck t.id t.checkSpec).bind fun check =>
    if rd.decodeAlerts t.alerts then
      some (t.orgId, { id := t.id, check, interval := t.intervalSecs.toNat, enabled := t.enabled })
    else none

/-- A secret that cannot be opened is left out; a key is an org's once. -/
def resolveMap (vars : List VariableRow) (org : OrgId) : VarMap := fun key =>
  (vars.find? fun v => v.orgId == org && v.key == key).bind fun v =>
    if v.isSecret then (Secrets.openStr rd.cipher v.value).map fun value => ⟨value, true⟩
    else some ⟨v.value, false⟩

/-- One turn of the loop of `resolve_target_variables`. -/
def resolveTarget (vars : List VariableRow) (x : OrgId × Target) : Option (OrgId × Target) :=
  if x.2.check.usesVars then
    (x.2.check.resolve rd.env (rd.resolveMap vars x.1)).toOption.map fun check =>
      (x.1, { x.2 with check })
  else some x

end Reader

namespace World
variable {pr : Printer} {Region : Type} [LinearOrder Region] (w : World pr Region)

def plans (region : Region) : PlanMap := resolvePlans w.limitForOrg (w.db.regionOrgIds region)

/-- The rows of the pull.  The query has no order; its rows are taken by id. -/
def rows (region : Region) (flowCapable : Bool) : List TargetRow :=
  inOrder TargetRow.id (w.db.pullRows region flowCapable (.ofPlans (w.plans region)))

/-- The rows that are digested, `ORDER BY t.id`. -/
def digestRows (region : Region) : List TargetRow :=
  inOrder TargetRow.id (w.db.etagRows region (.ofPlans (w.plans region)))

def targetText (region : Region) : String :=
  ",".intercalate ((w.digestRows region).map fun t => pr.uuidText t.id ++ ":" ++ pr.md5 t.checkSpec)

def regionVariables (region : Region) : List VariableRow :=
  let orgs := (w.db.targets.rows.filter fun t2 =>
    w.db.assigned t2.id region && t2.enabled && t2.planHoldAt.isNone).map TargetRow.orgId
  inOrder VariableRow.id (w.orgVariables.rows.filter fun v => decide (v.orgId ∈ orgs))

def variableText (region : Region) : String :=
  ",".intercalate ((w.regionVariables region).map fun v =>
    pr.uuidText v.id ++ ":" ++ pr.epochText v.updatedAt)

end World

/-! ## What the etag says of a state -/

section Digest
variable {pr : Printer} {Region : Type} [LinearOrder Region] (w w' : World pr Region)
  (region : Region)

/-- What MD5 is taken of. -/
def World.hashed : List String :=
  w.targetText region :: w.variableText region ::
    (w.digestRows region).map TargetRow.checkSpec

end Digest

section Digest
variable {pr : Printer}

variable {x : String}

variable {Region : Type} [LinearOrder Region] {w w' : World pr Region} {region : Region}

variable {flowCapable : Bool} {t t' : TargetRow}

/-- What of a served row the digest does not show. -/
def TargetRow.unseen (t : TargetRow) : Uuid × OrgId × Int × String × Time :=
  (t.id, t.orgId, t.intervalSecs, t.alerts, t.updatedAt)

def World.stamps (w : World pr Region) : List Time :=
  w.db.targets.rows.map TargetRow.updatedAt ++ w.orgVariables.rows.map VariableRow.updatedAt

/-- The state after some commits, with every `updated_at` that was committed so far. -/
structure History (pr : Printer) (Region : Type) where
  world : World pr Region
  stamps : List Time

namespace History

def start (w : World pr Region) : History pr Region := ⟨w, w.stamps⟩

/-- A transaction commits: the tables are as it leaves them. -/
def commit (s : History pr Region) (w : World pr Region) : Option (History pr Region) :=
  some ⟨w, s.stamps ++ w.stamps⟩

/-- The millisecond is newer than that of every stamp committed before. -/
def Passes (s : History pr Region) (t : Time) : Prop := ∀ x ∈ s.stamps, x / 1000 < t / 1000

instance (s : History pr Region) : DecidablePred s.Passes :=
  fun _ => inferInstanceAs (Decidable (∀ _ ∈ _, _))

/-- The commit stamps the variables it writes, and the targets in which it writes more than the
digest shows, past all that was committed before. -/
def Stamped (s : History pr Region) (w : World pr Region) : Prop :=
  (∀ t' ∈ w.db.targets.rows,
    t'.unseen ∈ s.world.db.targets.rows.map TargetRow.unseen ∨ s.Passes t'.updatedAt) ∧
  ∀ v' ∈ w.orgVariables.rows, v' ∈ s.world.orgVariables.rows ∨ s.Passes v'.updatedAt

instance (s : History pr Region) : DecidablePred s.Stamped :=
  fun _ => inferInstanceAs (Decidable ((∀ _ ∈ _, _) ∧ ∀ _ ∈ _, _))

/-- What is in a later state and not in an earlier one is stamped later. -/
structure Since (s s' : History pr Region) : Prop where
  stamps : s.stamps ⊆ s'.stamps
  targets : ∀ t' ∈ s'.world.db.targets.rows,
    t'.unseen ∈ s.world.db.targets.rows.map TargetRow.unseen ∨ s.Passes t'.updatedAt
  vars : ∀ v' ∈ s'.world.orgVariables.rows,
    v' ∈ s.world.orgVariables.rows ∨ s.Passes v'.updatedAt

variable {s s' u : History pr Region}

end History

/-! ## What one etag leaves unchanged -/

variable {s s' : History pr Region}

end Digest

namespace Late

def spec : String := "\x7b\"host\": \"db\", \"port\": 5432, \"type\": \"tcp\"\x7d"

def md5 (s : String) : String :=
  if s = "" then "d41d8cd98f00b204e9800998ecf8427e"
  else if s = spec then "b0630a8a0234cbfee8e30b38e9f9ea9b"
  else if s = "1:b0630a8a0234cbfee8e30b38e9f9ea9b,2:b0630a8a0234cbfee8e30b38e9f9ea9b"
  then "192f0e44cb2eb769ce15dc2b030e977a"
  else "0"

def sha256Hex (s : String) : String :=
  if s = "5:free:60:3" then "3dd02b41367369e767d6896aac867e179fab0ea75b83050b29fdf32e28759c83"
  else "0"

theorem hex_of_all {text : String} (h : (text.toList.all fun c => hexDigits.contains c) = true) :
    ∀ c ∈ text.toList, c ∈ hexDigits := fun c hc =>
  List.contains_iff_mem.mp (List.all_eq_true.mp h c hc)

theorem mem_hexDigits_of_isDigit {c : Char} (h : c.isDigit = true) : c ∈ hexDigits := by
  have hrange : 48 ≤ c.toNat ∧ c.toNat ≤ 57 := by
    unfold Char.isDigit at h
    simp only [ge_iff_le, Bool.and_eq_true, decide_eq_true_eq] at h
    exact h
  have hchar : c = Char.ofNat c.toNat := (Char.ofNat_toNat c).symm
  rw [hchar]
  obtain ⟨hlow, hhigh⟩ := hrange
  generalize c.toNat = n at hlow hhigh
  interval_cases n <;> decide

theorem toString_chars (n : Nat) : ∀ c ∈ (toString n).toList, c ∈ hexDigits := by
  intro c hc
  have hrepr : (toString n).toList = Nat.toDigits 10 n := Nat.toList_repr
  rw [hrepr] at hc
  exact mem_hexDigits_of_isDigit (Nat.isDigit_of_mem_toDigits (by decide) (by decide) hc)

def printer : Printer where
  uuidText id := toString id
  uuidText_injective := fun _ _ h => Nat.repr_injective h
  uuidText_chars id c hc := List.mem_cons_of_mem _ (toString_chars id c hc)
  epochText t := toString t
  epochText_injective := fun _ _ h => Int.repr_injective h
  epochText_chars := by
    intro t c hc
    cases t with
    | ofNat n =>
      exact List.mem_cons_of_mem _ (List.mem_cons_of_mem _ (toString_chars n c hc))
    | negSucc n =>
      have hc : c ∈ ("-" ++ toString (n + 1)).toList := hc
      rw [String.toList_append] at hc
      rcases List.mem_append.mp hc with hc | hc
      · obtain rfl := List.mem_singleton.mp hc
        exact List.mem_cons_self
      · exact List.mem_cons_of_mem _ (List.mem_cons_of_mem _ (toString_chars (n + 1) c hc))
  md5 := md5
  md5_chars := by
    intro s
    unfold md5
    split
    · exact hex_of_all (by decide)
    · split
      · exact hex_of_all (by decide)
      · split
        · exact hex_of_all (by decide)
        · exact hex_of_all (by decide)
  sha256Hex := sha256Hex
  sha256Hex_chars := by
    intro s
    unfold sha256Hex
    split
    · exact hex_of_all (by decide)
    · exact hex_of_all (by decide)
  kindOf s := if s = spec then some "tcp" else none

/-- Target 1 is set to the interval at the time, target 2 was written at 2 s, and target 3, which
is paused, if at all later. -/
def world (intervalSecs : Int) (updatedAt : Time) (paused : Bool) : World printer Nat where
  db :=
    { One.db with targets := ⟨[⟨1, 5, spec, some "tcp", intervalSecs, true, "", none, updatedAt⟩,
        ⟨2, 5, spec, some "tcp", 60, true, "", none, 2000000⟩] ++
        if paused then [⟨3, 5, spec, some "tcp", 60, false, "", none, 4000000⟩] else [],
        by cases paused <;> simp⟩ }
  generated := by cases paused <;> simp [printer]
  orgVariables := ⟨[], by simp⟩
  keyed := by simp
  limitForOrg _ := some ⟨"free", 60, 3⟩
  planIds := by
    rintro org p ⟨⟩
    decide

def before : World printer Nat := world 60 1000000 false

/-- The transaction that made the change began at 1.5 s. -/
def after : World printer Nat := world 300 1500000 false

/-- It began at 3 s. -/
def inTurn : World printer Nat := world 300 3000000 false

/-- Then a paused target is written. -/
def paused : World printer Nat := world 300 3000000 true

end Late

end Uptimepage.RegionPull

import Mathlib.Data.Finset.Basic
import Mathlib.Data.List.Sort
import Uptimepage.Domain.Text

/-!
# Scopes

`auth/scope.rs`, and the scopes a connector may be granted (`oauth/mod.rs`).
-/

namespace Uptimepage

inductive Scope
  | targetsRead
  | targetsWrite
  | targetsDelete
  | targetsExecute
  | channelsRead
  | channelsWrite
  | channelsDelete
  | channelsExecute
  | incidentsRead
  | incidentsWrite
  | onCallRead
  | onCallWrite
  | maintenanceRead
  | maintenanceWrite
  | maintenanceDelete
  | statusPageRead
  | statusPageWrite
  | statusPageDelete
  | variablesRead
  | variablesWrite
  | fullAccess
deriving DecidableEq

namespace Scope

def asStr : Scope → String
  | targetsRead => "targets:read"
  | targetsWrite => "targets:write"
  | targetsDelete => "targets:delete"
  | targetsExecute => "targets:execute"
  | channelsRead => "channels:read"
  | channelsWrite => "channels:write"
  | channelsDelete => "channels:delete"
  | channelsExecute => "channels:execute"
  | incidentsRead => "incidents:read"
  | incidentsWrite => "incidents:write"
  | onCallRead => "oncall:read"
  | onCallWrite => "oncall:write"
  | maintenanceRead => "maintenance:read"
  | maintenanceWrite => "maintenance:write"
  | maintenanceDelete => "maintenance:delete"
  | statusPageRead => "status_page:read"
  | statusPageWrite => "status_page:write"
  | statusPageDelete => "status_page:delete"
  | variablesRead => "variables:read"
  | variablesWrite => "variables:write"
  | fullAccess => "full_access"

def parse : String → Option Scope
  | "targets:read" => some targetsRead
  | "targets:write" => some targetsWrite
  | "targets:delete" => some targetsDelete
  | "targets:execute" => some targetsExecute
  | "channels:read" => some channelsRead
  | "channels:write" => some channelsWrite
  | "channels:delete" => some channelsDelete
  | "channels:execute" => some channelsExecute
  | "incidents:read" => some incidentsRead
  | "incidents:write" => some incidentsWrite
  | "oncall:read" => some onCallRead
  | "oncall:write" => some onCallWrite
  | "maintenance:read" => some maintenanceRead
  | "maintenance:write" => some maintenanceWrite
  | "maintenance:delete" => some maintenanceDelete
  | "status_page:read" => some statusPageRead
  | "status_page:write" => some statusPageWrite
  | "status_page:delete" => some statusPageDelete
  | "variables:read" => some variablesRead
  | "variables:write" => some variablesWrite
  | "full_access" => some fullAccess
  | _ => none

def all : List Scope :=
  [targetsRead, targetsWrite, targetsDelete, targetsExecute, channelsRead, channelsWrite,
    channelsDelete, channelsExecute, incidentsRead, incidentsWrite, onCallRead, onCallWrite,
    maintenanceRead, maintenanceWrite, maintenanceDelete, statusPageRead, statusPageWrite,
    statusPageDelete, variablesRead, variablesWrite, fullAccess]

theorem mem_all (s : Scope) : s ∈ all := by
  cases s <;> decide

theorem parse_asStr (s : Scope) : parse s.asStr = some s := by
  cases s <;> rfl

/-- The write scope that subsumes this read scope. -/
def impliedByWrite : Scope → Option Scope
  | targetsRead => some targetsWrite
  | channelsRead => some channelsWrite
  | incidentsRead => some incidentsWrite
  | onCallRead => some onCallWrite
  | maintenanceRead => some maintenanceWrite
  | statusPageRead => some statusPageWrite
  | variablesRead => some variablesWrite
  | _ => none

end Scope

abbrev ScopeSet := Finset Scope

namespace ScopeSet

/-- Unknown strings are dropped. -/
def fromStrs (strs : List String) : ScopeSet := (strs.filterMap Scope.parse).toFinset

/-- `full_access` grants everything, and a write scope the matching read. -/
def allows (s : ScopeSet) (required : Scope) : Bool :=
  decide (Scope.fullAccess ∈ s) || decide (required ∈ s) ||
    required.impliedByWrite.any fun w => decide (w ∈ s)

theorem mem_fromStrs {strs : List String} {s : Scope} :
    s ∈ fromStrs strs ↔ ∃ str ∈ strs, Scope.parse str = some s := by
  simp [fromStrs]

theorem fromStrs_map_asStr (l : List Scope) : fromStrs (l.map Scope.asStr) = l.toFinset := by
  ext s
  simp [mem_fromStrs, Scope.parse_asStr]

/-- Sorted, whatever order the set lists its members in. -/
def toStrings (s : ScopeSet) : List String :=
  ((Scope.all.filter (· ∈ s)).map Scope.asStr).insertionSort (· ≤ ·)

theorem fromStrs_perm {strs strs' : List String} (h : strs.Perm strs') :
    fromStrs strs = fromStrs strs' := by
  ext s
  simp only [mem_fromStrs, h.mem_iff]

theorem fromStrs_toStrings (s : ScopeSet) : fromStrs s.toStrings = s := by
  unfold toStrings
  rw [fromStrs_perm (List.perm_insertionSort _ _), fromStrs_map_asStr]
  ext x
  simp [Scope.mem_all]

end ScopeSet

/-! ## The scope string -/

def scopeListString (scopes : List Scope) : String := " ".intercalate (scopes.map Scope.asStr)

theorem asStr_word (s : Scope) :
    s.asStr ≠ "" ∧ ∀ c ∈ s.asStr.toList, isWhitespace c = false := by
  have hall : s.asStr.toList.all (!isWhitespace ·) = true := by
    cases s <;> decide +kernel
  refine ⟨by cases s <;> decide, fun c hc => ?_⟩
  simpa using List.all_eq_true.mp hall c hc

theorem fromStrs_scopeListString (scopes : List Scope) :
    ScopeSet.fromStrs (splitWhitespace (scopeListString scopes)) = scopes.toFinset := by
  unfold scopeListString
  rw [splitWhitespace_intercalate, ScopeSet.fromStrs_map_asStr]
  intro w hw
  obtain ⟨s, -, rfl⟩ := List.mem_map.mp hw
  exact asStr_word s

/-! ## What a connector is granted -/

/-- Granted when no scope is asked for. -/
def defaultScopes : List Scope := [.targetsRead, .statusPageRead, .incidentsRead]

def grantableScopes : List Scope :=
  [.targetsRead, .statusPageRead, .incidentsRead, .channelsRead, .targetsWrite, .targetsExecute,
    .incidentsWrite, .statusPageWrite, .variablesRead]

/-- What `grant_scope` joins into a string. -/
def grantedScopes (requested : Option String) : List Scope :=
  match requested with
  | none => defaultScopes
  | some req =>
    let asked := ScopeSet.fromStrs (splitWhitespace req)
    let granted := grantableScopes.filter asked.allows
    if granted.isEmpty then defaultScopes else granted

def grantScope (requested : Option String) : String := scopeListString (grantedScopes requested)

end Uptimepage

import Uptimepage.Writer.Decide

/-!
# The cause an incident states

`incident_error_sample` over the newest failure of each region: a cause that a quorum of regions
shares is attributed, with the number of them; else the first error text is what there is.
-/

namespace Uptimepage

/-- What two diagnostics agree by. -/
abbrev Cause := CheckDiagnosticKind × DiagnosticConfidence × Option EdgeProvider

def CheckDiagnostic.cause (d : CheckDiagnostic) : Cause := (d.kind, d.confidence, d.provider)

/-- The diagnosis of the region's newest failure. -/
def Verdict.diagnosed (v : Verdict) : Option (CheckResult × CheckDiagnostic) :=
  v.bad.getLast?.bind fun result => result.diagnostic.map fun d => (result, d)

/-- How many regions' newest failures share the cause. -/
def sharing (bad : List Verdict) (cause : Cause) : Nat :=
  bad.countP fun v => v.diagnosed.any fun x => x.2.cause == cause

/-- The sample that attributes `d`, which `agreeing` regions share. -/
def attribution (sample : CheckResult) (d : CheckDiagnostic) (agreeing reportingRegions : Nat) :
    String :=
  let tally :=
    if 1 < reportingRegions then
      [toString agreeing ++ "/" ++ toString reportingRegions ++ " reporting regions agree"]
    else []
  " · ".intercalate (sample.error.toList ++ [d.summary, d.guidance] ++ tally)

def firstError (bad : List Verdict) : Option String :=
  bad.findSome? fun v => v.bad.findSome? (·.error)

section

variable {bad : List Verdict} {d other : CheckDiagnostic} {n quorum : Nat}

theorem agrees_iff : d.agrees other = true ↔ other.cause = d.cause := by
  simp [CheckDiagnostic.agrees, CheckDiagnostic.cause, and_assoc]

theorem countP_agrees (d : CheckDiagnostic) (bad : List Verdict) :
    (bad.filterMap Verdict.diagnosed).countP (fun other => d.agrees other.2) =
      sharing bad d.cause := by
  have hagrees : (fun other : CheckResult × CheckDiagnostic => d.agrees other.2) =
      fun x => x.2.cause == d.cause := by
    funext x
    rw [Bool.eq_iff_iff, agrees_iff, beq_iff_eq]
  rw [hagrees, List.countP_filterMap]
  refine List.countP_congr fun v _ => ?_
  cases v.diagnosed <;> simp

theorem incidentErrorSample_eq (bad : List Verdict) (n quorum : Nat) :
    incidentErrorSample bad n quorum =
      match maxByKey (fun candidate => sharing bad candidate.2.cause)
        (bad.filterMap Verdict.diagnosed) with
      | none => firstError bad
      | some (sample, d) =>
        if quorum ≤ sharing bad d.cause then
          some (attribution sample d (sharing bad d.cause) n)
        else firstError bad := by
  have hdiagnosed : (bad.filterMap fun v => v.bad.getLast?.bind fun result =>
      result.diagnostic.map fun d => (result, d)) = bad.filterMap Verdict.diagnosed := rfl
  simp only [incidentErrorSample, hdiagnosed, countP_agrees]
  rfl

theorem exists_diagnosed {cause : Cause} (h : 0 < sharing bad cause) :
    ∃ x ∈ bad.filterMap Verdict.diagnosed, x.2.cause = cause := by
  obtain ⟨v, hv, hany⟩ := List.countP_pos_iff.mp h
  obtain ⟨x, hx, hcause⟩ := Option.any_eq_true _ _ |>.mp hany
  exact ⟨x, List.mem_filterMap.mpr ⟨v, hv, hx⟩, by simpa using hcause⟩

end

/-- **A diagnosis needs a quorum.**  Where the clamped quorum of regions shares a cause, one that
no cause outnumbers is attributed, with its own count; where none does, the sample is the first
error text, in order of the run starts. -/
theorem diagnosis_needs_quorum (bad : List Verdict) (reportingRegions quorum : Nat) :
    (∀ threshold vs, (confirmedBad threshold vs).Pairwise
      fun v w => runStart v.bad ≤ runStart w.bad) ∧
    ((∃ cause, min (max quorum 1) (max reportingRegions 1) ≤ sharing bad cause) →
      ∃ v ∈ bad, ∃ sample d, v.diagnosed = some (sample, d) ∧
        min (max quorum 1) (max reportingRegions 1) ≤ sharing bad d.cause ∧
        (∀ cause, sharing bad cause ≤ sharing bad d.cause) ∧
        incidentErrorSample bad reportingRegions (min (max quorum 1) (max reportingRegions 1)) =
          some (attribution sample d (sharing bad d.cause) reportingRegions)) ∧
    ((∀ cause, sharing bad cause < min (max quorum 1) (max reportingRegions 1)) →
      incidentErrorSample bad reportingRegions (min (max quorum 1) (max reportingRegions 1)) =
        firstError bad) := by
  have hpos : 1 ≤ min (max quorum 1) (max reportingRegions 1) := by omega
  rw [incidentErrorSample_eq]
  generalize min (max quorum 1) (max reportingRegions 1) = q at hpos ⊢
  refine ⟨fun threshold vs => List.pairwise_insertionSort _ _, ?_, ?_⟩
  · rintro ⟨cause, hcause⟩
    obtain ⟨x, hx, rfl⟩ := exists_diagnosed (Nat.lt_of_lt_of_le hpos hcause)
    cases hmax : maxByKey (fun candidate => sharing bad candidate.2.cause)
        (bad.filterMap Verdict.diagnosed) with
    | none =>
      rw [maxByKey_eq_none hmax] at hx
      cases hx
    | some best =>
      obtain ⟨sample, d⟩ := best
      obtain ⟨v, hv, hdiagnosed⟩ := List.mem_filterMap.mp (maxByKey_mem hmax)
      have hgreatest : ∀ y ∈ bad.filterMap Verdict.diagnosed,
          sharing bad y.2.cause ≤ sharing bad d.cause := by
        intro y hy
        have hle := le_maxByKey hmax hy
        exact hle
      have hquorum : q ≤ sharing bad d.cause := Nat.le_trans hcause (hgreatest x hx)
      refine ⟨v, hv, sample, d, hdiagnosed, hquorum, fun other => ?_, if_pos hquorum⟩
      rcases Nat.eq_zero_or_pos (sharing bad other) with hzero | hsome
      · rw [hzero]
        exact Nat.zero_le _
      · obtain ⟨y, hy, rfl⟩ := exists_diagnosed hsome
        exact hgreatest y hy
  · intro hnone
    split
    · rfl
    · next sample d _ => rw [if_neg (Nat.not_le.mpr (hnone d.cause))]

namespace Decide.Sample

def diagnosis (provider : EdgeProvider) : CheckDiagnostic :=
  ⟨.accessInterference, .high, some provider, []⟩

def refused (region : String) (provider : EdgeProvider) : Verdict :=
  ⟨region, [{ result 0 .down with diagnostic := some (diagnosis provider) }], []⟩

/-- Two regions meet one vendor's page, a third another's. -/
def divided : List Verdict :=
  [refused "eu" .cloudflare, refused "us" .akamai, refused "ap" .cloudflare]

end Decide.Sample

open Decide.Sample in
theorem diagnosis_needs_quorum_divided :
    ∃ v ∈ divided, ∃ sample d, v.diagnosed = some (sample, d) ∧ 2 ≤ sharing divided d.cause ∧
      (∀ cause, sharing divided cause ≤ sharing divided d.cause) ∧
      incidentErrorSample divided 3 2 =
        some (attribution sample d (sharing divided d.cause) 3) :=
  (diagnosis_needs_quorum divided 3 2).2.1 ⟨(diagnosis .cloudflare).cause, by decide⟩

end Uptimepage

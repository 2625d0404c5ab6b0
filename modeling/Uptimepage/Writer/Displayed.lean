import Uptimepage.Writer.Decide

/-!
# What is displayed, and what the writer opens

`fold_regions` of `domain/target.rs` folds the latest status of each region into the one a list
shows; `decide_multi` counts the regions whose bad run is confirmed.
-/

namespace Uptimepage

/-- The loop of `fold_regions`. -/
structure RegionFold where
  reported : Nat
  bad : Nat
  worst : CheckStatus
deriving DecidableEq

def RegionFold.report (acc : RegionFold) (s : CheckStatus) : RegionFold :=
  { reported := acc.reported + 1
    bad := if s.isBad then acc.bad + 1 else acc.bad
    worst :=
      if s.isBad && decide (acc.worst.severityRank < s.severityRank) then s else acc.worst }

def regionFold (latestPerRegion : List CheckStatus) : RegionFold :=
  latestPerRegion.foldl RegionFold.report ⟨0, 0, .up⟩

def RegionIncidentPolicy.foldRegions (policy : RegionIncidentPolicy)
    (latestPerRegion : List CheckStatus) : Option CheckStatus :=
  let acc := regionFold latestPerRegion
  if acc.reported = 0 then none
  else if acc.bad = 0 then some .up
  else if acc.bad < policy.required acc.reported then some .degraded
  else some acc.worst

/-- Some regions are bad, and fewer than are required. -/
def RegionIncidentPolicy.belowQuorum (policy : RegionIncidentPolicy)
    (latestPerRegion : List CheckStatus) : Prop :=
  latestPerRegion.countP CheckStatus.isBad < policy.required latestPerRegion.length

/-- The last status of each region that has one. -/
def latestStatuses (byRegion : List (String × List CheckResult)) : List CheckStatus :=
  byRegion.filterMap fun group => group.2.getLast?.map (·.status)

section

variable {groups : List (String × List CheckResult)} {opens : List OpenIncident}

theorem severityRank_pos {s : CheckStatus} (h : s.isBad = true) : 0 < s.severityRank := by
  cases s with
  | up => cases h
  | _ => decide

theorem regionFold_spec (l : List CheckStatus) :
    (regionFold l).reported = l.length ∧ (regionFold l).bad = l.countP CheckStatus.isBad ∧
      ∀ s ∈ l, s.isBad = true → s.severityRank ≤ (regionFold l).worst.severityRank := by
  have hfold : ∀ (l : List CheckStatus) (acc : RegionFold),
      (l.foldl RegionFold.report acc).reported = acc.reported + l.length ∧
        (l.foldl RegionFold.report acc).bad = acc.bad + l.countP CheckStatus.isBad ∧
        acc.worst.severityRank ≤ (l.foldl RegionFold.report acc).worst.severityRank ∧
        ∀ s ∈ l, s.isBad = true →
          s.severityRank ≤ (l.foldl RegionFold.report acc).worst.severityRank := by
    intro l
    induction l with
    | nil => exact fun acc => ⟨rfl, rfl, Nat.le_refl _, nofun⟩
    | cons s l ih =>
      intro acc
      obtain ⟨hreported, hbad, hmono, hall⟩ := ih (acc.report s)
      have hstep : acc.worst.severityRank ≤ (acc.report s).worst.severityRank ∧
          (s.isBad = true → s.severityRank ≤ (acc.report s).worst.severityRank) := by
        unfold RegionFold.report
        dsimp only
        split
        · next hworse =>
          have hlt := of_decide_eq_true (Bool.and_eq_true_iff.mp hworse).2
          exact ⟨Nat.le_of_lt hlt, fun _ => Nat.le_refl _⟩
        · next hnot =>
          refine ⟨Nat.le_refl _, fun hs => ?_⟩
          simpa [hs] using hnot
      refine ⟨?_, ?_, Nat.le_trans hstep.1 hmono, ?_⟩
      · have hone : (acc.report s).reported = acc.reported + 1 := rfl
        rw [List.foldl_cons, hreported, List.length_cons, hone]
        omega
      · have hone : (acc.report s).bad = if s.isBad then acc.bad + 1 else acc.bad := rfl
        rw [List.foldl_cons, hbad, List.countP_cons, hone]
        split <;> omega
      · intro t ht
        rcases List.mem_cons.mp ht with rfl | ht
        · exact fun hbad => Nat.le_trans (hstep.2 hbad) hmono
        · exact hall t ht
  obtain ⟨hreported, hbad, -, hall⟩ := hfold l ⟨0, 0, .up⟩
  exact ⟨by simpa [regionFold] using hreported, by simpa [regionFold] using hbad, hall⟩

theorem required_pos (policy : RegionIncidentPolicy) (n : Nat) :
    1 ≤ policy.required n ∧ policy.required n ≤ max n 1 := by
  unfold RegionIncidentPolicy.required
  dsimp only
  omega

theorem foldRegions_agreed_iff (policy : RegionIncidentPolicy) (l : List CheckStatus) :
    (∃ s, policy.foldRegions l = some s ∧ s ≠ .up ∧ ¬ policy.belowQuorum l) ↔
      policy.required l.length ≤ l.countP CheckStatus.isBad := by
  obtain ⟨hreported, hbad, hworst⟩ := regionFold_spec l
  unfold RegionIncidentPolicy.foldRegions RegionIncidentPolicy.belowQuorum
  dsimp only
  rw [hreported, hbad]
  constructor
  · rintro ⟨s, -, -, hquorum⟩
    exact Nat.le_of_not_lt hquorum
  · intro hquorum
    have hpos := (required_pos policy l.length).1
    have hle : l.countP CheckStatus.isBad ≤ l.length := List.countP_le_length
    rw [if_neg (by omega), if_neg (by omega), if_neg (by omega)]
    refine ⟨_, rfl, ?_, Nat.not_lt.mpr hquorum⟩
    obtain ⟨s, hs, hsbad⟩ := List.countP_pos_iff.mp (Nat.lt_of_lt_of_le hpos hquorum)
    intro hup
    have hrank := Nat.lt_of_lt_of_le (severityRank_pos hsbad) (hworst s hs hsbad)
    rw [hup] at hrank
    exact absurd hrank (by decide)

theorem countP_bad (hall : ∀ group ∈ groups, group.2 ≠ []) :
    (latestStatuses groups).length = groups.length ∧
      (latestStatuses groups).countP CheckStatus.isBad =
        (verdicts groups).countP fun v => 1 ≤ v.bad.length := by
  induction groups with
  | nil => exact ⟨rfl, rfl⟩
  | cons group groups ih =>
    obtain ⟨hlen, hcount⟩ := ih fun g hg => hall g (List.mem_cons_of_mem _ hg)
    obtain ⟨before, last, hlast⟩ : ∃ before last, group.2 = before ++ [last] :=
      ⟨_, _, (List.dropLast_append_getLast (hall group List.mem_cons_self)).symm⟩
    have hlatest : latestStatuses (group :: groups) = last.status :: latestStatuses groups := by
      rw [latestStatuses, List.filterMap_cons, hlast, List.getLast?_concat]
      rfl
    have hrun : (1 ≤ (trailingBadRun group.2).length) ↔ last.status.isBad = true := by
      rw [trailingBadRun, hlast, List.rtakeWhile_concat]
      split <;> simp_all
    refine ⟨by rw [hlatest, List.length_cons, List.length_cons, hlen], ?_⟩
    have hverdicts : verdicts (group :: groups) =
        ⟨group.1, trailingBadRun group.2, trailingGoodRun group.2⟩ :: verdicts groups := rfl
    rw [hlatest, List.countP_cons, hcount, hverdicts, List.countP_cons]
    simp only [hrun, decide_eq_true_eq]

end

/-- **Display and writer agree on the quorum**, for one confirmation and regions with a result
each, while no incident of the whole monitor is open. -/
theorem displayed_agrees (policy : RegionIncidentPolicy) (targetId : Uuid)
    (opens : List OpenIncident) (groups : List (String × List CheckResult)) :
    (∀ n, 1 ≤ policy.required n ∧ policy.required n ≤ max n 1) ∧
    ((∀ group ∈ groups, group.2 ≠ []) → (∀ i ∈ opens, i.region ≠ none) →
      ∀ quorum, policy = .count quorum ∨ quorum = policy.required groups.length →
      ((.open_ ∈ (decideMulti targetId opens groups 1 quorum).map Action.kind) ↔
        policy.required groups.length ≤ (latestStatuses groups).countP CheckStatus.isBad) ∧
      ((.open_ ∈ (decideMulti targetId opens groups 1 quorum).map Action.kind) ↔
        ∃ s, policy.foldRegions (latestStatuses groups) = some s ∧ s ≠ .up ∧
          ¬ policy.belowQuorum (latestStatuses groups))) := by
  refine ⟨required_pos policy, fun hall hfree quorum hquorum => ?_⟩
  obtain ⟨hlen, hcount⟩ := countP_bad hall
  have hclamp : min (max quorum 1) (max (verdicts groups).length 1) =
      policy.required groups.length := by
    rw [verdicts, List.length_map]
    rcases hquorum with rfl | rfl
    · rfl
    · exact required_clamped policy groups.length
  have hopens : (.open_ ∈ (decideMulti targetId opens groups 1 quorum).map Action.kind) ↔
      policy.required groups.length ≤ (latestStatuses groups).countP CheckStatus.isBad := by
    have hnone : opens.find? (·.region = none) = none := by
      rw [List.find?_eq_none]
      intro i hi
      simpa using hfree i hi
    rw [decideMulti_kind, hnone, hclamp, confirmedBad_length, Nat.max_self, ← hcount]
    dsimp only
    split
    · next h => exact iff_of_true (List.mem_singleton.mpr rfl) h
    · next h => exact iff_of_false List.not_mem_nil h
  refine ⟨hopens, hopens.trans ?_⟩
  rw [foldRegions_agreed_iff, hlen]

namespace Decide.Sample

def halfDown : List (String × List CheckResult) :=
  [("eu", [result 0 .down]), ("us", [result 0 .up])]

def whole : OpenIncident := ⟨1, 7, 0, none⟩

end Decide.Sample

open Decide.Sample in
theorem displayed_agrees_any : .open_ ∈ (decideMulti 7 [] halfDown 1 1).map Action.kind ∧
    ∃ s, RegionIncidentPolicy.any.foldRegions (latestStatuses halfDown) = some s ∧ s ≠ .up ∧
      ¬ RegionIncidentPolicy.any.belowQuorum (latestStatuses halfDown) := by
  have hagrees := (displayed_agrees .any 7 [] halfDown).2 (by decide) nofun 1 (.inr rfl)
  have hopens := hagrees.1.mpr (by decide)
  exact ⟨hopens, hagrees.2.mp hopens⟩

open Decide.Sample in
/-- Down is displayed, and nothing is opened: the incident is. -/
theorem open_incident_not_reopened :
    RegionIncidentPolicy.any.foldRegions (latestStatuses halfDown) = some .down ∧
      RegionIncidentPolicy.any.required 2 ≤ (latestStatuses halfDown).countP CheckStatus.isBad ∧
      decideMulti 7 [whole] halfDown 1 1 = [] := by
  refine ⟨by decide, by decide, by decide⟩

end Uptimepage

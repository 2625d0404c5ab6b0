import Uptimepage.Lists.Capped
import Uptimepage.Targets.Handlers

/-!
# The regions a new monitor gets

A create caps the default regions that can run the monitor; a bulk create caps the default
regions and then takes, for a flow, those that can run it, and asks of no item whether it is
probed at all.  `placed_same_iff`: when a monitor ends in the same regions either way.
-/

namespace Uptimepage.Targets

open Capped

variable {preferred : List String} {maxRegions : Int} {defaultRegion : String}

def regionCap (maxRegions : Int) : Nat := (max maxRegions 1).toNat

theorem regionCap_pos (maxRegions : Int) : 0 < regionCap maxRegions := by
  unfold regionCap
  omega

theorem regionCap_eq_one_iff : regionCap maxRegions = 1 ↔ maxRegions ≤ 1 := by
  unfold regionCap
  omega

theorem defaultRegionSet_nil : defaultRegionSet [] maxRegions defaultRegion = [defaultRegion] := by
  simp [defaultRegionSet]

theorem defaultRegionSet_def : defaultRegionSet preferred maxRegions defaultRegion =
    if (capped (regionCap maxRegions) defaultRegion preferred).isEmpty then [defaultRegion]
    else capped (regionCap maxRegions) defaultRegion preferred := by
  unfold defaultRegionSet capped regionCap
  simp only [List.contains_iff_mem]

theorem defaultRegionSet_ne_nil (preferred : List String) (maxRegions : Int)
    (defaultRegion : String) : defaultRegionSet preferred maxRegions defaultRegion ≠ [] := by
  rw [defaultRegionSet_def]
  split
  · exact List.cons_ne_nil _ _
  · next h => simpa using h

theorem defaultRegionSet_eq (hnodup : preferred.Nodup) (hne : preferred ≠ []) :
    defaultRegionSet preferred maxRegions defaultRegion =
      capped (regionCap maxRegions) defaultRegion preferred := by
  have hlen := length_capped (a := defaultRegion) (regionCap_pos maxRegions) hnodup
  have hcap := regionCap_pos maxRegions
  have hpos := List.length_pos_iff.mpr hne
  have hcapped : capped (regionCap maxRegions) defaultRegion preferred ≠ [] := by
    rw [← List.length_pos_iff]
    omega
  rw [defaultRegionSet_def, if_neg (by simpa using hcapped)]

/-- The default region is the only one there is, or the only one the cap leaves. -/
def OnlyDefault (defaultRegion : String) (maxRegions : Int) (preferred : List String) : Prop :=
  (∀ r ∈ preferred, r = defaultRegion) ∨ maxRegions ≤ 1 ∧ defaultRegion ∈ preferred

theorem defaultRegionSet_only_iff (hnodup : preferred.Nodup) :
    (∀ r, r ∈ defaultRegionSet preferred maxRegions defaultRegion ↔ r = defaultRegion) ↔
      OnlyDefault defaultRegion maxRegions preferred := by
  by_cases hne : preferred = []
  · subst hne
    rw [defaultRegionSet_nil]
    simp [OnlyDefault]
  · rw [defaultRegionSet_eq hnodup hne, capped_only_iff (regionCap_pos _) hnodup hne,
      regionCap_eq_one_iff]
    rfl

/-- The cap leaves out no region that can run the flow, or none that cannot is kept. -/
def KeepsCapable (capable : List String) (defaultRegion : String) (maxRegions : Int)
    (preferred : List String) : Prop :=
  (∀ r ∈ preferred, r ∈ capable → r ∈ defaultRegionSet preferred maxRegions defaultRegion) ∨
    ∀ r ∈ defaultRegionSet preferred maxRegions defaultRegion, r ∈ capable

theorem filter_defaultRegionSet_iff {capable : List String} (hnodup : preferred.Nodup)
    (hsome : preferred.filter capable.contains ≠ []) :
    (∀ r, r ∈ (defaultRegionSet preferred maxRegions defaultRegion).filter capable.contains ↔
      r ∈ defaultRegionSet (preferred.filter capable.contains) maxRegions defaultRegion) ↔
      KeepsCapable capable defaultRegion maxRegions preferred := by
  have hne : preferred ≠ [] := by
    rintro rfl
    exact hsome rfl
  unfold KeepsCapable
  rw [defaultRegionSet_eq hnodup hne, defaultRegionSet_eq (hnodup.filter _) hsome,
    capped_filter_iff (regionCap_pos _) hnodup]
  simp only [List.contains_iff_mem]

/-! ## Either way -/

section

variable {cfg : Config} {w : World} {org : OrgId} {check : CheckSpec}

/-- The regions of a monitor that `create` made. -/
def createPlaced (cfg : Config) (w : World) (org : OrgId) (check : CheckSpec) : List String :=
  if check.isPassive then [cfg.defaultRegion]
  else defaultRegionSet (preferredRegions cfg w check) (w.plan org).maxRegions cfg.defaultRegion

/-- What `bulk_create` would write for it; the seed is not written again. -/
def bulkAssigned (cfg : Config) (w : World) (org : OrgId) (check : CheckSpec) : List String :=
  assignedRegions cfg w
    (defaultRegionSet w.defaultSelectedRegions (w.plan org).maxRegions cfg.defaultRegion) check

/-- The regions of a monitor that `bulk_create` made. -/
def bulkPlaced (cfg : Config) (w : World) (org : OrgId) (check : CheckSpec) : List String :=
  if (bulkAssigned cfg w org check).isEmpty || bulkAssigned cfg w org check == [cfg.defaultRegion]
  then [cfg.defaultRegion] else bulkAssigned cfg w org check

/-- A monitor that is not probed has the default region and no other; a flow's regions are capped
before or after those that cannot run it are left out, without a difference. -/
structure PlacedAlike (cfg : Config) (w : World) (org : OrgId) (check : CheckSpec) : Prop where
  passive : check.isPassive = true →
    OnlyDefault cfg.defaultRegion (w.plan org).maxRegions w.defaultSelectedRegions
  flow : check.isFlow = true → w.defaultSelectedRegions ≠ [] →
    KeepsCapable (flowCapableSet cfg w.flowCapableRegions) cfg.defaultRegion
      (w.plan org).maxRegions w.defaultSelectedRegions
  fallback : check.isFlow = true → w.defaultSelectedRegions = [] →
    OnlyDefault cfg.defaultRegion (w.plan org).maxRegions
      (w.availableRegions.filter (flowCapableSet cfg w.flowCapableRegions).contains)

theorem bulkPlaced_eq (h : bulkAssigned cfg w org check ≠ []) :
    bulkPlaced cfg w org check = bulkAssigned cfg w org check := by
  unfold bulkPlaced
  split
  · next hseed =>
    rcases Bool.or_eq_true_iff.mp hseed with hseed | hseed
    · exact absurd (List.isEmpty_iff.mp hseed) h
    · exact (beq_iff_eq.mp hseed).symm
  · rfl

theorem placed_same_passive_iff (hselected : w.defaultSelectedRegions.Nodup)
    (hpassive : check.isPassive = true) :
    (∀ r, r ∈ bulkPlaced cfg w org check ↔ r ∈ createPlaced cfg w org check) ↔
      OnlyDefault cfg.defaultRegion (w.plan org).maxRegions w.defaultSelectedRegions := by
  have hflow : check.isFlow = false := by
    cases check <;> first | rfl | cases hpassive
  have hassigned : bulkAssigned cfg w org check = defaultRegionSet w.defaultSelectedRegions
      (w.plan org).maxRegions cfg.defaultRegion := if_neg (by rw [hflow]; exact Bool.false_ne_true)
  rw [bulkPlaced_eq (by rw [hassigned]; exact defaultRegionSet_ne_nil _ _ _), hassigned, createPlaced,
    if_pos hpassive, ← defaultRegionSet_only_iff hselected]
  simp only [List.mem_singleton]

theorem createPlaced_flow (hflow : check.isFlow = true) : createPlaced cfg w org check =
    defaultRegionSet (preferredRegions cfg w check) (w.plan org).maxRegions cfg.defaultRegion := by
  have hpassive : check.isPassive = false := by
    cases check <;> first | rfl | cases hflow
  exact if_neg (by rw [hpassive]; exact Bool.false_ne_true)

section

variable (hflow : check.isFlow = true)
  (hcovered : covered (flowCapableSet cfg w.flowCapableRegions)
    (defaultRegionSet w.defaultSelectedRegions (w.plan org).maxRegions cfg.defaultRegion) = true)

include hflow hcovered

theorem bulkPlaced_flow :
    bulkPlaced cfg w org check = (defaultRegionSet w.defaultSelectedRegions
      (w.plan org).maxRegions cfg.defaultRegion).filter
        (flowCapableSet cfg w.flowCapableRegions).contains ∧
    bulkPlaced cfg w org check ≠ [] := by
  have hassigned : bulkAssigned cfg w org check = (defaultRegionSet w.defaultSelectedRegions
      (w.plan org).maxRegions cfg.defaultRegion).filter
        (flowCapableSet cfg w.flowCapableRegions).contains := if_pos hflow
  obtain ⟨r, hr, hcap⟩ := List.any_eq_true.mp hcovered
  have hne : bulkAssigned cfg w org check ≠ [] := by
    rw [hassigned]
    exact List.ne_nil_of_mem (List.mem_filter.mpr ⟨hr, hcap⟩)
  rw [bulkPlaced_eq hne]
  exact ⟨hassigned, hne⟩

theorem placed_same_flow_iff (hselected : w.defaultSelectedRegions.Nodup)
    (hne : w.defaultSelectedRegions ≠ []) :
    (∀ r, r ∈ bulkPlaced cfg w org check ↔ r ∈ createPlaced cfg w org check) ↔
      KeepsCapable (flowCapableSet cfg w.flowCapableRegions) cfg.defaultRegion
        (w.plan org).maxRegions w.defaultSelectedRegions := by
  have hsome : w.defaultSelectedRegions.filter
      (flowCapableSet cfg w.flowCapableRegions).contains ≠ [] := by
    obtain ⟨r, hr, hcap⟩ := List.any_eq_true.mp hcovered
    rw [defaultRegionSet_eq hselected hne] at hr
    exact List.ne_nil_of_mem (List.mem_filter.mpr ⟨capped_subset hr, hcap⟩)
  have hpreferred : preferredRegions cfg w check = w.defaultSelectedRegions.filter
      (flowCapableSet cfg w.flowCapableRegions).contains := by
    unfold preferredRegions flowRestrictRegions
    rw [if_pos hflow, if_neg]
    intro hempty
    exact hsome (List.isEmpty_iff.mp (Bool.and_eq_true_iff.mp hempty).1)
  rw [(bulkPlaced_flow hflow hcovered).1, createPlaced_flow hflow, hpreferred,
    filter_defaultRegionSet_iff hselected hsome]

theorem placed_same_fallback_iff (havailable : w.availableRegions.Nodup)
    (hnil : w.defaultSelectedRegions = []) :
    (∀ r, r ∈ bulkPlaced cfg w org check ↔ r ∈ createPlaced cfg w org check) ↔
      OnlyDefault cfg.defaultRegion (w.plan org).maxRegions
        (w.availableRegions.filter (flowCapableSet cfg w.flowCapableRegions).contains) := by
  have hpreferred : preferredRegions cfg w check = w.availableRegions.filter
      (flowCapableSet cfg w.flowCapableRegions).contains := by
    unfold preferredRegions flowRestrictRegions
    rw [if_pos hflow, hnil, hflow]
    rfl
  have hseed : bulkPlaced cfg w org check = [cfg.defaultRegion] := by
    obtain ⟨hbulk, hne⟩ := bulkPlaced_flow hflow hcovered
    rw [hnil, defaultRegionSet_nil] at hbulk
    rw [hbulk] at hne ⊢
    rw [List.filter_eq_self]
    obtain ⟨r, hr⟩ := List.exists_mem_of_ne_nil _ hne
    obtain ⟨hr, hcap⟩ := List.mem_filter.mp hr
    intro r' hr'
    rwa [List.mem_singleton.mp hr', ← List.mem_singleton.mp hr]
  rw [hseed, createPlaced_flow hflow, hpreferred,
    ← defaultRegionSet_only_iff (havailable.filter _)]
  simp only [List.mem_singleton]
  exact forall_congr' fun r => Iff.comm

end

theorem placed_same_iff (hselected : w.defaultSelectedRegions.Nodup)
    (havailable : w.availableRegions.Nodup)
    (hcovered : check.isFlow = true → covered (flowCapableSet cfg w.flowCapableRegions)
      (defaultRegionSet w.defaultSelectedRegions (w.plan org).maxRegions cfg.defaultRegion) =
        true) :
    (∀ r, r ∈ bulkPlaced cfg w org check ↔ r ∈ createPlaced cfg w org check) ↔
      PlacedAlike cfg w org check := by
  cases hpassive : check.isPassive with
  | true =>
    have hflow : check.isFlow = false := by
      cases check <;> first | rfl | cases hpassive
    rw [placed_same_passive_iff hselected hpassive]
    exact ⟨fun h => ⟨fun _ => h, by rw [hflow]; nofun, by rw [hflow]; nofun⟩,
      fun h => h.passive hpassive⟩
  | false =>
    cases hflow : check.isFlow with
    | true =>
      by_cases hnil : w.defaultSelectedRegions = []
      · rw [placed_same_fallback_iff hflow (hcovered hflow) havailable hnil]
        exact ⟨fun h => ⟨by rw [hpassive]; nofun, fun _ hne => absurd hnil hne, fun _ _ => h⟩,
          fun h => h.fallback hflow hnil⟩
      · rw [placed_same_flow_iff hflow (hcovered hflow) hselected hnil]
        exact ⟨fun h => ⟨by rw [hpassive]; nofun, fun _ _ => h, fun _ h0 => absurd h0 hnil⟩,
          fun h => h.flow hflow hnil⟩
    | false =>
      have hbulk : bulkPlaced cfg w org check = defaultRegionSet w.defaultSelectedRegions
          (w.plan org).maxRegions cfg.defaultRegion := by
        have hassigned : bulkAssigned cfg w org check = defaultRegionSet w.defaultSelectedRegions
            (w.plan org).maxRegions cfg.defaultRegion :=
          if_neg (by rw [hflow]; exact Bool.false_ne_true)
        rw [bulkPlaced_eq (by rw [hassigned]; exact defaultRegionSet_ne_nil _ _ _), hassigned]
      have hcreate : createPlaced cfg w org check = defaultRegionSet w.defaultSelectedRegions
          (w.plan org).maxRegions cfg.defaultRegion := by
        unfold createPlaced preferredRegions flowRestrictRegions
        simp [hpassive, hflow]
      refine iff_of_true (fun r => by rw [hbulk, hcreate]) ?_
      exact ⟨by rw [hpassive]; nofun, by rw [hflow]; nofun, by rw [hflow]; nofun⟩

end

end Uptimepage.Targets

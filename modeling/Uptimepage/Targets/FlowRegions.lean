import Uptimepage.Targets.Validity

/-!
# Whether a flow monitor can run

A flow monitor needs a region where a flow can run.  Create, bulk create and PATCH each check
the regions it will have; setting the regions does not ask what the monitor is.
-/

namespace Uptimepage.Targets

/-! ## Writes after the insert, one region set at a time -/

namespace Inventory

variable {inv inv' : Inventory} {org : OrgId} {regions : List String} {upd : TargetUpdate}
  {row : Option TargetRow} {r : TargetRow} {writes : List FollowUp}

theorem setTargetRegions_self {id : Uuid} (h : (inv.get org id).isSome = true) :
    (inv.setTargetRegions org id regions).1.regionsOf id = regions := by
  unfold setTargetRegions regionsOf
  rw [if_pos h, List.filter_append]
  have hold : (inv.regions.filter fun a => a.1 != id).filter (fun a => a.1 == id) = [] := by
    rw [List.filter_filter]
    simp
  have hnew : (regions.map fun r => (id, r)).filter (fun a => a.1 == id) =
      regions.map fun r => (id, r) := by
    rw [List.filter_eq_self]
    simp
  rw [hold, hnew, List.nil_append, List.map_map]
  exact List.map_id _

theorem setTargetRegions_other {id other : Uuid} (h : other ≠ id) :
    (inv.setTargetRegions org id regions).1.regionsOf other = inv.regionsOf other := by
  unfold setTargetRegions
  split
  · unfold regionsOf
    rw [List.filter_append]
    have hnew : (regions.map fun r => (id, r)).filter (fun a => a.1 == other) = [] := by
      rw [List.filter_eq_nil_iff]
      intro a ha
      obtain ⟨r, -, rfl⟩ := List.mem_map.mp ha
      simpa using Ne.symm h
    rw [hnew, List.append_nil, List.filter_filter]
    congr 1
    refine List.filter_congr ?_
    intro a _
    by_cases ha : a.1 = other
    · simp [ha, h]
    · simp [ha]
  · rfl

theorem update_regions {id : Uuid} (h : inv.update org id upd = .ok (inv', row)) :
    inv'.regions = inv.regions := by
  rcases update_ok h with ⟨-, rfl, -⟩ | ⟨r, -, -, -, rfl⟩ <;> rfl

theorem get_isSome_update {org' : OrgId} {id id' : Uuid}
    (h : inv.update org id upd = .ok (inv', row)) :
    (inv'.get org' id').isSome = (inv.get org' id').isSome := by
  rcases update_ok h with ⟨-, rfl, -⟩ | ⟨r, -, -, -, rfl⟩
  · rfl
  · unfold get
    dsimp only
    rw [Table.find?_update (f := fun r : TargetRow => r.patch upd) (fun r => rfl),
      Option.isSome_map]

theorem followUp_policy (inv : Inventory) (org : OrgId) (id : Uuid)
    (policy : RegionIncidentPolicy) :
    inv.followUp org (.policy id policy) = inv ∨
      ∃ row, inv.update org id (.ofPolicy policy) =
        .ok (inv.followUp org (.policy id policy), row) := by
  unfold followUp
  dsimp only
  split
  · next inv' row heq => exact .inr ⟨row, heq⟩
  · exact .inl rfl

theorem followUp_regionsOf (inv : Inventory) (org : OrgId) (write : FollowUp) (id : Uuid) :
    (inv.followUp org write).regionsOf id = inv.regionsOf id ∨
      write = .regions id ((inv.followUp org write).regionsOf id) := by
  cases write with
  | regions id' regions =>
    by_cases hid : id = id'
    · cases hget : (inv.get org id').isSome with
      | true =>
        right
        rw [hid, followUp, setTargetRegions_self hget]
      | false =>
        left
        simp [followUp, setTargetRegions, hget]
    · exact .inl (setTargetRegions_other hid)
  | policy id' policy =>
    left
    rcases followUp_policy inv org id' policy with heq | ⟨row, heq⟩
    · rw [heq]
    · unfold regionsOf
      rw [update_regions heq]

theorem followUp_get_isSome (inv : Inventory) (org : OrgId) (write : FollowUp) (org' : OrgId)
    (id' : Uuid) : ((inv.followUp org write).get org' id').isSome = (inv.get org' id').isSome := by
  cases write with
  | regions id regions =>
    unfold get
    rw [followUp, setTargetRegions_rows]
  | policy id policy =>
    rcases followUp_policy inv org id policy with heq | ⟨row, heq⟩
    · rw [heq]
    · exact get_isSome_update heq

theorem followUp_row {write : FollowUp} (h : r ∈ (inv.followUp org write).rows) :
    ∃ r₀ ∈ inv.rows, r₀.id = r.id ∧ r₀.check = r.check := by
  cases write with
  | regions id regions =>
    rw [followUp, setTargetRegions_rows] at h
    exact ⟨r, h, rfl, rfl⟩
  | policy id policy =>
    rcases followUp_policy inv org id policy with heq | ⟨row, heq⟩
    · rw [heq] at h
      exact ⟨r, h, rfl, rfl⟩
    · rcases update_ok heq with ⟨-, heq, -⟩ | ⟨r', -, -, -, heq⟩
      · rw [heq] at h
        exact ⟨r, h, rfl, rfl⟩
      · rw [heq] at h
        rcases Table.mem_update h with h | ⟨r₀, hr₀, -, rfl⟩
        · exact ⟨r, h, rfl, rfl⟩
        · exact ⟨r₀, hr₀, rfl, rfl⟩

theorem Keyed.followUp (h : Keyed inv) (org : OrgId) (write : FollowUp) :
    Keyed (inv.followUp org write) := by
  cases write with
  | regions id regions => exact h.setTargetRegions
  | policy id policy =>
    rcases followUp_policy inv org id policy with heq | ⟨row, heq⟩
    · rwa [heq]
    · exact h.update heq

/-! ## A list of writes -/

theorem foldl_followUp_row
    (h : r ∈ (writes.foldl (fun inv write => inv.followUp org write) inv).rows) :
    ∃ r₀ ∈ inv.rows, r₀.id = r.id ∧ r₀.check = r.check := by
  induction writes generalizing inv with
  | nil => exact ⟨r, h, rfl, rfl⟩
  | cons write rest ih =>
    obtain ⟨r₁, hr₁, hid₁, hcheck₁⟩ := ih h
    obtain ⟨r₀, hr₀, hid₀, hcheck₀⟩ := followUp_row hr₁
    exact ⟨r₀, hr₀, hid₀.trans hid₁, hcheck₀.trans hcheck₁⟩

theorem Keyed.foldl_followUp (h : Keyed inv) :
    Keyed (writes.foldl (fun inv write => inv.followUp org write) inv) := by
  induction writes generalizing inv with
  | nil => exact h
  | cons write rest ih => exact ih (h.followUp org write)

theorem foldl_followUp_aside {id : Uuid} (h : ∀ regions, .regions id regions ∉ writes) :
    (writes.foldl (fun inv write => inv.followUp org write) inv).regionsOf id =
      inv.regionsOf id := by
  induction writes generalizing inv with
  | nil => rfl
  | cons write rest ih =>
    refine (ih fun regions hmem => h regions (List.mem_cons_of_mem _ hmem)).trans ?_
    rcases followUp_regionsOf inv org write id with heq | heq
    · exact heq
    · exact absurd (List.mem_cons.mpr (.inl heq.symm)) (h _)

theorem foldl_followUp_covered {capable : List String} {id : Uuid}
    (hget : (inv.get org id).isSome = true)
    (hwrites : ∀ regions, .regions id regions ∈ writes → covered capable regions = true)
    (h : covered capable (inv.regionsOf id) = true ∨ ∃ regions, .regions id regions ∈ writes) :
    covered capable
      ((writes.foldl (fun inv write => inv.followUp org write) inv).regionsOf id) = true := by
  induction writes generalizing inv with
  | nil =>
    rcases h with h | ⟨regions, hmem⟩
    · exact h
    · cases hmem
  | cons write rest ih =>
    refine ih (by rw [followUp_get_isSome, hget])
      (fun regions hmem => hwrites regions (List.mem_cons_of_mem _ hmem)) ?_
    rcases h with h | ⟨regions, hmem⟩
    · left
      rcases followUp_regionsOf inv org write id with heq | heq
      · rw [heq]
        exact h
      · exact hwrites _ (heq ▸ List.mem_cons_self)
    · rcases List.mem_cons.mp hmem with rfl | hmem
      · left
        have hself : (inv.followUp org (.regions id regions)).regionsOf id = regions :=
          setTargetRegions_self hget
        rw [hself]
        exact hwrites regions List.mem_cons_self
      · exact .inr ⟨regions, hmem⟩

end Inventory

/-! ## The invariant -/

/-- Every flow monitor has a region that can run it. -/
def FlowsCovered (capable : List String) (inv : Inventory) : Prop :=
  ∀ r ∈ inv.rows, r.check.isFlow = true → covered capable (inv.regionsOf r.id) = true

structure Placed (capable : List String) (inv : Inventory) : Prop where
  keyed : inv.Keyed
  flows : FlowsCovered capable inv

theorem placed_start (capable : List String) : Placed capable .start :=
  ⟨Inventory.keyed_start, by simp [FlowsCovered, Inventory.start]⟩

/-- A region set that a write gives a flow among `rows`. -/
def FollowUp.placesFlow (rows : List TargetRow) : FollowUp → Bool
  | .regions id _ => rows.any fun r => r.id == id && r.check.isFlow
  | .policy _ _ => false

/-- The writes that the failing database loses. -/
def lost (writes : List FollowUp) (landed : Option Nat) : List FollowUp :=
  writes.drop (landed.getD writes.length)

/-- The writes after an insert place every flow, or leave it where the insert seeded it. -/
structure PlacesFlows (capable : List String) (defaultRegion : String) (rows : List TargetRow)
    (writes : List FollowUp) : Prop where
  ids : ∀ id regions, .regions id regions ∈ writes → ∃ r ∈ rows, r.id = id
  sets : ∀ r ∈ rows, r.check.isFlow = true → ∀ regions, .regions r.id regions ∈ writes →
    covered capable regions = true
  placed : ∀ r ∈ rows, r.check.isFlow = true →
    covered capable [defaultRegion] = true ∨ ∃ regions, .regions r.id regions ∈ writes

variable {capable regions agents : List String} {inv next : Inventory} {defaultRegion : String}
  {org : OrgId} {items : List NewTarget} {rows : List TargetRow} {landed : Option Nat}
  {cfg : Config} {w : World} {check : CheckSpec}

theorem Placed.insert {inv' : Inventory} (h : Placed capable inv) {account : OrgId → Uuid}
    {policy : NewTarget → RegionIncidentPolicy} {maxTargets maxFlowChecks : Int}
    {writes : List FollowUp}
    (heq : inv.insertAll account defaultRegion org items policy maxTargets maxFlowChecks =
      .ok (inv', rows)) (hwrites : PlacesFlows capable defaultRegion rows writes)
    (hlost : covered capable [defaultRegion] = true ∨
      ∀ write ∈ lost writes landed, write.placesFlow rows = false) :
    Placed capable (inv'.followUps org writes landed) := by
  obtain ⟨hrows, -, rfl⟩ := Inventory.insertAll_ok heq
  have hkeyed : (inv.insertRows defaultRegion rows).Keyed := hrows ▸ h.keyed.insertRows
  have hfresh : ∀ r ∈ rows, inv.nextId ≤ r.id ∧ r.orgId = org := by
    intro r hr
    rw [hrows] at hr
    obtain ⟨i, hi, rfl⟩ := List.mem_mapIdx.mp hr
    exact ⟨Nat.le_add_right _ _, rfl⟩
  refine ⟨hkeyed.foldl_followUp, ?_⟩
  intro r hr hflow
  obtain ⟨r₀, hr₀, hid, hcheck⟩ := Inventory.foldl_followUp_row hr
  rw [← hcheck] at hflow
  rw [← hid]
  unfold Inventory.followUps
  rcases List.mem_append.mp hr₀ with hold | hnew
  · -- a target from before: no write is about it, and the insert seeds only new ones
    have haside : ∀ regions, FollowUp.regions r₀.id regions ∉
        writes.take (landed.getD writes.length) := by
      intro regions hmem
      obtain ⟨r₁, hr₁, hid₁⟩ := hwrites.ids _ _ (List.mem_of_mem_take hmem)
      exact absurd (hid₁ ▸ (hfresh r₁ hr₁).1) (Nat.not_le_of_lt (h.keyed.fresh r₀ hold))
    rw [Inventory.foldl_followUp_aside haside]
    have hseeds : (rows.map fun r => (r.id, defaultRegion)).filter (fun a => a.1 == r₀.id) = [] := by
      rw [List.filter_eq_nil_iff]
      intro a ha hid₀
      obtain ⟨r₁, hr₁, rfl⟩ := List.mem_map.mp ha
      exact absurd (beq_iff_eq.mp hid₀ ▸ (hfresh r₁ hr₁).1)
        (Nat.not_le_of_lt (h.keyed.fresh r₀ hold))
    have hregions : (inv.insertRows defaultRegion rows).regionsOf r₀.id = inv.regionsOf r₀.id := by
      simp only [Inventory.regionsOf, Inventory.insertRows, List.filter_append, hseeds,
        List.append_nil]
    rw [hregions]
    exact h.flows r₀ hold hflow
  · have hget : ((inv.insertRows defaultRegion rows).get org r₀.id).isSome = true := by
      unfold Inventory.get
      rw [List.find?_isSome]
      exact ⟨r₀, hr₀, by simp [(hfresh r₀ hnew).2]⟩
    refine Inventory.foldl_followUp_covered hget
      (fun regions hmem => hwrites.sets r₀ hnew hflow regions (List.mem_of_mem_take hmem)) ?_
    have hseed : covered capable [defaultRegion] = true →
        covered capable ((inv.insertRows defaultRegion rows).regionsOf r₀.id) = true := by
      intro hdefault
      have hmem : defaultRegion ∈ (inv.insertRows defaultRegion rows).regionsOf r₀.id :=
        Inventory.mem_regionsOf.2
          (List.mem_append_right _ (List.mem_map.mpr ⟨r₀, hnew, rfl⟩))
      exact List.any_eq_true.mpr ⟨_, hmem, by simpa [covered] using hdefault⟩
    rcases hwrites.placed r₀ hnew hflow with hdefault | ⟨regions, hmem⟩
    · exact .inl (hseed hdefault)
    · rw [← List.take_append_drop (landed.getD writes.length) writes] at hmem
      rcases List.mem_append.mp hmem with hmade | hlostWrite
      · exact .inr ⟨regions, hmade⟩
      · rcases hlost with hdefault | hnone
        · exact .inl (hseed hdefault)
        · have hplaces := hnone _ hlostWrite
          simp only [FollowUp.placesFlow, List.any_eq_false, Bool.and_eq_true, not_and,
            beq_iff_eq] at hplaces
          exact absurd hflow (hplaces r₀ hnew rfl)

/-! ## What vetting says of the regions -/

theorem ensureFlowRegionsCovered_ok (h : ensureFlowRegionsCovered cfg w check regions = .ok ())
    (hflow : check.isFlow = true) :
    covered (flowCapableSet cfg w.flowCapableRegions) regions = true := by
  rwa [ensureFlowRegionsCovered, refuseIf_eq_ok, hflow, Bool.true_and, Bool.not_eq_false'] at h

theorem ensureItemsCovered_ok (h : ensureItemsCovered cfg w regions items = .ok ()) :
    ∀ new ∈ items, new.check.isFlow = true →
      covered (flowCapableSet cfg w.flowCapableRegions) regions = true := by
  induction items with
  | nil => simp
  | cons first rest ih =>
    obtain ⟨hfirst, hrest⟩ := seq_eq_ok.1 h
    intro new hnew hflow
    rcases List.mem_cons.mp hnew with rfl | hnew
    · exact ensureFlowRegionsCovered_ok hfirst hflow
    · exact ih hrest new hnew hflow

theorem resolveCreateRegions_covered {requested : Option (List String)}
    (h : resolveCreateRegions cfg w org check requested = .ok regions)
    (hflow : check.isFlow = true) :
    covered (flowCapableSet cfg w.flowCapableRegions) regions = true := by
  cases requested with
  | none =>
    obtain ⟨resolved, -, h⟩ := bind_eq_ok.1 h
    obtain ⟨hcovered, ⟨⟩⟩ := seq_eq_ok.1 h
    exact ensureFlowRegionsCovered_ok hcovered hflow
  | some requested =>
    obtain ⟨resolved, -, h⟩ := bind_eq_ok.1 h
    obtain ⟨hcovered, ⟨⟩⟩ := seq_eq_ok.1 h
    exact ensureFlowRegionsCovered_ok hcovered hflow

theorem placesFlows_create {row : TargetRow}
    (hcovered : row.check.isFlow = true → covered capable regions = true) :
    PlacesFlows capable defaultRegion [row] (createWrites regions [row]) := by
  have hactive : row.check.isFlow = true → row.check.isPassive = false := by
    cases row.check <;> simp [CheckSpec.isFlow, CheckSpec.isPassive]
  have hwrite : ∀ id regions', .regions id regions' ∈ createWrites regions [row] →
      id = row.id ∧ regions' = regions := by
    intro id regions' hmem
    obtain ⟨r, hr, heq⟩ := List.mem_map.mp hmem
    rw [List.mem_singleton.mp (List.mem_of_mem_filter hr)] at heq
    cases heq
    exact ⟨rfl, rfl⟩
  constructor
  · intro id regions' hmem
    exact ⟨row, List.mem_singleton_self row, (hwrite _ _ hmem).1.symm⟩
  · intro r hr hflow regions' hmem
    rw [(hwrite _ _ hmem).2]
    exact hcovered (List.mem_singleton.mp hr ▸ hflow)
  · intro r hr hflow
    obtain rfl := List.mem_singleton.mp hr
    refine .inr ⟨regions, List.mem_map.mpr ⟨r, ?_, rfl⟩⟩
    exact List.mem_filter.mpr ⟨hr, by rw [hactive hflow]; rfl⟩

theorem mem_bulkWrites {id : Uuid} {assigned : List String}
    (h : .regions id assigned ∈ bulkWrites cfg w regions rows items) :
    ∃ r ∈ rows, r.id = id ∧ assigned = assignedRegions cfg w regions r.check ∧
      assigned.isEmpty = false := by
  induction rows generalizing items with
  | nil => cases h
  | cons row rows ih =>
    cases items with
    | nil => cases h
    | cons new items =>
      rcases List.mem_append.mp h with h | h
      · unfold regionWrites at h
        split at h
        · cases h
        · next hne =>
          cases List.mem_singleton.mp h
          simp only [Bool.or_eq_true, not_or, Bool.not_eq_true] at hne
          exact ⟨row, List.mem_cons_self, rfl, rfl, hne.1⟩
      · rcases List.mem_append.mp h with h | h
        · unfold policyWrites at h
          split at h
          · cases List.mem_singleton.mp h
          · cases h
        · obtain ⟨r, hr, hrest⟩ := ih h
          exact ⟨r, List.mem_cons_of_mem _ hr, hrest⟩

theorem bulkWrites_mem (hlen : rows.length = items.length) {r : TargetRow} (hr : r ∈ rows)
    (hset : (assignedRegions cfg w regions r.check).isEmpty = false)
    (hseed : assignedRegions cfg w regions r.check ≠ [cfg.defaultRegion]) :
    .regions r.id (assignedRegions cfg w regions r.check) ∈
      bulkWrites cfg w regions rows items := by
  induction rows generalizing items with
  | nil => cases hr
  | cons row rows ih =>
    cases items with
    | nil => cases hlen
    | cons new items =>
      rcases List.mem_cons.mp hr with rfl | hr
      · refine List.mem_append_left _ ?_
        simp [regionWrites, hset, hseed]
      · exact List.mem_append_right _ (List.mem_append_right _ (ih (Nat.succ.inj hlen) hr))

theorem placesFlows_bulk (hlen : rows.length = items.length)
    (hunique : ∀ r ∈ rows, ∀ r' ∈ rows, r.id = r'.id → r = r')
    (hcovered : ∀ r ∈ rows, r.check.isFlow = true →
      covered (flowCapableSet cfg w.flowCapableRegions) regions = true) :
    PlacesFlows (flowCapableSet cfg w.flowCapableRegions) cfg.defaultRegion rows
      (bulkWrites cfg w regions rows items) := by
  have hassigned : ∀ r ∈ rows, r.check.isFlow = true →
      covered (flowCapableSet cfg w.flowCapableRegions)
        (assignedRegions cfg w regions r.check) = true := by
    intro r hr hflow
    obtain ⟨region, hmem, hcap⟩ := List.any_eq_true.mp (hcovered r hr hflow)
    refine List.any_eq_true.mpr ⟨region, ?_, hcap⟩
    rw [assignedRegions, if_pos hflow]
    exact List.mem_filter.mpr ⟨hmem, hcap⟩
  constructor
  · intro id assigned hmem
    obtain ⟨r, hr, hid, -⟩ := mem_bulkWrites hmem
    exact ⟨r, hr, hid⟩
  · intro r hr hflow assigned hmem
    obtain ⟨r', hr', hid, heq, -⟩ := mem_bulkWrites hmem
    rw [heq, hunique r' hr' r hr hid]
    exact hassigned r hr hflow
  · intro r hr hflow
    have hset := hassigned r hr hflow
    by_cases hseed : assignedRegions cfg w regions r.check = [cfg.defaultRegion]
    · left
      rwa [hseed] at hset
    · right
      refine ⟨_, bulkWrites_mem hlen hr ?_ hseed⟩
      obtain ⟨region, hmem, -⟩ := List.any_eq_true.mp hset
      cases hlist : assignedRegions cfg w regions r.check with
      | nil =>
        rw [hlist] at hmem
        cases hmem
      | cons _ _ => rfl

theorem vetUpdateCheck_covered {id : Uuid} {merged : CheckSpec}
    (h : vetUpdateCheck cfg w inv org id check = .ok merged) (hflow : merged.isFlow = true) :
    ensurePatchCovered cfg w inv org id merged = .ok () := by
  obtain ⟨canonical, -, h⟩ := bind_eq_ok.1 h
  simp only [seq_eq_ok] at h
  obtain ⟨-, -, -, h⟩ := h
  split at h
  · simp only [seq_eq_ok] at h
    obtain ⟨-, hcovered, ⟨⟩⟩ := h
    exact hcovered
  · next hnot =>
    cases h
    exact absurd hflow hnot

/-! ## One request -/

/-- No write lost leaves a flow on a seed that cannot run it, and a region set that is accepted
for a flow monitor names a region that can. -/
def keepsFlows (cfg : Config) (capable : List String) (inv : Inventory) (w : World) :
    Request → Bool
  | .create _ new landed =>
    covered capable [cfg.defaultRegion] || !new.check.isFlow || landed != some 0
  | .bulkCreate org items landed =>
    covered capable [cfg.defaultRegion] ||
      match vetBulk cfg w inv org items with
      | .error _ => true
      | .ok (vetted, regions) =>
        match inv.bulkCreate w.account cfg.defaultRegion org vetted (w.plan org).maxTargets
            (w.plan org).maxFlowChecks with
        | .error _ => true
        | .ok (_, rows) =>
          (lost (bulkWrites cfg w regions rows vetted) landed).all fun write =>
            !write.placesFlow rows
  | .update _ _ _ => true
  | .setTargetRegions org id requested =>
    (inv.get org id).all fun target => !target.check.isFlow ||
      match vetRequestedRegions w org requested with
      | .error _ => true
      | .ok regions => covered capable regions

/-- The capable regions are unchanged, and the request keeps the flows it touches covered. -/
def Named (cfg : Config) (agents : List String) (inv : Inventory) (call : World × Request) : Prop :=
  call.1.flowCapableRegions = agents ∧
    keepsFlows cfg (flowCapableSet cfg agents) inv call.1 call.2 = true

theorem Placed.create (h : Placed (flowCapableSet cfg agents) inv)
    (hagents : w.flowCapableRegions = agents) {new : NewTarget}
    (hkeep : keepsFlows cfg (flowCapableSet cfg agents) inv w (.create org new landed) = true)
    (heq : handleCreate cfg w inv org new landed = .ok next) :
    Placed (flowCapableSet cfg agents) next := by
  subst hagents
  obtain ⟨⟨vetted, regions⟩, hvet, heq⟩ := bind_eq_ok.1 heq
  obtain ⟨⟨created, rows⟩, hcreate, ⟨⟩⟩ := bind_eq_ok.1 heq
  obtain ⟨check, hcanonical, hvetted, hresolved⟩ := vetCreate_ok hvet
  obtain ⟨hrows, -, -⟩ := Inventory.insertAll_ok hcreate
  obtain ⟨row, hrow, hcheck⟩ : ∃ row, rows = [row] ∧ row.check = vetted.check :=
    ⟨_, hrows, rfl⟩
  subst hrow
  have hwrites : PlacesFlows _ cfg.defaultRegion [row] (createWrites regions [row]) :=
    placesFlows_create fun hflow => resolveCreateRegions_covered hresolved (hcheck ▸ hflow)
  refine h.insert hcreate hwrites ?_
  simp only [keepsFlows, Bool.or_eq_true, Bool.not_eq_true', bne_iff_ne, ne_eq] at hkeep
  rcases hkeep with (hseed | hother) | hlanded
  · exact .inl hseed
  · -- no flow is created, so no write places one
    right
    have hrowKind : row.check.isFlow = false := by
      obtain ⟨check', tags, hkind, -, rfl⟩ := vetCreate_vetted hvet
      rw [Bool.eq_false_iff, ne_eq, CheckSpec.isFlow_iff_kind, hcheck, hkind,
        ← CheckSpec.isFlow_iff_kind, hother]
      exact Bool.false_ne_true
    intro write _
    cases write with
    | regions id assigned => simp [FollowUp.placesFlow, hrowKind]
    | policy id policy => rfl
  · -- the one write there is was made
    right
    intro write hwrite
    have hone : (createWrites regions [row]).length ≤ 1 := by
      rw [createWrites, List.length_map]
      exact List.length_filter_le _ _
    have hnone : lost (createWrites regions [row]) landed = [] := by
      rw [lost, List.drop_eq_nil_iff]
      cases landed with
      | none => exact Nat.le_refl _
      | some n =>
        have hpos : n ≠ 0 := fun hzero => hlanded (by rw [hzero])
        exact hone.trans (Nat.one_le_iff_ne_zero.mpr hpos)
    rw [hnone] at hwrite
    cases hwrite

theorem Placed.bulkCreate (h : Placed (flowCapableSet cfg agents) inv)
    (hagents : w.flowCapableRegions = agents)
    (hkeep : keepsFlows cfg (flowCapableSet cfg agents) inv w (.bulkCreate org items landed) = true)
    (heq : handleBulkCreate cfg w inv org items landed = .ok next) :
    Placed (flowCapableSet cfg agents) next := by
  subst hagents
  obtain ⟨⟨vetted, regions⟩, hvet, heq⟩ := bind_eq_ok.1 heq
  obtain ⟨⟨created, rows⟩, hcreate, ⟨⟩⟩ := bind_eq_ok.1 heq
  obtain ⟨-, -, hcovered⟩ := vetBulk_ok hvet
  obtain ⟨hrows, -, hcreated⟩ := Inventory.insertAll_ok hcreate
  have hkeyed : created.Keyed := by
    rw [hcreated, hrows]
    exact h.keyed.insertRows
  have hin : ∀ r ∈ rows, r ∈ created.rows := by
    intro r hr
    rw [hcreated]
    exact List.mem_append_right _ hr
  have hflows : ∀ r ∈ rows, r.check.isFlow = true →
      covered (flowCapableSet cfg w.flowCapableRegions) regions = true := by
    intro r hr hflow
    rw [hrows] at hr
    obtain ⟨i, hi, rfl⟩ := List.mem_mapIdx.mp hr
    exact ensureItemsCovered_ok hcovered _ (List.getElem_mem hi) hflow
  have hlen : rows.length = vetted.length := by rw [hrows, List.length_mapIdx]
  have hunique : ∀ r ∈ rows, ∀ r' ∈ rows, r.id = r'.id → r = r' :=
    fun r hr r' hr' hid => hkeyed.unique r (hin r hr) r' (hin r' hr') hid
  refine h.insert hcreate (placesFlows_bulk hlen hunique hflows) ?_
  rw [keepsFlows, hvet] at hkeep
  dsimp only at hkeep
  rw [hcreate] at hkeep
  rcases Bool.or_eq_true_iff.mp hkeep with hseed | hlost
  · exact .inl hseed
  · right
    intro write hwrite
    simpa using List.all_eq_true.mp hlost write hwrite

theorem Placed.patched (h : Placed (flowCapableSet cfg agents) inv)
    (hagents : w.flowCapableRegions = agents) {id : Uuid} {upd : TargetUpdate}
    (heq : handleUpdate cfg w inv org id upd = .ok next) :
    Placed (flowCapableSet cfg agents) next := by
  subst hagents
  obtain ⟨vetted, hvet, heq⟩ := bind_eq_ok.1 heq
  obtain ⟨⟨updated, row⟩, hupdate, heq⟩ := bind_eq_ok.1 heq
  obtain ⟨-, ⟨⟩⟩ := seq_eq_ok.1 heq
  refine ⟨h.keyed.update hupdate, ?_⟩
  intro r hr hflow
  have hregions : next.regionsOf r.id = inv.regionsOf r.id := by
    unfold Inventory.regionsOf
    rw [Inventory.update_regions hupdate]
  rw [hregions]
  rcases Inventory.update_ok hupdate with ⟨-, rfl, -⟩ | ⟨r₁, hget, -, -, rfl⟩
  · exact h.flows r hr hflow
  · rcases Table.mem_update hr with hr | ⟨r₀, hr₀, hmatch, rfl⟩
    · exact h.flows r hr hflow
    · simp only [Bool.and_eq_true, beq_iff_eq] at hmatch
      obtain ⟨hid, -⟩ := hmatch
      have hsame : (r₀.patch vetted).id = r₀.id := rfl
      rw [hsame]
      obtain ⟨check, hcheck, hrest⟩ := bind_eq_ok.1 hvet
      have hvetted : vetted.check = check := by
        obtain ⟨alerts, -, hrest⟩ := bind_eq_ok.1 hrest
        obtain ⟨tags, -, hrest⟩ := bind_eq_ok.1 hrest
        simp only [seq_eq_ok] at hrest
        obtain ⟨-, -, -, -, -, -, ⟨⟩⟩ := hrest
        rfl
      cases check with
      | none =>
        refine h.flows r₀ hr₀ ?_
        simpa [TargetRow.patch, hvetted] using hflow
      | some merged =>
        have hmerged : merged.isFlow = true := by
          simpa [TargetRow.patch, hvetted] using hflow
        obtain ⟨given, -, hgiven⟩ := onSome_some hcheck
        have hensured := vetUpdateCheck_covered hgiven hmerged
        rw [ensurePatchCovered, Inventory.regionsForTarget, hget] at hensured
        rw [hid]
        exact ensureFlowRegionsCovered_ok hensured hmerged

theorem Placed.reassigned (h : Placed (flowCapableSet cfg agents) inv) {id : Uuid}
    {requested : List String} (hkeep : keepsFlows cfg (flowCapableSet cfg agents) inv w
      (.setTargetRegions org id requested) = true)
    (heq : handleSetTargetRegions w inv org id requested = .ok next) :
    Placed (flowCapableSet cfg agents) next := by
  obtain ⟨target, regions, hget, hvet, rfl⟩ := handleSetTargetRegions_ok heq
  refine ⟨h.keyed.setTargetRegions, ?_⟩
  intro r hr hflow
  rw [Inventory.setTargetRegions_rows] at hr
  by_cases hid : r.id = id
  · obtain rfl := h.keyed.get_unique hget hr hid
    rw [hid, Inventory.setTargetRegions_self (by rw [hget]; rfl)]
    simpa [keepsFlows, hget, hvet, hflow] using hkeep
  · rw [Inventory.setTargetRegions_other hid]
    exact h.flows r hr hflow

theorem Placed.step {call : World × Request} (h : Placed (flowCapableSet cfg agents) inv)
    (hnamed : Named cfg agents inv call) (heq : step cfg inv call = some next) :
    Placed (flowCapableSet cfg agents) next := by
  obtain ⟨w, request⟩ := call
  obtain ⟨hagents, hkeep⟩ := hnamed
  unfold Targets.step at heq
  split at heq
  · next inv' hok =>
    cases heq
    cases request with
    | create org new landed => exact h.create hagents hkeep hok
    | bulkCreate org items landed => exact h.bulkCreate hagents hkeep hok
    | update org id upd => exact h.patched hagents hok
    | setTargetRegions org id requested => exact h.reassigned hkeep hok
  · cases heq
    exact h

/-- **A flow monitor always has a region that can run it**, after any requests each of which
keeps the flows it touches covered. -/
theorem flows_covered_of_named {cfg : Config} {agents : List String} {s : Inventory}
    (hrun : Async.Run (step cfg) (Named cfg agents) .start s) :
    ∀ r ∈ s.rows, r.check.isFlow = true →
      ∃ region ∈ s.regionsOf r.id, region ∈ flowCapableSet cfg agents := by
  have hplaced : Placed (flowCapableSet cfg agents) s :=
    hrun.invariant (placed_start _) fun _ _ _ h hok heq => h.step hok heq
  intro r hr hflow
  obtain ⟨region, hmem, hcap⟩ := List.any_eq_true.mp (hplaced.flows r hr hflow)
  exact ⟨region, hmem, by simpa using hcap⟩

/-! ## A region set without a capable region -/

namespace Unplaced

/-- Flows run on the agents of `us`; the control plane's own region is `eu`. -/
def config : Config where
  check := ⟨fun _ => none, fun _ => "", fun _ => none, some, false⟩
  flowEnabled := false
  defaultRegion := "eu"

def world : World where
  plan := fun _ => ⟨"pro", 10, 60, 5, 30, 3⟩
  account := fun _ => 0
  channels := fun _ => []
  members := fun _ => []
  availableRegions := ["eu", "us"]
  defaultSelectedRegions := ["eu", "us"]
  flowCapableRegions := ["us"]
  abuse := fun _ => none
  variableRefs := fun _ _ => .ok ()

def site : Url := ⟨"https", some (.domain "example.com"), none⟩

def target : NewTarget where
  name := "checkout"
  check := .flow ⟨site, [.assertUrl "done"], 30000, 5000⟩
  interval := 300
  enabled := true
  tags := []
  alerts := []
  alertConfirmations := 1
  notifyRecovery := true
  renotifyIntervalSecs := 0
  regionPolicy := none
  groupName := none
  ownerUserId := none

/-- A flow monitor is created and then assigned `regions`. -/
def requests (regions : List String) : List (World × Request) :=
  [(world, .create 1 target none), (world, .setTargetRegions 1 0 regions)]

theorem run_requests {step : Inventory → World × Request → Option Inventory} {s : Inventory}
    {regions : List String} (h : Async.steps step .start (requests regions) = some s) :
    Async.Run step (fun _ call => call.1.flowCapableRegions = ["us"] ∧
      call.2.undisturbed = true) .start s := by
  refine .of_steps_allowed h ?_
  intro call hcall _
  rcases List.mem_pair.mp hcall with rfl | rfl <;> exact ⟨rfl, rfl⟩

theorem flows_covered_of_named_assigned : ∃ s, ∃ r ∈ s.rows,
    Async.Run (step config) (Named config ["us"]) .start s ∧ s.regionsOf r.id = ["eu", "us"] ∧
    ∃ region ∈ s.regionsOf r.id, region ∈ flowCapableSet config ["us"] := by
  have hsteps : ((Async.steps (Async.guarded (step config) fun inv call =>
      keepsFlows config (flowCapableSet config ["us"]) inv call.1 call.2) .start
        (requests ["us", "eu"])).any fun s =>
          s.rows.any fun r => r.check.isFlow && s.regionsOf r.id == ["eu", "us"]) = true := by
    decide +kernel
  obtain ⟨s, hs, hflow⟩ := (Option.any_eq_true _ _).mp hsteps
  obtain ⟨r, hr, hflow⟩ := List.any_eq_true.mp hflow
  simp only [Bool.and_eq_true, beq_iff_eq] at hflow
  have hrun : Async.Run (step config) (Named config ["us"]) .start s := by
    refine Async.Run.mono ?_ (run_requests hs).of_guarded
    rintro _ _ ⟨⟨hagents, -⟩, hkeep⟩
    exact ⟨hagents, hkeep⟩
  exact ⟨s, r, hr, hrun, hflow.2, flows_covered_of_named hrun r hr hflow.1⟩

/-- A flow monitor that is assigned the one region without a flow engine keeps it. -/
theorem flow_unplaced : ¬ ∀ (cfg : Config) (agents : List String) (s : Inventory),
    Async.Run (step cfg) (fun _ call => call.1.flowCapableRegions = agents ∧
      call.2.undisturbed = true) .start s →
    ∀ r ∈ s.rows, r.check.isFlow = true →
      ∃ region ∈ s.regionsOf r.id, region ∈ flowCapableSet cfg agents := by
  intro h
  have hsteps : ((Async.steps (step config) .start (requests ["eu"])).any fun s =>
      s.rows.any fun r => r.check.isFlow && s.regionsOf r.id == ["eu"]) = true := by
    decide +kernel
  obtain ⟨s, hs, hflow⟩ := (Option.any_eq_true _ _).mp hsteps
  obtain ⟨r, hr, hflow⟩ := List.any_eq_true.mp hflow
  simp only [Bool.and_eq_true, beq_iff_eq] at hflow
  obtain ⟨region, hmem, hcap⟩ := h config ["us"] s (run_requests hs) r hr hflow.1
  rw [hflow.2, List.mem_singleton] at hmem
  rw [hmem] at hcap
  revert hcap
  decide

end Unplaced

end Uptimepage.Targets

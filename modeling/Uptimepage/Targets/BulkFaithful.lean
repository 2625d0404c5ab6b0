import Uptimepage.Targets.BulkCreate

/-!
# When a bulk create is as many creates

An item that a bulk create accepts is accepted by `create`, one after another
(`createEach_ok`): canonical hosts stay as they are, and what is counted together leaves room for
each in turn.  The rest of `bulkCreate_faithful_iff` is what `writeItems` leaves.
-/

namespace Uptimepage.Targets.BulkCreate

section

variable {cfg : Config} {w : World} {inv : Inventory} {org : OrgId} {new vetted : NewTarget}

/-! ## Canonical checks -/

variable {env : CheckEnv} {check : CheckSpec}

theorem canonHost_canonical (henv : Canonical env) {host canon field code : String}
    (h : canonHost env host field code = .ok canon) :
    canonHost env canon field code = .ok canon := by
  unfold canonHost at h
  dsimp only at h
  split at h
  · next ip hip =>
    cases h
    obtain ⟨hplain, hparse⟩ := henv.ip _ ip hip
    unfold canonHost
    dsimp only
    rw [hplain, hparse]
  · split at h
    · next hdomain =>
      cases h
      obtain ⟨hplain, haddr, htrim, hagain⟩ := henv.domain _ _ hdomain
      unfold canonHost
      dsimp only
      rw [hplain]
      split
      · next ip hip => rw [haddr ip hip]
      · rw [htrim, hagain]
    · cases h

theorem canonicalizeCheck_canonical (henv : Canonical env) {canonical : CheckSpec}
    (h : canonicalizeCheck env check = .ok canonical) :
    canonicalizeCheck env canonical = .ok canonical := by
  cases check with
  | http c => cases h; rfl
  | heartbeat c => cases h; rfl
  | flow c => cases h; rfl
  | tcp c =>
    obtain ⟨host, hhost, ⟨⟩⟩ := bind_eq_ok.1 h
    exact bind_eq_ok.2 ⟨host, canonHost_canonical henv hhost, rfl⟩
  | ping c =>
    obtain ⟨host, hhost, ⟨⟩⟩ := bind_eq_ok.1 h
    exact bind_eq_ok.2 ⟨host, canonHost_canonical henv hhost, rfl⟩
  | tlsCert c =>
    obtain ⟨host, hhost, ⟨⟩⟩ := bind_eq_ok.1 h
    exact bind_eq_ok.2 ⟨host, canonHost_canonical henv hhost, rfl⟩
  | domainExpiry c =>
    obtain ⟨host, hhost, ⟨⟩⟩ := bind_eq_ok.1 h
    exact bind_eq_ok.2 ⟨host, canonHost_canonical henv hhost, rfl⟩
  | dns c =>
    obtain ⟨host, hhost, ⟨⟩⟩ := bind_eq_ok.1 h
    exact bind_eq_ok.2 ⟨host, canonHost_canonical henv hhost, rfl⟩

/-! ## One create -/

theorem preferredRegions_capable (hflow : check.isFlow = true) :
    ∀ r ∈ preferredRegions cfg w check, r ∈ flowCapableSet cfg w.flowCapableRegions := by
  intro r hr
  unfold preferredRegions flowRestrictRegions at hr
  simp only [if_pos hflow] at hr
  split at hr
  · simpa using List.of_mem_filter hr
  · simpa using List.of_mem_filter hr

theorem default_capable (hselected : w.defaultSelectedRegions.Nodup) (hflow : check.isFlow = true)
    (hnone : preferredRegions cfg w check = [])
    (hcovered : covered (flowCapableSet cfg w.flowCapableRegions) (bulkRegions cfg w org) = true) :
    (flowCapableSet cfg w.flowCapableRegions).contains cfg.defaultRegion = true := by
  obtain ⟨r, hr, hcap⟩ := List.any_eq_true.mp hcovered
  unfold bulkRegions at hr
  by_cases hnil : w.defaultSelectedRegions = []
  · rw [hnil, defaultRegionSet_nil] at hr
    rwa [← List.mem_singleton.mp hr]
  · exfalso
    rw [defaultRegionSet_eq hselected hnil] at hr
    unfold preferredRegions flowRestrictRegions at hnone
    simp only [if_pos hflow] at hnone
    have hkept := List.ne_nil_of_mem (List.mem_filter.mpr ⟨Capped.capped_subset hr, hcap⟩)
    split at hnone
    · next hempty =>
      exact hkept (List.isEmpty_iff.mp (Bool.and_eq_true_iff.mp hempty).1)
    · exact hkept hnone

theorem resolveCreateRegions_ok (hselected : w.defaultSelectedRegions.Nodup)
    (havailable : w.availableRegions.Nodup)
    (hcovered : check.isFlow = true → covered (flowCapableSet cfg w.flowCapableRegions)
      (bulkRegions cfg w org) = true) :
    resolveCreateRegions cfg w org check none = .ok (defaultRegionSet
      (preferredRegions cfg w check) (w.plan org).maxRegions cfg.defaultRegion) := by
  refine bind_eq_ok.2 ⟨_, rfl, seq_eq_ok.2 ⟨?_, rfl⟩⟩
  unfold ensureFlowRegionsCovered
  rw [refuseIf_eq_ok]
  cases hflow : check.isFlow with
  | false => rfl
  | true =>
    rw [Bool.true_and, Bool.not_eq_false']
    by_cases hnone : preferredRegions cfg w check = []
    · rw [hnone, defaultRegionSet_nil]
      exact List.any_eq_true.mpr ⟨_, List.mem_singleton_self _,
        default_capable hselected hflow hnone (hcovered hflow)⟩
    · have hnodup : (preferredRegions cfg w check).Nodup := by
        unfold preferredRegions flowRestrictRegions
        simp only [if_pos hflow]
        split
        · exact havailable.filter _
        · exact hselected.filter _
      obtain ⟨r, hr⟩ := List.exists_mem_of_ne_nil _ (defaultRegionSet_ne_nil
        (preferredRegions cfg w check) (w.plan org).maxRegions cfg.defaultRegion)
      have hmem := hr
      rw [defaultRegionSet_eq hnodup hnone] at hmem
      refine List.any_eq_true.mpr ⟨r, hr, ?_⟩
      simpa using preferredRegions_capable hflow r (Capped.capped_subset hmem)

theorem vetCreate_of_vetItem (henv : Canonical cfg.check)
    (hselected : w.defaultSelectedRegions.Nodup) (havailable : w.availableRegions.Nodup)
    (hitem : vetItem cfg w org new = .ok vetted)
    (howner : validateOwnerIsMember w org vetted.ownerUserId = .ok ())
    (htargets : checkCanCreateTargets w inv org 1 = .ok ())
    (hflows : vetted.check.isFlow = true → checkCanCreateFlow w inv org 1 = .ok ())
    (hcovered : vetted.check.isFlow = true → covered (flowCapableSet cfg w.flowCapableRegions)
      (bulkRegions cfg w org) = true) :
    vetCreate cfg w inv org new = .ok (vetted, defaultRegionSet
      (preferredRegions cfg w vetted.check) (w.plan org).maxRegions cfg.defaultRegion) := by
  obtain ⟨check, hcheck, hitem⟩ := bind_eq_ok.1 hitem
  obtain ⟨hgate, hitem⟩ := seq_eq_ok.1 hitem
  obtain ⟨valid, hvalid, hitem⟩ := bind_eq_ok.1 hitem
  simp only [seq_eq_ok] at hitem
  obtain ⟨hpolicy, hchannels, habuse, hrefs, hsame⟩ := hitem
  cases hsame
  have hvet : vetNewTarget cfg w inv org { new with check := check } = .ok vetted := by
    refine bind_eq_ok.2 ⟨check, canonicalizeCheck_canonical henv hcheck, ?_⟩
    refine bind_eq_ok.2 ⟨vetted, hvalid, ?_⟩
    simp only [seq_eq_ok]
    exact ⟨hpolicy, habuse, hrefs, htargets, rfl⟩
  refine bind_eq_ok.2 ⟨check, hcheck, seq_eq_ok.2 ⟨hgate, ?_⟩⟩
  refine bind_eq_ok.2 ⟨vetted, hvet, seq_eq_ok.2 ⟨hchannels, seq_eq_ok.2 ⟨howner, ?_⟩⟩⟩
  have hregions := resolveCreateRegions_ok hselected havailable hcovered
  cases hflow : vetted.check.isFlow with
  | true =>
    rw [if_pos rfl]
    exact seq_eq_ok.2 ⟨hflows hflow, bind_eq_ok.2 ⟨_, hregions, rfl⟩⟩
  | false =>
    rw [if_neg Bool.false_ne_true]
    exact bind_eq_ok.2 ⟨_, hregions, rfl⟩

/-! ## Room -/

structure Room (w : World) (inv : Inventory) (org : OrgId) (items : List NewTarget) : Prop where
  targets : (inv.countTargets w.account (w.account org) + items.length : Int) ≤
    (w.plan org).maxTargets
  flows : 0 < items.countP (fun new => new.check.isFlow) →
    (inv.countFlow w.account (w.account org) + items.countP fun new => new.check.isFlow : Int) ≤
      (w.plan org).maxFlowChecks

theorem withinCaps_iff {items : List NewTarget} :
    inv.withinCaps w.account org (items.countP fun new => new.check.isFlow) items.length
      (w.plan org).maxTargets (w.plan org).maxFlowChecks = .ok () ↔ Room w inv org items := by
  unfold Inventory.withinCaps
  dsimp only
  rw [seq_eq_ok, refuseIf_eq_ok, refuseIf_eq_ok]
  simp only [decide_eq_false_iff_not, Bool.and_eq_false_iff, not_lt]
  constructor
  · rintro ⟨htargets, hflows⟩
    exact ⟨htargets, fun hpos => hflows.resolve_left (by omega)⟩
  · intro h
    refine ⟨h.targets, ?_⟩
    rcases Nat.eq_zero_or_pos (items.countP fun new => new.check.isFlow) with hzero | hpos
    · exact .inl (Nat.le_of_eq hzero)
    · exact .inr (h.flows hpos)

theorem Room.head {items : List NewTarget} (h : Room w inv org (new :: items)) :
    Room w inv org [new] := by
  constructor
  · have htargets := h.targets
    rw [List.length_cons] at htargets
    rw [List.length_singleton]
    omega
  · intro hpos
    have hflows := h.flows
    rw [List.countP_cons] at hpos hflows ⊢
    rw [List.countP_nil] at hpos ⊢
    have hroom := hflows (by omega)
    omega

theorem Room.tail {items : List NewTarget} {next : Inventory} {id : Uuid}
    {policy : RegionIncidentPolicy} (h : Room w inv org (new :: items))
    (hrows : next.rows = inv.rows ++ [Inventory.rowOf id org new policy]) :
    Room w next org items := by
  have htargets : next.countTargets w.account (w.account org) =
      inv.countTargets w.account (w.account org) + 1 := by
    unfold Inventory.countTargets Inventory.count
    rw [hrows, List.countP_append, List.countP_singleton]
    simp [Inventory.rowOf]
  have hflows : next.countFlow w.account (w.account org) =
      inv.countFlow w.account (w.account org) + if new.check.isFlow then 1 else 0 := by
    unfold Inventory.countFlow Inventory.count
    rw [hrows, List.countP_append, List.countP_singleton]
    simp [Inventory.rowOf]
  constructor
  · have hroom := h.targets
    rw [List.length_cons] at hroom
    omega
  · intro hpos
    have hroom := h.flows
    rw [List.countP_cons] at hroom
    have hroom := hroom (by omega)
    omega

theorem Room.checks (h : Room w inv org [new]) :
    checkCanCreateTargets w inv org 1 = .ok () ∧
      (new.check.isFlow = true → checkCanCreateFlow w inv org 1 = .ok ()) := by
  constructor
  · have hroom := h.targets
    rw [List.length_singleton] at hroom
    unfold checkCanCreateTargets checkPooled
    rw [refuseIf_eq_ok, decide_eq_false_iff_not]
    omega
  · intro hflow
    have hone : [new].countP (fun new => new.check.isFlow) = 1 := by
      rw [List.countP_singleton, if_pos hflow]
    have hroom := h.flows
    rw [hone] at hroom
    have hroom := hroom Nat.one_pos
    unfold checkCanCreateFlow checkPooled
    rw [refuseIf_eq_ok, decide_eq_false_iff_not]
    omega

/-! ## One create after another -/

variable {policy : NewTarget → RegionIncidentPolicy}

theorem insertAll_of {items : List NewTarget} (cfg : Config) (hroom : Room w inv org items)
    (hchecks : ∀ r ∈ rowsFrom inv.nextId org policy items, r.satisfiesChecks = true) :
    inv.insertAll w.account cfg.defaultRegion org items policy (w.plan org).maxTargets
        (w.plan org).maxFlowChecks =
      .ok (inv.insertRows cfg.defaultRegion (rowsFrom inv.nextId org policy items),
        rowsFrom inv.nextId org policy items) := by
  unfold Inventory.insertAll
  dsimp only
  rw [mapIdx_rowOf]
  refine seq_eq_ok.2 ⟨withinCaps_iff.2 hroom, seq_eq_ok.2 ⟨?_, rfl⟩⟩
  rw [refuseIf_eq_ok]
  simpa using hchecks

/-- The items are stored in their order from the id `n` on, each with its policy and in its
regions, and nothing else has changed. -/
structure Stored (org : OrgId) (placed : CheckSpec → List String) (n : Nat) (inv : Inventory)
    (items : List NewTarget) (final : Inventory) : Prop where
  rows : final.rows = inv.rows ++
    rowsFrom n org chosenPolicy items
  nextId : final.nextId = n + items.length
  others : ∀ id : Nat, id < n ∨ n + items.length ≤ id → final.regionsOf id = inv.regionsOf id
  items : ∀ j new, items[j]? = some new → final.regionsOf (n + j) = placed new.check

variable {placed : CheckSpec → List String} {n : Nat} {final : Inventory}

theorem Stored.cons {items : List NewTarget} {mid : Inventory}
    (hone : Stored org placed n inv [new] mid) (hrest : Stored org placed (n + 1) mid items final) :
    Stored org placed n inv (new :: items) final := by
  constructor
  · rw [hrest.rows, hone.rows, List.append_assoc]
    rfl
  · rw [hrest.nextId, List.length_cons, Nat.add_assoc, Nat.add_comm 1]
  · intro id hout
    rw [List.length_cons] at hout
    rw [hrest.others id (by omega), hone.others id (by rw [List.length_singleton]; omega)]
  · intro j new' hj
    cases j with
    | zero =>
      cases hj
      rw [Nat.add_zero, hrest.others n (by omega)]
      exact hone.items 0 new rfl
    | succ j =>
      have hshift : n + (j + 1) = n + 1 + j := by omega
      rw [hshift]
      exact hrest.items j new' hj

theorem Stored.same_iff {placed' : CheckSpec → List String} {items : List NewTarget}
    {final' : Inventory} (h : Stored org placed n inv items final)
    (h' : Stored org placed' n inv items final') :
    (∀ id region, region ∈ final.regionsOf id ↔ region ∈ final'.regionsOf id) ↔
      ∀ new ∈ items, ∀ r, r ∈ placed new.check ↔ r ∈ placed' new.check := by
  constructor
  · intro hsame new hnew r
    obtain ⟨j, hj⟩ := List.getElem?_of_mem hnew
    rw [← h.items j new hj, ← h'.items j new hj]
    exact hsame _ r
  · intro hsame id region
    rcases Nat.lt_or_ge id n with hlt | hge
    · rw [h.others id (.inl hlt), h'.others id (.inl hlt)]
    · obtain ⟨j, rfl⟩ := Nat.exists_eq_add_of_le hge
      rcases Nat.lt_or_ge j items.length with hlt | hge
      · have hj := List.getElem?_eq_getElem hlt
        rw [h.items j _ hj, h'.items j _ hj]
        exact hsame _ (List.getElem_mem hlt) region
      · have hout : n + items.length ≤ n + j := Nat.add_le_add_left hge n
        rw [h.others _ (.inr hout), h'.others _ (.inr hout)]

/-! ## What an insert seeds -/

theorem length_rowsFrom (n : Nat) (org : OrgId) (policy : NewTarget → RegionIncidentPolicy)
    (items : List NewTarget) : (rowsFrom n org policy items).length = items.length := by
  rw [← mapIdx_rowOf, List.length_mapIdx]

theorem regionsOf_fresh (h : inv.Keyed) {id : Nat} (hid : inv.nextId ≤ id) :
    inv.regionsOf id = [] := by
  unfold Inventory.regionsOf
  rw [List.map_eq_nil_iff, List.filter_eq_nil_iff]
  intro a ha
  have hlt := h.assigned a ha
  have hne : a.1 ≠ id := Nat.ne_of_lt (Nat.lt_of_lt_of_le hlt hid)
  simpa using hne

theorem seeds (org : OrgId) (policy : NewTarget → RegionIncidentPolicy) (items : List NewTarget)
    (n id : Nat) (defaultRegion : String) :
    (((rowsFrom n org policy items).map fun r => (r.id, defaultRegion)).filter
      fun a => a.1 == id).map (fun a => a.2) =
      if n ≤ id ∧ id < n + items.length then [defaultRegion] else [] := by
  induction items generalizing n with
  | nil =>
    rw [if_neg (by rw [List.length_nil]; omega)]
    rfl
  | cons new items ih =>
    rw [rowsFrom, List.map_cons, List.filter_cons, List.length_cons]
    by_cases hid : id = n
    · rw [if_pos (by simp [hid, Inventory.rowOf]), List.map_cons, ih, if_neg (by omega),
        if_pos (by omega)]
    · have hne : ¬ ((Inventory.rowOf n org new (policy new)).id == id) = true := by
        simpa [Inventory.rowOf] using fun h => hid h.symm
      rw [if_neg hne, ih]
      congr 1
      simp only [eq_iff_iff]
      omega

theorem regionsOf_insertRows {items : List NewTarget} (defaultRegion : String) (n id : Nat) :
    (inv.insertRows defaultRegion (rowsFrom n org policy items)).regionsOf id =
      inv.regionsOf id ++ if n ≤ id ∧ id < n + items.length then [defaultRegion] else [] := by
  rw [← seeds org policy items n id defaultRegion]
  unfold Inventory.regionsOf Inventory.insertRows
  rw [List.filter_append, List.map_append]

theorem keyed_insertRows {items : List NewTarget} (h : inv.Keyed) (defaultRegion : String) :
    (inv.insertRows defaultRegion (rowsFrom inv.nextId org policy items)).Keyed := by
  rw [← mapIdx_rowOf]
  exact h.insertRows

/-! ## Created one by one -/

theorem createWrites_single (regions : List String) (row : TargetRow) :
    createWrites regions [row] =
      if row.check.isPassive then [] else [.regions row.id regions] := by
  cases h : row.check.isPassive <;> simp [createWrites, h]

theorem followUps_create (cfg : Config) (row : TargetRow) (regions : List String)
    (hkeyed : inv.Keyed) (hid : row.id = inv.nextId) (horg : row.orgId = org) :
    ∃ next, (inv.insertRows cfg.defaultRegion [row]).followUps org (createWrites regions [row])
        none = next ∧
      next.rows = inv.rows ++ [row] ∧ next.nextId = inv.nextId + 1 ∧
      (∀ id, id ≠ inv.nextId → next.regionsOf id = inv.regionsOf id) ∧
      next.regionsOf inv.nextId = if row.check.isPassive then [cfg.defaultRegion] else regions := by
  have hseeded : ∀ id, (inv.insertRows cfg.defaultRegion [row]).regionsOf id =
      inv.regionsOf id ++ if id = inv.nextId then [cfg.defaultRegion] else [] := by
    intro id
    unfold Inventory.regionsOf Inventory.insertRows
    rw [List.filter_append, List.map_append, List.map_singleton, List.filter_singleton, hid]
    by_cases heq : id = inv.nextId
    · simp [heq]
    · have hne : (inv.nextId == id) = false := by simpa using fun h => heq h.symm
      simp [heq, hne]
  have hother : ∀ id, id ≠ inv.nextId →
      (inv.insertRows cfg.defaultRegion [row]).regionsOf id = inv.regionsOf id := by
    intro id hne
    rw [hseeded, if_neg hne, List.append_nil]
  have hget : ((inv.insertRows cfg.defaultRegion [row]).get org row.id).isSome = true := by
    unfold Inventory.get
    rw [List.find?_isSome]
    exact ⟨row, List.mem_append_right _ (List.mem_singleton_self row), by simp [horg]⟩
  rw [createWrites_single]
  split
  · refine ⟨_, rfl, rfl, rfl, hother, ?_⟩
    show (inv.insertRows cfg.defaultRegion [row]).regionsOf inv.nextId = _
    rw [hseeded, if_pos rfl, regionsOf_fresh hkeyed (Nat.le_refl _), List.nil_append]
  · refine ⟨_, rfl, ?_, ?_, ?_, ?_⟩
    · exact Inventory.setTargetRegions_rows _ _ _ _
    · exact Inventory.setTargetRegions_nextId _ _ _ _
    · intro id hne
      rw [← hother id hne]
      exact Inventory.setTargetRegions_other (by rwa [hid])
    · rw [← hid]
      exact Inventory.setTargetRegions_self hget

section

variable (henv : Canonical cfg.check) (hselected : w.defaultSelectedRegions.Nodup)
  (havailable : w.availableRegions.Nodup)

include henv hselected havailable

theorem create_ok {n : Nat} (hkeyed : inv.Keyed) (hn : inv.nextId = n)
    (hitem : vetItem cfg w org new = .ok vetted)
    (howner : validateOwnerIsMember w org vetted.ownerUserId = .ok ())
    (hroom : Room w inv org [vetted])
    (hcovered : vetted.check.isFlow = true → covered (flowCapableSet cfg w.flowCapableRegions)
      (bulkRegions cfg w org) = true)
    (hchecks : (Inventory.rowOf n org vetted (seededPolicy vetted)).satisfiesChecks = true) :
    ∃ next, create cfg w inv org new = .ok (next, rowsFrom n org chosenPolicy [vetted]) ∧
      Stored org (createPlaced cfg w org) n inv [vetted] next ∧ next.Keyed := by
  obtain ⟨htargets, hflows⟩ := hroom.checks
  have hvet := vetCreate_of_vetItem henv hselected havailable hitem howner htargets hflows hcovered
  have hrowChecks : ∀ r ∈ rowsFrom inv.nextId org chosenPolicy [vetted],
      r.satisfiesChecks = true := by
    intro r hr
    rw [List.mem_singleton.mp hr]
    exact hchecks
  have hinsert := insertAll_of cfg hroom hrowChecks
  rw [hn] at hinsert
  have hinserted : (inv.insertRows cfg.defaultRegion (rowsFrom n org chosenPolicy [vetted])).Keyed :=
    hn ▸ keyed_insertRows hkeyed cfg.defaultRegion
  obtain ⟨next, hnext, hrows, hnextId, hothers, hself⟩ := followUps_create cfg
    (Inventory.rowOf n org vetted (chosenPolicy vetted))
    (defaultRegionSet (preferredRegions cfg w vetted.check) (w.plan org).maxRegions
      cfg.defaultRegion) hkeyed hn.symm rfl
  refine ⟨next, bind_eq_ok.2 ⟨_, hvet, bind_eq_ok.2 ⟨_, hinsert, ?_⟩⟩, ?_, ?_⟩
  · rw [← hnext]
    rfl
  · refine ⟨hrows, hnextId.trans (by rw [hn]; rfl), ?_, ?_⟩
    · intro id hout
      rw [List.length_singleton] at hout
      have hne : id ≠ n := by omega
      exact hothers id (by rwa [hn])
    · intro j new' hj
      cases j with
      | zero =>
        cases hj
        rw [Nat.add_zero, ← hn]
        exact hself
      | succ j => simp at hj
  · rw [← hnext]
    exact hinserted.foldl_followUp

theorem createEach_ok {items vetted : List NewTarget} {n : Nat} (hkeyed : inv.Keyed)
    (hn : inv.nextId = n) (hitems : vetItems cfg w org items = .ok vetted)
    (howners : validateOwners w org vetted = .ok ()) (hroom : Room w inv org vetted)
    (hcovered : ensureItemsCovered cfg w (bulkRegions cfg w org) vetted = .ok ())
    (hchecks : ∀ r ∈ rowsFrom n org seededPolicy vetted, r.satisfiesChecks = true) :
    ∃ final, createEach cfg w inv org items = .ok (final, rowsFrom n org chosenPolicy vetted) ∧
      Stored org (createPlaced cfg w org) n inv vetted final := by
  induction items generalizing vetted n inv with
  | nil =>
    cases hitems
    refine ⟨inv, rfl, (List.append_nil _).symm, hn, fun _ _ => rfl, ?_⟩
    intro j new hj
    simp at hj
  | cons new items ih =>
    obtain ⟨first, hfirst, hitems⟩ := bind_eq_ok.1 hitems
    obtain ⟨others, hothers, hsame⟩ := bind_eq_ok.1 hitems
    cases hsame
    obtain ⟨howner, howners⟩ := seq_eq_ok.1 howners
    obtain ⟨hcover, hcovers⟩ := seq_eq_ok.1 hcovered
    obtain ⟨mid, hmid, hone, hmidKeyed⟩ := create_ok henv hselected havailable hkeyed hn hfirst
      howner hroom.head (fun hflow => ensureFlowRegionsCovered_ok hcover hflow)
      (hchecks _ List.mem_cons_self)
    obtain ⟨final, hfinal, hrest⟩ := ih hmidKeyed hone.nextId hothers howners
      (hroom.tail hone.rows) hcovers (fun r hr => hchecks r (List.mem_cons_of_mem _ hr))
    exact ⟨final, bind_eq_ok.2 ⟨_, hmid, bind_eq_ok.2 ⟨_, hfinal, rfl⟩⟩, hone.cons hrest⟩

end

/-! ## What the request leaves -/

/-- What is known of a request whose insert is committed. -/
structure Accepted (cfg : Config) (w : World) (inv : Inventory) (org : OrgId)
    (items vetted : List NewTarget) : Prop where
  vet : vetBulk cfg w inv org items = .ok (vetted, bulkRegions cfg w org)
  insert : inv.bulkCreate w.account cfg.defaultRegion org vetted (w.plan org).maxTargets
    (w.plan org).maxFlowChecks = .ok (inv.insertRows cfg.defaultRegion
      (rowsFrom inv.nextId org seededPolicy vetted), rowsFrom inv.nextId org seededPolicy vetted)
  items : vetItems cfg w org items = .ok vetted
  owners : validateOwners w org vetted = .ok ()
  covered : ensureItemsCovered cfg w (bulkRegions cfg w org) vetted = .ok ()
  room : Room w inv org vetted
  checks : ∀ r ∈ rowsFrom inv.nextId org seededPolicy vetted, r.satisfiesChecks = true
  nonempty : vetted ≠ []

theorem vetBulk_owners {items vetted : List NewTarget} {regions : List String}
    (h : vetBulk cfg w inv org items = .ok (vetted, regions)) :
    items ≠ [] ∧ validateOwners w org vetted = .ok () := by
  obtain ⟨hempty, h⟩ := seq_eq_ok.1 h
  obtain ⟨-, h⟩ := seq_eq_ok.1 h
  obtain ⟨result, -, h⟩ := bind_eq_ok.1 h
  obtain ⟨howners, h⟩ := seq_eq_ok.1 h
  simp only [seq_eq_ok] at h
  obtain ⟨-, -, h⟩ := h
  have hsame : result = vetted := by
    split at h
    · exact (Prod.mk.inj (Except.ok.inj (seq_eq_ok.1 h).2)).1
    · exact (Prod.mk.inj (Except.ok.inj h)).1
  rw [← hsame]
  exact ⟨by simpa using hempty, howners⟩

theorem vetItems_length {items vetted : List NewTarget}
    (h : vetItems cfg w org items = .ok vetted) : vetted.length = items.length :=
  (vetItems_vetted h).length_eq.symm

theorem Committed.accepted {items : List NewTarget} {fault : Fault}
    (h : Committed cfg w inv org items fault) : ∃ vetted, Accepted cfg w inv org items vetted := by
  obtain ⟨-, vetted, regions, ⟨created, rows⟩, hvet, hinsert⟩ := h
  obtain ⟨hitems, rfl, hcovered⟩ := vetBulk_ok hvet
  obtain ⟨hne, howners⟩ := vetBulk_owners hvet
  obtain ⟨hrows, hchecks, hcreated⟩ := Inventory.insertAll_ok hinsert
  have hroom := withinCaps_iff.1 (seq_eq_ok.1 hinsert).1
  rw [mapIdx_rowOf] at hrows
  subst hcreated hrows
  refine ⟨vetted, hvet, hinsert, hitems, howners, hcovered, hroom, hchecks, ?_⟩
  intro hnil
  have hlen := vetItems_length hitems
  rw [hnil] at hlen
  exact hne (List.eq_nil_of_length_eq_zero hlen.symm)

section

variable {items vetted : List NewTarget} {fault : Fault} (h : Accepted cfg w inv org items vetted)
  (hkeyed : inv.Keyed) (hinsert : fault ≠ .insert)

include h hinsert

theorem Accepted.bulkCreate_eq : bulkCreate cfg w inv org items fault =
    if vetted.any (fun new => new.check.isFlow) && fault = .agents then
      ⟨inv.insertRows cfg.defaultRegion (rowsFrom inv.nextId org seededPolicy vetted),
        .error storageError⟩
    else
      match writeItems cfg w org (bulkRegions cfg w org) fault 0
          (inv.insertRows cfg.defaultRegion (rowsFrom inv.nextId org seededPolicy vetted))
          (rowsFrom inv.nextId org seededPolicy vetted) (vetted.map NewTarget.regionPolicy) with
      | .error (left, e) => ⟨left, .error e⟩
      | .ok left => ⟨left, .ok (rowsFrom inv.nextId org seededPolicy vetted)⟩ := by
  unfold bulkCreate
  rw [h.vet]
  dsimp only
  rewrite [if_neg hinsert, h.insert]
  rfl

include hkeyed

theorem Accepted.stored (hstrikes : ¬ fault.Strikes cfg w org vetted) :
    ∃ left, bulkCreate cfg w inv org items fault =
        ⟨left, .ok (rowsFrom inv.nextId org seededPolicy vetted)⟩ ∧
      Stored org (bulkPlaced cfg w org) inv.nextId inv vetted left := by
  obtain ⟨hagents, hwrites⟩ := not_or.mp hstrikes
  push Not at hagents hwrites
  have hnone : ∀ j new, vetted[j]? = some new → fault.atItem cfg w org (0 + j) new = false := by
    intro j new hj
    rw [Nat.zero_add]
    simpa using hwrites j new hj
  obtain ⟨left, hleft, hrows, hplaced⟩ := writeItems_ok
    (rfl : (inv.insertRows cfg.defaultRegion (rowsFrom inv.nextId org seededPolicy vetted)).rows =
      inv.rows ++ rowsFrom inv.nextId org seededPolicy vetted) hkeyed.fresh h.checks hnone
  refine ⟨left, ?_, hrows, ?_, ?_, ?_⟩
  · rw [h.bulkCreate_eq hinsert, if_neg, hleft]
    intro hstruck
    obtain ⟨hflows, hfault⟩ := Bool.and_eq_true_iff.mp hstruck
    obtain ⟨new, hnew, hflow⟩ := List.any_eq_true.mp hflows
    exact hagents (by simpa using hfault) new hnew hflow
  · rw [hplaced.nextId, ← length_rowsFrom inv.nextId org seededPolicy vetted]
    rfl
  · intro id hout
    rw [hplaced.others id hout, regionsOf_insertRows, if_neg, List.append_nil]
    intro hin
    exact hout.elim (Nat.not_lt_of_le hin.1) (Nat.not_le_of_lt hin.2)
  · intro j new hj
    apply hplaced.items j new hj
    have hlt : j < vetted.length := (List.getElem?_eq_some_iff.mp hj).1
    rw [regionsOf_insertRows, regionsOf_fresh hkeyed (Nat.le_add_right _ _), List.nil_append,
      if_pos ⟨Nat.le_add_right _ _, Nat.add_lt_add_left hlt _⟩]

theorem Accepted.struck (hstrikes : fault.Strikes cfg w org vetted) :
    ∃ left e, bulkCreate cfg w inv org items fault = ⟨left, .error e⟩ ∧
      ∃ r ∈ left.rows, r ∉ inv.rows := by
  have hnew : ∀ left : Inventory, (left.get org inv.nextId).isSome =
      ((inv.insertRows cfg.defaultRegion (rowsFrom inv.nextId org seededPolicy vetted)).get org
        inv.nextId).isSome → ∃ r ∈ left.rows, r ∉ inv.rows := by
    intro left hsame
    obtain ⟨first, rest, hvetted⟩ := List.exists_cons_of_ne_nil h.nonempty
    have hthere : ((inv.insertRows cfg.defaultRegion (rowsFrom inv.nextId org seededPolicy
        vetted)).get org inv.nextId).isSome = true := by
      unfold Inventory.get
      rw [List.find?_isSome, hvetted]
      exact ⟨_, List.mem_append_right _ List.mem_cons_self, by simp [Inventory.rowOf]⟩
    rw [hthere] at hsame
    obtain ⟨r, hr⟩ := Option.isSome_iff_exists.mp hsame
    obtain ⟨hmem, hid, -⟩ := Inventory.get_some hr
    exact ⟨r, hmem, fun hold => absurd hid (Nat.ne_of_lt (hkeyed.fresh r hold))⟩
  rw [h.bulkCreate_eq hinsert]
  split
  · exact ⟨_, _, rfl, hnew _ rfl⟩
  · next hagents =>
    rcases hstrikes with ⟨rfl, new, hmem, hflow⟩ | ⟨j, new, hj, hat⟩
    · refine absurd (Bool.and_eq_true_iff.mpr ⟨?_, by simp⟩) hagents
      exact List.any_eq_true.mpr ⟨new, hmem, hflow⟩
    · obtain ⟨⟨left, e⟩, hleft⟩ := writeItems_struck inv.nextId
        (inv.insertRows cfg.defaultRegion (rowsFrom inv.nextId org seededPolicy vetted)) 0 hj
        (by rwa [Nat.zero_add])
      have hkept := writeItems_get cfg w org (bulkRegions cfg w org) fault 0
        (inv.insertRows cfg.defaultRegion (rowsFrom inv.nextId org seededPolicy vetted))
        (rowsFrom inv.nextId org seededPolicy vetted) (vetted.map NewTarget.regionPolicy)
        inv.nextId
      rw [hleft] at hkept ⊢
      exact ⟨left, e, rfl, hnew left hkept⟩

end

/-! ## When it is as many creates -/

theorem bulkCreate_refused {items : List NewTarget} {fault : Fault}
    (h : ¬ Committed cfg w inv org items fault) :
    ∃ e, bulkCreate cfg w inv org items fault = ⟨inv, .error e⟩ := by
  unfold bulkCreate
  split
  · next e hvet => exact ⟨e, rfl⟩
  · next vetted regions hvet =>
    split
    · exact ⟨storageError, rfl⟩
    · next hinsert =>
      split
      · next e hrefused => exact ⟨e, rfl⟩
      · next created rows hok =>
        exact absurd ⟨hinsert, vetted, regions, (created, rows), hvet, hok⟩ h

/-- What vetting an item leaves of it, as far as its placement and its policy go. -/
structure Alike (new vetted : NewTarget) : Prop where
  policy : new.regionPolicy = vetted.regionPolicy
  flow : new.check.isFlow = vetted.check.isFlow
  passive : new.check.isPassive = vetted.check.isPassive

theorem Alike.of_vetted {env : CheckEnv} {plan : Plan} (h : Vetted env plan new vetted) :
    Alike new vetted := by
  obtain ⟨check, tags, hkind, -, rfl⟩ := h
  refine ⟨rfl, ?_, ?_⟩
  · rw [Bool.eq_iff_iff, CheckSpec.isFlow_iff_kind, CheckSpec.isFlow_iff_kind]
    exact (Eq.congr_left hkind).symm
  · rw [Bool.eq_iff_iff, CheckSpec.isPassive_iff_kind, CheckSpec.isPassive_iff_kind]
    exact (Eq.congr_left hkind).symm

theorem Alike.symm (h : Alike new vetted) : Alike vetted new :=
  ⟨h.policy.symm, h.flow.symm, h.passive.symm⟩

theorem Alike.atItem (h : Alike new vetted) (cfg : Config) (w : World) (org : OrgId)
    (fault : Fault) (i : Nat) :
    fault.atItem cfg w org i new = fault.atItem cfg w org i vetted := by
  unfold Fault.atItem writesRegions bulkAssigned assignedRegions
  rw [h.policy, h.flow]

theorem Alike.madeAlike (h : Alike new vetted) (hmade : MadeAlike cfg w org new) :
    MadeAlike cfg w org vetted := by
  refine ⟨h.policy ▸ hmade.policy, ?_, ?_, ?_⟩
  · rw [← h.passive]
    exact hmade.placed.passive
  · rw [← h.flow]
    exact hmade.placed.flow
  · rw [← h.flow]
    exact hmade.placed.fallback

section

variable {items vetted : List NewTarget} {fault : Fault} (h : List.Forall₂ Alike items vetted)

include h

theorem strikes_of_alike (hstrikes : fault.Strikes cfg w org items) :
    fault.Strikes cfg w org vetted := by
  rcases hstrikes with ⟨hfault, new, hnew, hflow⟩ | ⟨i, new, hi, hat⟩
  · obtain ⟨i, hi⟩ := List.getElem?_of_mem hnew
    obtain ⟨new', hi', halike⟩ := Table.getElem?_rel h hi
    exact .inl ⟨hfault, new', List.mem_of_getElem? hi', halike.flow ▸ hflow⟩
  · obtain ⟨new', hi', halike⟩ := Table.getElem?_rel h hi
    exact .inr ⟨i, new', hi', (halike.atItem cfg w org fault i).symm.trans hat⟩

theorem madeAlike_of_alike (hmade : ∀ new ∈ items, MadeAlike cfg w org new) :
    ∀ new ∈ vetted, MadeAlike cfg w org new := by
  intro new hnew
  obtain ⟨i, hi⟩ := List.getElem?_of_mem hnew
  obtain ⟨new', hi', halike⟩ := Table.getElem?_rel h.flip hi
  exact Alike.madeAlike halike (hmade new' (List.mem_of_getElem? hi'))

end

theorem chosenPolicy_eq_iff : chosenPolicy new = Inventory.defaultPolicy ↔
    new.regionPolicy = none ∨ new.regionPolicy = some Inventory.defaultPolicy := by
  unfold chosenPolicy
  cases new.regionPolicy <;> simp

theorem seeded_eq_chosen_iff (n : Nat) (org : OrgId) (items : List NewTarget) :
    rowsFrom n org seededPolicy items = rowsFrom n org chosenPolicy items ↔
      ∀ new ∈ items, new.regionPolicy = none ∨ new.regionPolicy = some Inventory.defaultPolicy := by
  induction items generalizing n with
  | nil => simp [rowsFrom]
  | cons new items ih =>
    rw [rowsFrom, rowsFrom, List.cons.injEq, ih, List.forall_mem_cons, ← chosenPolicy_eq_iff]
    refine and_congr_left fun _ => ⟨fun h => ?_, fun h => by rw [h]; rfl⟩
    exact (congrArg TargetRow.regionPolicy h).symm

theorem Accepted.same_iff {items vetted : List NewTarget} {left final : Inventory}
    (h : Accepted cfg w inv org items vetted) (hselected : w.defaultSelectedRegions.Nodup)
    (havailable : w.availableRegions.Nodup)
    (hleft : Stored org (bulkPlaced cfg w org) inv.nextId inv vetted left)
    (heach : createEach cfg w inv org items =
      .ok (final, rowsFrom inv.nextId org chosenPolicy vetted))
    (hfinal : Stored org (createPlaced cfg w org) inv.nextId inv vetted final) :
    SameAsCreates cfg w inv org items left (rowsFrom inv.nextId org seededPolicy vetted) ↔
      ∀ new ∈ vetted, MadeAlike cfg w org new := by
  have hplaced : (∀ id region, region ∈ left.regionsOf id ↔ region ∈ final.regionsOf id) ↔
      ∀ new ∈ vetted, PlacedAlike cfg w org new.check := by
    rw [hleft.same_iff hfinal]
    refine forall₂_congr fun new hnew => placed_same_iff hselected havailable ?_
    exact ensureItemsCovered_ok h.covered new hnew
  have hpolicy := seeded_eq_chosen_iff inv.nextId org vetted
  constructor
  · rintro ⟨final', rows, heach', -, hregions, hrows⟩
    obtain ⟨rfl, rfl⟩ := Prod.mk.inj (Except.ok.inj (heach.symm.trans heach'))
    intro new hnew
    exact ⟨hpolicy.mp hrows new hnew, hplaced.mp hregions new hnew⟩
  · intro hmade
    exact ⟨final, _, heach, hleft.rows.trans hfinal.rows.symm,
      hplaced.mpr fun new hnew => (hmade new hnew).placed,
      hpolicy.mpr fun new hnew => (hmade new hnew).policy⟩

/-- **A bulk create is all or nothing, and as many creates**, exactly when it is refused, or
nothing that follows its commit fails and every item is made as `create` would have made it. -/
theorem bulkCreate_faithful_iff {items : List NewTarget} {fault : Fault}
    (henv : Canonical cfg.check) (hselected : w.defaultSelectedRegions.Nodup)
    (havailable : w.availableRegions.Nodup) (hkeyed : inv.Keyed) :
    Faithful cfg w inv org items fault ↔
      (Committed cfg w inv org items fault →
        ¬ fault.Strikes cfg w org items ∧ ∀ new ∈ items, MadeAlike cfg w org new) := by
  by_cases hcommitted : Committed cfg w inv org items fault
  · rw [forall_prop_of_true hcommitted]
    obtain ⟨vetted, h⟩ := hcommitted.accepted
    have halike : List.Forall₂ Alike items vetted :=
      (vetItems_vetted h.items).imp fun _ _ => Alike.of_vetted
    have hback : List.Forall₂ Alike vetted items := halike.flip.imp fun _ _ => Alike.symm
    by_cases hstrikes : fault.Strikes cfg w org items
    · obtain ⟨left, e, hbulk, r, hr, hnew⟩ :=
        h.struck hkeyed hcommitted.1 (strikes_of_alike halike hstrikes)
      refine iff_of_false ?_ fun hok => hok.1 hstrikes
      unfold Faithful
      rw [hbulk]
      intro hall
      exact hnew (hall r hr)
    · obtain ⟨left, hbulk, hleft⟩ := h.stored hkeyed hcommitted.1
        fun hvetted => hstrikes (strikes_of_alike hback hvetted)
      obtain ⟨final, heach, hfinal⟩ := createEach_ok henv hselected havailable hkeyed rfl h.items
        h.owners h.room h.covered h.checks
      unfold Faithful
      rw [hbulk, and_iff_right hstrikes]
      exact (h.same_iff hselected havailable hleft heach hfinal).trans
        ⟨madeAlike_of_alike hback, madeAlike_of_alike halike⟩
  · obtain ⟨e, hbulk⟩ := bulkCreate_refused hcommitted
    refine iff_of_true ?_ fun h => absurd h hcommitted
    unfold Faithful
    rw [hbulk]
    exact fun r hr => hr

end

/-! ## Four kinds at once -/

namespace Checkout

open Unplaced

def config : Config :=
  { Unplaced.config with
    check := { Unplaced.config.check with
      parseIp := fun host => if host = "1.1.1.1" then some (.v4 1 1 1 1) else none
      ipToString := fun _ => "1.1.1.1"
      domainToAsciiStrict := fun host =>
        if host = "Shop.example" ∨ host = "shop.example" then some "shop.example" else none } }

theorem canonical : Canonical config.check := by
  constructor
  · intro host ip hip
    obtain ⟨-, hip⟩ := Option.ite_none_right_eq_some.mp hip
    cases hip
    decide
  · intro host canon hcanon
    obtain ⟨-, hcanon⟩ := Option.ite_none_right_eq_some.mp hcanon
    cases hcanon
    have hnone : config.check.parseIp "shop.example" = none := by decide
    refine ⟨by decide, fun ip hip => ?_, by decide, by decide⟩
    rw [hnone] at hip
    cases hip

def items : List NewTarget :=
  [target,
    { target with name := "home", check := .http ⟨site, .get, 5000, 3, none, true, none, none⟩ },
    { target with name := "resolver", check := .ping ⟨"1.1.1.1", 5000⟩ },
    { target with
      name := "domain", check := .domainExpiry ⟨"Shop.example", 30, 7, 5000⟩, interval := 86400 }]

theorem committed : Committed config world .start 1 items .none := by
  have hvet : ((vetBulk config world .start 1 items).toOption.any fun vetted =>
      (Inventory.start.bulkCreate world.account config.defaultRegion 1 vetted.1
        (world.plan 1).maxTargets (world.plan 1).maxFlowChecks).isOk) = true := by
    decide +kernel
  refine ⟨nofun, ?_⟩
  cases hbulk : vetBulk config world .start 1 items with
  | error e => simp [hbulk, Except.toOption] at hvet
  | ok vetted =>
    rw [hbulk] at hvet
    cases hcreate : Inventory.start.bulkCreate world.account config.defaultRegion 1 vetted.1
        (world.plan 1).maxTargets (world.plan 1).maxFlowChecks with
    | error e => simp [hcreate, Except.toOption, Except.isOk, Except.toBool] at hvet
    | ok created => exact ⟨vetted.1, vetted.2, created, rfl, hcreate⟩

/-- The insert seeds `eu`, and each is moved to where create puts it. -/
theorem bulkCreate_faithful_iff_checkout : Committed config world .start 1 items .none ∧
    Faithful config world .start 1 items .none := by
  refine ⟨committed, (bulkCreate_faithful_iff canonical (by decide) (by decide)
    Inventory.keyed_start).mpr fun _ => ⟨?_, ?_⟩⟩
  · rintro (⟨hnone, -⟩ | ⟨i, new, -, hat⟩)
    · cases hnone
    · simp [Fault.atItem] at hat
  · have hkeeps : KeepsCapable (flowCapableSet config world.flowCapableRegions)
        config.defaultRegion (world.plan 1).maxRegions world.defaultSelectedRegions :=
      .inl (by decide)
    intro new hnew
    simp only [items, List.mem_cons, List.not_mem_nil, or_false] at hnew
    rcases hnew with rfl | rfl | rfl | rfl
    · exact ⟨.inl rfl, nofun, fun _ _ => hkeeps, fun _ => nofun⟩
    all_goals exact ⟨.inl rfl, nofun, nofun, nofun⟩

theorem bulkCreate_handled_checkout : ∃ left answer,
    bulkCreate config world .start 1 items .none = ⟨left, .ok answer⟩ ∧
      handleBulkCreate config world .start 1 items none = .ok left := by
  have hok : (bulkCreate config world .start 1 items .none).answer.isOk = true := by
    decide +kernel
  cases hbulk : bulkCreate config world .start 1 items .none with
  | mk left answer =>
    rw [hbulk] at hok
    cases answer with
    | error e => cases hok
    | ok answer => exact ⟨left, answer, rfl, bulkCreate_handled hbulk⟩

example : (bulkCreate config world .start 1 [target] .none).answer.isOk = true := by
  decide +kernel

/-- An item's own policy is stored and not answered; where its regions cannot be written, the
target is left. -/
theorem bulkCreate_halfway :
    ¬ Faithful config world .start 1 [{ target with regionPolicy := some .any }] .none ∧
    ¬ Faithful config world .start 1 [target] (.regions 0) := by
  constructor
  · intro h
    have hbulk : (bulkCreate config world .start 1 [{ target with regionPolicy := some .any }]
        .none).answer.toOption.map (List.map TargetRow.regionPolicy) = some [.majority] := by
      decide +kernel
    have heach : (createEach config world .start 1
        [{ target with regionPolicy := some .any }]).toOption.map
          (fun made => made.2.map TargetRow.regionPolicy) = some [.any] := by
      decide +kernel
    unfold Faithful at h
    split at h
    · next e hanswer =>
      rw [hanswer] at hbulk
      cases hbulk
    · next answer hanswer =>
      obtain ⟨final, rows, hmade, -, -, rfl⟩ := h
      rw [hanswer] at hbulk
      rw [hmade] at heach
      cases hbulk.symm.trans heach
  · intro h
    have hleft : (bulkCreate config world .start 1 [target] (.regions 0)).left.rows.length = 1 := by
      decide +kernel
    have hfails : (bulkCreate config world .start 1 [target] (.regions 0)).answer.isOk = false := by
      decide +kernel
    unfold Faithful at h
    split at h
    · obtain ⟨r, hr⟩ := List.exists_mem_of_length_pos (hleft ▸ Nat.one_pos)
      cases h r hr
    · next answer hanswer =>
      rw [hanswer] at hfails
      cases hfails

end Checkout

end Uptimepage.Targets.BulkCreate

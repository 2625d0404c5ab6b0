import Uptimepage.Targets.DefaultRegions
import Uptimepage.Targets.FlowRegions

/-!
# A bulk create and as many creates

`bulk_create` inserts its rows in one transaction and then writes the regions and the policy of
one item after another.  A failure of any of these writes is answered with an error and leaves
the targets there; what is answered otherwise are the rows as the insert returned them.
-/

namespace Uptimepage.Targets.BulkCreate

/-! ## One request -/

/-- Where the database fails a request, if it does. -/
inductive Fault
  | none
  /-- Up to the commit of the insert. -/
  | insert
  /-- Reading which agents can run a flow, after it. -/
  | agents
  /-- Writing the regions of the item at `i`. -/
  | regions (i : Nat)
  /-- Writing its policy. -/
  | policy (i : Nat)
deriving DecidableEq

/-- `AppError::Other`. -/
def storageError : AppError := ⟨.other, "INTERNAL", "internal error", none⟩

/-- What a request leaves, and what it answers. -/
structure Outcome where
  left : Inventory
  answer : Except AppError (List TargetRow)

/-- An error carries what it leaves. -/
abbrev Written := Except (Inventory × AppError) Inventory

def Written.left : Written → Inventory
  | .ok inv => inv
  | .error (inv, _) => inv

def writeRegions (cfg : Config) (org : OrgId) (fault : Fault) (i : Nat) (inv : Inventory)
    (row : TargetRow) (assigned : List String) : Written :=
  if assigned.isEmpty || assigned == [cfg.defaultRegion] then .ok inv
  else if fault = .regions i then .error (inv, storageError)
  else .ok (inv.setTargetRegions org row.id assigned).1

def writePolicy (org : OrgId) (fault : Fault) (i : Nat) (inv : Inventory) (row : TargetRow) :
    Option RegionIncidentPolicy → Written
  | none => .ok inv
  | some policy =>
    if fault = .policy i then .error (inv, storageError)
    else
      match inv.update org row.id (.ofPolicy policy) with
      | .ok (inv, _) => .ok inv
      | .error e => .error (inv, e)

/-- The loop after the insert, from the item at `i` on. -/
def writeItems (cfg : Config) (w : World) (org : OrgId) (regions : List String) (fault : Fault)
    (i : Nat) (inv : Inventory) : List TargetRow → List (Option RegionIncidentPolicy) → Written
  | row :: rows, explicit :: policies =>
    match writeRegions cfg org fault i inv row (assignedRegions cfg w regions row.check) with
    | .error e => .error e
    | .ok inv =>
      match writePolicy org fault i inv row explicit with
      | .error e => .error e
      | .ok inv => writeItems cfg w org regions fault (i + 1) inv rows policies
  | _, _ => .ok inv

def bulkCreate (cfg : Config) (w : World) (inv : Inventory) (org : OrgId)
    (items : List NewTarget) (fault : Fault) : Outcome :=
  match vetBulk cfg w inv org items with
  | .error e => ⟨inv, .error e⟩
  | .ok (vetted, regions) =>
    if fault = .insert then ⟨inv, .error storageError⟩
    else
      match inv.bulkCreate w.account cfg.defaultRegion org vetted (w.plan org).maxTargets
          (w.plan org).maxFlowChecks with
      | .error e => ⟨inv, .error e⟩
      | .ok (created, rows) =>
        if vetted.any (fun new => new.check.isFlow) && fault = .agents then
          ⟨created, .error storageError⟩
        else
          match writeItems cfg w org regions fault 0 created rows
              (vetted.map NewTarget.regionPolicy) with
          | .error (left, e) => ⟨left, .error e⟩
          | .ok left => ⟨left, .ok rows⟩

/-! ## As many requests -/

/-- `create`, with what it answers, when the database does not fail. -/
def create (cfg : Config) (w : World) (inv : Inventory) (org : OrgId) (new : NewTarget) :
    Except AppError (Inventory × List TargetRow) := do
  let (vetted, regions) ← vetCreate cfg w inv org new
  let (created, rows) ← inv.create w.account cfg.defaultRegion org vetted (w.plan org).maxTargets
    (w.plan org).maxFlowChecks
  return (created.followUps org (createWrites regions rows) none, rows)

def createEach (cfg : Config) (w : World) (inv : Inventory) (org : OrgId) :
    List NewTarget → Except AppError (Inventory × List TargetRow)
  | [] => .ok (inv, [])
  | new :: items => do
    let (created, row) ← create cfg w inv org new
    let (final, rows) ← createEach cfg w created org items
    return (final, row ++ rows)

/-- What was stored and what was answered are what the creates store and answer. -/
def SameAsCreates (cfg : Config) (w : World) (inv : Inventory) (org : OrgId)
    (items : List NewTarget) (left : Inventory) (answer : List TargetRow) : Prop :=
  ∃ final rows, createEach cfg w inv org items = .ok (final, rows) ∧ left.rows = final.rows ∧
    (∀ id region, region ∈ left.regionsOf id ↔ region ∈ final.regionsOf id) ∧ answer = rows

/-- All or nothing, and the same as creating the items one by one. -/
def Faithful (cfg : Config) (w : World) (inv : Inventory) (org : OrgId) (items : List NewTarget)
    (fault : Fault) : Prop :=
  match (bulkCreate cfg w inv org items fault).answer with
  | .error _ => ∀ r ∈ (bulkCreate cfg w inv org items fault).left.rows, r ∈ inv.rows
  | .ok answer =>
    SameAsCreates cfg w inv org items (bulkCreate cfg w inv org items fault).left answer

/-! ## When it is -/

/-- The checks of the request pass, and its insert is committed. -/
def Committed (cfg : Config) (w : World) (inv : Inventory) (org : OrgId) (items : List NewTarget)
    (fault : Fault) : Prop :=
  fault ≠ .insert ∧ ∃ vetted regions created,
    vetBulk cfg w inv org items = .ok (vetted, regions) ∧
    inv.bulkCreate w.account cfg.defaultRegion org vetted (w.plan org).maxTargets
      (w.plan org).maxFlowChecks = .ok created

/-- The item gets regions that the insert did not seed. -/
def writesRegions (cfg : Config) (w : World) (org : OrgId) (check : CheckSpec) : Bool :=
  !((bulkAssigned cfg w org check).isEmpty || bulkAssigned cfg w org check == [cfg.defaultRegion])

/-- The fault is at a write that is made for the item at `i`. -/
def Fault.atItem (fault : Fault) (cfg : Config) (w : World) (org : OrgId) (i : Nat)
    (new : NewTarget) : Bool :=
  (fault == .regions i && writesRegions cfg w org new.check) ||
    (fault == .policy i && new.regionPolicy.isSome)

/-- The fault is at something that the request does after the commit. -/
def Fault.Strikes (fault : Fault) (cfg : Config) (w : World) (org : OrgId)
    (items : List NewTarget) : Prop :=
  fault = .agents ∧ (∃ new ∈ items, new.check.isFlow = true) ∨
    ∃ i new, items[i]? = some new ∧ fault.atItem cfg w org i new = true

/-- The item chose the policy that the insert leaves, and is placed alike either way. -/
structure MadeAlike (cfg : Config) (w : World) (org : OrgId) (new : NewTarget) : Prop where
  policy : new.regionPolicy = none ∨ new.regionPolicy = some Inventory.defaultPolicy
  placed : PlacedAlike cfg w org new.check

/-- What the standard library and `idna` say of canonical hosts: they are canonical. -/
structure Canonical (env : CheckEnv) : Prop where
  ip : ∀ host ip, env.parseIp host = some ip →
    unbracket (env.ipToString ip) = env.ipToString ip ∧
      env.parseIp (env.ipToString ip) = some ip
  domain : ∀ host canon, env.domainToAsciiStrict host = some canon →
    unbracket canon = canon ∧ (∀ ip, env.parseIp canon = some ip → env.ipToString ip = canon) ∧
      trimEndDots canon = canon ∧ env.domainToAsciiStrict canon = some canon

section

variable {cfg : Config} {w : World} {inv next : Inventory} {org : OrgId} {fault : Fault} {n : Nat}
  {row : TargetRow}

/-! ## Rows with ids in their order -/

/-- The policy a bulk create inserts, and the one `create` does. -/
def seededPolicy (_ : NewTarget) : RegionIncidentPolicy := Inventory.defaultPolicy

def chosenPolicy (new : NewTarget) : RegionIncidentPolicy :=
  new.regionPolicy.getD Inventory.defaultPolicy

def rowsFrom (n : Nat) (org : OrgId) (policy : NewTarget → RegionIncidentPolicy) :
    List NewTarget → List TargetRow
  | [] => []
  | new :: items => Inventory.rowOf n org new (policy new) :: rowsFrom (n + 1) org policy items

theorem mapIdx_rowOf (n : Nat) (org : OrgId) (policy : NewTarget → RegionIncidentPolicy)
    (items : List NewTarget) :
    items.mapIdx (fun i new => Inventory.rowOf (n + i) org new (policy new)) =
      rowsFrom n org policy items := by
  induction items generalizing n with
  | nil => rfl
  | cons new items ih =>
    rw [List.mapIdx_cons, rowsFrom, ← ih]
    have hshift : (fun i new => Inventory.rowOf (n + (i + 1)) org new (policy new)) =
        fun i new => Inventory.rowOf (n + 1 + i) org new (policy new) := by
      funext i new
      rw [Nat.add_assoc, Nat.add_comm 1 i]
    rw [hshift]
    rfl

variable {items : List NewTarget}

theorem le_of_mem_rowsFrom {policy : NewTarget → RegionIncidentPolicy}
    (h : row ∈ rowsFrom n org policy items) : n ≤ row.id := by
  induction items generalizing n with
  | nil => cases h
  | cons new items ih =>
    rcases List.mem_cons.mp h with rfl | h
    · exact Nat.le_refl _
    · exact Nat.le_of_succ_le (ih h)

/-! ## What is written for one item -/

def withPolicy (explicit : Option RegionIncidentPolicy) (r : TargetRow) : TargetRow :=
  { r with regionPolicy := explicit.getD r.regionPolicy }

variable {i : Nat} {explicit : Option RegionIncidentPolicy} {assigned : List String}
  {rows front rest : List TargetRow} {f : TargetRow → TargetRow}

theorem writePolicy_ok (hget : inv.get org row.id = some row)
    (hchecks : row.satisfiesChecks = true)
    (hfault : (fault == .policy i && explicit.isSome) = false) :
    ∃ next, writePolicy org fault i inv row explicit = .ok next ∧
      next.rows = Table.update (fun r => r.id == row.id && r.orgId == org) (withPolicy explicit)
        inv.rows ∧ next.nextId = inv.nextId ∧ next.regions = inv.regions := by
  cases explicit with
  | none =>
    refine ⟨inv, rfl, ?_, rfl, rfl⟩
    have hsame : ∀ r : TargetRow, (if r.id == row.id && r.orgId == org then withPolicy none r
        else r) = r := by
      intro r
      split <;> rfl
    unfold Table.update
    rw [List.map_congr_left fun r _ => hsame r, List.map_id']
  | some policy =>
    have hno : fault ≠ .policy i := by
      rintro rfl
      simp at hfault
    cases hupdate : inv.update org row.id (.ofPolicy policy) with
    | error e =>
      unfold Inventory.update at hupdate
      rw [hget] at hupdate
      have hpatched : (row.patch (.ofPolicy policy)).satisfiesChecks = true := hchecks
      simp [refuseIf, hpatched] at hupdate
    | ok out =>
      obtain ⟨next, out⟩ := out
      refine ⟨next, by rw [writePolicy, if_neg hno, hupdate], ?_⟩
      rcases Inventory.update_ok hupdate with ⟨hnone, -, -⟩ | ⟨r, -, -, -, rfl⟩
      · rw [hget] at hnone
        cases hnone
      · exact ⟨rfl, rfl, rfl⟩

theorem writeRegions_ok (hget : inv.get org row.id = some row) (hfault : (fault == .regions i &&
      !(assigned.isEmpty || assigned == [cfg.defaultRegion])) = false) :
    ∃ next, writeRegions cfg org fault i inv row assigned = .ok next ∧ next.rows = inv.rows ∧
      next.nextId = inv.nextId ∧ (∀ id, id ≠ row.id → next.regionsOf id = inv.regionsOf id) ∧
      next.regionsOf row.id = if assigned.isEmpty || assigned == [cfg.defaultRegion]
        then inv.regionsOf row.id else assigned := by
  unfold writeRegions
  split
  · exact ⟨inv, rfl, rfl, rfl, fun id _ => rfl, rfl⟩
  · next hwrite =>
    rw [if_neg]
    · refine ⟨_, rfl, Inventory.setTargetRegions_rows _ _ _ _,
        Inventory.setTargetRegions_nextId _ _ _ _, ?_, ?_⟩
      · intro id hid
        exact Inventory.setTargetRegions_other hid
      · exact Inventory.setTargetRegions_self (by rw [hget]; rfl)
    · rintro rfl
      simp [hwrite] at hfault

theorem writeRegions_struck
    (h : (fault == .regions i && !(assigned.isEmpty || assigned == [cfg.defaultRegion])) = true) :
    writeRegions cfg org fault i inv row assigned = .error (inv, storageError) := by
  obtain ⟨hfault, hwrite⟩ := Bool.and_eq_true_iff.mp h
  rw [writeRegions, if_neg (by simpa using hwrite), if_pos (beq_iff_eq.mp hfault)]

theorem writePolicy_struck (h : (fault == .policy i && explicit.isSome) = true) :
    writePolicy org fault i inv row explicit = .error (inv, storageError) := by
  obtain ⟨hfault, hsome⟩ := Bool.and_eq_true_iff.mp h
  obtain ⟨policy, rfl⟩ := Option.isSome_iff_exists.mp hsome
  rw [writePolicy, if_pos (beq_iff_eq.mp hfault)]

theorem writeRegions_get (cfg : Config) (org : OrgId) (fault : Fault) (i : Nat) (inv : Inventory)
    (row : TargetRow) (assigned : List String) (id : Uuid) :
    ((Written.left (writeRegions cfg org fault i inv row assigned)).get org id).isSome =
      (inv.get org id).isSome := by
  unfold writeRegions
  split
  · rfl
  · split
    · rfl
    · exact Inventory.followUp_get_isSome inv org (.regions row.id assigned) org id

theorem writePolicy_get (org : OrgId) (fault : Fault) (i : Nat) (inv : Inventory)
    (row : TargetRow) (explicit : Option RegionIncidentPolicy) (id : Uuid) :
    ((Written.left (writePolicy org fault i inv row explicit)).get org id).isSome =
      (inv.get org id).isSome := by
  unfold writePolicy
  split
  · rfl
  · split
    · rfl
    · split
      · next hupdate => exact Inventory.get_isSome_update hupdate
      · rfl

/-! ## What is written for all of them -/

theorem writeItems_get (cfg : Config) (w : World) (org : OrgId) (regions : List String)
    (fault : Fault) (i : Nat) (inv : Inventory) (rows : List TargetRow)
    (policies : List (Option RegionIncidentPolicy)) (id : Uuid) :
    ((Written.left (writeItems cfg w org regions fault i inv rows policies)).get org id).isSome =
      (inv.get org id).isSome := by
  induction rows generalizing inv i policies with
  | nil => rfl
  | cons row rows ih =>
    cases policies with
    | nil => rfl
    | cons explicit policies =>
      unfold writeItems
      have hregions := writeRegions_get cfg org fault i inv row
        (assignedRegions cfg w regions row.check) id
      split
      · next heq =>
        rw [heq] at hregions
        exact hregions
      · next mid heq =>
        rw [heq] at hregions
        have hpolicy := writePolicy_get org fault i mid row explicit id
        split
        · next heq' =>
          rw [heq'] at hpolicy
          exact hpolicy.trans hregions
        · next heq' =>
          rw [heq'] at hpolicy
          exact (ih (i + 1) _ policies).trans (hpolicy.trans hregions)

/-! ## Without a failure -/

theorem writeRegions_eq (h : writeRegions cfg org fault i inv row assigned = .ok next) :
    next = (regionWrites cfg.defaultRegion row.id assigned).foldl
      (fun inv write => inv.followUp org write) inv := by
  unfold writeRegions at h
  unfold regionWrites
  split at h
  · next hseed =>
    cases h
    rw [if_pos hseed]
    rfl
  · next hwrite =>
    rw [if_neg hwrite]
    split at h
    · cases h
    · cases h
      rfl

theorem writePolicy_eq (h : writePolicy org fault i inv row explicit = .ok next) :
    next = (policyWrites row.id explicit).foldl (fun inv write => inv.followUp org write) inv := by
  cases explicit with
  | none =>
    cases h
    rfl
  | some policy =>
    rw [writePolicy] at h
    split at h
    · cases h
    · split at h
      · next hupdate =>
        cases h
        rw [policyWrites, List.foldl_cons, List.foldl_nil, Inventory.followUp, hupdate]
      · cases h

theorem writeItems_eq {regions : List String}
    (h : writeItems cfg w org regions fault i inv rows (items.map NewTarget.regionPolicy) =
      .ok next) :
    next = (bulkWrites cfg w regions rows items).foldl
      (fun inv write => inv.followUp org write) inv := by
  induction rows generalizing inv i items with
  | nil =>
    cases h
    rfl
  | cons row rows ih =>
    cases items with
    | nil =>
      cases h
      rfl
    | cons new items =>
      rw [List.map_cons, writeItems] at h
      rw [bulkWrites, List.foldl_append, List.foldl_append]
      split at h
      · cases h
      · next mid hmid =>
        split at h
        · cases h
        · next done hdone => rw [← writeRegions_eq hmid, ← writePolicy_eq hdone, ih h]

theorem bulkCreate_handled {left : Inventory} {answer : List TargetRow}
    (h : bulkCreate cfg w inv org items fault = ⟨left, .ok answer⟩) :
    handleBulkCreate cfg w inv org items none = .ok left := by
  unfold bulkCreate at h
  split at h
  · cases h
  · next vetted regions hvet =>
    split at h
    · cases h
    · split at h
      · cases h
      · next created rows hcreate =>
        split at h
        · cases h
        · split at h
          · cases h
          · next hleft =>
            cases h
            refine bind_eq_ok.2 ⟨_, hvet, bind_eq_ok.2 ⟨_, hcreate, ?_⟩⟩
            dsimp only
            rw [writeItems_eq hleft, Inventory.followUps, Option.getD_none, List.take_length]
            rfl

/-! ## Where the rows are -/

theorem update_of_forall {p : TargetRow → Bool} (h : ∀ r ∈ rows, p r = false) :
    Table.update p f rows = rows := by
  apply Table.update_of_find?_none
  rw [List.find?_eq_none]
  intro r hr
  rw [h r hr]
  exact Bool.false_ne_true

theorem update_between (hfront : ∀ r ∈ front, r.id < row.id) (hrest : ∀ r ∈ rest, row.id < r.id)
    (horg : row.orgId = org) :
    Table.update (fun r => r.id == row.id && r.orgId == org) f (front ++ row :: rest) =
      front ++ f row :: rest := by
  have hbefore : Table.update (fun r => r.id == row.id && r.orgId == org) f front = front := by
    apply update_of_forall
    intro r hr
    have hne : r.id ≠ row.id := Nat.ne_of_lt (hfront r hr)
    simp [hne]
  have hafter : Table.update (fun r => r.id == row.id && r.orgId == org) f rest = rest := by
    apply update_of_forall
    intro r hr
    have hne : r.id ≠ row.id := Nat.ne_of_gt (hrest r hr)
    simp [hne]
  unfold Table.update at hbefore hafter ⊢
  rw [List.map_append, List.map_cons, hbefore, hafter]
  simp [horg]

theorem get_between (hrows : inv.rows = front ++ row :: rest)
    (hfront : ∀ r ∈ front, r.id < row.id) (horg : row.orgId = org) :
    inv.get org row.id = some row := by
  have hnone : front.find? (fun r => r.id == row.id && r.orgId == org) = none := by
    rw [List.find?_eq_none]
    intro r hr
    have hne : r.id ≠ row.id := Nat.ne_of_lt (hfront r hr)
    simp [hne]
  unfold Inventory.get
  rw [hrows, List.find?_append, hnone, List.find?_cons, horg]
  simp

def bulkRegions (cfg : Config) (w : World) (org : OrgId) : List String :=
  defaultRegionSet w.defaultSelectedRegions (w.plan org).maxRegions cfg.defaultRegion

/-- What the loop leaves when nothing fails it. -/
structure Placed (cfg : Config) (w : World) (org : OrgId) (n : Nat) (items : List NewTarget)
    (inv next : Inventory) : Prop where
  nextId : next.nextId = inv.nextId
  others : ∀ id : Nat, id < n ∨ n + items.length ≤ id → next.regionsOf id = inv.regionsOf id
  items : ∀ j new, items[j]? = some new → inv.regionsOf (n + j) = [cfg.defaultRegion] →
    next.regionsOf (n + j) = bulkPlaced cfg w org new.check

theorem writeItems_ok {k : Nat} (hrows : inv.rows = front ++ rowsFrom n org seededPolicy items)
    (hfront : ∀ r ∈ front, r.id < n) (hchecks : ∀ r ∈ rowsFrom n org seededPolicy items,
      r.satisfiesChecks = true)
    (hfault : ∀ j new, items[j]? = some new → fault.atItem cfg w org (k + j) new = false) :
    ∃ next, writeItems cfg w org (bulkRegions cfg w org) fault k inv
        (rowsFrom n org seededPolicy items)
        (items.map NewTarget.regionPolicy) = .ok next ∧
      next.rows = front ++
        rowsFrom n org chosenPolicy items ∧
      Placed cfg w org n items inv next := by
  induction items generalizing front n k inv with
  | nil => exact ⟨inv, rfl, hrows, ⟨rfl, fun _ _ => rfl, fun j new h => by simp at h⟩⟩
  | cons new items ih =>
    have hrest : ∀ r ∈ rowsFrom (n + 1) org seededPolicy items, n < r.id :=
      fun r hr => le_of_mem_rowsFrom hr
    obtain ⟨row, hrow⟩ : ∃ row, row = Inventory.rowOf n org new (seededPolicy new) := ⟨_, rfl⟩
    have hid : row.id = n := by rw [hrow]; rfl
    have horg : row.orgId = org := by rw [hrow]; rfl
    have hcheck : row.check = new.check := by rw [hrow]; rfl
    have hchosen : Inventory.rowOf n org new (chosenPolicy new) =
        withPolicy new.regionPolicy row := by rw [hrow]; rfl
    simp only [rowsFrom, ← hrow, hchosen] at hrows hchecks ⊢
    have hbefore : ∀ r ∈ front, r.id < row.id := by rwa [hid]
    have hafter : ∀ r ∈ rowsFrom (n + 1) org seededPolicy items,
        row.id < r.id := by rwa [hid]
    have hhead := hfault 0 new rfl
    unfold Fault.atItem at hhead
    rw [Bool.or_eq_false_iff] at hhead
    obtain ⟨mid, hmid, hmidRows, hmidNext, hmidOthers, hmidSelf⟩ :=
      writeRegions_ok (get_between hrows hbefore horg) hhead.1
    obtain ⟨done, hdone, hdoneRows, hdoneNext, hdoneRegions⟩ :=
      writePolicy_ok (get_between (hmidRows.trans hrows) hbefore horg)
        (hchecks row List.mem_cons_self) hhead.2
    rw [hmidRows, hrows, update_between hbefore hafter horg] at hdoneRows
    have hregionsOf : ∀ id, done.regionsOf id = mid.regionsOf id := by
      intro id
      unfold Inventory.regionsOf
      rw [hdoneRegions]
    have hdone' : done.rows = front ++ [withPolicy new.regionPolicy row] ++
        rowsFrom (n + 1) org seededPolicy items := by
      rw [hdoneRows, List.append_assoc]
      rfl
    have hfront' : ∀ r ∈ front ++ [withPolicy new.regionPolicy row], r.id < n + 1 := by
      intro r hr
      rcases List.mem_append.mp hr with hr | hr
      · exact Nat.lt_succ_of_lt (hfront r hr)
      · rw [List.mem_singleton.mp hr]
        exact Nat.lt_succ_of_le (Nat.le_of_eq hid)
    have hfault' : ∀ j new', items[j]? = some new' →
        fault.atItem cfg w org (k + 1 + j) new' = false := by
      intro j new' hj
      rw [Nat.add_assoc, Nat.add_comm 1 j]
      exact hfault (j + 1) new' hj
    obtain ⟨next, hnext, hnextRows, hplaced⟩ := ih hdone' hfront'
      (fun r hr => hchecks r (List.mem_cons_of_mem _ hr)) hfault'
    refine ⟨next, ?_, by rw [hnextRows, List.append_assoc]; rfl, ?_, ?_, ?_⟩
    · rw [List.map_cons, writeItems, hcheck,
        show assignedRegions cfg w (bulkRegions cfg w org) new.check = bulkAssigned cfg w org new.check
        from rfl, show writeRegions cfg org fault k inv row (bulkAssigned cfg w org new.check) = _
        from hmid]
      dsimp only
      rw [show writePolicy org fault k mid row new.regionPolicy = _ from hdone]
      exact hnext
    · exact hplaced.nextId.trans (hdoneNext.trans hmidNext)
    · intro id hout
      rw [List.length_cons] at hout
      have hother : id ≠ n := by omega
      rw [hplaced.others id (by omega), hregionsOf, hmidOthers id (by rwa [hid])]
    · intro j new' hj hseed
      cases j with
      | zero =>
        cases hj
        rw [Nat.add_zero] at hseed ⊢
        rw [hplaced.others n (.inl (Nat.lt_succ_self n)), hregionsOf, ← hid, hmidSelf, hid, hseed]
        rfl
      | succ j =>
        have hshift : n + (j + 1) = n + 1 + j := by omega
        have hother : n + 1 + j ≠ n := by omega
        rw [hshift] at hseed ⊢
        apply hplaced.items j new' hj
        rw [hregionsOf, hmidOthers _ (by rwa [hid]), hseed]

theorem writeItems_struck {j : Nat} {new : NewTarget} (n : Nat) (inv : Inventory) (k : Nat)
    (hj : items[j]? = some new) (hfault : fault.atItem cfg w org (k + j) new = true) :
    ∃ e, writeItems cfg w org (bulkRegions cfg w org) fault k inv
      (rowsFrom n org seededPolicy items)
      (items.map NewTarget.regionPolicy) = .error e := by
  induction items generalizing n k j inv with
  | nil => simp at hj
  | cons first items ih =>
    rw [rowsFrom, List.map_cons, writeItems]
    cases hregions : writeRegions cfg org fault k inv
        (Inventory.rowOf n org first (seededPolicy first)) (assignedRegions cfg w
          (bulkRegions cfg w org)
          (Inventory.rowOf n org first (seededPolicy first)).check) with
    | error e => exact ⟨e, rfl⟩
    | ok mid =>
      dsimp only
      cases hpolicy : writePolicy org fault k mid
          (Inventory.rowOf n org first (seededPolicy first)) first.regionPolicy with
      | error e => exact ⟨e, rfl⟩
      | ok done =>
        dsimp only
        cases j with
        | zero =>
          exfalso
          cases hj
          rcases Bool.or_eq_true_iff.mp hfault with hfault | hfault
          · exact absurd (hregions.symm.trans (writeRegions_struck hfault)) nofun
          · exact absurd (hpolicy.symm.trans (writePolicy_struck hfault)) nofun
        | succ j =>
          apply ih _ _ _ hj
          rw [Nat.add_assoc, Nat.add_comm 1 j]
          exact hfault

end

end Uptimepage.Targets.BulkCreate

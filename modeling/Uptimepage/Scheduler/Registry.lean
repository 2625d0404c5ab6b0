import Mathlib.Data.List.AList
import Uptimepage.Targets.Check

/-!
# The scheduler's registry

`scheduler/registry.rs`: `refresh` brings the resident targets up to what the source lists.  A
resident target is replaced where `updated_at` or the interval moved.  The check is not looked at,
and the one that an agent is handed has the variables of the organisation in it, which are edited
elsewhere (`refresh_keeps_old_check`); `refresh_faithful_iff` says for which lists the registry
follows its source.
-/

namespace Uptimepage.Scheduler

open Targets

/-- What the scheduler reads of a target.  Durations and instants are in nanoseconds. -/
structure Target where
  id : Uuid
  check : CheckSpec
  interval : Nat
  updatedAt : Time
deriving DecidableEq

/-- With its owner.  The keys that `build` adds are computed from the two. -/
structure ScheduledTarget where
  orgId : OrgId
  target : Target
deriving DecidableEq

abbrev ScheduledTarget.id (st : ScheduledTarget) : Uuid := st.target.id

abbrev Registry := AList fun _ : Uuid => ScheduledTarget

structure RegistryDiff where
  added : List ScheduledTarget
  updated : List ScheduledTarget
  removed : List Uuid
deriving DecidableEq

namespace RegistryDiff

def empty : RegistryDiff := ⟨[], [], []⟩

def isEmpty (diff : RegistryDiff) : Bool :=
  diff.added.isEmpty && diff.updated.isEmpty && diff.removed.isEmpty

def ids (diff : RegistryDiff) : List Uuid := (diff.added ++ diff.updated).map ScheduledTarget.id

end RegistryDiff

/-! ## A refresh -/

/-- What a resident target is compared by: the plan floor moves the interval while `updated_at`
stands still. -/
def ScheduledTarget.moved (existing st : ScheduledTarget) : Bool :=
  existing.target.updatedAt != st.target.updatedAt || existing.target.interval != st.target.interval

/-- One target of the list. -/
def refreshOne (acc : Registry × RegistryDiff) (st : ScheduledTarget) : Registry × RegistryDiff :=
  match acc.1.lookup st.id with
  | some existing =>
    if existing.moved st then
      (acc.1.insert st.id st, { acc.2 with updated := acc.2.updated ++ [st] })
    else acc
  | none => (acc.1.insert st.id st, { acc.2 with added := acc.2.added ++ [st] })

def refresh (registry : Registry) (fresh : List ScheduledTarget) : Registry × RegistryDiff :=
  let acc := fresh.foldl refreshOne (registry, .empty)
  let removed := acc.1.keys.filter fun id => !(fresh.any fun st => st.id == id)
  (removed.foldl (fun r id => r.erase id) acc.1, { acc.2 with removed := removed })

section

variable {acc : Registry × RegistryDiff} {fresh l : List ScheduledTarget} {st : ScheduledTarget}
  {registry : Registry} {id : Uuid}

/-- What a target of the list leaves under its id. -/
def settle (old : Option ScheduledTarget) (st : ScheduledTarget) : ScheduledTarget :=
  match old with
  | some existing => if existing.moved st then st else existing
  | none => st

theorem moved_self (st : ScheduledTarget) : st.moved st = false := by
  simp [ScheduledTarget.moved]

theorem moved_settle (old : Option ScheduledTarget) (st : ScheduledTarget) :
    (settle old st).moved st = false := by
  cases old with
  | none => exact moved_self st
  | some existing =>
    unfold settle
    dsimp only
    split
    · exact moved_self st
    · next h => exact Bool.not_eq_true _ |>.mp h

theorem settle_settle (old : Option ScheduledTarget) (st : ScheduledTarget) :
    settle (some (settle old st)) st = settle old st := by
  show (if (settle old st).moved st then st else settle old st) = settle old st
  rw [moved_settle]
  rfl

theorem lookup_refreshOne (h : st.id = id) :
    (refreshOne acc st).1.lookup id = some (settle (acc.1.lookup id) st) := by
  subst h
  unfold refreshOne settle
  cases hold : acc.1.lookup st.id with
  | none => exact AList.lookup_insert _
  | some existing =>
    dsimp only
    split
    · exact AList.lookup_insert _
    · exact hold

theorem lookup_refreshOne_ne (h : st.id ≠ id) :
    (refreshOne acc st).1.lookup id = acc.1.lookup id := by
  unfold refreshOne
  split
  · split
    · exact AList.lookup_insert_ne h.symm
    · rfl
  · exact AList.lookup_insert_ne h.symm

/-! ## What a pass over the list leaves -/

theorem lookup_foldl_of_notMem (h : ∀ st ∈ l, st.id ≠ id) :
    (l.foldl refreshOne acc).1.lookup id = acc.1.lookup id := by
  induction l generalizing acc with
  | nil => rfl
  | cons st l ih =>
    rw [List.foldl_cons, ih fun st' hst' => h st' (List.mem_cons_of_mem _ hst'),
      lookup_refreshOne_ne (h st List.mem_cons_self)]

theorem mem_refreshOne : id ∈ (refreshOne acc st).1 ↔ id ∈ acc.1 ∨ st.id = id := by
  rw [← AList.lookup_isSome, ← AList.lookup_isSome]
  by_cases h : st.id = id
  · rw [lookup_refreshOne h]
    exact ⟨fun _ => .inr h, fun _ => rfl⟩
  · rw [lookup_refreshOne_ne h]
    exact ⟨.inl, fun hmem => hmem.resolve_right h⟩

theorem mem_foldl : id ∈ (l.foldl refreshOne acc).1 ↔ id ∈ acc.1 ∨ ∃ st ∈ l, st.id = id := by
  induction l generalizing acc with
  | nil => simp
  | cons st l ih =>
    rw [List.foldl_cons, ih, mem_refreshOne, or_assoc]
    simp only [List.mem_cons, exists_eq_or_imp]

theorem ids_refreshOne (acc : Registry × RegistryDiff) (st : ScheduledTarget) :
    (∀ i ∈ (refreshOne acc st).2.ids, i ∈ acc.2.ids ∨ st.id = i) ∧
    (∀ i ∈ acc.2.ids, i ∈ (refreshOne acc st).2.ids) ∧
    (st.id ∉ acc.1 → st.id ∈ (refreshOne acc st).2.ids) := by
  unfold refreshOne
  split
  · next existing hold =>
    have hmem : st.id ∈ acc.1 := AList.lookup_isSome.mp (by rw [hold]; rfl)
    split
    · refine ⟨?_, ?_, fun h => absurd hmem h⟩
      · intro i hi
        simp only [RegistryDiff.ids, List.map_append, List.mem_append, List.map_cons, List.map_nil,
          List.mem_singleton] at hi ⊢
        rcases hi with hi | hi | rfl
        · exact .inl (.inl hi)
        · exact .inl (.inr hi)
        · exact .inr rfl
      · intro i hi
        simp only [RegistryDiff.ids, List.map_append, List.mem_append] at hi ⊢
        rcases hi with hi | hi
        · exact .inl hi
        · exact .inr (.inl hi)
    · exact ⟨fun i hi => .inl hi, fun i hi => hi, fun h => absurd hmem h⟩
  · refine ⟨?_, ?_, fun _ => ?_⟩
    · intro i hi
      simp only [RegistryDiff.ids, List.map_append, List.mem_append, List.map_cons, List.map_nil,
        List.mem_singleton] at hi ⊢
      rcases hi with (hi | rfl) | hi
      · exact .inl (.inl hi)
      · exact .inr rfl
      · exact .inl (.inr hi)
    · intro i hi
      simp only [RegistryDiff.ids, List.map_append, List.mem_append] at hi ⊢
      rcases hi with hi | hi
      · exact .inl (.inl hi)
      · exact .inr hi
    · simp [RegistryDiff.ids]

theorem ids_foldl (l : List ScheduledTarget) (acc : Registry × RegistryDiff) :
    (∀ i ∈ (l.foldl refreshOne acc).2.ids, i ∈ acc.2.ids ∨ ∃ st ∈ l, st.id = i) ∧
    (∀ i ∈ acc.2.ids, i ∈ (l.foldl refreshOne acc).2.ids) ∧
    (∀ st ∈ l, st.id ∉ acc.1 → st.id ∈ (l.foldl refreshOne acc).2.ids) := by
  induction l generalizing acc with
  | nil => exact ⟨fun i hi => .inl hi, fun i hi => hi, fun st hst => absurd hst List.not_mem_nil⟩
  | cons st l ih =>
    obtain ⟨hfrom, hkept, hnew⟩ := ids_refreshOne acc st
    obtain ⟨hfrom', hkept', hnew'⟩ := ih (refreshOne acc st)
    rw [List.foldl_cons]
    refine ⟨?_, fun i hi => hkept' i (hkept i hi), ?_⟩
    · intro i hi
      rcases hfrom' i hi with hi | ⟨st', hst', rfl⟩
      · rcases hfrom i hi with hi | rfl
        · exact .inl hi
        · exact .inr ⟨st, List.mem_cons_self, rfl⟩
      · exact .inr ⟨st', List.mem_cons_of_mem _ hst', rfl⟩
    · intro st' hst' hnone
      rcases List.mem_cons.mp hst' with rfl | hst'
      · exact hkept' _ (hnew hnone)
      · by_cases hid : st.id = st'.id
        · rw [← hid] at hnone ⊢
          exact hkept' _ (hnew hnone)
        · refine hnew' st' hst' ?_
          rw [mem_refreshOne]
          exact not_or.mpr ⟨hnone, hid⟩

theorem lookup_foldl_erase {β : Type} (removed : List Uuid) (map : AList fun _ : Uuid => β) :
    (removed.foldl (fun m id => m.erase id) map).lookup id =
      if id ∈ removed then none else map.lookup id := by
  induction removed generalizing map with
  | nil => rfl
  | cons i removed ih =>
    rw [List.foldl_cons, ih]
    by_cases hid : id = i
    · subst hid
      rw [if_pos List.mem_cons_self, AList.lookup_erase, ite_self]
    · simp only [List.mem_cons, hid, false_or, AList.lookup_erase_ne hid]

theorem mem_removed : id ∈ (refresh registry fresh).2.removed ↔
    id ∈ registry ∧ ∀ st ∈ fresh, st.id ≠ id := by
  show id ∈ (fresh.foldl refreshOne (registry, .empty)).1.keys.filter _ ↔ _
  rw [List.mem_filter, ← AList.mem_keys, mem_foldl]
  simp only [Bool.not_eq_true', List.any_eq_false, beq_iff_eq]
  constructor
  · rintro ⟨hmem | ⟨st, hst, hid⟩, hnone⟩
    · exact ⟨hmem, hnone⟩
    · exact absurd hid (hnone st hst)
  · rintro ⟨hmem, hnone⟩
    exact ⟨.inl hmem, hnone⟩

theorem mem_refresh : id ∈ (refresh registry fresh).1 ↔ ∃ st ∈ fresh, st.id = id := by
  rw [← AList.lookup_isSome]
  show ((List.foldl (fun r id => AList.erase id r) _ _).lookup id).isSome = true ↔ _
  rw [lookup_foldl_erase]
  show (if id ∈ (refresh registry fresh).2.removed then none
    else (fresh.foldl refreshOne (registry, .empty)).1.lookup id).isSome = true ↔ _
  split
  · next hremoved =>
    have hnone := (mem_removed.1 hremoved).2
    exact ⟨nofun, fun ⟨st, hst, hid⟩ => absurd hid (hnone st hst)⟩
  · next hkept =>
    rw [AList.lookup_isSome, mem_foldl]
    rw [mem_removed, not_and] at hkept
    constructor
    · rintro (hmem | hex)
      · by_contra hnone
        exact hkept hmem fun st hst hid => hnone ⟨st, hst, hid⟩
      · exact hex
    · exact .inr

theorem lookup_refresh (hst : st ∈ fresh) : (refresh registry fresh).1.lookup st.id =
    (fresh.foldl refreshOne (registry, .empty)).1.lookup st.id := by
  show (List.foldl (fun r id => AList.erase id r) _ _).lookup st.id = _
  rw [lookup_foldl_erase, if_neg]
  intro hremoved
  exact (mem_removed.1 hremoved).2 st hst rfl

theorem mem_of_diff : id ∈ (refresh registry fresh).1 ↔
    id ∈ registry ∧ id ∉ (refresh registry fresh).2.removed ∨ id ∈ (refresh registry fresh).2.ids := by
  have hids : (refresh registry fresh).2.ids =
      (fresh.foldl refreshOne (registry, .empty)).2.ids := rfl
  obtain ⟨hfrom, -, hnew⟩ := ids_foldl fresh (registry, .empty)
  rw [mem_refresh, mem_removed, hids]
  constructor
  · rintro ⟨st, hst, rfl⟩
    by_cases hmem : st.id ∈ registry
    · exact .inl ⟨hmem, fun hgone => hgone.2 st hst rfl⟩
    · exact .inr (hnew st hst hmem)
  · rintro (⟨hmem, hkept⟩ | hid)
    · by_contra hnone
      exact hkept ⟨hmem, fun st hst hid => hnone ⟨st, hst, hid⟩⟩
    · exact (hfrom id hid).resolve_left List.not_mem_nil

theorem notMem_removed_of_mem_ids (h : id ∈ (refresh registry fresh).2.ids) :
    id ∉ (refresh registry fresh).2.removed := by
  obtain ⟨st, hst, hid⟩ := ((ids_foldl fresh (registry, .empty)).1 id h).resolve_left
    List.not_mem_nil
  exact fun hremoved => (mem_removed.1 hremoved).2 st hst hid

end

/-! ## Does the registry follow its source? -/

/-- The residents are the targets listed. -/
def InSync (registry : Registry) (fresh : List ScheduledTarget) : Prop :=
  ∀ id st, registry.lookup id = some st ↔ st ∈ fresh ∧ st.id = id

/-- The diff has three disjoint parts, and takes the old ids to the new ones. -/
structure Parts (registry registry' : Registry) (diff : RegistryDiff) : Prop where
  addedUpdated : ∀ st ∈ diff.added, ∀ st' ∈ diff.updated, st.id ≠ st'.id
  addedRemoved : ∀ st ∈ diff.added, st.id ∉ diff.removed
  updatedRemoved : ∀ st ∈ diff.updated, st.id ∉ diff.removed
  applied : ∀ id, id ∈ registry' ↔ id ∈ registry ∧ id ∉ diff.removed ∨
    (∃ st ∈ diff.added, st.id = id) ∨ ∃ st ∈ diff.updated, st.id = id

/-- What is expected of a refresh, and of another one for the same list. -/
structure Sound (registry : Registry) (fresh : List ScheduledTarget) : Prop where
  inSync : InSync (refresh registry fresh).1 fresh
  parts : Parts registry (refresh registry fresh).1 (refresh registry fresh).2
  steady : (refresh (refresh registry fresh).1 fresh).2.isEmpty = true

/-- One refresh after another. -/
def Follows : Registry → List (List ScheduledTarget) → Prop
  | _, [] => True
  | registry, fresh :: rest => Sound registry fresh ∧ Follows (refresh registry fresh).1 rest

/-- The list tells a target once, and one that changed since `prev` apart from what it was. -/
structure Telling (prev fresh : List ScheduledTarget) : Prop where
  once : ∀ st ∈ fresh, ∀ st' ∈ fresh, st.id = st'.id → st = st'
  moved : ∀ st ∈ prev, ∀ st' ∈ fresh, st.id = st'.id → st.moved st' = false → st = st'

def AllTelling : List ScheduledTarget → List (List ScheduledTarget) → Prop
  | _, [] => True
  | prev, fresh :: rest => Telling prev fresh ∧ AllTelling fresh rest

section

variable {acc : Registry × RegistryDiff} {prev fresh l : List ScheduledTarget}
  {st : ScheduledTarget} {registry : Registry} {id : Uuid}

theorem tail_once (h : ∀ st' ∈ st :: l, ∀ st'' ∈ st :: l, st'.id = st''.id → st' = st'') :
    ∀ st' ∈ l, ∀ st'' ∈ l, st'.id = st''.id → st' = st'' :=
  fun st' hst' st'' hst'' =>
    h st' (List.mem_cons_of_mem _ hst') st'' (List.mem_cons_of_mem _ hst'')

theorem lookup_foldl (honce : ∀ st ∈ l, ∀ st' ∈ l, st.id = st'.id → st = st') (hst : st ∈ l) :
    (l.foldl refreshOne acc).1.lookup st.id = some (settle (acc.1.lookup st.id) st) := by
  induction l generalizing acc with
  | nil => cases hst
  | cons st' l ih =>
    rw [List.foldl_cons]
    by_cases hid : st'.id = st.id
    · obtain rfl := honce st' List.mem_cons_self st hst hid
      by_cases hmem : st' ∈ l
      · rw [ih (tail_once honce) hmem, lookup_refreshOne rfl, settle_settle]
      · rw [lookup_foldl_of_notMem, lookup_refreshOne rfl]
        intro st'' hst'' hid'
        have heq := honce st'' (List.mem_cons_of_mem _ hst'') st' List.mem_cons_self hid'
        exact hmem (heq ▸ hst'')
    · have hmem : st ∈ l := by
        rcases List.mem_cons.mp hst with rfl | hmem
        · exact absurd rfl hid
        · exact hmem
      rw [ih (tail_once honce) hmem, lookup_refreshOne_ne hid]

theorem diff_foldl (acc : Registry × RegistryDiff)
    (honce : ∀ st ∈ l, ∀ st' ∈ l, st.id = st'.id → st = st') :
    (∀ st ∈ (l.foldl refreshOne acc).2.added,
      st ∈ acc.2.added ∨ st ∈ l ∧ acc.1.lookup st.id = none) ∧
    (∀ st ∈ (l.foldl refreshOne acc).2.updated,
      st ∈ acc.2.updated ∨
        st ∈ l ∧ ∃ existing, acc.1.lookup st.id = some existing ∧ existing.moved st = true) := by
  induction l generalizing acc with
  | nil => exact ⟨fun st hst => .inl hst, fun st hst => .inl hst⟩
  | cons st' l ih =>
    obtain ⟨hadded, hupdated⟩ := ih (refreshOne acc st') (tail_once honce)
    have hone : (∀ st ∈ (refreshOne acc st').2.added,
          st ∈ acc.2.added ∨ st = st' ∧ acc.1.lookup st'.id = none) ∧
        ∀ st ∈ (refreshOne acc st').2.updated, st ∈ acc.2.updated ∨
          st = st' ∧ ∃ existing, acc.1.lookup st'.id = some existing ∧ existing.moved st' = true := by
      unfold refreshOne
      split
      · next existing hold =>
        split
        · next hmoved =>
          refine ⟨fun st hst => .inl hst, fun st hst => ?_⟩
          rcases List.mem_append.mp hst with hst | hst
          · exact .inl hst
          · exact .inr ⟨List.mem_singleton.mp hst, existing, hold, hmoved⟩
        · exact ⟨fun st hst => .inl hst, fun st hst => .inl hst⟩
      · next hold =>
        refine ⟨fun st hst => ?_, fun st hst => .inl hst⟩
        rcases List.mem_append.mp hst with hst | hst
        · exact .inl hst
        · exact .inr ⟨List.mem_singleton.mp hst, hold⟩
    rw [List.foldl_cons]
    constructor
    · intro st hst
      rcases hadded st hst with hst | ⟨hmem, hnone⟩
      · rcases hone.1 st hst with hst | ⟨rfl, hnone⟩
        · exact .inl hst
        · exact .inr ⟨List.mem_cons_self, hnone⟩
      · refine .inr ⟨List.mem_cons_of_mem _ hmem, ?_⟩
        by_cases hid : st'.id = st.id
        · rw [lookup_refreshOne hid] at hnone
          cases hnone
        · rwa [lookup_refreshOne_ne hid] at hnone
    · intro st hst
      rcases hupdated st hst with hst | ⟨hmem, existing, hold, hmoved⟩
      · rcases hone.2 st hst with hst | ⟨rfl, hex⟩
        · exact .inl hst
        · exact .inr ⟨List.mem_cons_self, hex⟩
      · refine .inr ⟨List.mem_cons_of_mem _ hmem, ?_⟩
        by_cases hid : st'.id = st.id
        · have heq := honce st' List.mem_cons_self st (List.mem_cons_of_mem _ hmem) hid
          rw [lookup_refreshOne hid, heq] at hold
          rw [← Option.some.inj hold, moved_settle] at hmoved
          cases hmoved
        · rw [lookup_refreshOne_ne hid] at hold
          exact ⟨existing, hold, hmoved⟩

theorem mem_ids_iff {diff : RegistryDiff} : id ∈ diff.ids ↔
    (∃ st ∈ diff.added, st.id = id) ∨ ∃ st ∈ diff.updated, st.id = id := by
  unfold RegistryDiff.ids
  rw [List.map_append, List.mem_append, List.mem_map, List.mem_map]

theorem Parts.of_once (honce : ∀ st ∈ fresh, ∀ st' ∈ fresh, st.id = st'.id → st = st') :
    Parts registry (refresh registry fresh).1 (refresh registry fresh).2 := by
  obtain ⟨hadded, hupdated⟩ := diff_foldl (registry, .empty) honce
  refine ⟨?_, ?_, ?_, ?_⟩
  · intro st hst st' hst' hid
    obtain ⟨-, hnone⟩ := (hadded st hst).resolve_left List.not_mem_nil
    obtain ⟨-, existing, hold, -⟩ := (hupdated st' hst').resolve_left List.not_mem_nil
    rw [← hid] at hold
    exact nomatch hnone.symm.trans hold
  · intro st hst
    exact notMem_removed_of_mem_ids (mem_ids_iff.2 (.inl ⟨st, hst, rfl⟩))
  · intro st hst
    exact notMem_removed_of_mem_ids (mem_ids_iff.2 (.inr ⟨st, hst, rfl⟩))
  · intro id
    rw [mem_of_diff, mem_ids_iff]

theorem steady_of_once (honce : ∀ st ∈ fresh, ∀ st' ∈ fresh, st.id = st'.id → st = st') :
    (refresh (refresh registry fresh).1 fresh).2.isEmpty = true := by
  have hlookup : ∀ st ∈ fresh, (refresh registry fresh).1.lookup st.id =
      some (settle (registry.lookup st.id) st) := by
    intro st hst
    rw [lookup_refresh hst]
    exact lookup_foldl honce hst
  obtain ⟨hadded, hupdated⟩ := diff_foldl ((refresh registry fresh).1, .empty) honce
  have hadded : (refresh (refresh registry fresh).1 fresh).2.added = [] := by
    refine List.eq_nil_iff_forall_not_mem.mpr fun st hst => ?_
    obtain ⟨hmem, hnone⟩ := (hadded st hst).resolve_left List.not_mem_nil
    exact nomatch hnone.symm.trans (hlookup st hmem)
  have hupdated : (refresh (refresh registry fresh).1 fresh).2.updated = [] := by
    refine List.eq_nil_iff_forall_not_mem.mpr fun st hst => ?_
    obtain ⟨hmem, existing, hold, hmoved⟩ := (hupdated st hst).resolve_left List.not_mem_nil
    rw [← Option.some.inj ((hlookup st hmem).symm.trans hold), moved_settle] at hmoved
    cases hmoved
  have hremoved : (refresh (refresh registry fresh).1 fresh).2.removed = [] := by
    refine List.eq_nil_iff_forall_not_mem.mpr fun id hid => ?_
    obtain ⟨hmem, hnone⟩ := mem_removed.1 hid
    obtain ⟨st, hst, hid⟩ := mem_refresh.1 hmem
    exact hnone st hst hid
  unfold RegistryDiff.isEmpty
  rw [hadded, hupdated, hremoved]
  rfl

theorem sound_iff (hprev : InSync registry prev) : Sound registry fresh ↔ Telling prev fresh := by
  constructor
  · intro h
    have honce : ∀ st ∈ fresh, ∀ st' ∈ fresh, st.id = st'.id → st = st' := by
      intro st hst st' hst' hid
      have hone := (h.inSync st.id st).mpr ⟨hst, rfl⟩
      have htwo := (h.inSync st.id st').mpr ⟨hst', hid.symm⟩
      exact Option.some.inj (hone.symm.trans htwo)
    refine ⟨honce, ?_⟩
    intro st hst st' hst' hid hmoved
    have hold := (hprev st'.id st).mpr ⟨hst, hid⟩
    have hnew := (h.inSync st'.id st').mpr ⟨hst', rfl⟩
    rw [lookup_refresh hst', lookup_foldl honce hst', hold, Option.some_inj] at hnew
    unfold settle at hnew
    dsimp only at hnew
    rwa [hmoved, if_neg Bool.false_ne_true] at hnew
  · intro h
    refine ⟨?_, .of_once h.once, steady_of_once h.once⟩
    have hlookup : ∀ st ∈ fresh, (refresh registry fresh).1.lookup st.id = some st := by
      intro st hst
      rw [lookup_refresh hst, lookup_foldl h.once hst, Option.some_inj]
      unfold settle
      split
      · next existing hold =>
        split
        · rfl
        · next hmoved =>
          obtain ⟨hmem, hid⟩ := (hprev _ _).mp hold
          exact h.moved existing hmem st hst hid (Bool.not_eq_true _ |>.mp hmoved)
      · rfl
    intro id st
    constructor
    · intro hst
      have hmem : id ∈ (refresh registry fresh).1 := AList.lookup_isSome.mp (by rw [hst]; rfl)
      obtain ⟨st', hst', rfl⟩ := mem_refresh.1 hmem
      obtain rfl := Option.some.inj ((hlookup st' hst').symm.trans hst)
      exact ⟨hst', rfl⟩
    · rintro ⟨hst, rfl⟩
      exact hlookup st hst

theorem inSync_empty : InSync ∅ [] := by
  intro id st
  rw [AList.lookup_empty]
  exact ⟨nofun, fun h => absurd h.1 List.not_mem_nil⟩

theorem follows_iff (hprev : InSync registry prev) (lists : List (List ScheduledTarget)) :
    Follows registry lists ↔ AllTelling prev lists := by
  induction lists generalizing registry prev with
  | nil => exact Iff.rfl
  | cons fresh rest ih =>
    unfold Follows AllTelling
    constructor
    · rintro ⟨hsound, hrest⟩
      exact ⟨(sound_iff hprev).mp hsound, (ih hsound.inSync).mp hrest⟩
    · rintro ⟨htelling, hrest⟩
      have hsound := (sound_iff hprev).mpr htelling
      exact ⟨hsound, (ih hsound.inSync).mpr hrest⟩

end

/-- **The registry follows its source exactly where the lists tell what changed**: one refresh
after another, from an empty registry, leaves the targets just read, a diff of three disjoint parts
from the old ids to the new, and nothing to do for the same list, if and only if no list tells one
target in two ways, and none changes a target whose `updated_at` and interval stand still. -/
theorem refresh_faithful_iff (lists : List (List ScheduledTarget)) :
    Follows ∅ lists ↔ AllTelling [] lists :=
  follows_iff inSync_empty lists

namespace One

/-- A check whose URL is resolved to the host. -/
def probe (host : String) : ScheduledTarget :=
  ⟨1, ⟨7, .http ⟨⟨"https", some (.domain host), none⟩, .get, 30000, 0, none, true, none, none⟩,
    60000000000, 0⟩⟩

end One

/-- The next list differs in the check alone, and the registry keeps the old one. -/
theorem refresh_keeps_old_check : ¬ ∀ lists, Follows ∅ lists := by
  intro h
  have htelling := (follows_iff inSync_empty [[One.probe "a"], [One.probe "b"]]).mp (h _)
  have hsame := htelling.2.1.moved (One.probe "a") List.mem_cons_self (One.probe "b")
    List.mem_cons_self rfl (by decide)
  exact absurd hsame (by decide)

end Uptimepage.Scheduler

import Uptimepage.Policies.Store

/-!
# Whatever names a policy names a live one

`Bound` says that a target's policy, and an organisation's default, is live and the
organisation's own.  An open `delete` is described by its `Search`: what it has looked for so
far, and what it has found.  `Found` is the invariant of one search: whatever names its policy
has been found, or has not been looked for.
-/

namespace Uptimepage.Policies

open Async Sql

/-! ## References -/

def Db.names (db : Db) (org : OrgId) (id : Uuid) : Slot → Bool
  | .target t => db.bound org id t
  | .orgDefault => db.isDefault org id

/-- There is such a policy, live or not. -/
def Db.owns (db : Db) (org : OrgId) (id : Uuid) : Bool :=
  (db.policies.get? id).any fun p => p.orgId == org

def Db.retired (db : Db) (id : Uuid) : Bool :=
  (db.policies.get? id).any fun p => p.deletedAt.isSome

/-- Whatever names a policy names a live one of its organisation. -/
def Bound (db : Db) : Prop :=
  ∀ (org : OrgId) (id : Uuid) (slot : Slot), db.names org id slot = true →
    db.livePolicy org id = true

/-- It is this slot that is bound: there is one default for each organisation. -/
def Binding.At (b : Binding) (org : OrgId) (slot : Slot) : Prop :=
  slot = b.slot ∧ (slot = .orgDefault → org = b.org)

/-- The policy to bind is the organisation's, live or not. -/
def Binding.Checked (db : Db) (b : Binding) : Prop :=
  ∀ id, b.policyId = some id → db.owns b.org id = true

/-- The target to bind is the organisation's. -/
def Binding.Owned (db : Db) (b : Binding) : Prop :=
  ∀ t, b.slot = .target t → ∀ r, db.targets.get? t = some r → r.orgId = b.org

theorem targets_bindTarget (db : Db) (target : Uuid) (v : Option Uuid) (t : Uuid) :
    (db.apply (.bindTarget target v)).targets.get? t = (db.targets.get? t).map fun r =>
      if r.id == target then { r with escalationPolicyId := v } else r := by
  simp only [Db.apply, Rows.get?_update]

theorem organizations_bindDefault (db : Db) (o : OrgId) (v : Option Uuid) (org : OrgId) :
    (db.apply (.bindDefault o v)).organizations.get? org =
      (db.organizations.get? org).map fun r =>
        if r.id == o then { r with defaultEscalationPolicyId := v } else r := by
  simp only [Db.apply, Rows.get?_update]

theorem bound_bindTarget (db : Db) (target : Uuid) (v : Option Uuid) (org : OrgId) (id t : Uuid) :
    (db.apply (.bindTarget target v)).bound org id t =
      if t = target then ((db.targets.get? t).any fun r => r.orgId == org) && v == some id
      else db.bound org id t := by
  unfold Db.bound
  rw [targets_bindTarget, Option.any_map]
  cases heq : db.targets.get? t with
  | none => simp
  | some r =>
    obtain rfl : r.id = t := (Rows.get?_eq_some.1 heq).2
    by_cases ht : r.id = target
    · simp [ht]
    · simp [ht]

theorem isDefault_bindDefault (db : Db) (o : OrgId) (v : Option Uuid) (org : OrgId) (id : Uuid) :
    (db.apply (.bindDefault o v)).isDefault org id =
      if org = o then (db.organizations.get? org).isSome && v == some id
      else db.isDefault org id := by
  unfold Db.isDefault
  rw [organizations_bindDefault, Option.any_map]
  cases heq : db.organizations.get? org with
  | none => simp
  | some r =>
    obtain rfl : r.id = org := (Rows.get?_eq_some.1 heq).2
    by_cases ho : r.id = o
    · simp [ho]
    · simp [ho]

variable {b : Binding} {org : OrgId} {slot : Slot}

theorem names_write_at {db : Db} {id : Uuid} (hat : b.At org slot)
    (h : (db.apply b.write).names org id slot = true) : b.policyId = some id := by
  obtain ⟨o, slot', v⟩ := b
  obtain ⟨rfl, horg⟩ := hat
  cases slot with
  | target t =>
    have heq := bound_bindTarget db t v org id t
    rw [if_pos rfl, show (db.apply (.bindTarget t v)).bound org id t = true from h] at heq
    exact beq_iff_eq.mp (Bool.and_eq_true_iff.mp heq.symm).2
  | orgDefault =>
    obtain rfl : org = o := horg rfl
    have heq := isDefault_bindDefault db org v org id
    rw [if_pos rfl, show (db.apply (.bindDefault org v)).isDefault org id = true from h] at heq
    exact beq_iff_eq.mp (Bool.and_eq_true_iff.mp heq.symm).2

theorem names_write (hat : ¬ b.At org slot) (db : Db) (id : Uuid) :
    (db.apply b.write).names org id slot = db.names org id slot := by
  obtain ⟨o, target | _, v⟩ := b
  · cases slot with
    | orgDefault => rfl
    | target t =>
      have ht : t ≠ target := by
        rintro rfl
        exact hat ⟨rfl, fun hslot => by cases hslot⟩
      exact (bound_bindTarget db target v org id t).trans (if_neg ht)
  · cases slot with
    | target t => rfl
    | orgDefault =>
      have ho : org ≠ o := by
        rintro rfl
        exact hat ⟨rfl, fun _ => rfl⟩
      exact (isDefault_bindDefault db o v org id).trans (if_neg ho)

/-! ## What no statement takes away -/

theorem get?_retire (db : Db) (id' : Uuid) (at_ : Time) (id : Uuid) :
    (db.apply (.retire id' at_)).policies.get? id = (db.policies.get? id).map fun p =>
      if p.id == id' then { p with deletedAt := some at_ } else p := by
  simp only [Db.apply, Rows.get?_update]

theorem owns_of_livePolicy {db : Db} {id : Uuid} (h : db.livePolicy org id = true) :
    db.owns org id = true := by
  obtain ⟨p, hp, h⟩ := (Option.any_eq_true _ _).mp h
  exact (Option.any_eq_true _ _).mpr ⟨p, hp, (Bool.and_eq_true_iff.mp h).1⟩

theorem livePolicy_of_owns {db : Db} {id : Uuid} (h : db.owns org id = true)
    (hkept : db.retired id = false) : db.livePolicy org id = true := by
  obtain ⟨p, hp, horg⟩ := (Option.any_eq_true _ _).mp h
  rw [Db.retired, hp, Option.any_some] at hkept
  refine (Option.any_eq_true _ _).mpr ⟨p, hp, Bool.and_eq_true_iff.mpr ⟨horg, ?_⟩⟩
  simpa using hkept

theorem owns_apply {db : Db} {id : Uuid} (w : Write) (h : db.owns org id = true) :
    (db.apply w).owns org id = true := by
  obtain ⟨p, hp, horg⟩ := (Option.any_eq_true _ _).mp h
  apply (Option.any_eq_true _ _).mpr
  cases w with
  | insertPolicy p' => exact ⟨p, Rows.get?_insert_of_some hp, horg⟩
  | retire id' at_ =>
    rw [get?_retire, hp, Option.map_some]
    refine ⟨_, rfl, ?_⟩
    split
    · exact horg
    · exact horg
  | bindTarget | bindDefault => exact ⟨p, hp, horg⟩

theorem owned_apply {db : Db} (w : Write) (h : b.Owned db) : b.Owned (db.apply w) := by
  intro t ht r hr
  cases w with
  | bindTarget target v =>
    rw [targets_bindTarget] at hr
    obtain ⟨r₀, hr₀, rfl⟩ := Option.map_eq_some_iff.mp hr
    have horg := h t ht r₀ hr₀
    split
    · exact horg
    · exact horg
  | insertPolicy | retire | bindDefault => exact h t ht r hr

theorem org_eq_of_at {db : Db} {id : Uuid} (howned : b.Owned db) (hat : b.At org slot)
    (h : (db.apply b.write).names org id slot = true) : org = b.org := by
  cases slot with
  | orgDefault => exact hat.2 rfl
  | target t =>
    obtain ⟨r, hr, h⟩ := (Option.any_eq_true _ _).mp h
    have hb := owned_apply b.write howned t hat.1.symm r hr
    exact (beq_iff_eq.mp (Bool.and_eq_true_iff.mp h).1).symm.trans hb

theorem org_eq_of_owns {db : Db} {org' : OrgId} {id : Uuid} (h : db.owns org id = true)
    (h' : db.owns org' id = true) : org = org' := by
  obtain ⟨p, hp, horg⟩ := (Option.any_eq_true _ _).mp h
  obtain ⟨p', hp', horg'⟩ := (Option.any_eq_true _ _).mp h'
  obtain rfl : p = p' := Option.some.inj (hp.symm.trans hp')
  exact (beq_iff_eq.mp horg).symm.trans (beq_iff_eq.mp horg')

theorem livePolicy_insertPolicy {db : Db} {id : Uuid} (h : db.livePolicy org id = true)
    (p : Policy) : (db.apply (.insertPolicy p)).livePolicy org id = true := by
  obtain ⟨p', hp', hlive⟩ := (Option.any_eq_true _ _).mp h
  exact (Option.any_eq_true _ _).mpr ⟨p', Rows.get?_insert_of_some hp', hlive⟩

theorem livePolicy_retire {db : Db} {id id' : Uuid} (hne : id ≠ id')
    (h : db.livePolicy org id = true) (at_ : Time) :
    (db.apply (.retire id' at_)).livePolicy org id = true := by
  obtain ⟨p, hp, hlive⟩ := (Option.any_eq_true _ _).mp h
  obtain rfl : p.id = id := (Rows.get?_eq_some.1 hp).2
  apply (Option.any_eq_true _ _).mpr
  rw [get?_retire, hp, Option.map_some]
  refine ⟨_, rfl, ?_⟩
  rw [if_neg (by simpa using hne)]
  exact hlive

/-! ## What a delete clears -/

def Delete.unbinds (d : Delete) (cleared : List Uuid) (found : Bool) : List Binding :=
  cleared.map (fun t => ⟨d.org, .target t, none⟩) ++ if found then [⟨d.org, .orgDefault, none⟩] else []

theorem writes_eq (d : Delete) (at_ : Time) (cleared : List Uuid) (found : Bool) :
    d.writes at_ cleared found =
      .retire d.id at_ :: (d.unbinds cleared found).map Binding.write := by
  cases found <;>
    simp [Delete.writes, Delete.clears, Delete.unbinds, Binding.write, Function.comp_def]

theorem clears_eq (d : Delete) (at_ : Time) (cleared : List Uuid) :
    d.clears at_ cleared = d.writes at_ cleared false := (List.append_nil _).symm

variable {d : Delete} {cleared : List Uuid} {found : Bool} {at_ : Time} {t : Uuid}

theorem policyId_of_mem_unbinds (h : b ∈ d.unbinds cleared found) : b.policyId = none := by
  rcases List.mem_append.mp h with h | h
  · obtain ⟨t, -, rfl⟩ := List.mem_map.mp h
    rfl
  · cases found with
    | false => cases h
    | true =>
      rw [List.mem_singleton.mp h]

theorem names_unbound {db : Db} {bs : List Binding} (hbs : ∀ b ∈ bs, b.policyId = none)
    {id : Uuid} :
    (code.view db (bs.map Binding.write)).names org id slot = true ↔
      db.names org id slot = true ∧ ∀ b ∈ bs, ¬ b.At org slot := by
  induction bs generalizing db with
  | nil => simp
  | cons b bs ih =>
    have hnone := hbs b List.mem_cons_self
    rw [List.map_cons, code.view_cons, ih fun b' hb' => hbs b' (List.mem_cons_of_mem _ hb')]
    by_cases hat : b.At org slot
    · constructor
      · rintro ⟨h, -⟩
        rw [names_write_at hat h] at hnone
        cases hnone
      · rintro ⟨-, h⟩
        exact absurd hat (h b List.mem_cons_self)
    · rw [show (code.apply db b.write).names org id slot = _ from names_write hat db id]
      simp [hat]

theorem names_writes {db : Db} {id : Uuid} :
    (code.view db (d.writes at_ cleared found)).names org id slot = true ↔
      db.names org id slot = true ∧ ∀ b ∈ d.unbinds cleared found, ¬ b.At org slot := by
  rw [writes_eq, code.view_cons, names_unbound fun b hb => policyId_of_mem_unbinds hb]
  have hretire : (code.apply db (.retire d.id at_)).names org id slot = db.names org id slot := by
    cases slot <;> rfl
  rw [hretire]

theorem names_clears {db : Db} {id : Uuid} :
    (code.view db (d.clears at_ cleared)).names org id slot = true ↔
      db.names org id slot = true ∧ ∀ t ∈ cleared, slot ≠ .target t := by
  rw [clears_eq, names_writes]
  refine and_congr_right fun _ => ⟨fun h t ht hslot => ?_, fun h b hb hat => ?_⟩
  · subst hslot
    refine h ⟨d.org, .target t, none⟩ ?_ ⟨rfl, fun hslot => by cases hslot⟩
    exact List.mem_append_left _ (List.mem_map.mpr ⟨t, ht, rfl⟩)
  · rcases List.mem_append.mp hb with hb | hb
    · obtain ⟨t, ht, rfl⟩ := List.mem_map.mp hb
      exact h t ht hat.1
    · cases hb

theorem mem_boundTargets {db : Db} {id : Uuid} (h : db.bound org id t = true) :
    t ∈ db.boundTargets org id := by
  obtain ⟨r, hr, hbound⟩ := (Option.any_eq_true _ _).mp h
  obtain ⟨hmem, hid⟩ := Rows.get?_eq_some.1 hr
  exact List.mem_map.mpr ⟨r, List.mem_filter.mpr ⟨hmem, hbound⟩, hid⟩

theorem policies_unbinds {db : Db} (bs : List Binding) :
    (code.view db (bs.map Binding.write)).policies = db.policies := by
  refine code.view_kept (P := fun db' => db'.policies = db.policies) ?_ rfl
  intro db' w hw hdb'
  obtain ⟨b, -, rfl⟩ := List.mem_map.mp hw
  obtain ⟨o, target | _, v⟩ := b
  · exact hdb'
  · exact hdb'

/-! ## The invariant -/

/-- What an open delete has looked for: the targets it has found, less those it has seen bound to
something else since, and whether it has found the default. -/
structure Search where
  d : Delete
  targets : Option (List Uuid)
  default : Option Bool

/-- The slot was looked at, and not found to be bound to the policy. -/
def Search.overlooks (q : Search) : Slot → Bool
  | .target t => q.targets.any fun found => !found.contains t
  | .orgDefault => q.default.any fun found => !found

theorem overlooks_target {found : List Uuid} {default : Option Bool} :
    Search.overlooks ⟨d, some found, default⟩ (.target t) = false ↔ t ∈ found := by
  simp [Search.overlooks]

def Phase.search : Phase → Option Search
  | .findTargets d _ => some ⟨d, none, none⟩
  | .clearTargets d _ cleared rest => some ⟨d, some (cleared ++ rest), none⟩
  | .findDefault d _ cleared => some ⟨d, some cleared, none⟩
  | .clearDefault d _ cleared found | .deleteCommit d _ cleared found =>
    some ⟨d, some cleared, some found⟩
  | _ => none

/-- What a setter is about to commit. -/
def Phase.binding : Phase → Option Binding
  | .bindCommit b => some b
  | _ => none

/-- What a setter that has made its check is to bind. -/
def Phase.checked : Phase → Option Binding
  | .check b | .write b | .bindCommit b => some b
  | _ => none

/-- Whatever names the policy to delete has been found, or has not been looked for. -/
structure Found (db : Db) (q : Search) : Prop where
  owned : db.owns q.d.org q.d.id = true
  seen : ∀ slot, db.names q.d.org q.d.id slot = true → q.overlooks slot = false

structure Sound (db : Db) (p : Phase) : Prop where
  search : ∀ q ∈ p.search, Found db q
  binding : ∀ b ∈ p.binding, b.Owned db
  checked : ∀ b ∈ p.checked, b.Checked db

/-- Nothing is looked for, and nothing about to be bound. -/
def Phase.Quiet (p : Phase) : Prop := p.search = none ∧ p.binding = none ∧ p.checked = none

variable {p q : Phase}

theorem Sound.of_checked {db : Db} (h : p.search = none) (h' : p.binding = none)
    (hchecked : ∀ b ∈ p.checked, b.Checked db) : Sound db p := by
  refine ⟨fun q hq => ?_, fun b hb => ?_, hchecked⟩
  · rw [h] at hq
    cases hq
  · rw [h'] at hb
    cases hb

theorem Phase.Quiet.sound (h : p.Quiet) (db : Db) : Sound db p := by
  refine .of_checked h.1 h.2.1 fun b hb => ?_
  rw [h.2.2] at hb
  cases hb

theorem Sound.of_search {db : Db} {q : Search} (h : p.search = some q) (hbinding : p.binding = none)
    (hchecked : p.checked = none) (hfound : Found db q) : Sound db p := by
  refine ⟨fun q' hq => ?_, fun b hb => ?_, fun b hb => ?_⟩
  · rw [h] at hq
    cases hq
    exact hfound
  · rw [hbinding] at hb
    cases hb
  · rw [hchecked] at hb
    cases hb

section

variable {db : Db} {keys : List Key} {writes : List Write}

/-- The handler's look finds the policy; the later phases keep what it found. -/
theorem Sound.validate (hnext : next db (.validate b) = some (.run keys writes q)) :
    Sound db q := by
  simp only [next] at hnext
  split at hnext <;> cases hnext
  next hlive =>
  have hchecked : b.Checked db := by
    intro id hid
    rw [hid, Option.all_some] at hlive
    exact owns_of_livePolicy hlive
  split
  · exact .of_checked rfl rfl fun b' hb => Option.some.inj hb ▸ hchecked
  · exact .of_checked rfl rfl fun b' hb => Option.some.inj hb ▸ hchecked

theorem Sound.write (h : Sound db (.write b))
    (hnext : next db (.write b) = some (.run keys writes q)) : Sound db q := by
  have hchecked := h.checked b rfl
  simp only [next] at hnext
  split at hnext
  · next t ht =>
    split at hnext <;> cases hnext
    next hany =>
    refine ⟨fun q' hq => (by cases hq), fun b' hb t' ht' r hr => ?_, fun b' hb => ?_⟩
    · cases hb
      obtain ⟨r', hr', horg⟩ := (Option.any_eq_true _ _).mp hany
      obtain rfl : t = t' := Slot.target.inj (ht.symm.trans ht')
      obtain rfl : r' = r := Option.some.inj (hr'.symm.trans hr)
      exact beq_iff_eq.mp horg
    · exact Option.some.inj hb ▸ hchecked
  · next hslot =>
    split at hnext <;> cases hnext
    refine ⟨fun q' hq => (by cases hq), fun b' hb t' ht' => ?_, fun b' hb => ?_⟩
    · cases hb
      rw [hslot] at ht'
      cases ht'
    · exact Option.some.inj hb ▸ hchecked

theorem Found.findTargets (h : Found db ⟨d, none, none⟩) :
    Found db ⟨d, some ((code.view db (d.clears at_ [])).boundTargets d.org d.id), none⟩ := by
  refine ⟨h.owned, fun slot hslot => ?_⟩
  cases slot with
  | orgDefault => rfl
  | target t =>
    have hview : (code.view db (d.clears at_ [])).bound d.org d.id t = true :=
      names_clears.2 ⟨hslot, fun _ ht => absurd ht List.not_mem_nil⟩
    exact overlooks_target.2 (mem_boundTargets hview)

/-- A target that is not bound any more is dropped from what is still to be cleared. -/
theorem Found.dropTarget {rest : List Uuid} (h : Found db ⟨d, some (cleared ++ t :: rest), none⟩)
    (hbound : (code.view db (d.clears at_ cleared)).bound d.org d.id t ≠ true) :
    Found db ⟨d, some (cleared ++ rest), none⟩ := by
  refine ⟨h.owned, fun slot hslot => ?_⟩
  cases slot with
  | orgDefault => rfl
  | target t' =>
    apply overlooks_target.2
    rcases List.mem_append.mp (overlooks_target.1 (h.seen _ hslot)) with ht | ht
    · exact List.mem_append_left _ ht
    · rcases List.mem_cons.mp ht with rfl | ht
      · -- The row is not bound any more, so this transaction has cleared it.
        by_contra hnot
        refine hbound (names_clears.2 ⟨hslot, fun t ht hne => hnot ?_⟩)
        cases hne
        exact List.mem_append_left _ ht
      · exact List.mem_append_right _ ht

theorem Found.findDefault (h : Found db ⟨d, some cleared, none⟩) :
    Found db ⟨d, some cleared, some ((code.view db (d.clears at_ cleared)).isDefault d.org d.id)⟩ := by
  refine ⟨h.owned, fun slot hslot => ?_⟩
  cases slot with
  | target t => exact h.seen _ hslot
  | orgDefault =>
    have hview : (code.view db (d.clears at_ cleared)).isDefault d.org d.id = true :=
      names_clears.2 ⟨hslot, fun _ _ hne => by cases hne⟩
    show (!(code.view db (d.clears at_ cleared)).isDefault d.org d.id) = false
    rw [hview]
    rfl

theorem Found.dropDefault (h : Found db ⟨d, some cleared, some true⟩)
    (hdefault : (code.view db (d.clears at_ cleared)).isDefault d.org d.id ≠ true) :
    Found db ⟨d, some cleared, some false⟩ := by
  refine ⟨h.owned, fun slot hslot => ?_⟩
  cases slot with
  | target t => exact h.seen _ hslot
  | orgDefault =>
    exact absurd (names_clears.2 ⟨hslot, fun _ _ hne => by cases hne⟩) hdefault

theorem Sound.run (h : Sound db p)
    (hnext : next (code.view db (written p)) p = some (.run keys writes q)) : Sound db q := by
  cases p with
  | create n =>
    simp only [next] at hnext
    split at hnext <;> cases hnext
    exact Phase.Quiet.sound ⟨rfl, rfl, rfl⟩ db
  | createLock n account =>
    cases hnext
    exact Phase.Quiet.sound ⟨rfl, rfl, rfl⟩ db
  | createInsert n account =>
    simp only [next] at hnext
    split at hnext
    · cases hnext
    · split at hnext
      · cases hnext
      · split at hnext <;> cases hnext
        exact Phase.Quiet.sound ⟨rfl, rfl, rfl⟩ db
  | validate b => exact .validate hnext
  | check b =>
    simp only [next] at hnext
    split at hnext <;> cases hnext
    exact .of_checked rfl rfl h.checked
  | write b => exact h.write hnext
  | delete d =>
    simp only [next] at hnext
    split at hnext <;> cases hnext
    next hlive =>
    exact .of_search rfl rfl rfl ⟨owns_of_livePolicy hlive, fun slot _ => by cases slot <;> rfl⟩
  | findTargets d at_ =>
    cases hnext
    exact .of_search rfl rfl rfl (h.search _ rfl).findTargets
  | clearTargets d at_ cleared rest =>
    have hfound := h.search _ rfl
    cases rest with
    | nil =>
      cases hnext
      exact .of_search rfl rfl rfl (List.append_nil cleared ▸ hfound)
    | cons t rest =>
      simp only [next] at hnext
      split at hnext <;> cases hnext
      · refine .of_search rfl rfl rfl ?_
        rwa [List.append_assoc, List.singleton_append]
      · next hbound => exact .of_search rfl rfl rfl (hfound.dropTarget hbound)
  | findDefault d at_ cleared =>
    cases hnext
    exact .of_search rfl rfl rfl (h.search _ rfl).findDefault
  | clearDefault d at_ cleared found =>
    have hfound := h.search _ rfl
    cases found with
    | false =>
      cases hnext
      exact .of_search rfl rfl rfl hfound
    | true =>
      simp only [next] at hnext
      split at hnext <;> cases hnext
      · exact .of_search rfl rfl rfl hfound
      · next hdefault => exact .of_search rfl rfl rfl (hfound.dropDefault hdefault)
  | createCommit | deleteCommit | bindCommit | returned | failed => cases hnext

end

theorem Sound.view {db : Db} {ws : List Write} (h : Sound db p) (hnames : ∀ q ∈ p.search, ∀ slot,
      (code.view db ws).names q.d.org q.d.id slot = true →
        db.names q.d.org q.d.id slot = true ∨ q.overlooks slot = false) :
    Sound (code.view db ws) p := by
  refine ⟨fun q hq => ⟨?_, fun slot hslot => ?_⟩, fun b hb => ?_, fun b hb id hid => ?_⟩
  · exact code.view_kept (P := fun db => db.owns q.d.org q.d.id = true)
      (fun _ w _ howns => owns_apply w howns) (h.search q hq).owned
  · rcases hnames q hq slot hslot with hslot | hseen
    · exact (h.search q hq).seen slot hslot
    · exact hseen
  · exact code.view_kept (P := b.Owned) (fun _ w _ howned => owned_apply w howned) (h.binding b hb)
  · exact code.view_kept (P := fun db => db.owns b.org id = true)
      (fun _ w _ howns => owns_apply w howns) (h.checked b hb id hid)

/-- Where a transaction ends, and from where it commits. -/
def Ends (p : Phase) : Move Key Write Phase → Prop
  | .run _ _ _ => True
  | .rollback q => q.Quiet
  | .commit q => q.Quiet ∧ ((∃ n, p = .createCommit n) ∨ (∃ b, p = .bindCommit b) ∨
    ∃ d at_ cleared found, p = .deleteCommit d at_ cleared found)

theorem next_ends {db : Db} {m : Move Key Write Phase} (h : next db p = some m) : Ends p m := by
  cases p with
  | createCommit n =>
    cases h
    exact ⟨⟨rfl, rfl, rfl⟩, .inl ⟨n, rfl⟩⟩
  | bindCommit b =>
    cases h
    exact ⟨⟨rfl, rfl, rfl⟩, .inr (.inl ⟨b, rfl⟩)⟩
  | deleteCommit d at_ cleared found =>
    cases h
    exact ⟨⟨rfl, rfl, rfl⟩, .inr (.inr ⟨d, at_, cleared, found, rfl⟩)⟩
  | clearTargets d at_ cleared rest =>
    cases rest with
    | nil =>
      cases h
      trivial
    | cons t rest =>
      simp only [next] at h
      split at h <;> cases h <;> trivial
  | clearDefault d at_ cleared found =>
    cases found with
    | false =>
      cases h
      trivial
    | true =>
      simp only [next] at h
      split at h <;> cases h <;> trivial
  | createInsert n account =>
    simp only [next] at h
    split at h
    · cases h
      exact ⟨rfl, rfl, rfl⟩
    · split at h
      · cases h
        exact ⟨rfl, rfl, rfl⟩
      · split at h <;> cases h
        · exact ⟨rfl, rfl, rfl⟩
        · trivial
  | write b =>
    simp only [next] at h
    split at h <;> split at h <;> cases h
    · trivial
    · exact ⟨rfl, rfl, rfl⟩
    · trivial
    · exact ⟨rfl, rfl, rfl⟩
  | create | validate | check | delete =>
    simp only [next] at h
    split at h <;> cases h
    · trivial
    · exact ⟨rfl, rfl, rfl⟩
  | createLock | findTargets | findDefault =>
    cases h
    trivial
  | returned | failed => cases h

/-- No setter commits a reference to a policy whose delete has committed since its check, or a
reference that an open delete of the policy has looked for in vain. -/
def Unraced (s : State) : Event → Prop
  | .go i => ∀ x b id, s.sessions[i]? = some x → x.phase = .bindCommit b → b.policyId = some id →
    s.db.retired id = false ∧
      ∀ (j : Nat) (y : Session Key Write Phase), s.sessions[j]? = some y → ∀ q ∈ y.phase.search,
        q.d.org = b.org → q.d.id = id → q.overlooks b.slot = false
  | _ => True

structure Inv (s : State) : Prop where
  traced : Traced written (fun _ => []) s
  bound : Bound s.db
  sound : ∀ (i : Nat) (x : Session Key Write Phase), s.sessions[i]? = some x → Sound s.db x.phase

theorem inv_init {db : Db} (hdb : Bound db) : Inv ⟨db, []⟩ := by
  refine ⟨⟨?_, ?_, ?_⟩, hdb, ?_⟩
  · intro i j x y k hx
    cases hx
  all_goals
    intro i x hx
    cases hx

variable {s : State}

theorem Inv.bound_binding (h : Inv s) (howned : b.Owned s.db)
    (hlive : ∀ id, b.policyId = some id → s.db.livePolicy b.org id = true) :
    Bound (code.view s.db [b.write]) := by
  have hlive_write : ∀ org id, s.db.livePolicy org id = true →
      (code.view s.db [b.write]).livePolicy org id = true := by
    intro org id h
    have hpolicies : (code.view s.db ([b].map Binding.write)).policies = s.db.policies :=
      policies_unbinds [b]
    unfold Db.livePolicy at h ⊢
    rwa [← hpolicies] at h
  intro org id slot hnames
  apply hlive_write
  by_cases hat : b.At org slot
  · rw [org_eq_of_at howned hat hnames]
    exact hlive id (names_write_at hat hnames)
  · have heq : (code.view s.db [b.write]).names org id slot = _ := names_write hat s.db id
    rw [heq] at hnames
    exact h.bound org id slot hnames

theorem Inv.bound_writes (h : Inv s) (hfound : Found s.db ⟨d, some cleared, some found⟩) :
    Bound (code.view s.db (d.writes at_ cleared found)) := by
  intro org id slot hnames
  obtain ⟨hnames, hkept⟩ := names_writes.1 hnames
  have hlive := h.bound org id slot hnames
  have hne : id ≠ d.id := by
    rintro rfl
    obtain rfl : org = d.org := org_eq_of_owns (owns_of_livePolicy hlive) hfound.owned
    have hseen := hfound.seen slot hnames
    cases slot with
    | target t =>
      refine hkept ⟨d.org, .target t, none⟩ ?_ ⟨rfl, fun hslot => by cases hslot⟩
      exact List.mem_append_left _ (List.mem_map.mpr ⟨t, overlooks_target.1 hseen, rfl⟩)
    | orgDefault =>
      obtain rfl : found = true := by simpa [Search.overlooks] using hseen
      refine hkept ⟨d.org, .orgDefault, none⟩ ?_ ⟨rfl, fun _ => rfl⟩
      exact List.mem_append_right _ (List.mem_singleton.mpr rfl)
  have hretire := livePolicy_retire hne hlive at_
  rw [writes_eq, code.view_cons]
  unfold Db.livePolicy at hretire ⊢
  rw [policies_unbinds]
  exact hretire

theorem Inv.commit (h : Inv s) {i : Nat} {x : Session Key Write Phase}
    (hx : s.sessions[i]? = some x) (hok : Unraced s (.go i))
    (hnext : code.nextOf s x = some (.commit q)) :
    Bound (code.view s.db x.pending) ∧
      ∀ (j : Nat) (y : Session Key Write Phase), s.sessions[j]? = some y →
        Sound (code.view s.db x.pending) y.phase := by
  have hpending := h.traced.pending i x hx
  obtain ⟨-, ⟨n, hp⟩ | ⟨b, hp⟩ | ⟨d, at_, cleared, found, hp⟩⟩ := next_ends hnext <;>
    rw [hp] at hpending <;> rw [hpending]
  · have hsame : ∀ org id slot, (code.view s.db (written (.createCommit n))).names org id slot =
        s.db.names org id slot := by
      intro org id slot
      cases slot <;> rfl
    refine ⟨fun org id slot hnames => ?_, fun j y hy => ?_⟩
    · rw [hsame] at hnames
      exact livePolicy_insertPolicy (h.bound org id slot hnames) _
    · refine (h.sound j y hy).view fun q _ slot hslot => ?_
      rw [hsame] at hslot
      exact .inl hslot
  · have howned := (hp ▸ h.sound i x hx).binding b rfl
    refine ⟨h.bound_binding howned fun id hid => ?_, fun j y hy => ?_⟩
    · exact livePolicy_of_owns ((hp ▸ h.sound i x hx).checked b rfl id hid) (hok x b id hx hp hid).1
    refine (h.sound j y hy).view fun q hq slot hslot => ?_
    by_cases hat : b.At q.d.org slot
    · have horg := org_eq_of_at howned hat hslot
      have hseen := (hok x b _ hx hp (names_write_at hat hslot)).2 j y hy q hq horg rfl
      rw [hat.1]
      exact .inr hseen
    · have heq : (code.view s.db [b.write]).names q.d.org q.d.id slot = _ :=
        names_write hat s.db q.d.id
      exact .inl (heq.symm.trans hslot)
  · refine ⟨h.bound_writes ((hp ▸ h.sound i x hx).search _ rfl), fun j y hy => ?_⟩
    exact (h.sound j y hy).view fun q _ slot hslot => .inl (names_writes.1 hslot).1

theorem inv_step {s' : State} {e : Event} (h : Inv s) (hok : Unraced s e)
    (heq : code.step s e = some s') : Inv s' := by
  have htraced := annotated.traced starts h.traced heq
  cases Code.stepped heq with
  | begin request =>
    refine ⟨htraced, h.bound, fun j y hy => ?_⟩
    rcases getElem?_snoc_cases hy with hy | ⟨-, rfl⟩
    · exact h.sound j y hy
    · have hquiet : request.first.Quiet := by cases request <;> exact ⟨rfl, rfl, rfl⟩
      exact hquiet.sound s.db
  | run hx hnext hfree =>
    refine ⟨htraced, h.bound, forall_put (P := fun x => Sound s.db x.phase) ?_ h.sound⟩
    have hnext' := hnext
    unfold Code.nextOf at hnext'
    rw [h.traced.pending _ _ hx] at hnext'
    exact (h.sound _ _ hx).run hnext'
  | commit hx hnext =>
    obtain ⟨hbound, hsound⟩ := h.commit hx hok hnext
    exact ⟨htraced, hbound, forall_put ((next_ends hnext).1.sound _) hsound⟩
  | rollback hx hnext =>
    exact ⟨htraced, h.bound, forall_put (Phase.Quiet.sound (next_ends hnext) _) h.sound⟩
  | abort hx hnext =>
    exact ⟨htraced, h.bound, forall_put (Phase.Quiet.sound ⟨rfl, rfl, rfl⟩ _) h.sound⟩
  | outer elapsed =>
    refine ⟨htraced, h.bound, fun j y hy => ?_⟩
    obtain ⟨hsearch, hbinding, hchecked⟩ := h.sound j y hy
    exact ⟨fun q hq => ⟨(hsearch q hq).owned, (hsearch q hq).seen⟩, hbinding, hchecked⟩

theorem resolveForTarget_eq {db : Db} (h : Bound db) {t : Monitor} {o : Organization}
    (ht : db.targets.get? t.id = some t) (ho : db.organizations.get? t.orgId = some o) :
    db.resolveForTarget t.orgId t.id = t.escalationPolicyId.or o.defaultEscalationPolicyId := by
  have hlive : ∀ id, t.escalationPolicyId.or o.defaultEscalationPolicyId = some id →
      db.livePolicy t.orgId id = true := by
    intro id hid
    cases hown : t.escalationPolicyId with
    | some id' =>
      rw [hown] at hid
      refine h t.orgId id (.target t.id) ((Option.any_eq_true _ _).mpr ⟨t, ht, ?_⟩)
      simpa [hown] using hid
    | none =>
      rw [hown] at hid
      refine h t.orgId id .orgDefault ((Option.any_eq_true _ _).mpr ⟨o, ho, ?_⟩)
      simpa using hid
  unfold Db.resolveForTarget
  rw [ht, Option.filter_some, if_pos (beq_self_eq_true t.orgId), Option.bind_some, ho,
    Option.bind_some]
  cases hid : t.escalationPolicyId.or o.defaultEscalationPolicyId with
  | none => rfl
  | some id =>
    obtain ⟨p, hp, hlive⟩ := (Option.any_eq_true _ _).mp (hlive id hid)
    rw [Option.bind_some, hp, Option.filter_some, if_pos (Bool.and_eq_true_iff.mp hlive).2,
      Option.map_some, (Rows.get?_eq_some.1 hp).2]

/-- **A monitor never falls through a deleted policy** in a run in which no reference is committed
behind the back of a delete. -/
theorem never_falls_through (db : Db) (s : State) (hdb : Bound db)
    (h : Run code.step Unraced ⟨db, []⟩ s) :
    Bound s.db ∧ ∀ t ∈ s.db.targets.rows, ∀ o ∈ s.db.organizations.rows, o.id = t.orgId →
      s.db.resolveForTarget t.orgId t.id =
        t.escalationPolicyId.or o.defaultEscalationPolicyId := by
  have hinv := h.invariant (inv_init hdb) fun _ _ _ hi hok hstep => inv_step hi hok hstep
  refine ⟨hinv.bound, fun t ht o ho horg => ?_⟩
  exact resolveForTarget_eq hinv.bound (Rows.get?_eq_some.2 ⟨ht, rfl⟩)
    (Rows.get?_eq_some.2 ⟨ho, horg⟩)

/-- The guard of a step, evaluated. -/
def unraced (s : State) : Event → Bool
  | .go i =>
    match s.sessions[i]? with
    | some ⟨.bindCommit b, _, _⟩ => b.policyId.all fun id =>
      !s.db.retired id && s.sessions.all fun y => y.phase.search.all fun q =>
        !(q.d.org == b.org) || !(q.d.id == id) || !q.overlooks b.slot
    | _ => true
  | _ => true

theorem unraced_of (s : State) (e : Event) (h : unraced s e = true) : Unraced s e := by
  cases e with
  | go i =>
    rintro ⟨p, held, pending⟩ b id hx rfl hid
    simp only [unraced, hx, hid, Option.all_some, Bool.and_eq_true,
      Bool.not_eq_true'] at h
    refine ⟨h.1, fun j y hy q hq horg hqid => ?_⟩
    have hall := List.all_eq_true.mp h.2 y (List.mem_of_getElem? hy)
    rw [Option.mem_def.mp hq, Option.all_some] at hall
    simpa [horg, hqid] using hall
  | _ => trivial

theorem bound_of_rows {db : Db}
    (ht : ∀ t ∈ db.targets.rows, t.escalationPolicyId.all (db.livePolicy t.orgId) = true)
    (ho : ∀ o ∈ db.organizations.rows,
      o.defaultEscalationPolicyId.all (db.livePolicy o.id) = true) : Bound db := by
  intro org id slot h
  cases slot with
  | target t =>
    obtain ⟨r, hr, h⟩ := (Option.any_eq_true _ _).mp h
    obtain ⟨horg, hid⟩ := Bool.and_eq_true_iff.mp h
    have hall := ht r (Rows.get?_eq_some.1 hr).1
    rw [beq_iff_eq.mp hid, Option.all_some, beq_iff_eq.mp horg] at hall
    exact hall
  | orgDefault =>
    obtain ⟨r, hr, hid⟩ := (Option.any_eq_true _ _).mp h
    obtain ⟨hmem, rfl⟩ := Rows.get?_eq_some.1 hr
    have hall := ho r hmem
    rw [beq_iff_eq.mp hid, Option.all_some] at hall
    exact hall

namespace One

def policy (id : Uuid) : Policy := ⟨id, 1, "primary", none⟩

def db : Db where
  now := 0
  policies := ⟨[policy 11, { policy 12 with name := "default" }], by decide⟩
  targets := ⟨[⟨7, 1, none⟩], by decide⟩
  organizations := ⟨[⟨1, 5, none, some 12⟩], by decide⟩

theorem bound_db : Bound db := bound_of_rows (by decide) (by decide)

def bind : Event := .begin (.bind ⟨1, .target 7, some 11⟩)

def delete : Event := .begin (.delete ⟨1, 11⟩)

def goes (i n : Nat) : List Event := List.replicate n (.go i)

/-- The target is bound to the policy, and the policy deleted. -/
def inTurn : List Event := bind :: goes 0 4 ++ delete :: goes 1 7

/-- The delete is through with its two searches when the setter starts. -/
def late : List Event := delete :: goes 0 5 ++ bind :: goes 1 4 ++ goes 0 1

/-- No transaction is open, and the target resolves to this. -/
def settled (s : State) (policy : Option Uuid) : Bool :=
  (s.sessions.all fun x => match x.phase with
    | .returned _ => true
    | _ => false) && s.db.resolveForTarget 1 7 == policy

end One

theorem never_falls_through_inTurn : ∃ s : State, One.settled s (some 12) = true ∧ Bound s.db := by
  have h : (steps (guarded code.step unraced) ⟨One.db, []⟩ One.inTurn).any
      (fun s => One.settled s (some 12)) = true := by
    decide +kernel
  obtain ⟨s, hrun, hs⟩ := exists_run_of_steps h
  exact ⟨s, hs, (never_falls_through One.db s One.bound_db (hrun.unguard unraced_of)).1⟩

/-- The target keeps the policy that was deleted, and resolves to none at all, with a live default
set. -/
theorem deleted_policy_stays_bound : ∃ s : State,
    Bound One.db ∧ Run code.step (fun _ _ => True) ⟨One.db, []⟩ s ∧ One.settled s none = true ∧
      s.db.bound 1 11 7 = true ∧ s.db.livePolicy 1 11 = false ∧ s.db.isDefault 1 12 = true ∧
      s.db.livePolicy 1 12 = true := by
  have h : (steps code.step ⟨One.db, []⟩ One.late).any (fun s => One.settled s none &&
      (s.db.bound 1 11 7 && (!s.db.livePolicy 1 11 && (s.db.isDefault 1 12 &&
        s.db.livePolicy 1 12)))) = true := by
    decide +kernel
  obtain ⟨s, hrun, hs⟩ := exists_run_of_steps h
  simp only [Bool.and_eq_true, Bool.not_eq_true'] at hs
  exact ⟨s, One.bound_db, hrun, hs⟩

end Uptimepage.Policies

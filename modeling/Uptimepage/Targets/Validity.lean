import Uptimepage.Async.Run
import Uptimepage.Targets.Handlers

/-!
# Whether an edit keeps a target valid

Every request validates a whole target or the merge of a PATCH with the stored row, so a
target that passed `validateNewTarget` should pass it after any number of edits.  The one gap
is in the width of a number: an interval is compared as 64 bits and stored as 32.
-/

namespace Uptimepage.Targets

/-! ## Stored numbers -/

theorem asI32_lt (n : Nat) : asI32 n < 2147483648 := by
  rw [asI32_eq]
  have := Int.bmod_lt (x := n) (m := 4294967296) (by decide)
  omega

variable {n interval : Nat}

theorem asI32_of_nonneg (hn : n < 4294967296) (h : 0 ≤ asI32 n) : asI32 n = n := by
  rw [asI32_eq, Int.bmod_def] at h ⊢
  split at h <;> split <;> omega

theorem asI64_of_lt (h : n < 2147483648) : asI64 n = n := by
  rw [asI64_eq, Int.bmod_eq_of_le] <;> omega

/-- A stored target that `validateNewTarget` accepts, field by field. -/
structure ValidRow (env : CheckEnv) (plan : Plan) (r : TargetRow) : Prop where
  floor : effectiveFloor plan r.check.kind ≤ r.intervalSecs
  fits : r.intervalSecs < 2147483648
  check : validateCheck env r.check = .ok ()
  cadence : validateHeartbeatCadence r.check r.interval = .ok ()
  tags : normalizeTags r.tags = .ok r.tags
  alerts : validateAlerts r.alerts = .ok ()
  confirmations : 1 ≤ r.alertConfirmations ∧ r.alertConfirmations < 2147483648
  renotify : (r.renotifyIntervalSecs = 0 ∨ 60 ≤ r.renotifyIntervalSecs) ∧
    r.renotifyIntervalSecs < 2147483648
  group : validateGroupName r.groupName = .ok ()

theorem ten_le_effectiveFloor (plan : Plan) (kind : String) : 10 ≤ effectiveFloor plan kind := by
  refine le_trans ?_ (le_max_right _ _)
  unfold minIntervalSecsForKind
  split <;> decide

variable {env : CheckEnv} {r : TargetRow}

theorem ValidRow.interval_eq {plan : Plan} (h : ValidRow env plan r) :
    (r.interval : Int) = r.intervalSecs := by
  have hten := ten_le_effectiveFloor plan r.check.kind
  have hfloor := h.floor
  unfold TargetRow.interval
  omega

theorem ValidRow.asI64_interval {plan : Plan} (h : ValidRow env plan r) :
    asI64 r.interval = r.intervalSecs := by
  have heq := h.interval_eq
  have hfits := h.fits
  rw [asI64_of_lt (by omega), heq]

theorem ValidRow.validates {plan : Plan} (h : ValidRow env plan r) :
    validateNewTarget env plan r.asNew = .ok r.asNew := by
  refine validateNewTarget_eq_ok.2 ⟨r.tags, ⟨?_, h.check, h.cadence, h.tags, h.alerts, ?_, ?_,
    h.group⟩, rfl⟩
  · have hinterval := h.asI64_interval
    unfold TargetRow.asNew
    rw [hinterval]
    exact h.floor
  · obtain ⟨hlow, hhigh⟩ := h.confirmations
    simp only [validateAlertConfirmations, refuseIf_eq_ok, TargetRow.asNew, beq_eq_false_iff_ne,
      ne_eq, Option.some.injEq]
    intro hzero
    have htoNat := congrArg UInt32.toNat hzero
    rw [UInt32.toNat_ofNat_of_lt' (by simp only [UInt32.size]; omega)] at htoNat
    have : (0 : UInt32).toNat = 0 := rfl
    omega
  · obtain ⟨hrange, hhigh⟩ := h.renotify
    simp only [validateRenotifyInterval, refuseIf_eq_ok, TargetRow.asNew, Option.any_some,
      Bool.and_eq_false_iff, decide_eq_false_iff_not]
    rw [UInt32.toNat_ofNat_of_lt' (by simp only [UInt32.size]; omega)]
    omega

/-- **What is accepted is accepted again as it was stored**, with its tags in their normal form. -/
theorem validateNewTarget_again {env : CheckEnv} {plan : Plan} {new vetted : NewTarget}
    (h : validateNewTarget env plan new = .ok vetted) :
    validateNewTarget env plan vetted = .ok vetted := by
  obtain ⟨tags, hvalid, rfl⟩ := validateNewTarget_eq_ok.mp h
  exact validateNewTarget_eq_ok.mpr ⟨tags, ⟨hvalid.floor, hvalid.check, hvalid.cadence,
    normalizeTags_normalized hvalid.tags, hvalid.alerts, hvalid.confirmations, hvalid.renotify,
    hvalid.group⟩, rfl⟩

/-! ## A new row -/

/-- An interval that reaches the floor as it is compared also does as it is stored, if the
column takes it at all. -/
def keepsFloor (plan : Plan) (kind : String) (interval : Nat) : Bool :=
  decide (asI64 interval < effectiveFloor plan kind) || decide (asI32 interval < 10) ||
    decide (effectiveFloor plan kind ≤ asI32 interval)

theorem keepsFloor_stored {plan : Plan} {kind : String} (h : keepsFloor plan kind interval = true)
    (hfloor : effectiveFloor plan kind ≤ asI64 interval) (hcolumn : 10 ≤ asI32 interval) :
    effectiveFloor plan kind ≤ asI32 interval := by
  simp only [keepsFloor, Bool.or_eq_true, decide_eq_true_eq] at h
  omega

theorem satisfiesChecks_iff : r.satisfiesChecks = true ↔
    10 ≤ r.intervalSecs ∧ 1 ≤ r.alertConfirmations ∧ 0 ≤ r.renotifyIntervalSecs := by
  simp [TargetRow.satisfiesChecks, and_assoc]

variable {check : CheckSpec} {new vetted : NewTarget} {org : OrgId}

theorem cadence_stored (h : validateHeartbeatCadence check interval = .ok ()) :
    validateHeartbeatCadence check (max (asI32 interval) 0).toNat = .ok () := by
  refine validateHeartbeatCadence_mono ?_ h
  have := asI32_le interval
  omega

theorem renotify_stored {n : UInt32} (h : validateRenotifyInterval (some n) = .ok ())
    (hcolumn : 0 ≤ asI32 n.toNat) :
    (asI32 n.toNat = 0 ∨ 60 ≤ asI32 n.toNat) ∧ asI32 n.toNat < 2147483648 := by
  refine ⟨?_, asI32_lt _⟩
  rw [asI32_of_nonneg n.toNat_lt hcolumn]
  simp only [validateRenotifyInterval, refuseIf_eq_ok, Option.any_some, Bool.and_eq_false_iff,
    decide_eq_false_iff_not] at h
  omega

theorem ValidTarget.row {plan : Plan} {tags : List String} {id : Uuid}
    {policy : RegionIncidentPolicy} (h : ValidTarget env plan new tags)
    (hkeep : keepsFloor plan new.check.kind new.interval = true)
    (hchecks : (Inventory.rowOf id org { new with tags := tags } policy).satisfiesChecks = true) :
    ValidRow env plan (Inventory.rowOf id org { new with tags := tags } policy) := by
  obtain ⟨hten, hone, hzero⟩ := satisfiesChecks_iff.1 hchecks
  simp only [Inventory.rowOf] at hten hone hzero ⊢
  constructor <;> dsimp only [TargetRow.interval]
  · exact keepsFloor_stored hkeep h.floor hten
  · exact asI32_lt _
  · exact h.check
  · exact cadence_stored h.cadence
  · exact normalizeTags_normalized h.tags
  · exact h.alerts
  · exact ⟨hone, asI32_lt _⟩
  · exact renotify_stored h.renotify hzero
  · exact h.group

/-! ## A patched row -/

/-- What a PATCH holds of the fields it gives once it is vetted. -/
structure VettedUpdate (env : CheckEnv) (upd : TargetUpdate) : Prop where
  check : ∀ check, upd.check = some check → validateCheck env check = .ok ()
  tags : ∀ tags, upd.tags = some tags → normalizeTags tags = .ok tags
  alerts : ∀ alerts, upd.alerts = some alerts → validateAlerts alerts = .ok ()
  confirmations : validateAlertConfirmations upd.alertConfirmations = .ok ()
  renotify : validateRenotifyInterval upd.renotifyIntervalSecs = .ok ()
  group : validateGroupName (upd.groupName.getD none) = .ok ()

/-- The interval and the check of a PATCH, each from the row where it is left out, agree. -/
structure AgreesWith (plan : Plan) (r : TargetRow) (upd : TargetUpdate) : Prop where
  floor : effectiveFloor plan (upd.check.getD r.check).kind ≤
    (upd.interval.map asI64).getD r.intervalSecs
  cadence : validateHeartbeatCadence (upd.check.getD r.check)
    (max ((upd.interval.map asI64).getD r.intervalSecs) 0).toNat = .ok ()

theorem asI32_le_asI64 (h : 0 ≤ asI64 n) : asI32 n ≤ asI64 n := by
  rw [asI64_eq, Int.bmod_def] at h ⊢
  rw [asI32_eq, Int.bmod_def]
  split at h <;> split <;> omega

variable {upd : TargetUpdate}

theorem AgreesWith.stored {plan : Plan} (h : AgreesWith plan r upd) (hr : ValidRow env plan r)
    (hkeep : ∀ i, upd.interval = some i → keepsFloor plan (upd.check.getD r.check).kind i = true)
    (hten : 10 ≤ (upd.interval.map asI32).getD r.intervalSecs) :
    effectiveFloor plan (upd.check.getD r.check).kind ≤
      (upd.interval.map asI32).getD r.intervalSecs ∧
    (upd.interval.map asI32).getD r.intervalSecs < 2147483648 ∧
    validateHeartbeatCadence (upd.check.getD r.check)
      (max ((upd.interval.map asI32).getD r.intervalSecs) 0).toNat = .ok () := by
  have hfloor := h.floor
  have hcadence := h.cadence
  cases hi : upd.interval with
  | none =>
    rw [hi, Option.map_none, Option.getD_none] at hfloor hcadence
    rw [Option.map_none, Option.getD_none]
    exact ⟨hfloor, hr.fits, hcadence⟩
  | some i =>
    rw [hi, Option.map_some, Option.getD_some] at hfloor hcadence hten
    rw [Option.map_some, Option.getD_some]
    have hpositive := ten_le_effectiveFloor plan (upd.check.getD r.check).kind
    refine ⟨keepsFloor_stored (hkeep i hi) hfloor hten, asI32_lt i, ?_⟩
    refine validateHeartbeatCadence_mono ?_ hcadence
    have := asI32_le_asI64 (n := i) (by omega)
    omega

theorem ValidRow.patch {plan : Plan} (hr : ValidRow env plan r) (hupd : VettedUpdate env upd)
    (hagree : AgreesWith plan r upd)
    (hkeep : ∀ i, upd.interval = some i → keepsFloor plan (upd.check.getD r.check).kind i = true)
    (hchecks : (r.patch upd).satisfiesChecks = true) : ValidRow env plan (r.patch upd) := by
  obtain ⟨hten, hone, hzero⟩ := satisfiesChecks_iff.1 hchecks
  simp only [TargetRow.patch] at hten hone hzero ⊢
  obtain ⟨hfloor, hfits, hcadence⟩ := hagree.stored hr hkeep hten
  constructor <;> dsimp only [TargetRow.interval]
  · exact hfloor
  · exact hfits
  · cases hc : upd.check with
    | none => exact hr.check
    | some check => exact hupd.check check hc
  · exact hcadence
  · cases ht : upd.tags with
    | none => exact hr.tags
    | some tags => exact hupd.tags tags ht
  · cases ha : upd.alerts with
    | none => exact hr.alerts
    | some alerts => exact hupd.alerts alerts ha
  · refine ⟨hone, ?_⟩
    cases upd.alertConfirmations with
    | none => exact hr.confirmations.2
    | some n =>
      rw [Option.map_some, Option.getD_some]
      exact asI32_lt _
  · have hrenotify := hupd.renotify
    cases hn : upd.renotifyIntervalSecs with
    | none => exact hr.renotify
    | some n =>
      rw [hn, Option.map_some, Option.getD_some] at hzero
      rw [Option.map_some, Option.getD_some]
      rw [hn] at hrenotify
      exact renotify_stored hrenotify hzero
  · have hgroup := hupd.group
    cases hg : upd.groupName with
    | none => exact hr.group
    | some group =>
      rw [hg] at hgroup
      exact hgroup

/-! ## What vetting establishes -/

theorem canonicalizeCheck_kind {canonical : CheckSpec}
    (h : canonicalizeCheck env check = .ok canonical) : canonical.kind = check.kind := by
  cases check with
  | http c => cases h; rfl
  | heartbeat c => cases h; rfl
  | flow c => cases h; rfl
  | tcp c => obtain ⟨_, _, ⟨⟩⟩ := bind_eq_ok.1 h; rfl
  | ping c => obtain ⟨_, _, ⟨⟩⟩ := bind_eq_ok.1 h; rfl
  | tlsCert c => obtain ⟨_, _, ⟨⟩⟩ := bind_eq_ok.1 h; rfl
  | domainExpiry c => obtain ⟨_, _, ⟨⟩⟩ := bind_eq_ok.1 h; rfl
  | dns c => obtain ⟨_, _, ⟨⟩⟩ := bind_eq_ok.1 h; rfl

theorem mergeStored_kind (check : CheckSpec) (stored : Option TargetRow) :
    (mergeStored check stored).kind = check.kind := by
  cases check with
  | http c =>
    unfold mergeStored
    dsimp only
    split
    · split <;> rfl
    · rfl
  | flow c =>
    unfold mergeStored
    dsimp only
    split <;> rfl
  | _ => rfl

/-- `vetted` is `new` with its host canonical and its tags normal, and is valid. -/
def Vetted (env : CheckEnv) (plan : Plan) (new vetted : NewTarget) : Prop :=
  ∃ check tags, check.kind = new.check.kind ∧
    ValidTarget env plan { new with check := check } tags ∧
    vetted = { new with check := check, tags := tags }

theorem Vetted.of_validated {plan : Plan} (hkind : check.kind = new.check.kind)
    (h : validateNewTarget env plan { new with check := check } = .ok vetted) :
    Vetted env plan new vetted := by
  obtain ⟨tags, hvalid, rfl⟩ := validateNewTarget_eq_ok.1 h
  exact ⟨check, tags, hkind, hvalid, rfl⟩

theorem Vetted.row {plan : Plan} {id : Uuid} {policy : RegionIncidentPolicy}
    (h : Vetted env plan new vetted) (hkeep : keepsFloor plan new.check.kind new.interval = true)
    (hchecks : (Inventory.rowOf id org vetted policy).satisfiesChecks = true) :
    ValidRow env plan (Inventory.rowOf id org vetted policy) := by
  obtain ⟨check, tags, hkind, hvalid, rfl⟩ := h
  rw [← hkind] at hkeep
  exact hvalid.row hkeep hchecks

variable {cfg : Config} {w : World} {inv inv' next : Inventory} {items : List NewTarget}
  {α : Type}

theorem vetNewTarget_vetted (h : vetNewTarget cfg w inv org new = .ok vetted) :
    Vetted cfg.check (w.plan org) new vetted := by
  obtain ⟨check, hcanonical, h⟩ := bind_eq_ok.1 h
  obtain ⟨valid, hvalid, h⟩ := bind_eq_ok.1 h
  simp only [seq_eq_ok] at h
  obtain ⟨-, -, -, -, ⟨⟩⟩ := h
  exact .of_validated (canonicalizeCheck_kind hcanonical) hvalid

theorem vetItem_vetted (h : vetItem cfg w org new = .ok vetted) :
    Vetted cfg.check (w.plan org) new vetted := by
  obtain ⟨check, hcanonical, h⟩ := bind_eq_ok.1 h
  obtain ⟨-, h⟩ := seq_eq_ok.1 h
  obtain ⟨valid, hvalid, h⟩ := bind_eq_ok.1 h
  simp only [seq_eq_ok] at h
  obtain ⟨-, -, -, -, ⟨⟩⟩ := h
  exact .of_validated (canonicalizeCheck_kind hcanonical) hvalid

theorem vetItems_vetted {vetted : List NewTarget} (h : vetItems cfg w org items = .ok vetted) :
    List.Forall₂ (Vetted cfg.check (w.plan org)) items vetted := by
  induction items generalizing vetted with
  | nil =>
    cases h
    exact .nil
  | cons new rest ih =>
    obtain ⟨first, hfirst, h⟩ := bind_eq_ok.1 h
    obtain ⟨others, hothers, ⟨⟩⟩ := bind_eq_ok.1 h
    exact .cons (vetItem_vetted hfirst) (ih hothers)

theorem vetCreate_vetted {regions : List String}
    (h : vetCreate cfg w inv org new = .ok (vetted, regions)) :
    Vetted cfg.check (w.plan org) new vetted := by
  obtain ⟨check, hcanonical, hresult, -⟩ := vetCreate_ok h
  obtain ⟨check', tags, hkind, hvalid, rfl⟩ := vetNewTarget_vetted hresult
  exact ⟨check', tags, hkind.trans (canonicalizeCheck_kind hcanonical), hvalid, rfl⟩

theorem onSome_eq_ok {x : Option α} {f : α → Except AppError α} {y : Option α} :
    onSome x f = .ok y ↔
      (x = none ∧ y = none) ∨ ∃ a b, x = some a ∧ f a = .ok b ∧ y = some b := by
  cases x with
  | none =>
    constructor
    · intro h
      cases h
      exact .inl ⟨rfl, rfl⟩
    · rintro (⟨-, rfl⟩ | ⟨a, b, hx, -, -⟩)
      · rfl
      · cases hx
  | some a =>
    constructor
    · intro h
      obtain ⟨b, hb, ⟨⟩⟩ := bind_eq_ok.1 h
      exact .inr ⟨a, b, rfl, hb, rfl⟩
    · rintro (⟨hx, -⟩ | ⟨a', b, hx, hb, rfl⟩)
      · cases hx
      · cases hx
        exact bind_eq_ok.2 ⟨b, hb, rfl⟩

theorem onSome_some {x : Option α} {f : α → Except AppError α} {b : α}
    (h : onSome x f = .ok (some b)) : ∃ a, x = some a ∧ f a = .ok b := by
  rcases onSome_eq_ok.1 h with ⟨-, hb⟩ | ⟨a, b', hx, hf, ⟨⟩⟩
  · cases hb
  · exact ⟨a, hx, hf⟩

theorem vetUpdateCheck_ok {id : Uuid} {merged : CheckSpec}
    (h : vetUpdateCheck cfg w inv org id check = .ok merged) :
    validateCheck cfg.check merged = .ok () ∧ merged.kind = check.kind := by
  obtain ⟨canonical, hcanonical, h⟩ := bind_eq_ok.1 h
  simp only [seq_eq_ok] at h
  obtain ⟨hvalid, -, -, h⟩ := h
  have hmerged : mergeStored canonical (inv.get org id) = merged := by
    split at h
    · simp only [seq_eq_ok] at h
      exact Except.ok.inj h.2.2
    · exact Except.ok.inj h
  rw [← hmerged]
  exact ⟨hvalid, (mergeStored_kind _ _).trans (canonicalizeCheck_kind hcanonical)⟩

/-- What `vetUpdate` hands to the store. -/
structure UpdateVetted (cfg : Config) (w : World) (inv : Inventory) (org : OrgId) (id : Uuid)
    (upd vetted : TargetUpdate) : Prop where
  fields : VettedUpdate cfg.check vetted
  interval : vetted.interval = upd.interval
  kind : vetted.check.map CheckSpec.kind = upd.check.map CheckSpec.kind
  merged : ∃ prefetched, (prefetched = none ∨ prefetched = inv.get org id) ∧
    validatePatchInterval w inv org id vetted prefetched = .ok ()

theorem vetUpdate_vetted {id : Uuid} {vetted : TargetUpdate}
    (h : vetUpdate cfg w inv org id upd = .ok vetted) :
    UpdateVetted cfg w inv org id upd vetted := by
  obtain ⟨check, hcheck, h⟩ := bind_eq_ok.1 h
  obtain ⟨alerts, halerts, h⟩ := bind_eq_ok.1 h
  obtain ⟨tags, htags, h⟩ := bind_eq_ok.1 h
  simp only [seq_eq_ok] at h
  obtain ⟨hconfirm, hrenotify, -, hgroup, -, hinterval, ⟨⟩⟩ := h
  refine ⟨⟨?_, ?_, ?_, hconfirm, hrenotify, hgroup⟩, rfl, ?_, ?_⟩
  · rintro c rfl
    obtain ⟨a, -, ha⟩ := onSome_some hcheck
    exact (vetUpdateCheck_ok ha).1
  · rintro t rfl
    obtain ⟨a, -, ha⟩ := onSome_some htags
    exact normalizeTags_normalized ha
  · rintro bound rfl
    obtain ⟨a, -, ha⟩ := onSome_some halerts
    simp only [seq_eq_ok] at ha
    obtain ⟨hvalid, -, ⟨⟩⟩ := ha
    exact hvalid
  · rcases onSome_eq_ok.1 hcheck with ⟨hnone, rfl⟩ | ⟨a, b, hsome, hb, rfl⟩
    · rw [hnone]
    · rw [hsome, Option.map_some, Option.map_some, (vetUpdateCheck_ok hb).2]
  · refine ⟨_, ?_, hinterval⟩
    split
    · exact .inr rfl
    · exact .inl rfl

theorem AgreesWith.of_judged {plan : Plan} {requested : Int} {error : AppError}
    (hrequested : (upd.interval.map asI64).getD r.intervalSecs = requested)
    (hcheck : upd.check.getD r.check = check) (h : (do
      refuseIf (decide (requested < plan.minCheckIntervalSecs) ||
        decide (requested < minIntervalSecsForKind check.kind)) error
      validateHeartbeatCadence check (max requested 0).toNat) = .ok ()) :
    AgreesWith plan r upd := by
  obtain ⟨hfloor, hcadence⟩ := seq_eq_ok.1 h
  simp only [refuseIf_eq_ok, Bool.or_eq_false_iff, decide_eq_false_iff_not, Int.not_lt] at hfloor
  refine ⟨?_, ?_⟩
  · rw [hrequested, hcheck]
    exact max_le hfloor.1 hfloor.2
  · rw [hrequested, hcheck]
    exact hcadence

theorem agreesWith_of_vetted {id : Uuid} {prefetched : Option TargetRow}
    (hget : inv.get org id = some r) (hr : ValidRow env (w.plan org) r)
    (hfetch : prefetched = none ∨ prefetched = inv.get org id)
    (h : validatePatchInterval w inv org id upd prefetched = .ok ()) :
    AgreesWith (w.plan org) r upd := by
  have hrow : prefetched.or (some r) = some r := by
    rcases hfetch with rfl | rfl
    · rfl
    · rw [hget]; rfl
  have hread := hr.asI64_interval
  cases hi : upd.interval with
  | none =>
    cases hc : upd.check with
    | none =>
      refine ⟨?_, ?_⟩
      · rw [hi, hc, Option.map_none, Option.getD_none]
        exact hr.floor
      · rw [hi, hc, Option.map_none, Option.getD_none]
        exact hr.cadence
    | some check =>
      simp [validatePatchInterval, hi, hc, hget, hrow, hread] at h
      exact .of_judged (by rw [hi, Option.map_none, Option.getD_none]) (by rw [hc]; rfl) h
  | some i =>
    cases hc : upd.check with
    | none =>
      simp [validatePatchInterval, hi, hc, hget, hrow] at h
      exact .of_judged (by rw [hi, Option.map_some, Option.getD_some]) (by rw [hc]; rfl) h
    | some check =>
      simp [validatePatchInterval, hi, hc] at h
      exact .of_judged (by rw [hi, Option.map_some, Option.getD_some]) (by rw [hc]; rfl) h

/-! ## Whole runs -/

/-- The rows of the table are told apart by their ids, and each is valid. -/
structure Sound (env : CheckEnv) (plan : OrgId → Plan) (inv : Inventory) : Prop where
  keyed : inv.Keyed
  valid : ∀ r ∈ inv.rows, ValidRow env (plan r.orgId) r

theorem sound_start (env : CheckEnv) (plan : OrgId → Plan) : Sound env plan .start :=
  ⟨Inventory.keyed_start, by simp [Inventory.start]⟩

theorem Sound.insert {plan : OrgId → Plan} (h : Sound env plan inv) {account : OrgId → Uuid}
    {defaultRegion : String} {vetted : List NewTarget} {policy : NewTarget → RegionIncidentPolicy}
    {maxTargets maxFlowChecks : Int} {rows : List TargetRow}
    (hvetted : List.Forall₂ (Vetted env (plan org)) items vetted)
    (hkeep : ∀ new ∈ items, keepsFloor (plan org) new.check.kind new.interval = true)
    (heq : inv.insertAll account defaultRegion org vetted policy maxTargets maxFlowChecks =
      .ok (inv', rows)) : Sound env plan inv' := by
  obtain ⟨hrows, hchecks, rfl⟩ := Inventory.insertAll_ok heq
  refine ⟨hrows ▸ h.keyed.insertRows, ?_⟩
  intro r hr
  rcases List.mem_append.mp hr with hr | hr
  · exact h.valid r hr
  · have hcheck := hchecks r hr
    rw [hrows] at hr
    obtain ⟨i, hi, rfl⟩ := List.mem_mapIdx.mp hr
    have hlen := hvetted.length_eq
    have hi' : i < items.length := by omega
    have hpair := List.Forall₂.get hvetted hi' hi
    exact hpair.row (hkeep _ (List.get_mem items ⟨i, hi'⟩)) hcheck

theorem Sound.update {plan : OrgId → Plan} (h : Sound env plan inv) {id : Uuid}
    {row : Option TargetRow} (heq : inv.update org id upd = .ok (inv', row))
    (hpatch : ∀ r, inv.get org id = some r → (r.patch upd).satisfiesChecks = true →
      ValidRow env (plan org) (r.patch upd)) : Sound env plan inv' := by
  refine ⟨h.keyed.update heq, ?_⟩
  rcases Inventory.update_ok heq with ⟨-, rfl, -⟩ | ⟨r, hget, hchecks, -, rfl⟩
  · exact h.valid
  · intro r' hr'
    rcases Table.mem_update hr' with hr' | ⟨r₀, hr₀, hmatch, rfl⟩
    · exact h.valid r' hr'
    · simp only [Bool.and_eq_true, beq_iff_eq] at hmatch
      obtain rfl := h.keyed.get_unique hget hr₀ hmatch.1
      have horg : (r₀.patch upd).orgId = org := hmatch.2
      rw [horg]
      exact hpatch r₀ hget hchecks

theorem ValidRow.policy {plan : Plan} (h : ValidRow env plan r) (policy : RegionIncidentPolicy) :
    ValidRow env plan (r.patch (.ofPolicy policy)) :=
  ⟨h.floor, h.fits, h.check, h.cadence, h.tags, h.alerts, h.confirmations, h.renotify, h.group⟩

theorem Sound.followUp {plan : OrgId → Plan} (h : Sound env plan inv) (org : OrgId)
    (write : FollowUp) : Sound env plan (inv.followUp org write) := by
  cases write with
  | regions id regions =>
    refine ⟨h.keyed.setTargetRegions, ?_⟩
    intro r hr
    rw [Inventory.followUp, Inventory.setTargetRegions_rows] at hr
    exact h.valid r hr
  | policy id policy =>
    unfold Inventory.followUp
    dsimp only
    split
    · next inv' row heq =>
      refine h.update heq ?_
      intro r hget _
      obtain ⟨hr, -, horg⟩ := Inventory.get_some hget
      rw [← horg]
      exact (h.valid r hr).policy policy
    · exact h

theorem Sound.followUps {plan : OrgId → Plan} (h : Sound env plan inv) (org : OrgId)
    (writes : List FollowUp) (landed : Option Nat) :
    Sound env plan (inv.followUps org writes landed) := by
  unfold Inventory.followUps
  induction writes.take (landed.getD writes.length) generalizing inv with
  | nil => exact h
  | cons write rest ih => exact ih (h.followUp org write)

/-- The intervals that a request gives keep their floor when they are stored; those of a PATCH
are held against the kind the row will have. -/
def keepsIntervals (plan : OrgId → Plan) (inv : Inventory) : Request → Bool
  | .create org new _ => keepsFloor (plan org) new.check.kind new.interval
  | .bulkCreate org items _ =>
    items.all fun new => keepsFloor (plan org) new.check.kind new.interval
  | .update org id upd =>
    (inv.get org id).all fun r =>
      upd.interval.all fun i => keepsFloor (plan org) (upd.check.getD r.check).kind i
  | .setTargetRegions _ _ _ => true

/-- The plans are unchanged, and no interval loses its floor to the column. -/
def Kept (plan : OrgId → Plan) (inv : Inventory) (call : World × Request) : Prop :=
  call.1.plan = plan ∧ keepsIntervals plan inv call.2 = true

variable {landed : Option Nat}

theorem Sound.create {plan : OrgId → Plan} (h : Sound cfg.check plan inv) (hplan : w.plan = plan)
    (hkeep : keepsIntervals plan inv (.create org new landed) = true)
    (heq : handleCreate cfg w inv org new landed = .ok next) : Sound cfg.check plan next := by
  obtain ⟨⟨vetted, regions⟩, hvet, heq⟩ := bind_eq_ok.1 heq
  obtain ⟨⟨created, rows⟩, hcreate, ⟨⟩⟩ := bind_eq_ok.1 heq
  subst hplan
  have hpair := List.Forall₂.cons (vetCreate_vetted hvet) .nil
  refine (h.insert hpair ?_ hcreate).followUps _ _ _
  intro n hn
  rw [List.mem_singleton.mp hn]
  exact hkeep

theorem Sound.bulkCreate {plan : OrgId → Plan} (h : Sound cfg.check plan inv)
    (hplan : w.plan = plan)
    (hkeep : keepsIntervals plan inv (.bulkCreate org items landed) = true)
    (heq : handleBulkCreate cfg w inv org items landed = .ok next) : Sound cfg.check plan next := by
  obtain ⟨⟨vetted, regions⟩, hvet, heq⟩ := bind_eq_ok.1 heq
  obtain ⟨⟨created, rows⟩, hcreate, ⟨⟩⟩ := bind_eq_ok.1 heq
  subst hplan
  exact (h.insert (vetItems_vetted (vetBulk_ok hvet).1) (List.all_eq_true.mp hkeep) hcreate).followUps _ _ _

theorem Sound.patched {plan : OrgId → Plan} (h : Sound cfg.check plan inv) (hplan : w.plan = plan)
    {id : Uuid} (hkeep : keepsIntervals plan inv (.update org id upd) = true)
    (heq : handleUpdate cfg w inv org id upd = .ok next) : Sound cfg.check plan next := by
  obtain ⟨vetted, hvet, heq⟩ := bind_eq_ok.1 heq
  obtain ⟨⟨updated, row⟩, hupdate, heq⟩ := bind_eq_ok.1 heq
  obtain ⟨-, ⟨⟩⟩ := seq_eq_ok.1 heq
  subst hplan
  have hvetted := vetUpdate_vetted hvet
  refine h.update hupdate ?_
  intro r hget hchecks
  obtain ⟨hmem, -, horg⟩ := Inventory.get_some hget
  have hr : ValidRow cfg.check (w.plan org) r := by
    rw [← horg]
    exact h.valid r hmem
  obtain ⟨prefetched, hfetch, hjudged⟩ := hvetted.merged
  refine hr.patch hvetted.fields (agreesWith_of_vetted hget hr hfetch hjudged) ?_ hchecks
  intro i hi
  have hkind : (vetted.check.getD r.check).kind = (upd.check.getD r.check).kind := by
    have hkind := hvetted.kind
    cases hv : vetted.check <;> cases hu : upd.check <;> simp_all
  rw [hvetted.interval] at hi
  rw [hkind]
  simpa [keepsIntervals, hget, hi] using hkeep

theorem Sound.step {plan : OrgId → Plan} {call : World × Request} (h : Sound cfg.check plan inv)
    (hkept : Kept plan inv call) (heq : step cfg inv call = some next) :
    Sound cfg.check plan next := by
  obtain ⟨w, request⟩ := call
  obtain ⟨hplan, hkeep⟩ := hkept
  unfold Targets.step at heq
  split at heq
  · next inv' hok =>
    cases heq
    cases request with
    | create org new landed => exact h.create hplan hkeep hok
    | bulkCreate org items landed => exact h.bulkCreate hplan hkeep hok
    | update org id upd => exact h.patched hplan hkeep hok
    | setTargetRegions org id regions =>
      obtain ⟨target, vetted, -, -, rfl⟩ := handleSetTargetRegions_ok hok
      exact h.followUp org (.regions id vetted)
  · cases heq
    exact h

/-- Https without verification never goes with stored credentials. -/
def CheckSpec.exposesCredentials : CheckSpec → Bool
  | .http c => c.exposesCredentials
  | _ => false

theorem ValidRow.not_exposesCredentials {plan : Plan} (h : ValidRow env plan r) :
    r.check.exposesCredentials = false := by
  have hcheck := h.check
  cases hr : r.check with
  | http http =>
    rw [hr] at hcheck
    exact not_exposesCredentials_of_valid hcheck
  | _ => rfl

/-- **An edit keeps a target valid**: after any requests under unchanged plans, none of which
gives an interval that loses its floor to the column, every stored target passes
`validateNewTarget` as it stands. -/
theorem stays_valid_of_kept {cfg : Config} {plan : OrgId → Plan} {s : Inventory}
    (hrun : Async.Run (step cfg) (Kept plan) .start s) :
    ∀ r ∈ s.rows, validateNewTarget cfg.check (plan r.orgId) r.asNew = .ok r.asNew ∧
      r.check.holdsSentinel = false ∧ r.check.exposesCredentials = false := by
  have hsound : Sound cfg.check plan s :=
    hrun.invariant (sound_start cfg.check plan) fun _ _ _ h hok heq => h.step hok heq
  intro r hr
  have hvalid := hsound.valid r hr
  exact ⟨hvalid.validates, not_holdsSentinel_of_valid hvalid.check, hvalid.not_exposesCredentials⟩

/-! ## The wrapped interval -/

namespace Wrapped

/-- Nothing is an address, and every name is already canonical. -/
def config : Config where
  check := ⟨fun _ => none, fun _ => "", fun _ => none, some, false⟩
  flowEnabled := false
  defaultRegion := "eu"

def plan : Plan := ⟨"free", 10, 60, 0, 0, 3⟩

def world : World where
  plan := fun _ => plan
  account := fun _ => 0
  channels := fun _ => []
  members := fun _ => []
  availableRegions := ["eu"]
  defaultSelectedRegions := ["eu"]
  flowCapableRegions := []
  abuse := fun _ => none
  variableRefs := fun _ _ => .ok ()

def target (interval : Nat) : NewTarget where
  name := "db"
  check := .tcp ⟨"db.example.com", 5432, 3000⟩
  interval := interval
  enabled := true
  tags := []
  alerts := []
  alertConfirmations := 1
  notifyRecovery := true
  renotifyIntervalSecs := 0
  regionPolicy := none
  groupName := none
  ownerUserId := none

def patch (interval : Nat) : TargetUpdate :=
  ⟨none, none, some interval, none, none, none, none, none, none, none, none, none⟩

/-- A minute at first, then `interval`. -/
def requests (interval : Nat) : List (World × Request) :=
  [(world, .create 1 (target 60) none), (world, .update 1 0 (patch interval))]

theorem requests_run {step : Inventory → World × Request → Option Inventory} {s : Inventory}
    {interval : Nat} (h : Async.steps step .start (requests interval) = some s) :
    Async.Run step (fun _ call => call.1.plan = fun _ => plan) .start s := by
  refine .of_steps_allowed h ?_
  intro call hcall _
  rcases List.mem_pair.mp hcall with rfl | rfl <;> rfl

theorem validateNewTarget_again_tagged : ∃ vetted,
    validateNewTarget config.check plan { target 60 with tags := [" db ", "db"] } = .ok vetted ∧
      vetted.tags = ["db"] ∧ validateNewTarget config.check plan vetted = .ok vetted := by
  have hok : (validateNewTarget config.check plan
      { target 60 with tags := [" db ", "db"] }).toOption.any (·.tags == ["db"]) = true := by
    decide +kernel
  cases hvetted : validateNewTarget config.check plan { target 60 with tags := [" db ", "db"] } with
  | error e =>
    rw [hvetted] at hok
    cases hok
  | ok vetted =>
    rw [hvetted] at hok
    exact ⟨vetted, rfl, beq_iff_eq.mp hok, validateNewTarget_again hvetted⟩

end Wrapped

open Wrapped

theorem stays_valid_of_kept_patched : ∃ s, ∃ r ∈ s.rows, r.intervalSecs = 90 ∧
    Async.Run (step config) (Kept fun _ => plan) .start s ∧
    validateNewTarget config.check plan r.asNew = .ok r.asNew := by
  have hsteps : ((Async.steps (Async.guarded (step config) fun inv call =>
      keepsIntervals (fun _ => plan) inv call.2) .start (requests 90)).any fun s =>
        s.rows.any fun r => r.intervalSecs == 90) = true := by decide +kernel
  obtain ⟨s, hs, hninety⟩ := (Option.any_eq_true _ _).mp hsteps
  obtain ⟨r, hr, hinterval⟩ := List.any_eq_true.mp hninety
  have hrun : Async.Run (step config) (Kept fun _ => plan) .start s := (requests_run hs).of_guarded
  exact ⟨s, r, hr, by simpa using hinterval, hrun, (stays_valid_of_kept hrun r hr).1⟩

/-- One create and one PATCH: an interval of 2³² + 30 seconds reaches every floor and is stored
as thirty. -/
theorem interval_wraps : ¬ ∀ (cfg : Config) (plan : OrgId → Plan) (w : World) (org : OrgId)
    (new : NewTarget) (edits : List (World × Request)) (s : Inventory), w.plan = plan →
    (∀ call ∈ edits, call.1.plan = plan ∧ ∃ org id upd, call.2 = .update org id upd) →
    Async.steps (step cfg) .start ((w, .create org new none) :: edits) = some s →
    ∀ r ∈ s.rows, validateNewTarget cfg.check (plan r.orgId) r.asNew = .ok r.asNew := by
  intro h
  have hsteps : ((Async.steps (step config) .start (requests 4294967326)).any fun s =>
      s.rows.any fun r => r.intervalSecs == 30) = true := by decide +kernel
  obtain ⟨s, hs, hthirty⟩ := (Option.any_eq_true _ _).mp hsteps
  obtain ⟨r, hr, hinterval⟩ := List.any_eq_true.mp hthirty
  have hedits : ∀ call ∈ [(world, Request.update 1 0 (patch 4294967326))],
      (call.1.plan = fun _ => plan) ∧ ∃ org id upd, call.2 = .update org id upd := by
    intro call hcall
    rw [List.mem_singleton.mp hcall]
    exact ⟨rfl, 1, 0, _, rfl⟩
  have hvalid := h config (fun _ => plan) world 1 (target 60) _ s rfl hedits hs r hr
  obtain ⟨tags, hvalid, -⟩ := validateNewTarget_eq_ok.1 hvalid
  have hread : asI64 r.asNew.interval = 30 := by
    simp only [TargetRow.asNew, TargetRow.interval, beq_iff_eq.mp hinterval]
    decide
  have hfloor : plan.minCheckIntervalSecs ≤ 30 :=
    (le_max_left _ _).trans (hread ▸ hvalid.floor)
  exact absurd hfloor (by decide)

end Uptimepage.Targets

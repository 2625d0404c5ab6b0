import Mathlib.Data.Int.DivMod
import Uptimepage.Domain.Target
import Uptimepage.Targets.Check

/-!
# What a whole target must satisfy

`targets/validate.rs` beyond the check: intervals against the plan's and the kind's floor,
the heartbeat cadence, tags, alert bindings, and `validateNewTarget`, which imposes them all.
-/

namespace Uptimepage.Targets

def asI32 (n : Nat) : Int := (BitVec.ofNat 32 n).toInt

def asI64 (n : Nat) : Int := (BitVec.ofNat 64 n).toInt

theorem asI32_eq (n : Nat) : asI32 n = (n : Int).bmod 4294967296 := BitVec.toInt_ofNat n

theorem asI64_eq (n : Nat) : asI64 n = (n : Int).bmod 18446744073709551616 := BitVec.toInt_ofNat n

theorem asI32_le (n : Nat) : asI32 n ≤ n := by
  rw [asI32_eq, Int.bmod_def]
  split <;> omega

/-! ## Plans and targets -/

structure Plan where
  id : String
  maxTargets : Int
  minCheckIntervalSecs : Int
  maxFlowChecks : Int
  maxFlowSteps : Int
  maxRegions : Int
deriving DecidableEq

structure NewTarget where
  name : String
  check : CheckSpec
  /-- In seconds. -/
  interval : Nat
  enabled : Bool
  tags : List String
  /-- The channels of its bindings. -/
  alerts : List Uuid
  alertConfirmations : UInt32
  notifyRecovery : Bool
  renotifyIntervalSecs : UInt32
  regionPolicy : Option RegionIncidentPolicy
  groupName : Option String
  ownerUserId : Option UserId
deriving DecidableEq

/-- A PATCH: `none` leaves a field as it is. -/
structure TargetUpdate where
  name : Option String
  check : Option CheckSpec
  interval : Option Nat
  enabled : Option Bool
  regionPolicy : Option RegionIncidentPolicy
  alertConfirmations : Option UInt32
  notifyRecovery : Option Bool
  renotifyIntervalSecs : Option UInt32
  tags : Option (List String)
  alerts : Option (List Uuid)
  groupName : Option (Option String)
  ownerUserId : Option (Option UserId)
deriving DecidableEq

/-- A row of `targets`. -/
structure TargetRow where
  id : Uuid
  orgId : OrgId
  name : String
  check : CheckSpec
  intervalSecs : Int
  enabled : Bool
  tags : List String
  alerts : List Uuid
  alertConfirmations : Int
  notifyRecovery : Bool
  renotifyIntervalSecs : Int
  regionPolicy : RegionIncidentPolicy
  groupName : Option String
  ownerUserId : Option UserId
deriving DecidableEq

namespace TargetRow

/-- The `CHECK` constraints of the table. -/
def satisfiesChecks (r : TargetRow) : Bool :=
  decide (10 ≤ r.intervalSecs) && decide (1 ≤ r.alertConfirmations) &&
    decide (0 ≤ r.renotifyIntervalSecs)

/-- The interval as it is read back. -/
def interval (r : TargetRow) : Nat := (max r.intervalSecs 0).toNat

/-- The stored target, as `decode_target_row` reads it, as the request that would create it. -/
def asNew (r : TargetRow) : NewTarget where
  name := r.name
  check := r.check
  interval := r.interval
  enabled := r.enabled
  tags := r.tags
  alerts := r.alerts
  alertConfirmations := UInt32.ofNat (max r.alertConfirmations 1).toNat
  notifyRecovery := r.notifyRecovery
  renotifyIntervalSecs := UInt32.ofNat (max r.renotifyIntervalSecs 0).toNat
  regionPolicy := some r.regionPolicy
  groupName := r.groupName
  ownerUserId := r.ownerUserId

end TargetRow

/-! ## Tags -/

def maxTagsPerTarget : Nat := 50

def maxTagLen : Nat := 50

/-- `domain/text.rs`. -/
def isInvisible (c : Char) : Bool :=
  let n := c.toNat
  n == 0x00AD || n == 0x034F || n == 0x061C || (0x115F ≤ n && n ≤ 0x1160) ||
    (0x17B4 ≤ n && n ≤ 0x17B5) || (0x180B ≤ n && n ≤ 0x180F) || (0x200B ≤ n && n ≤ 0x200F) ||
    (0x2028 ≤ n && n ≤ 0x2029) || (0x202A ≤ n && n ≤ 0x202E) || (0x2060 ≤ n && n ≤ 0x206F) ||
    n == 0x3164 || n == 0xFEFF || n == 0xFFA0 || (0xFFF0 ≤ n && n ≤ 0xFFF8) ||
    (0xE0000 ≤ n && n ≤ 0xE007F)

/-- What is demanded of the `nth` tag, trimmed. -/
def checkTag (nth : Nat) (tag : String) : Except AppError Unit := do
  refuseIf (tag == "") (.badRequestField "INVALID_TAG" s!"tag {nth} is blank" "tags")
  refuseIf (tag.toList.any fun c => isControl c || isInvisible c) <|
    .badRequestField "INVALID_TAG" s!"tag {nth} contains a control or invisible character" "tags"
  refuseIf (decide (maxTagLen < tag.length)) <|
    .badRequestField "TAG_TOO_LONG" s!"tag {nth} is longer than {maxTagLen} characters" "tags"

/-- The loop of `normalize_tags`: `out` is what has been kept. -/
def normalizeTagsFrom (nth : Nat) (out : List String) : List String → Except AppError (List String)
  | [] => .ok out
  | tag :: rest => do
    checkTag nth (trim tag)
    normalizeTagsFrom (nth + 1) (if out.contains (trim tag) then out else out ++ [trim tag]) rest

/-- Trimmed, de-duplicated and bounded. -/
def normalizeTags (tags : List String) : Except AppError (List String) := do
  let out ← normalizeTagsFrom 1 [] tags
  refuseIf (decide (maxTagsPerTarget < out.length)) <|
    .badRequestField "TOO_MANY_TAGS" s!"at most {maxTagsPerTarget} tags" "tags"
  return out

/-- A tag list that normalizing leaves as it is. -/
structure NormalTags (tags : List String) : Prop where
  trimmed : ∀ tag ∈ tags, trim tag = tag
  checked : ∀ tag ∈ tags, ∀ nth, checkTag nth tag = .ok ()
  nodup : tags.Nodup

theorem dropWhile_dropWhile {α : Type} (p : α → Bool) (l : List α) :
    (l.dropWhile p).dropWhile p = l.dropWhile p := by
  induction l with
  | nil => rfl
  | cons a l ih =>
    by_cases ha : p a = true
    · rw [List.dropWhile_cons_of_pos ha, ih]
    · rw [List.dropWhile_cons_of_neg ha, List.dropWhile_cons_of_neg ha]

theorem dropWhile_rdropWhile {α : Type} (p : α → Bool) (l : List α)
    (h : l.dropWhile p = l) :
    ((l.reverse.dropWhile p).reverse).dropWhile p = (l.reverse.dropWhile p).reverse := by
  cases l with
  | nil => rfl
  | cons a l =>
    have ha : ¬p a = true := by
      intro ha
      rw [List.dropWhile_cons_of_pos ha] at h
      have hlen := congrArg List.length h
      have hle := (List.dropWhile_suffix (l := l) p).length_le
      simp only [List.length_cons] at hlen
      omega
    obtain ⟨init, hinit⟩ : ∃ init, ((a :: l).reverse.dropWhile p).reverse = a :: init := by
      rw [List.reverse_cons, List.dropWhile_append]
      split
      · exact ⟨[], by simp [ha]⟩
      · exact ⟨_, by rw [List.reverse_append]; rfl⟩
    rw [hinit, List.dropWhile_cons_of_neg ha]

theorem trim_trim (s : String) : trim (trim s) = trim s := by
  unfold trim
  rw [String.toList_ofList]
  have hfront := dropWhile_rdropWhile isWhitespace (s.toList.dropWhile isWhitespace)
    (dropWhile_dropWhile isWhitespace _)
  rw [hfront, List.reverse_reverse, dropWhile_dropWhile]

theorem checkTag_eq_ok {nth : Nat} {tag : String} :
    checkTag nth tag = .ok () ↔ (tag == "") = false ∧
      (tag.toList.any fun c => isControl c || isInvisible c) = false ∧ tag.length ≤ maxTagLen := by
  simp only [checkTag, seq_eq_ok, refuseIf_eq_ok, decide_eq_false_iff_not, Nat.not_lt]

theorem NormalTags.kept {nth : Nat} {out tags kept : List String} (hout : NormalTags out)
    (h : normalizeTagsFrom nth out tags = .ok kept) : NormalTags kept := by
  induction tags generalizing nth out with
  | nil =>
    cases h
    exact hout
  | cons tag rest ih =>
    obtain ⟨hcheck, hrest⟩ := seq_eq_ok.1 h
    refine ih ?_ hrest
    split
    · exact hout
    · next hnew =>
      have hfresh : trim tag ∉ out := by simpa using hnew
      refine ⟨?_, ?_, ?_⟩
      · intro t ht
        rcases List.mem_append.mp ht with ht | ht
        · exact hout.trimmed t ht
        · rw [List.mem_singleton.mp ht, trim_trim]
      · intro t ht n
        rcases List.mem_append.mp ht with ht | ht
        · exact hout.checked t ht n
        · rw [List.mem_singleton.mp ht]
          exact checkTag_eq_ok.2 (checkTag_eq_ok.1 hcheck)
      · rw [List.nodup_append]
        refine ⟨hout.nodup, List.nodup_singleton _, ?_⟩
        intro a ha b hb hab
        rw [List.mem_singleton.mp hb] at hab
        exact hfresh (hab ▸ ha)

theorem NormalTags.unchanged {nth : Nat} {out tags : List String} (h : NormalTags (out ++ tags)) :
    normalizeTagsFrom nth out tags = .ok (out ++ tags) := by
  induction tags generalizing nth out with
  | nil => rw [List.append_nil]; rfl
  | cons tag rest ih =>
    have hmem : tag ∈ out ++ tag :: rest := by simp
    have htrim : trim tag = tag := h.trimmed tag hmem
    have hfresh : out.contains tag = false := by
      have hdisj := (List.nodup_append.mp h.nodup).2.2
      simp only [List.contains_eq_mem, decide_eq_false_iff_not]
      intro hin
      exact hdisj tag hin tag (by simp) rfl
    have happend : out ++ tag :: rest = (out ++ [tag]) ++ rest := by simp
    unfold normalizeTagsFrom
    rw [htrim, hfresh]
    refine seq_eq_ok.2 ⟨h.checked tag hmem nth, ?_⟩
    rw [happend] at h ⊢
    exact ih h

theorem normalizeTags_eq_ok {tags kept : List String} :
    normalizeTags tags = .ok kept ↔
      normalizeTagsFrom 1 [] tags = .ok kept ∧ kept.length ≤ maxTagsPerTarget := by
  unfold normalizeTags
  cases normalizeTagsFrom 1 [] tags with
  | error e => exact ⟨nofun, nofun⟩
  | ok out =>
    refine seq_eq_ok.trans ?_
    simp only [refuseIf_eq_ok, decide_eq_false_iff_not, Nat.not_lt, Except.ok.injEq]
    constructor
    · rintro ⟨hlen, hkept⟩
      cases hkept
      exact ⟨rfl, hlen⟩
    · rintro ⟨rfl, hlen⟩
      exact ⟨hlen, rfl⟩

theorem normalizeTags_normalized {tags kept : List String} (h : normalizeTags tags = .ok kept) :
    normalizeTags kept = .ok kept := by
  obtain ⟨hloop, hlen⟩ := normalizeTags_eq_ok.1 h
  have hnil : NormalTags [] := ⟨nofun, nofun, List.nodup_nil⟩
  have hkept : NormalTags ([] ++ kept) := hnil.kept hloop
  exact normalizeTags_eq_ok.2 ⟨hkept.unchanged, hlen⟩

/-! ## The other fields -/

/-- The loop of `validate_alerts`: the `i`-th binding is next. -/
def validateAlertsFrom (i : Nat) (seen : List Uuid) : List Uuid → Except AppError Unit
  | [] => .ok ()
  | channel :: rest => do
    refuseIf (seen.contains channel) <|
      .badRequestField "INVALID_ALERT_CONFIG"
        s!"alerts[{i}]: duplicate binding for channel {channel}" s!"alerts[{i}].channel_id"
    validateAlertsFrom (i + 1) (channel :: seen) rest

def validateAlerts (alerts : List Uuid) : Except AppError Unit := validateAlertsFrom 0 [] alerts

def validateAlertConfirmations (n : Option UInt32) : Except AppError Unit :=
  refuseIf (n == some 0) <|
    .badRequestField "INVALID_ALERT_CONFIG" "alert_confirmations must be >= 1"
      "alert_confirmations"

/-- Reminders are off or no tighter than a minute. -/
def validateRenotifyInterval (secs : Option UInt32) : Except AppError Unit :=
  refuseIf (secs.any fun n => decide (0 < n.toNat) && decide (n.toNat < 60)) <|
    .badRequestField "INVALID_ALERT_CONFIG" "renotify_interval_secs must be 0 (off) or at least 60"
      "renotify_interval_secs"

def checkLength (value field : String) (max : Nat) (codeTooLong : String) :
    Except AppError Unit :=
  refuseIf (decide (max < value.length)) <|
    .badRequestField codeTooLong s!"{field} exceeds {max} characters" field

def validateGroupName (group : Option String) : Except AppError Unit :=
  match group with
  | some g => checkLength g "group_name" 50 "GROUP_TOO_LONG"
  | none => .ok ()

/-- A heartbeat is judged within the window it reports in; a second is a thousand units. -/
def validateHeartbeatCadence (check : CheckSpec) (interval : Nat) : Except AppError Unit :=
  match check with
  | .heartbeat hb =>
    let window := min (hb.period / 1000 + hb.grace / 1000) 18446744073709551615
    refuseIf (decide (window < interval)) <|
      .badRequestField "INVALID_HEARTBEAT_PARAMS"
        (s!"check interval ({interval}s) is longer than the heartbeat window it judges " ++
          s!"({window}s) — lower the interval or raise the period") "interval"
  | _ => .ok ()

theorem validateHeartbeatCadence_mono {check : CheckSpec} {i j : Nat} (hij : i ≤ j)
    (h : validateHeartbeatCadence check j = .ok ()) : validateHeartbeatCadence check i = .ok () := by
  cases check with
  | heartbeat hb =>
    simp only [validateHeartbeatCadence, refuseIf_eq_ok, decide_eq_false_iff_not, Nat.not_lt]
      at h ⊢
    exact le_trans hij h
  | _ => rfl

/-! ## The whole target -/

/-- The plan's floor and the kind's. -/
def effectiveFloor (plan : Plan) (kind : String) : Int :=
  max plan.minCheckIntervalSecs (minIntervalSecsForKind kind)

def checkFloor (plan : Plan) (kind : String) (requested : Int) : Except AppError Unit :=
  refuseIf (decide (requested < effectiveFloor plan kind)) <|
    .minCheckInterval requested (effectiveFloor plan kind) plan.id

/-- Returns the target with its tags normalized. -/
def validateNewTarget (env : CheckEnv) (plan : Plan) (new : NewTarget) :
    Except AppError NewTarget := do
  checkFloor plan new.check.kind (asI64 new.interval)
  validateCheck env new.check
  validateHeartbeatCadence new.check new.interval
  let tags ← normalizeTags new.tags
  validateAlerts new.alerts
  validateAlertConfirmations (some new.alertConfirmations)
  validateRenotifyInterval (some new.renotifyIntervalSecs)
  validateGroupName new.groupName
  return { new with tags := tags }

/-- What `validateNewTarget` demands of a target whose tags are normalized to `tags`. -/
structure ValidTarget (env : CheckEnv) (plan : Plan) (new : NewTarget) (tags : List String) :
    Prop where
  floor : effectiveFloor plan new.check.kind ≤ asI64 new.interval
  check : validateCheck env new.check = .ok ()
  cadence : validateHeartbeatCadence new.check new.interval = .ok ()
  tags : normalizeTags new.tags = .ok tags
  alerts : validateAlerts new.alerts = .ok ()
  confirmations : validateAlertConfirmations (some new.alertConfirmations) = .ok ()
  renotify : validateRenotifyInterval (some new.renotifyIntervalSecs) = .ok ()
  group : validateGroupName new.groupName = .ok ()

theorem checkFloor_eq_ok {plan : Plan} {kind : String} {requested : Int} :
    checkFloor plan kind requested = .ok () ↔ effectiveFloor plan kind ≤ requested := by
  simp [checkFloor]

theorem validateNewTarget_eq_ok {env : CheckEnv} {plan : Plan} {new vetted : NewTarget} :
    validateNewTarget env plan new = .ok vetted ↔
      ∃ tags, ValidTarget env plan new tags ∧ vetted = { new with tags := tags } := by
  simp only [validateNewTarget, seq_eq_ok, checkFloor_eq_ok]
  cases htags : normalizeTags new.tags with
  | error e =>
    refine ⟨fun h => absurd h.2.2.2 nofun, ?_⟩
    rintro ⟨tags, hvalid, -⟩
    rw [hvalid.tags] at htags
    cases htags
  | ok kept =>
    constructor
    · rintro ⟨hfloor, hcheck, hcadence, hrest⟩
      obtain ⟨halerts, hrest⟩ := seq_eq_ok.1 hrest
      obtain ⟨hconfirm, hrest⟩ := seq_eq_ok.1 hrest
      obtain ⟨hrenotify, hrest⟩ := seq_eq_ok.1 hrest
      obtain ⟨hgroup, hrest⟩ := seq_eq_ok.1 hrest
      cases hrest
      exact ⟨kept, ⟨hfloor, hcheck, hcadence, htags, halerts, hconfirm, hrenotify, hgroup⟩, rfl⟩
    · rintro ⟨tags, hvalid, rfl⟩
      have hsame := hvalid.tags
      rw [htags] at hsame
      cases hsame
      refine ⟨hvalid.floor, hvalid.check, hvalid.cadence, ?_⟩
      refine seq_eq_ok.2 ⟨hvalid.alerts, seq_eq_ok.2 ⟨hvalid.confirmations, ?_⟩⟩
      exact seq_eq_ok.2 ⟨hvalid.renotify, seq_eq_ok.2 ⟨hvalid.group, rfl⟩⟩

end Uptimepage.Targets

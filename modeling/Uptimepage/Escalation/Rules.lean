import Uptimepage.Store.IncidentOps

/-!
# The engine's rules

`escalation/engine/rules.rs`: the pure decisions of the paging engine over one incident's
notification ledger.  `openEpisodeActive` says whether an outage is already being paged,
`resolvableChannels` who is still owed an all-clear; both are read off the rows alone.
-/

namespace Uptimepage

/-- The engine's settings (`EscalationConfig`). -/
structure EscalationConfig where
  tickIntervalSecs : Nat
  maxPagesPerTick : Nat
  maxAttempts : Nat
  channelFailureLimit : Nat
  retryBackoffBaseSecs : Nat
  retryBackoffCapSecs : Nat
  reconcileWindowSecs : Nat
  flapWindowSecs : Nat
  flapMaxOpens : Nat
  flapHoldSecs : Nat
deriving DecidableEq

def EscalationConfig.default : EscalationConfig :=
  ⟨15, 500, 5, 3, 30, 3600, 3600, 3600, 5, 600⟩

/-! ## Retries -/

/-- Exponential backoff after `attempt` just failed; `none` once the cap is reached. -/
def retryDelaySecs (attempt : Int) (baseSecs capSecs maxAttempts : Nat) : Option Nat :=
  if (maxAttempts : Int) ≤ attempt then none
  else
    let base := max baseSecs 1
    let shift := (min (max attempt 1 - 1) 16).toNat
    some (min (min (base * 2 ^ shift) (2 ^ 64 - 1)) (max capSecs base))

/-- What follows the first `"retry_after":` of a text. -/
def afterRetryMarker : List Char → Option (List Char)
  | [] => none
  | c :: rest =>
    if "\"retry_after\":".toList.isPrefixOf (c :: rest) then
      some ((c :: rest).drop "\"retry_after\":".length)
    else afterRetryMarker rest

/-- `str::parse::<i64>` on a run of ASCII digits. -/
def parseDigits (ds : List Char) : Option Int :=
  if ds = [] then none
  else
    let n := ds.foldl (fun n d => n * 10 + (d.toNat - '0'.toNat)) 0
    if n < 2 ^ 63 then some (n : Int) else none

/-- The `"retry_after":N` hint of a delivery error, capped at an hour. -/
def retryAfterHint (error : Option String) : Option Int :=
  match error with
  | none => none
  | some err =>
    match afterRetryMarker err.toList with
    | none => none
    | some rest =>
      (parseDigits ((rest.dropWhile isWhitespace).takeWhile Char.isDigit)).map fun secs =>
        seconds (min secs 3600)

/-! ## Page targets -/

/-- One resolved paging destination, with the responder it resolved to, if any. -/
structure PageTarget where
  channelId : Uuid
  userId : Option UserId
deriving DecidableEq

def channelTargets (channels : List Uuid) : List PageTarget :=
  channels.map fun c => ⟨c, none⟩

/-- Appends a target, deduped by channel; the first occurrence wins. -/
def pushTarget (out : List PageTarget) (channelId : Uuid) (userId : Option UserId) :
    List PageTarget :=
  if out.any fun t => t.channelId == channelId then out else out ++ [⟨channelId, userId⟩]

/-- What one round of paging produced: rows written, and rows delivered. -/
structure Paged where
  recorded : Nat
  delivered : Nat
deriving DecidableEq

/-! ## The ledger -/

/-- Bookkeeping rows the engine writes to itself.  None is a delivery. -/
def isDamperMarker : Transport → Bool
  | .damped | .released | .unreachable | .maintenance => true
  | .channel _ => false

inductive Damper
  | apply
  | skip
deriving DecidableEq

inductive FlapState
  | steady
  | crossing
  | damped
deriving DecidableEq

/-- `opens` includes the one being decided; a `max` of 0 disables damping. -/
def flapState (opens max : Nat) : FlapState :=
  if max = 0 then .steady
  else if opens < max then .steady
  else if opens = max then .crossing
  else .damped

/-- Opened, reopened or escalated. -/
def NotificationReason.isOpenSide : NotificationReason → Bool
  | .opened | .reopened | .escalated => true
  | _ => false

/-- A page of an outage that went to a channel. -/
def isOpenPage (n : IncidentNotification) : Bool :=
  !isDamperMarker n.transport && n.reason.isOpenSide

/-- Is an outage already being paged?  True when the newest open-side page is newer than
the newest resolution. -/
def openEpisodeActive (rows : List IncidentNotification) : Bool :=
  match Db.newest (rows.filter isOpenPage),
      Db.newest (rows.filter fun n => n.reason == .resolved) with
  | some o, some r => decide (r < o)
  | some _, none => true
  | none, _ => false

/-- This channel was paged and has had no resolution since. -/
def owedAllClear (rows : List IncidentNotification) (cid : Uuid) : Bool :=
  match Db.newest (rows.filter fun n => n.channelId == some cid && n.reason.isOpenSide) with
  | none => false
  | some openAt => !rows.any fun n =>
      n.channelId == some cid && n.reason == .resolved && decide (openAt ≤ n.createdAt)

/-- The loop of `resolvableChannels` over the rows' channel ids, with those seen so far. -/
def resolvableFrom (rows : List IncidentNotification) (seen : List Uuid) : List Uuid → List Uuid
  | [] => []
  | cid :: rest =>
    if seen.contains cid then resolvableFrom rows seen rest
    else if owedAllClear rows cid then cid :: resolvableFrom rows (cid :: seen) rest
    else resolvableFrom rows (cid :: seen) rest

/-- Every channel paged this episode that has not been sent a resolution since its last
open-side page. -/
def resolvableChannels (rows : List IncidentNotification) : List Uuid :=
  resolvableFrom rows [] (rows.filterMap (·.channelId))

/-- The incident moved past the state a queued page describes. -/
def reasonIsStale (reason : NotificationReason) (state : IncidentState) : Bool :=
  match reason with
  | .opened | .reopened | .escalated => state == .resolved
  | .reminder => state != .triggered
  | .resolved => state != .resolved
  | .noData | .dataResumed => false

/-! ## What the ledger predicates say -/

variable {rows : List IncidentNotification} {db : Db} {org : OrgId} {k cid : Uuid}

theorem newest_eq_some {t : Time} (h : Db.newest rows = some t) :
    (∃ n ∈ rows, n.createdAt = t) ∧ ∀ n ∈ rows, n.createdAt ≤ t := by
  obtain ⟨hmem, hle⟩ := List.max?_eq_some_iff.mp h
  obtain ⟨n, hn, rfl⟩ := List.mem_map.mp hmem
  exact ⟨⟨n, hn, rfl⟩, fun m hm => hle _ (List.mem_map_of_mem hm)⟩

theorem newest_eq_none (h : Db.newest rows = none) : rows = [] := by
  simpa [Db.newest] using h

theorem openEpisodeActive_iff :
    openEpisodeActive rows = true ↔ ∃ o ∈ rows, isOpenPage o = true ∧
      ∀ r ∈ rows, r.reason = .resolved → r.createdAt < o.createdAt := by
  unfold openEpisodeActive
  cases ho : Db.newest (rows.filter isOpenPage) with
  | none =>
    have hnone := newest_eq_none ho
    simp only [List.filter_eq_nil_iff] at hnone
    constructor
    · simp
    · rintro ⟨o, hmem, hpage, -⟩
      exact absurd hpage (hnone o hmem)
  | some o =>
    obtain ⟨⟨n, hn, hno⟩, hmax⟩ := newest_eq_some ho
    obtain ⟨hnmem, hnpage⟩ := List.mem_filter.mp hn
    cases hr : Db.newest (rows.filter fun n => n.reason == .resolved) with
    | none =>
      have hnone := newest_eq_none hr
      simp only [List.filter_eq_nil_iff, beq_iff_eq] at hnone
      simp only [true_iff]
      exact ⟨n, hnmem, hnpage, fun r hrmem hres => absurd hres (hnone r hrmem)⟩
    | some t =>
      obtain ⟨⟨m, hm, hmt⟩, hmaxr⟩ := newest_eq_some hr
      obtain ⟨hmmem, hmres⟩ := List.mem_filter.mp hm
      simp only [beq_iff_eq] at hmres
      simp only [decide_eq_true_eq]
      constructor
      · intro hlt
        refine ⟨n, hnmem, hnpage, fun r hrmem hres => ?_⟩
        have hle := hmaxr r (List.mem_filter.mpr ⟨hrmem, by simpa using hres⟩)
        rw [hno]
        exact lt_of_le_of_lt hle hlt
      · rintro ⟨p, hpmem, hppage, hnewer⟩
        have hle := hmax p (List.mem_filter.mpr ⟨hpmem, hppage⟩)
        rw [← hmt]
        exact lt_of_lt_of_le (hnewer m hmmem hmres) hle

theorem Db.mem_notificationsFor {n' : IncidentNotification} :
    n' ∈ db.notificationsFor org k ↔ ∃ n ∈ db.notifications,
      (n.org = org ∧ n.incidentId = k) ∧ n.toIncidentNotification = n' := by
  simp only [Db.notificationsFor, List.mem_map, List.mem_filter, Bool.and_eq_true, beq_iff_eq]
  constructor
  · rintro ⟨n, ⟨hn, hk, horg⟩, rfl⟩
    exact ⟨n, hn, ⟨horg, hk⟩, rfl⟩
  · rintro ⟨n, hn, ⟨horg, hk⟩, rfl⟩
    exact ⟨n, ⟨hn, hk, horg⟩, rfl⟩

theorem Db.active_iff :
    openEpisodeActive (db.notificationsFor org k) = true ↔
      ∃ n ∈ db.notifications, (n.org = org ∧ n.incidentId = k) ∧
        (isDamperMarker n.transport = false ∧ n.reason.isOpenSide = true) ∧
        ∀ r ∈ db.notifications, r.org = org → r.incidentId = k → r.reason = .resolved →
          r.createdAt < n.createdAt := by
  rw [openEpisodeActive_iff]
  constructor
  · rintro ⟨o, ho, hpage, hnewer⟩
    obtain ⟨n, hn, hkey, rfl⟩ := Db.mem_notificationsFor.1 ho
    refine ⟨n, hn, hkey, by simpa [isOpenPage] using hpage, fun r hr horg hk hres => ?_⟩
    exact hnewer _ (Db.mem_notificationsFor.2 ⟨r, hr, ⟨horg, hk⟩, rfl⟩) hres
  · rintro ⟨n, hn, hkey, hpage, hnewer⟩
    refine ⟨_, Db.mem_notificationsFor.2 ⟨n, hn, hkey, rfl⟩, by simpa [isOpenPage] using hpage, ?_⟩
    intro r hr hres
    obtain ⟨m, hm, ⟨horg, hk⟩, rfl⟩ := Db.mem_notificationsFor.1 hr
    exact hnewer m hm horg hk hres

theorem owedAllClear_iff :
    owedAllClear rows cid = true ↔ ∃ o ∈ rows, o.channelId = some cid ∧
      o.reason.isOpenSide = true ∧ ∀ r ∈ rows, r.channelId = some cid → r.reason = .resolved →
        r.createdAt < o.createdAt := by
  unfold owedAllClear
  cases ho : Db.newest (rows.filter fun n => n.channelId == some cid && n.reason.isOpenSide) with
  | none =>
    have hnone := newest_eq_none ho
    simp only [List.filter_eq_nil_iff] at hnone
    constructor
    · simp
    · rintro ⟨o, hmem, hcid, hopen, -⟩
      exact absurd (by simp [hcid, hopen]) (hnone o hmem)
  | some o =>
    obtain ⟨⟨n, hn, hno⟩, hmax⟩ := newest_eq_some ho
    obtain ⟨hnmem, hnp⟩ := List.mem_filter.mp hn
    simp only [Bool.and_eq_true, beq_iff_eq] at hnp
    simp only [Bool.not_eq_true', List.any_eq_false, Bool.and_eq_true, beq_iff_eq,
      decide_eq_true_eq]
    constructor
    · intro hnone
      refine ⟨n, hnmem, hnp.1, hnp.2, fun r hr hcid hres => ?_⟩
      rw [hno]
      by_contra hge
      exact hnone r hr ⟨⟨hcid, hres⟩, not_lt.mp hge⟩
    · rintro ⟨p, hpmem, hpcid, hpopen, hnewer⟩ r hr ⟨⟨hcid, hres⟩, hle⟩
      have hmaxp := hmax p (List.mem_filter.mpr ⟨hpmem, by simp [hpcid, hpopen]⟩)
      exact absurd (lt_of_lt_of_le (hnewer r hr hcid hres) hmaxp) (not_lt.mpr hle)

theorem mem_resolvableFrom :
    ∀ {seen ids : List Uuid}, cid ∈ resolvableFrom rows seen ids ↔
      cid ∈ ids ∧ cid ∉ seen ∧ owedAllClear rows cid = true
  | seen, [] => by simp [resolvableFrom]
  | seen, c :: rest => by
    unfold resolvableFrom
    split
    · next hc =>
      have hc' : c ∈ seen := by simpa using hc
      rw [mem_resolvableFrom]
      constructor
      · exact fun ⟨h₁, h₂⟩ => ⟨List.mem_cons_of_mem _ h₁, h₂⟩
      · rintro ⟨h₁, h₂, h₃⟩
        rcases List.mem_cons.mp h₁ with rfl | h₁
        · exact absurd hc' h₂
        · exact ⟨h₁, h₂, h₃⟩
    · next hc =>
      have hc' : c ∉ seen := by simpa using hc
      have hmem : cid ∈ resolvableFrom rows (c :: seen) rest ↔
          cid ∈ rest ∧ cid ∉ c :: seen ∧ owedAllClear rows cid = true := mem_resolvableFrom
      by_cases hcid : cid = c
      · subst hcid
        split
        · next hres => simp [hc', hres]
        · next hres => simp [hmem, hres]
      · split
        · simp [hmem, hcid]
        · simp [hmem, hcid]

theorem mem_resolvableChannels : cid ∈ resolvableChannels rows ↔ owedAllClear rows cid = true := by
  unfold resolvableChannels
  rw [mem_resolvableFrom]
  constructor
  · exact fun h => h.2.2
  · intro h
    obtain ⟨o, ho, hcid, -⟩ := owedAllClear_iff.1 h
    exact ⟨List.mem_filterMap.mpr ⟨o, ho, hcid⟩, by simp, h⟩

end Uptimepage

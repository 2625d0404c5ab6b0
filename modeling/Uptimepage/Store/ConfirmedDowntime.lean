import Uptimepage.Domain.Downtime

/-!
# The downtime of the dashboard and of the detail page

The dashboard asks the database for a sum per monitor (`confirmed_downtime_by_target`); the
detail page loads the newest 2000 incidents of the range and adds them up itself
(`confirmed_incidents`, `confirmed_downtime_secs`).
-/

namespace Uptimepage.Narration

open Chrono

structure IncidentRow where
  orgId : OrgId
  id : Uuid
  targetId : Option Uuid
  startedAt : DateTime
  endedAt : Option DateTime
  severity : String
  statusAtStart : String
  checkCount : Int
  errorSample : Option String
  countsAsDowntime : Bool
  publicTitle : Option String
  publicDescription : Option String
  durationSecs : Option Int
  createdAt : DateTime
  updatedAt : DateTime
  regionsDown : Option (List String)
  regionsUp : Option (List String)
deriving DecidableEq

def severityFromDbStr (s : String) : IncidentSeverity :=
  if s = "minor" then .minor else if s = "critical" then .critical else .major

def parseStatus (s : String) : CheckStatus :=
  if s = "down" then .down else if s = "degraded" then .degraded
  else if s = "error" then .error else .down

def rowToIncident (row : IncidentRow) : Incident where
  id := row.id
  targetId := row.targetId
  startedAt := Instant.ofMicros row.startedAt
  endedAt := row.endedAt.map Instant.ofMicros
  status := parseStatus row.statusAtStart
  durationSecs := row.durationSecs.map fun d => (max d 0).toNat
  checkCount := (max row.checkCount 0).toNat
  errorSample := row.errorSample
  severity := severityFromDbStr row.severity
  countsAsDowntime := row.countsAsDowntime
  publicTitle := row.publicTitle
  publicDescription := row.publicDescription
  createdAt := some (Instant.ofMicros row.createdAt)
  updatedAt := some (Instant.ofMicros row.updatedAt)
  regionsDown := row.regionsDown.getD []
  regionsUp := row.regionsUp.getD []

structure TimeRange where
  winFrom : Instant
  winTo : Instant

/-- `started_at DESC, id DESC`. -/
def NewestFirst (r r' : IncidentRow) : Prop :=
  r'.startedAt < r.startedAt ∨ r'.startedAt = r.startedAt ∧ r'.id ≤ r.id

instance : DecidableRel NewestFirst := fun r r' => by unfold NewestFirst; infer_instance

inductive SqlError
  | bigintOutOfRange
deriving DecidableEq

section

-- `bind` is how a time is handed to a query
variable (bind : Instant → DateTime) (rows : List IncidentRow) (org : OrgId)

/-- The rows `list_for_target` selects, in its order. -/
def selected (targetId : Uuid) (range : TimeRange) (ongoingOnly : Bool) : List IncidentRow :=
  (rows.filter fun r =>
    r.orgId = org && r.targetId = some targetId && decide (r.startedAt < bind range.winTo) &&
      r.endedAt.all (fun e => decide (bind range.winFrom ≤ e)) &&
      (!ongoingOnly || r.endedAt.isNone)).insertionSort NewestFirst

def listForTarget (targetId : Uuid) (range : TimeRange) (limit offset : Nat)
    (ongoingOnly : Bool) : List Incident :=
  let cap := max 1 (min limit 5000)
  (((selected bind rows org targetId range ongoingOnly).drop offset).take cap).map rowToIncident

def confirmedUptimeIncidentCap : Nat := 2000

def confirmedIncidents (targetId : Uuid) (range : TimeRange) (confirmed : Bool) :
    List Incident :=
  if !confirmed then []
  else listForTarget bind rows org targetId range confirmedUptimeIncidentCap 0 false

/-- `GREATEST(0, FLOOR(EXTRACT(EPOCH FROM (LEAST(COALESCE(ended_at, $2), $2) -
GREATEST(started_at, $1)))))`. -/
def epochOverlap (p1 p2 : DateTime) (r : IncidentRow) : Int :=
  max 0 (((min (r.endedAt.getD p2) p2).micros - (max r.startedAt p1).micros) / 1000000)

/-- The rows that are summed. -/
def charged (range : TimeRange) : List IncidentRow :=
  rows.filter fun r =>
    r.orgId = org && r.targetId.isSome && decide (r.startedAt < bind range.winTo) &&
      r.endedAt.all (fun e => decide (bind range.winFrom ≤ e)) && r.countsAsDowntime

def groupSum (range : TimeRange) (targetId : Uuid) : Except SqlError Int :=
  let total := (((charged bind rows org range).filter fun r => r.targetId = some targetId).map
    (epochOverlap (bind range.winFrom) (bind range.winTo))).sum
  if -9223372036854775808 ≤ total ∧ total < 9223372036854775808 then .ok total
  else .error .bigintOutOfRange

def confirmedDowntimeByTarget (range : TimeRange) : Except SqlError (List (Uuid × Int)) :=
  ((charged bind rows org range).filterMap IncidentRow.targetId).dedup.mapM fun targetId =>
    (groupSum bind rows org range targetId).map fun total => (targetId, total)

end

/-- `downtime_by_target.get(&t.id).copied().unwrap_or(0)`. -/
def reportedFor (downtimeByTarget : List (Uuid × Int)) (targetId : Uuid) : Int :=
  (downtimeByTarget.lookup targetId).getD 0

/-- What the page leaves out of the range: all but the newest 2000. -/
def leftOut (bind : Instant → DateTime) (rows : List IncidentRow) (org : OrgId)
    (targetId : Uuid) (range : TimeRange) : List IncidentRow :=
  (selected bind rows org targetId range false).drop confirmedUptimeIncidentCap

section

variable {bind : Instant → DateTime} {rows : List IncidentRow} {org : OrgId} {targetId : Uuid}
  {range : TimeRange} {f t : DateTime} {now : Instant} {reported : List (Uuid × Int)}

theorem lookup_of_mapM {g : Uuid → Except SqlError Int} {keys : List Uuid}
    (h : keys.mapM (fun k => (g k).map fun v => (k, v)) = .ok reported) (k : Uuid) :
    (k ∈ keys → ∃ v, g k = .ok v ∧ reported.lookup k = some v) ∧
      (k ∉ keys → reported.lookup k = none) := by
  induction keys generalizing reported with
  | nil =>
    rw [List.mapM_nil] at h
    cases h
    simp
  | cons k' keys ih =>
    rw [List.mapM_cons] at h
    cases hv : g k' with
    | error e =>
      rw [hv] at h
      cases h
    | ok v =>
      rw [hv] at h
      cases hrest : keys.mapM fun k => (g k).map fun v => (k, v) with
      | error e =>
        rw [hrest] at h
        cases h
      | ok rest =>
        rw [hrest] at h
        cases h
        obtain ⟨hin, hout⟩ := ih hrest
        by_cases hk : k = k'
        · subst hk
          exact ⟨fun _ => ⟨v, hv, by simp⟩, fun hmem => absurd List.mem_cons_self hmem⟩
        · have hlookup : ((k', v) :: rest).lookup k = rest.lookup k := by
            rw [List.lookup_cons, beq_false_of_ne hk]
          refine ⟨fun hmem => ?_, fun hmem => ?_⟩
          · rw [hlookup]
            exact hin ((List.mem_cons.mp hmem).resolve_left hk)
          · rw [hlookup]
            exact hout fun hmem' => hmem (List.mem_cons_of_mem _ hmem')

theorem reportedFor_eq (h : confirmedDowntimeByTarget bind rows org range = .ok reported) :
    reportedFor reported targetId =
      (((charged bind rows org range).filter fun r => r.targetId = some targetId).map
        (epochOverlap (bind range.winFrom) (bind range.winTo))).sum := by
  obtain ⟨hin, hout⟩ := lookup_of_mapM h targetId
  unfold reportedFor
  by_cases hmem : targetId ∈
      ((charged bind rows org range).filterMap IncidentRow.targetId).dedup
  · obtain ⟨total, htotal, hlookup⟩ := hin hmem
    rw [hlookup, Option.getD_some]
    unfold groupSum at htotal
    dsimp only at htotal
    split at htotal
    · exact (Except.ok.inj htotal).symm
    · cases htotal
  · rw [hout hmem, Option.getD_none]
    have hnone : (charged bind rows org range).filter (fun r => r.targetId = some targetId) =
        [] := by
      rw [List.filter_eq_nil_iff]
      intro r hr
      rw [decide_eq_true_eq]
      intro hid
      exact hmem (List.mem_dedup.mpr (List.mem_filterMap.mpr ⟨r, hr, hid⟩))
    rw [hnone]
    rfl

theorem charged_perm :
    ((charged bind rows org range).filter fun r => r.targetId = some targetId).Perm
      ((selected bind rows org targetId range false).filter IncidentRow.countsAsDowntime) := by
  unfold charged selected
  refine List.Perm.trans ?_ ((List.perm_insertionSort NewestFirst _).filter _).symm
  rw [List.filter_filter, List.filter_filter]
  refine List.Perm.of_eq (List.filter_congr fun r _ => ?_)
  by_cases hid : r.targetId = some targetId
  · simp [hid, Bool.and_comm]
  · simp [hid]

theorem overlapSecs_rowToIncident (hnow : Instant.ofMicros t ≤ now) (r : IncidentRow) :
    (rowToIncident r).overlapSecs (Instant.ofMicros f) (Instant.ofMicros t) now =
      epochOverlap f t r := by
  have hend : (min ((rowToIncident r).endedAt.getD now) (Instant.ofMicros t)).nanos =
      (min (r.endedAt.getD t) t).micros * 1000 := by
    rw [Instant.nanos_min, DateTime.micros_min]
    rw [Instant.le_iff] at hnow
    simp only [rowToIncident, Instant.ofMicros] at hnow ⊢
    cases r.endedAt with
    | none =>
      simp only [Option.map_none, Option.getD_none]
      omega
    | some e =>
      simp only [Option.map_some, Option.getD_some, Instant.ofMicros]
      omega
  have hstart : (max (rowToIncident r).startedAt (Instant.ofMicros f)).nanos =
      (max r.startedAt f).micros * 1000 := by
    rw [Instant.nanos_max, DateTime.micros_max]
    simp only [rowToIncident, Instant.ofMicros]
    omega
  unfold Incident.overlapSecs epochOverlap
  dsimp only
  rw [Instant.max_secondsBetween, hend, hstart]
  omega

theorem epochOverlap_nonneg (r : IncidentRow) : 0 ≤ epochOverlap f t r := le_max_left _ _

theorem epochOverlap_le (r : IncidentRow) : epochOverlap f t r ≤ 20000000000000 := by
  have hfrom := f.min_le
  have hto := t.lt_max
  have hstop : (min (r.endedAt.getD t) t).micros ≤ t.micros := by
    rw [DateTime.micros_min]
    exact min_le_right _ _
  have hstart : f.micros ≤ (max r.startedAt f).micros := by
    rw [DateTime.micros_max]
    exact le_max_right _ _
  unfold minDay dayMicros at hfrom
  unfold maxDay dayMicros at hto
  unfold epochOverlap
  omega

theorem sum_epochOverlap (counted : List IncidentRow) :
    0 ≤ (counted.map (epochOverlap f t)).sum ∧
      (counted.map (epochOverlap f t)).sum ≤ 20000000000000 * counted.length := by
  induction counted with
  | nil => simp
  | cons r counted ih =>
    have hlow := @epochOverlap_nonneg f t r
    have hhigh := @epochOverlap_le f t r
    rw [List.map_cons, List.sum_cons, List.length_cons, Nat.cast_succ]
    omega

theorem sum_epochOverlap_eq_zero_iff (counted : List IncidentRow) :
    (counted.map (epochOverlap f t)).sum = 0 ↔ ∀ r ∈ counted, epochOverlap f t r = 0 := by
  induction counted with
  | nil => simp
  | cons r counted ih =>
    have hhead := @epochOverlap_nonneg f t r
    have hrest := (@sum_epochOverlap f t counted).1
    rw [List.map_cons, List.sum_cons, List.forall_mem_cons, ← ih]
    omega

theorem confirmedDowntimeSecs_page (hnow : Instant.ofMicros t ≤ now) {page : List IncidentRow}
    (hpage : page.length ≤ 2000) :
    confirmedDowntimeSecs (page.map rowToIncident) (Instant.ofMicros f) (Instant.ofMicros t) now =
      ((page.filter IncidentRow.countsAsDowntime).map (epochOverlap f t)).sum := by
  have hsum : (((page.map rowToIncident).filter Incident.countsAsDowntime).map fun i =>
      i.overlapSecs (Instant.ofMicros f) (Instant.ofMicros t) now) =
        (page.filter IncidentRow.countsAsDowntime).map (epochOverlap f t) := by
    rw [List.filter_map, List.map_map]
    exact List.map_congr_left fun r _ => overlapSecs_rowToIncident hnow r
  have hbound := @sum_epochOverlap f t (page.filter IncidentRow.countsAsDowntime)
  have hlen := List.length_filter_le IncidentRow.countsAsDowntime page
  rw [confirmedDowntimeSecs, hsum, Int.bmod_eq_of_le] <;> omega

theorem reported_eq (hbind : ∀ t, bind (Instant.ofMicros t) = t)
    (hnow : Instant.ofMicros t ≤ now)
    (h : confirmedDowntimeByTarget bind rows org ⟨Instant.ofMicros f, Instant.ofMicros t⟩ =
      .ok reported) :
    reportedFor reported targetId =
      confirmedDowntimeSecs
          (confirmedIncidents bind rows org targetId ⟨Instant.ofMicros f, Instant.ofMicros t⟩ true)
          (Instant.ofMicros f) (Instant.ofMicros t) now +
        (((leftOut bind rows org targetId ⟨Instant.ofMicros f, Instant.ofMicros t⟩).filter
          IncidentRow.countsAsDowntime).map (epochOverlap f t)).sum := by
  rw [reportedFor_eq h, (charged_perm.map _).sum_eq]
  dsimp only
  rw [hbind, hbind]
  have hpage : confirmedIncidents bind rows org targetId
      ⟨Instant.ofMicros f, Instant.ofMicros t⟩ true =
      ((selected bind rows org targetId ⟨Instant.ofMicros f, Instant.ofMicros t⟩ false).take
        2000).map rowToIncident := rfl
  rw [hpage, confirmedDowntimeSecs_page hnow (List.length_take_le _ _), ← List.sum_append,
    ← List.map_append, ← List.filter_append]
  exact congrArg _ (congrArg _ (congrArg _ (List.take_append_drop 2000 _).symm))

end

/-- For a range on whole microseconds that is over, the dashboard and the detail page publish
the same downtime exactly when the incidents of the range behind the newest 2000 have no
counted overlap of a second or more. -/
theorem downtime_agrees_iff (bind : Instant → DateTime)
    (hbind : ∀ t, bind (Instant.ofMicros t) = t) (rows : List IncidentRow) (org : OrgId)
    (targetId : Uuid) (f t : DateTime) (now : Instant) (hnow : Instant.ofMicros t ≤ now)
    (reported : List (Uuid × Int))
    (hreported : confirmedDowntimeByTarget bind rows org
      ⟨Instant.ofMicros f, Instant.ofMicros t⟩ = .ok reported) :
    reportedFor reported targetId =
        confirmedDowntimeSecs
          (confirmedIncidents bind rows org targetId ⟨Instant.ofMicros f, Instant.ofMicros t⟩ true)
          (Instant.ofMicros f) (Instant.ofMicros t) now ↔
      ∀ r ∈ leftOut bind rows org targetId ⟨Instant.ofMicros f, Instant.ofMicros t⟩,
        r.countsAsDowntime = true →
          (rowToIncident r).overlapSecs (Instant.ofMicros f) (Instant.ofMicros t) now = 0 := by
  rw [reported_eq hbind hnow hreported, add_eq_left, sum_epochOverlap_eq_zero_iff]
  simp only [overlapSecs_rowToIncident hnow, List.mem_filter, and_imp]

/-! ## A monitor with one incident too many -/

namespace One

/-- A time goes to the database as a whole number of microseconds. -/
def toMicros (t : Instant) : DateTime where
  micros := t.nanos / 1000
  min_le := by
    have := t.min_le
    unfold dayNanos at this
    unfold dayMicros
    omega
  lt_max := by
    have := t.lt_max
    unfold dayNanos at this
    unfold dayMicros
    omega

theorem toMicros_ofMicros (t : DateTime) : toMicros (Instant.ofMicros t) = t := by
  ext
  simp only [toMicros, Instant.ofMicros]
  omega

/-- The time a number of seconds before 10:00 on the first day. -/
def before (n : Nat) : DateTime where
  micros := (36000 - n : Nat) * 1000000
  min_le := by unfold minDay dayMicros; omega
  lt_max := by unfold maxDay dayMicros; omega

/-- Down for a second, `2 n` seconds before the hour. -/
def blink (n : Nat) : IncidentRow where
  orgId := 1
  id := n
  targetId := some 7
  startedAt := before (2 * n + 2)
  endedAt := some (before (2 * n + 1))
  severity := "major"
  statusAtStart := "down"
  checkCount := 1
  errorSample := none
  countsAsDowntime := true
  publicTitle := none
  publicDescription := none
  durationSecs := some 1
  createdAt := before (2 * n + 2)
  updatedAt := before (2 * n + 1)
  regionsDown := none
  regionsUp := none

/-- Ten hours with 2001 incidents of a second each, newest first. -/
def crowd : List IncidentRow := (List.range 2001).map blink

def tenHours : TimeRange := ⟨Instant.ofMicros (before 36000), Instant.ofMicros (before 0)⟩

theorem crowd_charged : charged toMicros crowd 1 tenHours = crowd := by
  unfold charged tenHours
  rw [List.filter_eq_self]
  intro r hr
  obtain ⟨n, hn, rfl⟩ := List.mem_map.mp hr
  rw [List.mem_range] at hn
  simp [toMicros_ofMicros, DateTime.lt_iff, DateTime.le_iff, blink, before]
  omega

theorem crowd_selected : selected toMicros crowd 1 7 tenHours false = crowd := by
  unfold selected tenHours
  have hall : crowd.filter (fun r => r.orgId = 1 && r.targetId = some 7 &&
      decide (r.startedAt < toMicros (Instant.ofMicros (before 0))) &&
      r.endedAt.all (fun e => decide (toMicros (Instant.ofMicros (before 36000)) ≤ e)) &&
      (!false || r.endedAt.isNone)) = crowd := by
    rw [List.filter_eq_self]
    intro r hr
    obtain ⟨n, hn, rfl⟩ := List.mem_map.mp hr
    rw [List.mem_range] at hn
    simp [toMicros_ofMicros, DateTime.lt_iff, DateTime.le_iff, blink, before]
    omega
  rw [hall]
  apply List.Pairwise.insertionSort_eq
  unfold crowd
  rw [List.pairwise_map]
  refine List.pairwise_lt_range.imp_of_mem ?_
  intro n m _ hm hlt
  rw [List.mem_range] at hm
  unfold NewestFirst
  rw [DateTime.lt_iff]
  simp only [blink, before]
  omega

theorem epochOverlap_blink {n : Nat} (hn : n < 2001) :
    epochOverlap (before 36000) (before 0) (blink n) = 1 := by
  unfold epochOverlap
  rw [DateTime.micros_min, DateTime.micros_max]
  simp only [blink, before, Option.getD_some]
  omega

theorem sum_crowd :
    (crowd.map (epochOverlap (before 36000) (before 0))).sum = 2001 := by
  have hones : crowd.map (epochOverlap (before 36000) (before 0)) = List.replicate 2001 1 := by
    rw [List.eq_replicate_iff]
    refine ⟨by simp [crowd], fun b hb => ?_⟩
    obtain ⟨r, hr, rfl⟩ := List.mem_map.mp hb
    obtain ⟨n, hn, rfl⟩ := List.mem_map.mp hr
    exact epochOverlap_blink (List.mem_range.mp hn)
  rw [hones, List.sum_replicate]
  rfl

theorem crowd_reported :
    confirmedDowntimeByTarget toMicros crowd 1 tenHours = .ok [(7, 2001)] := by
  have hkeys : (crowd.filterMap IncidentRow.targetId).dedup = [7] := by
    have hsevens : crowd.filterMap IncidentRow.targetId = List.replicate 2001 7 := by
      unfold crowd
      rw [List.filterMap_map]
      have hsome : IncidentRow.targetId ∘ blink = some ∘ fun _ => 7 := rfl
      rw [hsome, List.filterMap_eq_map, List.map_const', List.length_range]
    rw [hsevens, List.replicate_dedup (Nat.succ_ne_zero 2000)]
  have hall : crowd.filter (fun r => r.targetId = some 7) = crowd := by
    rw [List.filter_eq_self]
    intro r hr
    obtain ⟨n, -, rfl⟩ := List.mem_map.mp hr
    rfl
  have hsum : groupSum toMicros crowd 1 tenHours 7 = .ok 2001 := by
    unfold groupSum
    rw [crowd_charged, hall]
    unfold tenHours
    rw [toMicros_ofMicros, toMicros_ofMicros, sum_crowd]
    rfl
  unfold confirmedDowntimeByTarget
  rw [crowd_charged, hkeys, List.mapM_cons, hsum]
  rfl

/-- One incident too many: the two figures are not the same, and it is one that counts. -/
theorem downtime_agrees_iff_crowd :
    reportedFor [(7, 2001)] 7 =
        confirmedDowntimeSecs (confirmedIncidents toMicros crowd 1 7 tenHours true)
          tenHours.winFrom tenHours.winTo tenHours.winTo ↔
      ∀ r ∈ leftOut toMicros crowd 1 7 tenHours, r.countsAsDowntime = true →
        (rowToIncident r).overlapSecs tenHours.winFrom tenHours.winTo tenHours.winTo = 0 :=
  downtime_agrees_iff toMicros toMicros_ofMicros crowd 1 7 (before 36000) (before 0)
    (Instant.ofMicros (before 0)) (le_refl _) [(7, 2001)] crowd_reported

/-- Half a microsecond into the first second. -/
def late : Instant where
  nanos := 500
  min_le := by decide
  lt_max := by decide

/-- The page leaves the oldest of 2001 incidents out; and a range that begins between two
microseconds cuts the last second of an outage short on the detail page only. -/
theorem figures_differ :
    (confirmedDowntimeByTarget toMicros crowd 1 tenHours = .ok [(7, 2001)] ∧
        confirmedDowntimeSecs (confirmedIncidents toMicros crowd 1 7 tenHours true)
          tenHours.winFrom tenHours.winTo tenHours.winTo = 2000) ∧
      confirmedDowntimeByTarget toMicros [blink 17999] 1 ⟨late, Instant.ofMicros (before 0)⟩ =
          .ok [(7, 1)] ∧
        confirmedDowntimeSecs
          (confirmedIncidents toMicros [blink 17999] 1 7 ⟨late, Instant.ofMicros (before 0)⟩ true)
          late (Instant.ofMicros (before 0)) (Instant.ofMicros (before 0)) = 0 := by
  refine ⟨⟨crowd_reported, ?_⟩, by decide, by decide⟩
  have hsplit := @reported_eq toMicros crowd 1 7 (before 36000) (before 0)
    (Instant.ofMicros (before 0)) [(7, 2001)] toMicros_ofMicros (le_refl _) crowd_reported
  have hleft : leftOut toMicros crowd 1 7 tenHours = [blink 2000] := by
    unfold leftOut
    rw [crowd_selected]
    unfold crowd confirmedUptimeIncidentCap
    rw [← List.map_drop, List.range_eq_range', List.drop_range']
    rfl
  have hone := @epochOverlap_blink 2000 (by omega)
  have htotal : reportedFor [(7, 2001)] 7 = 2001 := rfl
  have hkept : [blink 2000].filter IncidentRow.countsAsDowntime = [blink 2000] := rfl
  unfold tenHours at hleft ⊢
  rw [htotal, hleft, hkept, List.map_cons, List.map_nil, List.sum_cons, List.sum_nil, hone]
    at hsplit
  dsimp only
  omega

end One

end Uptimepage.Narration

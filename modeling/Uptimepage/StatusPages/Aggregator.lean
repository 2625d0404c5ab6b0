import Uptimepage.Chrono.DateTime
import Uptimepage.Domain.Incident
import Uptimepage.Text.Replace
import Uptimepage.Text.Slice

/-!
# The public snapshot's day strips and markers

`paint_strips` of `public_status/aggregator.rs`, with the classifiers of
`public_status/overall_status.rs` it uses.
-/

namespace Uptimepage.PublicStatus

open Chrono

/-- The `Ord` of the source ranks by severity. -/
inductive IncidentImpact
  | degraded
  | partialOutage
  | majorOutage
deriving DecidableEq

def IncidentImpact.rank : IncidentImpact → Nat
  | degraded => 0
  | partialOutage => 1
  | majorOutage => 2

inductive DayState
  | operational
  | degraded
  | partialOutage
  | majorOutage
  | maintenance
  | noData
deriving DecidableEq

def incidentImpact (degraded anyRegionUp : Bool) : IncidentImpact :=
  if degraded then .degraded
  else if anyRegionUp then .partialOutage
  else .majorOutage

/-- An incident always paints, even with zero recorded checks. -/
def dayState (hasChecks : Bool) : Option IncidentImpact → DayState
  | some .majorOutage => .majorOutage
  | some .partialOutage => .partialOutage
  | some .degraded => .degraded
  | none => if hasChecks then .operational else .noData

/-- The impact a cell shows. -/
def DayState.impact? : DayState → Option IncidentImpact
  | .degraded => some .degraded
  | .partialOutage => some .partialOutage
  | .majorOutage => some .majorOutage
  | .operational | .maintenance | .noData => none

@[simp] theorem impact?_dayState (hasChecks : Bool) (worst : Option IncidentImpact) :
    (dayState hasChecks worst).impact? = worst := by
  cases worst with
  | none => cases hasChecks <;> rfl
  | some impact => cases impact <;> rfl

def severityFromDbStr (s : String) : IncidentSeverity :=
  if s = "minor" then .minor
  else if s = "critical" then .critical
  else .major

/-! ## Rows -/

structure PaintWindowRow where
  targetId : Uuid
  statusAtStart : String
  severity : String
  origin : String
  regionsUp : Option (List String)
  startedAt : DateTime
  endedAt : Option DateTime

/-- Manual incidents carry the operator's severity, the others what the probes saw. -/
def PaintWindowRow.impact (w : PaintWindowRow) : IncidentImpact :=
  if w.origin = "manual" then
    match severityFromDbStr w.severity with
    | .minor => .degraded
    | .major => .partialOutage
    | .critical => .majorOutage
  else
    incidentImpact (w.statusAtStart == "degraded") (w.regionsUp.any fun r => !r.isEmpty)

structure HistoryDayRow where
  targetId : Uuid
  /-- seconds since the epoch -/
  day : Int
  dayTotal : Nat

/-- `HistoryIncidentMarker`. -/
structure Marker where
  id : Uuid
  componentId : Uuid
  title : String
  startedAt : DateTime
  endedAt : Option DateTime

/-! ## Texts -/

/-- `&s[..n]`. -/
def sliceTo (s : String) (n : Nat) : Except Panic String :=
  match Text.sliceTo? s.toList n with
  | some p => .ok (String.ofList p)
  | none => .error .charBoundary

/-- `String::len`. -/
def byteLen (s : String) : Nat := Text.byteLen s.toList

/-! ## Strips -/

/-- `unwrap_or_else(Utc::now)`: a day outside the calendar reads as the clock. -/
def tsToDatetime (clock : DateTime) (secs : Int) : DateTime :=
  if h : minDay * dayMicros ≤ secs * 1000000 ∧ secs * 1000000 < (maxDay + 1) * dayMicros then
    ⟨secs * 1000000, h.1, h.2⟩
  else clock

/-- The slot of a day in the oldest-first strip. -/
def daysAgoIndex (day : NaiveDate) (now : DateTime) (historyDays : Nat) : Option Nat :=
  let diff := now.dateNaive.days - day.days
  if diff < 0 ∨ (historyDays : Int) ≤ diff then none
  else some ((historyDays : Int) - 1 - diff).toNat

def maxImpact : Option IncidentImpact → IncidentImpact → Option IncidentImpact
  | none, impact => some impact
  | some worst, impact => some (if worst.rank ≤ impact.rank then impact else worst)

/-- The body of the walk. -/
def paintDay (now : DateTime) (spanDays : Nat) (impact : IncidentImpact) (d : NaiveDate)
    (slots : List (Option IncidentImpact)) : List (Option IncidentImpact) :=
  match daysAgoIndex d now spanDays with
  | some i => slots.set i (maxImpact (slots.getD i none) impact)
  | none => slots

/-- The walk over the days of one window, from `d` on. -/
def paintDays (now stop : DateTime) (spanDays : Nat) (impact : IncidentImpact) (d : NaiveDate)
    (slots : List (Option IncidentImpact)) : List (Option IncidentImpact) :=
  if d.midnight < stop then
    match _h : d.succOpt with
    | some next =>
      paintDays now stop spanDays impact next (paintDay now spanDays impact d slots)
    | none => paintDay now spanDays impact d slots
  else slots
termination_by (maxDay - d.days).toNat
decreasing_by
  have := NaiveDate.succOpt_eq_some _h
  have := next.le_max
  omega

/-- `has_data`, a flag for each day with checks. -/
def hasData (clock : DateTime) (presence : List HistoryDayRow) (now : DateTime) (spanDays : Nat) :
    Uuid → Option (List Bool) :=
  (presence.filter fun r => 0 < r.dayTotal).foldl (fun data r =>
    match daysAgoIndex (tsToDatetime clock r.day).dateNaive now spanDays with
    | some i => Function.update data r.targetId
        (some (((data r.targetId).getD (List.replicate spanDays false)).set i true))
    | none => data) fun _ => none

/-- One window, onto the slots of its component. -/
def paintWindow (now since : DateTime) (spanDays : Nat)
    (worst : Uuid → Option (List (Option IncidentImpact))) (w : PaintWindowRow) :
    Uuid → Option (List (Option IncidentImpact)) :=
  let slots := (worst w.targetId).getD (List.replicate spanDays none)
  let stop := min (w.endedAt.getD now) now
  Function.update worst w.targetId
    (some (paintDays now stop spanDays w.impact (max w.startedAt since).dateNaive slots))

def paintStrips (clock : DateTime) (componentIds : List Uuid) (presence : List HistoryDayRow)
    (windows : List PaintWindowRow) (now : DateTime) (spanDays : Nat) :
    Except Panic (Uuid → Option (List DayState)) := do
  let since ← now.subDays spanDays
  let data := hasData clock presence now spanDays
  let worst := windows.foldl (paintWindow now since spanDays) fun _ => none
  .ok fun id =>
    if id ∈ componentIds then
      some ((List.range spanDays).map fun i =>
        dayState ((data id).any fun v => v.getD i false) ((worst id).bind fun v => v.getD i none))
    else none

/-! ## Which cells a window paints -/

def slotDay (now : DateTime) (spanDays i : Nat) : Int :=
  now.dateNaive.days - ((spanDays : Int) - 1 - i)

section

variable {now stop since : DateTime} {spanDays i : Nat} {impact : IncidentImpact} {d : NaiveDate}
  {slots : List (Option IncidentImpact)}

theorem daysAgoIndex_eq_some_iff (hi : i < spanDays) :
    daysAgoIndex d now spanDays = some i ↔ d.days = slotDay now spanDays i := by
  simp only [daysAgoIndex, slotDay]
  split
  · constructor
    · intro h
      cases h
    · intro h
      omega
  · rw [Option.some.injEq]
    omega

theorem paintDay_length : (paintDay now spanDays impact d slots).length = slots.length := by
  unfold paintDay
  split
  · exact List.length_set
  · rfl

theorem paintDay_getD (hlen : slots.length = spanDays) (hi : i < spanDays) :
    (paintDay now spanDays impact d slots).getD i none =
      if d.days = slotDay now spanDays i then maxImpact (slots.getD i none) impact
      else slots.getD i none := by
  simp only [← daysAgoIndex_eq_some_iff hi]
  unfold paintDay
  cases hj : daysAgoIndex d now spanDays with
  | none => simp
  | some j =>
    by_cases hji : j = i
    · subst hji
      simp [List.getD_eq_getElem?_getD, hlen, hi]
    · simp [List.getD_eq_getElem?_getD, List.getElem?_set_ne hji, hji]

theorem slotDay_le (hi : i < spanDays) : slotDay now spanDays i ≤ now.dateNaive.days := by
  unfold slotDay
  omega

theorem paintDays_getD (hlen : slots.length = spanDays) (hi : i < spanDays) :
    (paintDays now stop spanDays impact d slots).getD i none =
      if d.days ≤ slotDay now spanDays i ∧ slotDay now spanDays i * dayMicros < stop.micros
      then maxImpact (slots.getD i none) impact else slots.getD i none := by
  have hnow : slotDay now spanDays i ≤ now.dateNaive.days := slotDay_le hi
  have hmax := now.dateNaive.le_max
  fun_induction paintDays now stop spanDays impact d slots with
  | case1 d slots hlt next hnext ih =>
    rw [DateTime.lt_iff, NaiveDate.midnight_micros] at hlt
    rw [ih (paintDay_length.trans hlen), paintDay_getD hlen hi, NaiveDate.succOpt_eq_some hnext]
    by_cases heq : d.days = slotDay now spanDays i
    · rw [if_pos heq, if_neg (by omega), if_pos ⟨by omega, heq ▸ hlt⟩]
    · have hlater : d.days + 1 ≤ slotDay now spanDays i ↔ d.days ≤ slotDay now spanDays i := by
        omega
      rw [if_neg heq]
      exact if_congr (and_congr_left' hlater) rfl rfl
  | case2 d slots hlt hnone =>
    rw [DateTime.lt_iff, NaiveDate.midnight_micros] at hlt
    -- the calendar ends here, so no slot is of a later day
    have hlast := NaiveDate.succOpt_eq_none hnone
    rw [paintDay_getD hlen hi]
    exact if_congr ⟨fun heq => ⟨by omega, heq ▸ hlt⟩, fun h => by omega⟩ rfl rfl
  | case3 d slots hge =>
    rw [DateTime.lt_iff, NaiveDate.midnight_micros] at hge
    rw [if_neg]
    rintro ⟨hle, hbefore⟩
    apply hge
    unfold dayMicros at *
    omega

theorem paintDays_length :
    (paintDays now stop spanDays impact d slots).length = slots.length := by
  fun_induction paintDays now stop spanDays impact d slots with
  | case1 d slots _ next _ ih => rw [ih, paintDay_length]
  | case2 d slots _ _ => exact paintDay_length
  | case3 => rfl

/-! ## Strips -/

/-- The window shows on the day of slot `i`. -/
def PaintWindowRow.Paints (w : PaintWindowRow) (now : DateTime) (day : Int) : Prop :=
  w.startedAt.dateNaive.days ≤ day ∧
    day * dayMicros < (min (w.endedAt.getD now) now).micros

instance (w : PaintWindowRow) (day : Int) : Decidable (w.Paints now day) :=
  inferInstanceAs (Decidable (_ ∧ _))

/-- The impacts that show on a day of a component. -/
def shown (windows : List PaintWindowRow) (id : Uuid) (now : DateTime) (day : Int) :
    List IncidentImpact :=
  (windows.filter fun w => w.targetId = id ∧ w.Paints now day).map PaintWindowRow.impact

theorem mem_shown {windows : List PaintWindowRow} {id : Uuid} {day : Int} :
    impact ∈ shown windows id now day ↔
      ∃ w ∈ windows, w.targetId = id ∧ w.Paints now day ∧ w.impact = impact := by
  simp [shown, and_assoc]

variable {worst : Uuid → Option (List (Option IncidentImpact))} {id : Uuid}

/-- The slots of every component are as long as the strip. -/
def SlotsFit (spanDays : Nat) (worst : Uuid → Option (List (Option IncidentImpact))) : Prop :=
  ∀ id slots, worst id = some slots → slots.length = spanDays

/-- The cell of slot `i` of a component. -/
def cell (worst : Uuid → Option (List (Option IncidentImpact))) (id : Uuid) (i : Nat) :
    Option IncidentImpact :=
  (worst id).bind fun v => v.getD i none

theorem le_slotDay_iff (hsince : now.subDays spanDays = .ok since) (started : DateTime) :
    (max started since).dateNaive.days ≤ slotDay now spanDays i ↔
      started.dateNaive.days ≤ slotDay now spanDays i := by
  have hmicros := DateTime.subDays_eq_ok.1 hsince
  simp only [DateTime.dateNaive, DateTime.micros_max, slotDay]
  unfold dayMicros at *
  omega

theorem slotsFit_paintWindow (hfit : SlotsFit spanDays worst) (w : PaintWindowRow) :
    SlotsFit spanDays (paintWindow now since spanDays worst w) := by
  intro id slots h
  unfold paintWindow at h
  by_cases hid : id = w.targetId
  · subst hid
    rw [Function.update_self, Option.some.injEq] at h
    subst h
    rw [paintDays_length]
    cases hslots : worst w.targetId with
    | none => exact List.length_replicate
    | some slots => exact hfit _ _ hslots
  · rw [Function.update_of_ne hid] at h
    exact hfit _ _ h

theorem cell_paintWindow (hsince : now.subDays spanDays = .ok since) (hi : i < spanDays)
    (hfit : SlotsFit spanDays worst) (w : PaintWindowRow) :
    cell (paintWindow now since spanDays worst w) id i =
      if w.targetId = id ∧ w.Paints now (slotDay now spanDays i)
      then maxImpact (cell worst id i) w.impact else cell worst id i := by
  unfold cell paintWindow
  by_cases hid : id = w.targetId
  · subst hid
    have hlen : ((worst w.targetId).getD (List.replicate spanDays none)).length = spanDays := by
      cases hslots : worst w.targetId with
      | none => exact List.length_replicate
      | some slots => exact hfit _ _ hslots
    have hold : ((worst w.targetId).getD (List.replicate spanDays none)).getD i none =
        (worst w.targetId).bind fun v => v.getD i none := by
      cases worst w.targetId with
      | none => simp [List.getD_eq_getElem?_getD, hi]
      | some slots => rfl
    rw [Function.update_self, Option.bind_some, paintDays_getD hlen hi, hold]
    exact if_congr ((and_congr_left' (le_slotDay_iff hsince w.startedAt)).trans
      (and_iff_right rfl).symm) rfl rfl
  · rw [Function.update_of_ne hid, if_neg fun h => hid h.1.symm]

theorem cell_foldl_paintWindow (hsince : now.subDays spanDays = .ok since) (hi : i < spanDays)
    (hfit : SlotsFit spanDays worst) (windows : List PaintWindowRow) :
    cell (windows.foldl (paintWindow now since spanDays) worst) id i =
      (shown windows id now (slotDay now spanDays i)).foldl maxImpact (cell worst id i) := by
  unfold shown
  induction windows generalizing worst with
  | nil => rfl
  | cons w windows ih =>
    rw [List.foldl_cons, ih (slotsFit_paintWindow hfit w), cell_paintWindow hsince hi hfit,
      List.filter_cons]
    by_cases hw : w.targetId = id ∧ w.Paints now (slotDay now spanDays i)
    · rw [if_pos hw, if_pos (decide_eq_true hw), List.map_cons, List.foldl_cons]
    · rw [if_neg hw, if_neg (by simpa using hw)]

variable {clock : DateTime} {componentIds : List Uuid} {presence : List HistoryDayRow}
  {windows : List PaintWindowRow} {strips : Uuid → Option (List DayState)} {strip : List DayState}

theorem exists_strip
    (h : paintStrips clock componentIds presence windows now spanDays = .ok strips)
    (hid : id ∈ componentIds) : ∃ strip, strips id = some strip := by
  unfold paintStrips at h
  obtain ⟨since, -, h⟩ := bind_eq_ok_iff.1 h
  cases h
  exact ⟨_, if_pos hid⟩

theorem paintStrips_length
    (h : paintStrips clock componentIds presence windows now spanDays = .ok strips)
    (hstrip : strips id = some strip) : strip.length = spanDays := by
  unfold paintStrips at h
  obtain ⟨since, -, h⟩ := bind_eq_ok_iff.1 h
  cases h
  dsimp only at hstrip
  split at hstrip
  · cases hstrip
    rw [List.length_map, List.length_range]
  · cases hstrip

theorem paintStrips_cell
    (h : paintStrips clock componentIds presence windows now spanDays = .ok strips)
    (hstrip : strips id = some strip) {state : DayState} (hstate : strip[i]? = some state) :
    state = dayState ((hasData clock presence now spanDays id).any fun v => v.getD i false)
      ((shown windows id now (slotDay now spanDays i)).foldl maxImpact none) := by
  have hlen := paintStrips_length h hstrip
  have hi : i < spanDays := hlen ▸ (List.getElem?_eq_some_iff.mp hstate).1
  have hfit : SlotsFit spanDays fun _ => none := fun _ _ hnone => by cases hnone
  unfold paintStrips at h
  obtain ⟨since, hsince, h⟩ := bind_eq_ok_iff.1 h
  cases h
  dsimp only at hstrip
  split at hstrip
  · cases hstrip
    rw [List.getElem?_map, List.getElem?_range hi] at hstate
    cases hstate
    exact congrArg _ (cell_foldl_paintWindow hsince hi hfit windows)
  · cases hstrip

/-! ## What a cell shows -/

def HistoryDayRow.HasChecks (r : HistoryDayRow) (clock : DateTime) (day : Int) : Prop :=
  0 < r.dayTotal ∧ (tsToDatetime clock r.day).dateNaive.days = day

theorem hasData_concat (r : HistoryDayRow) :
    hasData clock (presence ++ [r]) now spanDays =
      match decide (0 < r.dayTotal),
        daysAgoIndex (tsToDatetime clock r.day).dateNaive now spanDays with
      | true, some i => Function.update (hasData clock presence now spanDays) r.targetId
          (some (((hasData clock presence now spanDays r.targetId).getD
            (List.replicate spanDays false)).set i true))
      | _, _ => hasData clock presence now spanDays := by
  unfold hasData
  rw [List.filter_append, List.foldl_append]
  by_cases hpos : 0 < r.dayTotal
  · simp only [List.filter_cons, hpos, decide_true, if_true, List.filter_nil, List.foldl_cons,
      List.foldl_nil]
    split <;> simp_all
  · simp [hpos]

theorem hasData_fits (presence : List HistoryDayRow) {v : List Bool}
    (h : hasData clock presence now spanDays id = some v) : v.length = spanDays := by
  induction presence using List.reverseRecOn generalizing id v with
  | nil => cases h
  | append_singleton presence r ih =>
    rw [hasData_concat] at h
    split at h
    · by_cases hid : id = r.targetId
      · subst hid
        rw [Function.update_self] at h
        cases h
        rw [List.length_set]
        cases hv : hasData clock presence now spanDays r.targetId with
        | none => exact List.length_replicate
        | some v => exact ih hv
      · rw [Function.update_of_ne hid] at h
        exact ih h
    · exact ih h

theorem hasData_iff (hi : i < spanDays) (presence : List HistoryDayRow) :
    ((hasData clock presence now spanDays id).any fun v => v.getD i false) = true ↔
      ∃ r ∈ presence, r.targetId = id ∧ r.HasChecks clock (slotDay now spanDays i) := by
  induction presence using List.reverseRecOn with
  | nil => simp [hasData]
  | append_singleton presence r ih =>
    have hor : (∃ s ∈ presence ++ [r], s.targetId = id ∧
        s.HasChecks clock (slotDay now spanDays i)) ↔
        ((hasData clock presence now spanDays id).any fun v => v.getD i false) = true ∨
          r.targetId = id ∧ r.HasChecks clock (slotDay now spanDays i) := by
      rw [ih]
      simp [or_and_right, exists_or]
    rw [hor, hasData_concat, HistoryDayRow.HasChecks, ← daysAgoIndex_eq_some_iff hi]
    split
    next j hpos hj =>
      by_cases hid : id = r.targetId
      · subst hid
        have hlen : ((hasData clock presence now spanDays r.targetId).getD
            (List.replicate spanDays false)).length = spanDays := by
          cases hv : hasData clock presence now spanDays r.targetId with
          | none => exact List.length_replicate
          | some v => exact hasData_fits presence hv
        have hold : ((hasData clock presence now spanDays r.targetId).getD
            (List.replicate spanDays false)).getD i false =
            (hasData clock presence now spanDays r.targetId).any fun v => v.getD i false := by
          cases hasData clock presence now spanDays r.targetId with
          | none => simp [List.getD_eq_getElem?_getD, hi]
          | some v => rfl
        rw [Function.update_self, Option.any_some, ← hold, hj]
        by_cases hji : j = i
        · subst hji
          simp [List.getD_eq_getElem?_getD, hlen, hi, of_decide_eq_true hpos]
        · simp [List.getD_eq_getElem?_getD, List.getElem?_set_ne hji, hji]
      · rw [Function.update_of_ne hid]
        simp [Ne.symm hid]
    next hskip =>
      constructor
      · exact .inl
      · rintro (h | ⟨-, hpos, hj⟩)
        · exact h
        · exact absurd hj (hskip i (decide_eq_true hpos))

/-- The state of a day: the worst impact that shows on it, or whether it has checks. -/
def IsDayState (impacts : IncidentImpact → Prop) (checked : Prop) (state : DayState) : Prop :=
  (∃ impact, state.impact? = some impact ∧ impacts impact ∧
    ∀ other, impacts other → other.rank ≤ impact.rank) ∨
  (∀ impact, ¬ impacts impact) ∧
    (state = .operational ∧ checked ∨ state = .noData ∧ ¬ checked)

theorem foldl_maxImpact (first : IncidentImpact) (impacts : List IncidentImpact) :
    ∃ worst ∈ first :: impacts, impacts.foldl maxImpact (some first) = some worst ∧
      ∀ other ∈ first :: impacts, other.rank ≤ worst.rank := by
  induction impacts generalizing first with
  | nil => exact ⟨first, by simp⟩
  | cons next impacts ih =>
    obtain ⟨worst, hmem, heq, hle⟩ := ih (if first.rank ≤ next.rank then next else first)
    refine ⟨worst, ?_, heq, ?_⟩ <;> grind

theorem isDayState_dayState (impacts : List IncidentImpact) (checked : Bool) :
    IsDayState (· ∈ impacts) (checked = true) (dayState checked (impacts.foldl maxImpact none)) := by
  cases impacts with
  | nil => cases checked <;> simp [IsDayState, dayState, DayState.impact?]
  | cons first impacts =>
    obtain ⟨worst, hmem, heq, hle⟩ := foldl_maxImpact first impacts
    exact .inl ⟨worst, (impact?_dayState _ _).trans heq, hmem, hle⟩

theorem paintStrips_state
    (h : paintStrips clock componentIds presence windows now spanDays = .ok strips)
    (hstrip : strips id = some strip) {state : DayState} (hstate : strip[i]? = some state) :
    IsDayState (fun impact => ∃ w ∈ windows, w.targetId = id ∧
        w.Paints now (slotDay now spanDays i) ∧ w.impact = impact)
      (∃ r ∈ presence, r.targetId = id ∧ r.HasChecks clock (slotDay now spanDays i)) state := by
  have hi : i < spanDays :=
    paintStrips_length h hstrip ▸ (List.getElem?_eq_some_iff.mp hstate).1
  rw [paintStrips_cell h hstrip hstate]
  simpa only [mem_shown, hasData_iff hi] using isDayState_dayState
    (shown windows id now (slotDay now spanDays i))
    ((hasData clock presence now spanDays id).any fun v => v.getD i false)

theorem paintStrips_impact_iff
    (h : paintStrips clock componentIds presence windows now spanDays = .ok strips)
    (hstrip : strips id = some strip) {state : DayState} (hstate : strip[i]? = some state) :
    state.impact?.isSome = true ↔
      ∃ w ∈ windows, w.targetId = id ∧ w.Paints now (slotDay now spanDays i) := by
  rcases paintStrips_state h hstrip hstate with ⟨impact, hsome, hshown, -⟩ | ⟨hnone, hstate⟩
  · obtain ⟨w, hw, hid, hpaints, -⟩ := hshown
    exact iff_of_true (hsome ▸ rfl) ⟨w, hw, hid, hpaints⟩
  · refine iff_of_false ?_ fun ⟨w, hw, hid, hpaints⟩ => hnone _ ⟨w, hw, hid, hpaints, rfl⟩
    rcases hstate with ⟨rfl, -⟩ | ⟨rfl, -⟩ <;> exact Bool.false_ne_true

theorem maxImpact_comm (worst : Option IncidentImpact) (a b : IncidentImpact) :
    maxImpact (maxImpact worst a) b = maxImpact (maxImpact worst b) a := by
  cases a <;> cases b <;> rcases worst with _ | (_ | _ | _) <;> rfl

theorem paintStrips_perm {others : List PaintWindowRow} (hperm : others.Perm windows) :
    paintStrips clock componentIds presence others now spanDays =
      paintStrips clock componentIds presence windows now spanDays := by
  unfold paintStrips
  cases hsince : now.subDays spanDays with
  | error _ => rfl
  | ok since =>
    have hfit : SlotsFit spanDays fun _ => none := fun _ _ hnone => by cases hnone
    have hcell : ∀ id i, i < spanDays →
        cell (others.foldl (paintWindow now since spanDays) fun _ => none) id i =
          cell (windows.foldl (paintWindow now since spanDays) fun _ => none) id i := by
      intro id i hi
      rw [cell_foldl_paintWindow hsince hi hfit, cell_foldl_paintWindow hsince hi hfit]
      exact ((hperm.filter _).map _).foldl_eq' (fun a _ b _ worst => maxImpact_comm worst a b) _
    refine congrArg Except.ok (funext fun id => ite_congr rfl (fun _ => ?_) fun _ => rfl)
    refine congrArg some (List.map_congr_left fun i hi => congrArg _ ?_)
    exact hcell id i (List.mem_range.mp hi)

theorem returns_paintStrips_iff :
    Returns (paintStrips clock componentIds presence windows now spanDays) ↔
      minDay * dayMicros ≤ now.micros - spanDays * dayMicros := by
  rw [← DateTime.returns_subDays_iff (Int.natCast_nonneg spanDays)]
  unfold paintStrips
  rw [returns_bind_iff]
  exact ⟨fun ⟨since, h, _⟩ => ⟨since, h⟩, fun ⟨since, h⟩ => ⟨since, h, returns_ok _⟩⟩

end

end Uptimepage.PublicStatus

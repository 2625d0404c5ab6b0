import Mathlib
import Uptimepage.StatusPages.Aggregator

/-!
# The view of a public status page

`web/views/public_status/view.rs`: what the templates read, built from the snapshot and the
history markers.  Slicing a string inside a character and leaving `chrono`'s calendar
panic, so the builders return in `Except`.
-/

namespace Uptimepage.PublicStatus

open Chrono

def historyLen : Nat := 90

def rssUrl : String := "/api/public/v1/incidents.rss"

/-! ## The snapshot -/

inductive OverallState
  | operational
  | maintenance
  | minorDisruption
  | partialOutage
  | majorOutage
deriving DecidableEq

inductive PublicComponentStatus
  | operational
  | degraded
  | partialOutage
  | majorOutage
  | maintenance
  | noData
deriving DecidableEq

inductive IncidentStatusPhase
  | investigating
  | identified
  | monitoring
  | resolved
  | postmortem
deriving DecidableEq

structure OverallStatus where
  state : OverallState
  label : String

structure PublicComponent where
  id : Uuid
  name : String
  description : Option String
  currentStatus : PublicComponentStatus
  /-- oldest first -/
  history : List DayState
  detailUrl : Option String

structure PublicComponentGroup where
  name : Option String
  components : List PublicComponent

structure PublicIncidentUpdate where
  postedAt : DateTime
  phase : IncidentStatusPhase
  message : String

/-- The postmortem is set on the detail view only. -/
structure PublicIncident where
  id : Uuid
  componentId : Uuid
  componentName : String
  title : String
  startedAt : DateTime
  endedAt : Option DateTime
  severity : IncidentSeverity
  statusPhase : IncidentStatusPhase
  updates : List PublicIncidentUpdate

structure PublicMaintenance where
  id : Uuid
  title : String
  description : Option String
  startsAt : DateTime
  endsAt : DateTime
  affectedComponentNames : List String

structure PublicStatusPage where
  overall : OverallStatus
  generatedAt : DateTime
  siteName : String
  groups : List PublicComponentGroup
  activeIncidents : List PublicIncident
  recentIncidents : List PublicIncident
  recentIncidentsHasMore : Bool
  activeMaintenance : List PublicMaintenance
  upcomingMaintenance : List PublicMaintenance

/-! ## The view -/

structure DayCell where
  className : String
  ariaLabel : String
  dayIndex : Nat

structure DayRelated where
  title : String
  url : String

structure DayPopoverEntry where
  date : String
  state : String
  stateClass : String
  showBadge : Bool
  downtime : Option String
  related : List DayRelated

structure DayStripComponent where
  name : String
  days : List DayPopoverEntry

structure ComponentView where
  id : String
  name : String
  description : Option String
  statusLabel : String
  statusClass : String
  statusIcon : String
  history : List DayCell
  uptimePct : String
  historySummary : String
  detailUrl : Option String

structure GroupView where
  heading : String
  components : List ComponentView

structure IncidentHeader where
  id : String
  componentName : String
  title : String
  severityLabel : String
  severityClass : String
  phaseLabel : String
  phaseClass : String
  startedAt : DateTime
  ongoing : Bool
  durationSecs : Int

structure IncidentSummary where
  header : IncidentHeader
  endedAt : Option DateTime
  latestMessage : Option String
  permalink : String

structure MaintenanceView where
  id : String
  title : String
  description : Option String
  startsAt : DateTime
  endsAt : DateTime
  affects : String
  /-- `none` once started -/
  startsInSecs : Option Int

structure StatusView where
  siteName : String
  siteTitle : String
  overallLabel : String
  overallClass : String
  overallIcon : String
  overallAria : String
  generatedAt : DateTime
  groups : List GroupView
  activeIncidents : List IncidentSummary
  recentIncidents : List IncidentSummary
  recentIncidentsHasMore : Bool
  activeMaintenance : List MaintenanceView
  upcomingMaintenance : List MaintenanceView
  hasActiveIncident : Bool
  hasMaintenance : Bool
  hasComponents : Bool
  rssUrl : String
  dayStripJson : String

/-- What other crates print: an id, a day as `%-d %b %Y`, the uptime to two decimals, and
the popover blob as JSON. -/
structure Printers where
  uuid : Uuid → String
  date : DateTime → String
  pct (bad withData : Nat) : String
  json : List (String × DayStripComponent) → Option String

/-! ## Classifiers -/

def overallClasses : OverallState → String × String × String
  | .operational => ("public-overall--op", "\u25CF", "All systems operational")
  | .maintenance => ("public-overall--mnt", "\u2699\uFE0E", "Maintenance in progress")
  | .minorDisruption => ("public-overall--minor", "\u26A0\uFE0E", "Minor service disruption")
  | .partialOutage => ("public-overall--part", "\u26A0\uFE0E", "Partial system outage")
  | .majorOutage => ("public-overall--maj", "\u25CF", "Major system outage")

def componentClasses : PublicComponentStatus → String × String × String
  | .operational => ("Operational", "public-cmp--op", "\u25CF")
  | .degraded => ("Degraded", "public-cmp--deg", "\u26A0\uFE0E")
  | .partialOutage => ("Partial outage", "public-cmp--part", "\u26A0\uFE0E")
  | .majorOutage => ("Major outage", "public-cmp--maj", "\u25CF")
  | .maintenance => ("Maintenance", "public-cmp--mnt", "\u2699\uFE0E")
  | .noData => ("No data", "public-cmp--none", "\u25CB")

/-- Bar fill class, human label, popover badge tint class. -/
def dayClasses : DayState → String × String × String
  | .operational => ("day-cell--op", "Operational", "day-pop-status--op")
  | .degraded => ("day-cell--deg", "Degraded", "day-pop-status--deg")
  | .partialOutage => ("day-cell--part", "Partial outage", "day-pop-status--part")
  | .majorOutage => ("day-cell--maj", "Major outage", "day-pop-status--maj")
  | .maintenance => ("day-cell--mnt", "Maintenance", "day-pop-status--mnt")
  | .noData => ("day-cell--none", "No data", "day-pop-status--none")

def severityClasses : IncidentSeverity → String × String
  | .minor => ("Minor", "public-chip public-sev--minor")
  | .major => ("Major", "public-chip public-sev--major")
  | .critical => ("Critical", "public-chip public-sev--critical")

def phaseClasses : IncidentStatusPhase → String × String
  | .investigating => ("Investigating", "public-chip public-phase--investigating")
  | .identified => ("Identified", "public-chip public-phase--identified")
  | .monitoring => ("Monitoring", "public-chip public-phase--monitoring")
  | .resolved => ("Resolved", "public-chip public-phase--resolved")
  | .postmortem => ("Postmortem", "public-chip public-phase--postmortem")

/-! ## Components -/

def buildHistory (component : PublicComponent) (states : List DayState) : List DayCell :=
  let total := max states.length 1
  states.zipIdx.map fun (s, idx) =>
    let (className, label, _) := dayClasses s
    let daysAgo := total - 1 - idx
    { className
      ariaLabel := component.name ++ " (" ++ toString daysAgo ++ " days ago) — " ++ label
      dayIndex := idx }

def DayState.hasData : DayState → Bool
  | .noData => false
  | .operational | .degraded | .partialOutage | .majorOutage | .maintenance => true

def DayState.isBad : DayState → Bool
  | .majorOutage | .partialOutage => true
  | .operational | .degraded | .maintenance | .noData => false

def historyStats (pr : Printers) (states : List DayState) : String × String :=
  let withData := states.countP DayState.hasData
  let bad := states.countP DayState.isBad
  let degraded := states.countP (· == .degraded)
  if withData = 0 then ("—", toString historyLen ++ " days, no data")
  else
    let summary :=
      if bad = 0 ∧ degraded = 0 then toString withData ++ " days, no incidents"
      else if bad = 0 then
        toString withData ++ " days, " ++ toString degraded ++ " degraded"
      else
        toString withData ++ " days, " ++ toString bad ++ " outage" ++
          (if bad = 1 then "" else "s") ++ ", " ++ toString degraded ++ " degraded"
    (pr.pct bad withData, summary)

/-- No live probe: a grey badge whatever the rolled-up status. -/
def buildComponent (pr : Printers) (silenced : Uuid → Bool) (c : PublicComponent) :
    ComponentView :=
  let (statusLabel, statusClass, statusIcon) :=
    if silenced c.id then ("No data", "public-cmp--none", "\u25CB")
    else componentClasses c.currentStatus
  let (uptimePct, historySummary) := historyStats pr c.history
  { id := pr.uuid c.id
    name := c.name
    description := c.description.filter (· ≠ "")
    statusLabel, statusClass, statusIcon
    history := buildHistory c c.history
    uptimePct, historySummary
    detailUrl := c.detailUrl }

def buildGroup (pr : Printers) (silenced : Uuid → Bool) (g : PublicComponentGroup) : GroupView :=
  { heading := g.name.getD "Other"
    components := g.components.map (buildComponent pr silenced) }

/-! ## The popover blob -/

/-- `HumanDur`: the two largest units. -/
def humanDur (secs : Int) : String :=
  let total := max secs 0
  if total < 60 then toString total ++ "s"
  else
    let mins := total / 60
    if mins < 60 then toString mins ++ "m"
    else
      let hours := mins / 60
      let remMins := mins % 60
      if hours < 24 then
        if remMins = 0 then toString hours ++ "h"
        else toString hours ++ "h " ++ toString remMins ++ "m"
      else
        let days := hours / 24
        let remHours := hours % 24
        if remHours = 0 then toString days ++ "d"
        else toString days ++ "d " ++ toString remHours ++ "h"

def humanizeDuration (d : Int) : String := humanDur (TimeDelta.numSeconds d)

/-- One incident of the sum over a day. -/
def addOverlap (pr : Printers) (dayStart dayEnd now : DateTime)
    (found : Int × List DayRelated) (inc : Marker) :
    Except Panic (Int × List DayRelated) :=
  let stop := inc.endedAt.getD now
  if dayEnd ≤ inc.startedAt ∨ stop ≤ dayStart then .ok found
  else do
    let overlapStart := max inc.startedAt dayStart
    let overlapEnd := min stop dayEnd
    let overlap := max (overlapEnd.since overlapStart) 0
    let total ← TimeDelta.add found.1 overlap
    .ok (total, found.2 ++ [⟨inc.title, "/status/incidents/" ++ pr.uuid inc.id⟩])

/-- Sum incident time overlapping `[dayStart, dayEnd)`. -/
def dayOverlap (pr : Printers) (incidents : List Marker) (dayStart dayEnd now : DateTime) :
    Except Panic (Int × List DayRelated) :=
  incidents.foldlM (addOverlap pr dayStart dayEnd now) (0, [])

/-- The popover of one cell of a component's history. -/
def dayEntry (pr : Printers) (markers : List Marker) (now : DateTime) (total : Nat)
    (cell : DayState × Nat) : Except Panic DayPopoverEntry := do
  let daysAgo := total - 1 - cell.2
  let dayStart ← now.dateNaive.midnight.subDays daysAgo
  let dayEnd ← dayStart.addDays 1
  let (downtime, related) ← dayOverlap pr markers dayStart dayEnd now
  let (_, state, stateClass) := dayClasses cell.1
  .ok { date := pr.date dayStart
        state, stateClass
        showBadge := !(cell.1 == .operational || cell.1 == .noData) || !related.isEmpty
        downtime := if 0 < downtime then some (humanizeDuration downtime) else none
        related }

/-- `BTreeMap::insert`, into the entries in the order of their keys. -/
def blobInsert {α : Type} (key : String) (value : α) :
    List (String × α) → List (String × α)
  | [] => [(key, value)]
  | (k, v) :: rest =>
    if key < k then (key, value) :: (k, v) :: rest
    else if key = k then (key, value) :: rest
    else (k, v) :: blobInsert key value rest

/-- Only the component's own incidents, in the order they came. -/
def markersOf (historyMarkers : List Marker) (c : PublicComponent) : List Marker :=
  historyMarkers.filter fun m => m.componentId = c.id

def stripComponent (pr : Printers) (historyMarkers : List Marker) (now : DateTime)
    (blob : List (String × DayStripComponent)) (c : PublicComponent) :
    Except Panic (List (String × DayStripComponent)) := do
  let total := max c.history.length 1
  let days ← c.history.zipIdx.mapM (dayEntry pr (markersOf historyMarkers c) now total)
  .ok (blobInsert (pr.uuid c.id) ⟨c.name, days⟩ blob)

/-- So that a title cannot end the inline `<script>`. -/
def escapeScript (json : String) : String :=
  String.ofList (Text.replace ['&'] "\\u0026".toList
    (Text.replace ['>'] "\\u003e".toList (Text.replace ['<'] "\\u003c".toList json.toList)))

def buildDayStripJson (pr : Printers) (page : PublicStatusPage) (historyMarkers : List Marker)
    (now : DateTime) : Except Panic String := do
  let blob ← page.groups.foldlM (fun blob group =>
    group.components.foldlM (stripComponent pr historyMarkers now) blob) []
  .ok (escapeScript ((pr.json blob).getD "\x7b\x7d"))

/-! ## Incidents and maintenance -/

/-- Never negative; an ongoing incident is clamped to `now`. -/
def elapsedAt (startedAt : DateTime) (endedAt : Option DateTime) (now : DateTime) : Int :=
  max ((endedAt.getD now).since startedAt) 0

def buildIncidentHeader (pr : Printers) (now : DateTime) (i : PublicIncident) : IncidentHeader :=
  let (severityLabel, severityClass) := severityClasses i.severity
  let (phaseLabel, phaseClass) := phaseClasses i.statusPhase
  { id := pr.uuid i.id
    componentName := i.componentName
    title := i.title
    severityLabel, severityClass, phaseLabel, phaseClass
    startedAt := i.startedAt
    ongoing := i.endedAt.isNone
    durationSecs := TimeDelta.numSeconds (elapsedAt i.startedAt i.endedAt now) }

def maxSummary : Nat := 240

/-- The message of the last update, cut at byte 240. -/
def summaryMessage (message : String) : Except Panic String :=
  if maxSummary < byteLen message then do
    let cut ← sliceTo message maxSummary
    .ok (cut ++ "…")
  else .ok message

def latestMessage (i : PublicIncident) : Except Panic (Option String) :=
  match i.updates.getLast? with
  | some u => do .ok (some (← summaryMessage u.message))
  | none => .ok none

def buildIncidentSummary (pr : Printers) (now : DateTime) (i : PublicIncident) :
    Except Panic IncidentSummary := do
  let header := buildIncidentHeader pr now i
  let latestMessage ← latestMessage i
  .ok { header, endedAt := i.endedAt, latestMessage
        permalink := "/status/incidents/" ++ header.id }

def buildMaintenance (pr : Printers) (now : DateTime) (m : PublicMaintenance) : MaintenanceView :=
  { id := pr.uuid m.id
    title := m.title
    description := m.description.filter (· ≠ "")
    startsAt := m.startsAt
    endsAt := m.endsAt
    affects := String.intercalate ", " m.affectedComponentNames
    startsInSecs :=
      if now < m.startsAt then some (TimeDelta.numSeconds (m.startsAt.since now)) else none }

/-! ## The sum over a day -/

section

variable {pr : Printers} {dayStart dayEnd now : DateTime} {inc : Marker}
  {found next : Int × List DayRelated}

/-- The time of an incident within `[dayStart, dayEnd)`, in microseconds. -/
def Marker.overlap (m : Marker) (dayStart dayEnd : Int) (now : DateTime) : Int :=
  max (min (m.endedAt.getD now).micros dayEnd - max m.startedAt.micros dayStart) 0

/-- The link of an incident that touches the day. -/
def Marker.links (pr : Printers) (dayStart dayEnd now : DateTime) (m : Marker) :
    List DayRelated :=
  if dayEnd ≤ m.startedAt ∨ m.endedAt.getD now ≤ dayStart then []
  else [⟨m.title, "/status/incidents/" ++ pr.uuid m.id⟩]

theorem Marker.overlap_nonneg (m : Marker) (dayStart dayEnd : Int) (now : DateTime) :
    0 ≤ m.overlap dayStart dayEnd now := le_max_right _ _

theorem addOverlap_eq_ok_iff (hpos : 0 ≤ found.1)
    (hmax : found.1 ≤ TimeDelta.maxMicros) :
    addOverlap pr dayStart dayEnd now found inc = .ok next ↔
      next.1 = found.1 + inc.overlap dayStart.micros dayEnd.micros now ∧
        next.1 ≤ TimeDelta.maxMicros ∧
        next.2 = found.2 ++ inc.links pr dayStart dayEnd now := by
  have hnonneg := inc.overlap_nonneg dayStart.micros dayEnd.micros now
  unfold addOverlap Marker.links
  dsimp only
  split
  · next hout =>
    have hzero : inc.overlap dayStart.micros dayEnd.micros now = 0 := by
      unfold Marker.overlap
      rw [DateTime.le_iff, DateTime.le_iff] at hout
      omega
    rw [hzero, List.append_nil]
    constructor
    · intro h
      cases h
      exact ⟨by omega, hmax, rfl⟩
    · rintro ⟨htotal, -, hlinks⟩
      exact congrArg Except.ok (Prod.ext (by omega) hlinks.symm)
  · have hsame : max ((min (inc.endedAt.getD now) dayEnd).since (max inc.startedAt dayStart)) 0 =
        inc.overlap dayStart.micros dayEnd.micros now := by
      simp only [Marker.overlap, DateTime.since, DateTime.micros_min, DateTime.micros_max]
    rw [bind_eq_ok_iff, hsame]
    constructor
    · rintro ⟨total, htotal, h⟩
      cases h
      have heq := TimeDelta.checked_eq_ok htotal
      refine ⟨heq, ?_, rfl⟩
      dsimp only
      rw [heq]
      exact (TimeDelta.returns_checked_iff (by omega)).mp ⟨_, htotal⟩
    · rintro ⟨htotal, hle, hlinks⟩
      rw [htotal] at hle
      obtain ⟨total, hok⟩ := (TimeDelta.returns_checked_iff (by omega)).mpr hle
      have heq := TimeDelta.checked_eq_ok hok
      exact ⟨total, hok, congrArg Except.ok
        (Prod.ext (heq.trans htotal.symm) hlinks.symm)⟩

theorem foldlM_addOverlap_eq_ok_iff {incidents : List Marker} (hpos : 0 ≤ found.1)
    (hmax : found.1 ≤ TimeDelta.maxMicros) :
    incidents.foldlM (addOverlap pr dayStart dayEnd now) found = .ok next ↔
      next.1 = found.1 +
          (incidents.map fun m => m.overlap dayStart.micros dayEnd.micros now).sum ∧
        next.1 ≤ TimeDelta.maxMicros ∧
        next.2 = found.2 ++ incidents.flatMap (Marker.links pr dayStart dayEnd now) := by
  induction incidents generalizing found with
  | nil =>
    simp only [List.foldlM_nil, List.map_nil, List.sum_nil, Int.add_zero, List.flatMap_nil,
      List.append_nil]
    constructor
    · intro h
      cases h
      exact ⟨rfl, hmax, rfl⟩
    · rintro ⟨h, -, hlinks⟩
      exact congrArg Except.ok (Prod.ext h.symm hlinks.symm)
  | cons inc incidents ih =>
    have hinc := inc.overlap_nonneg dayStart.micros dayEnd.micros now
    have hrest : 0 ≤ (incidents.map fun m => m.overlap dayStart.micros dayEnd.micros now).sum := by
      apply List.sum_nonneg
      intro x hx
      obtain ⟨m, -, rfl⟩ := List.mem_map.mp hx
      exact m.overlap_nonneg _ _ _
    rw [List.foldlM_cons, bind_eq_ok_iff, List.map_cons, List.sum_cons, List.flatMap_cons]
    constructor
    · rintro ⟨mid, hmid, h⟩
      obtain ⟨htotal, hle, hlinks⟩ := (addOverlap_eq_ok_iff hpos hmax).mp hmid
      obtain ⟨htotal', hle', hlinks'⟩ := (ih (by omega) hle).mp h
      refine ⟨by omega, hle', ?_⟩
      rw [hlinks', hlinks, List.append_assoc]
    · rintro ⟨htotal, hle, hlinks⟩
      refine ⟨(found.1 + inc.overlap dayStart.micros dayEnd.micros now,
        found.2 ++ inc.links pr dayStart dayEnd now),
        (addOverlap_eq_ok_iff hpos hmax).mpr ⟨rfl, ?_, rfl⟩, (ih ?_ ?_).mpr ⟨?_, hle, ?_⟩⟩
      · dsimp only
        omega
      · dsimp only
        omega
      · dsimp only
        omega
      · dsimp only
        omega
      · rw [hlinks, List.append_assoc]

theorem dayOverlap_eq_ok_iff {incidents : List Marker} {total : Int}
    {related : List DayRelated} :
    dayOverlap pr incidents dayStart dayEnd now = .ok (total, related) ↔
      total = (incidents.map fun m => m.overlap dayStart.micros dayEnd.micros now).sum ∧
        total ≤ TimeDelta.maxMicros ∧
        related = incidents.flatMap (Marker.links pr dayStart dayEnd now) := by
  unfold dayOverlap
  rw [foldlM_addOverlap_eq_ok_iff (Int.le_refl 0) (by unfold TimeDelta.maxMicros; omega)]
  simp

theorem returns_dayOverlap_iff {incidents : List Marker} :
    Returns (dayOverlap pr incidents dayStart dayEnd now) ↔
      (incidents.map fun m => m.overlap dayStart.micros dayEnd.micros now).sum ≤
        TimeDelta.maxMicros := by
  constructor
  · rintro ⟨⟨total, related⟩, h⟩
    obtain ⟨rfl, hle, -⟩ := dayOverlap_eq_ok_iff.1 h
    exact hle
  · intro hle
    exact ⟨(_, _), dayOverlap_eq_ok_iff.2 ⟨rfl, hle, rfl⟩⟩

end

/-! ## The page -/

def buildView (pr : Printers) (page : PublicStatusPage) (historyMarkers : List Marker)
    (silenced : Uuid → Bool) : Except Panic StatusView := do
  let now := page.generatedAt
  let groups := page.groups.map (buildGroup pr silenced)
  let dayStripJson ← buildDayStripJson pr page historyMarkers now
  let active ← page.activeIncidents.mapM (buildIncidentSummary pr now)
  let recent ← page.recentIncidents.mapM (buildIncidentSummary pr now)
  let activeM := page.activeMaintenance.map (buildMaintenance pr now)
  let upcomingM := page.upcomingMaintenance.map (buildMaintenance pr now)
  let (overallClass, overallIcon, overallAria) := overallClasses page.overall.state
  .ok { siteName := page.siteName
        siteTitle := page.siteName ++ " Status"
        overallLabel := page.overall.label
        overallClass, overallIcon, overallAria
        generatedAt := now
        groups
        activeIncidents := active
        recentIncidents := recent
        recentIncidentsHasMore := page.recentIncidentsHasMore
        activeMaintenance := activeM
        upcomingMaintenance := upcomingM
        hasActiveIncident := !active.isEmpty
        hasMaintenance := !activeM.isEmpty || !upcomingM.isEmpty
        hasComponents := groups.any fun g => !g.components.isEmpty
        rssUrl
        dayStripJson }

/-! ## When it has a view -/

/-- The calendar has the day and the one after it, and the incidents of the day add up to a
duration. -/
structure DayFits (markers : List Marker) (now : DateTime) (day : Int) : Prop where
  min_le : minDay ≤ day
  lt_max : day < maxDay
  sum_le : (markers.map fun m => m.overlap (day * dayMicros) ((day + 1) * dayMicros) now).sum ≤
    TimeDelta.maxMicros

/-- Every day of the component's history fits. -/
def HistoryFits (historyMarkers : List Marker) (now : DateTime) (c : PublicComponent) : Prop :=
  ∀ idx < c.history.length,
    DayFits (markersOf historyMarkers c) now (slotDay now c.history.length idx)

/-- A message is short, or byte 240 is between two of its characters. -/
def MessageFits (message : String) : Prop :=
  byteLen message ≤ maxSummary ∨ Text.isCharBoundary message.toList maxSummary = true

/-- What the page has to be for its view to be built. -/
structure Renderable (page : PublicStatusPage) (historyMarkers : List Marker) : Prop where
  messages : ∀ i ∈ page.activeIncidents ++ page.recentIncidents, ∀ u ∈ i.updates.getLast?,
    MessageFits u.message
  days : ∀ g ∈ page.groups, ∀ c ∈ g.components, HistoryFits historyMarkers page.generatedAt c

/-- The message as it is, or its first 240 bytes, whole characters, and an ellipsis. -/
def CutWell (message shown : String) : Prop :=
  shown = message ∨
    ∃ p, p <+: message.toList ∧ Text.byteLen p = maxSummary ∧ shown = String.ofList p ++ "…"

/-- The summary of an incident shows the message of its last update. -/
def Summarizes (i : PublicIncident) (s : IncidentSummary) : Prop :=
  match i.updates.getLast? with
  | none => s.latestMessage = none
  | some u => ∃ shown, s.latestMessage = some shown ∧ CutWell u.message shown

section

variable {pr : Printers} {now : DateTime} {page : PublicStatusPage}
  {historyMarkers markers : List Marker} {silenced : Uuid → Bool} {view : StatusView}

theorem returns_summaryMessage_iff {message : String} :
    Returns (summaryMessage message) ↔ MessageFits message := by
  unfold summaryMessage MessageFits sliceTo Text.isCharBoundary
  split
  · next hlong =>
    cases hcut : Text.sliceTo? message.toList maxSummary with
    | none =>
      simp only [Option.isSome_none, Bool.false_eq_true, or_false]
      constructor
      · rintro ⟨r, h⟩
        cases h
      · intro h
        omega
    | some p => exact ⟨fun _ => .inr rfl, fun _ => ⟨_, rfl⟩⟩
  · next hshort => exact ⟨fun _ => .inl (by omega), fun _ => ⟨_, rfl⟩⟩

theorem cutWell_of_summaryMessage {message shown : String}
    (h : summaryMessage message = .ok shown) : CutWell message shown := by
  unfold summaryMessage at h
  split at h
  · obtain ⟨cut, hcut, hshown⟩ := bind_eq_ok_iff.1 h
    cases hshown
    unfold sliceTo at hcut
    split at hcut
    · next p hp =>
      cases hcut
      obtain ⟨hpre, hlen⟩ := Text.sliceTo?_eq_some_iff.1 hp
      exact .inr ⟨p, hpre, hlen, rfl⟩
    · cases hcut
  · cases h
    exact .inl rfl

theorem returns_buildIncidentSummary_iff {i : PublicIncident} :
    Returns (buildIncidentSummary pr now i) ↔
      ∀ u ∈ i.updates.getLast?, MessageFits u.message := by
  unfold buildIncidentSummary latestMessage
  rw [returns_bind_iff]
  cases i.updates.getLast? with
  | none => simp
  | some u =>
    simp only [Option.mem_some_iff, forall_eq', ← returns_summaryMessage_iff]
    constructor
    · rintro ⟨shown, h, -⟩
      obtain ⟨msg, hmsg, -⟩ := bind_eq_ok_iff.1 h
      exact ⟨msg, hmsg⟩
    · rintro ⟨msg, hmsg⟩
      exact ⟨some msg, bind_eq_ok_iff.2 ⟨msg, hmsg, rfl⟩, returns_ok _⟩

theorem summarizes_of_buildIncidentSummary {i : PublicIncident} {s : IncidentSummary}
    (h : buildIncidentSummary pr now i = .ok s) : Summarizes i s := by
  unfold buildIncidentSummary latestMessage at h
  unfold Summarizes
  obtain ⟨latest, hlatest, hs⟩ := bind_eq_ok_iff.1 h
  cases hs
  cases hlast : i.updates.getLast? with
  | none =>
    rw [hlast] at hlatest
    cases hlatest
    rfl
  | some u =>
    rw [hlast] at hlatest
    obtain ⟨shown, hshown, heq⟩ := bind_eq_ok_iff.1 hlatest
    cases heq
    exact ⟨shown, rfl, cutWell_of_summaryMessage hshown⟩

theorem returns_dayEntry_iff {total : Nat} {cell : DayState × Nat} :
    Returns (dayEntry pr markers now total cell) ↔
      DayFits markers now (now.dateNaive.days - ((total - 1 - cell.2 : Nat) : Int)) := by
  generalize hday : now.dateNaive.days - ((total - 1 - cell.2 : Nat) : Int) = day
  have hmicros : now.dateNaive.midnight.micros - ((total - 1 - cell.2 : Nat) : Int) * dayMicros =
      day * dayMicros := by
    rw [← hday, NaiveDate.midnight_micros, Int.sub_mul]
  have hend : day * dayMicros + 1 * dayMicros = (day + 1) * dayMicros := by
    rw [Int.add_mul]
  unfold dayEntry
  rw [returns_bind_iff]
  constructor
  · rintro ⟨dayStart, hstart, h⟩
    obtain ⟨dayEnd, hstop, h⟩ := returns_bind_iff.1 h
    obtain ⟨found, hfound, -⟩ := returns_bind_iff.1 h
    have hs := (DateTime.subDays_eq_ok.1 hstart).trans hmicros
    have he := DateTime.addDays_eq_ok.1 hstop
    rw [hs, hend] at he
    have hsum := returns_dayOverlap_iff.1 ⟨found, hfound⟩
    rw [hs, he] at hsum
    have hmin := dayStart.min_le
    have hlt := dayEnd.lt_max
    rw [hs] at hmin
    rw [he] at hlt
    refine ⟨?_, ?_, hsum⟩ <;> unfold dayMicros at * <;> omega
  · rintro ⟨hmin, hlt, hsum⟩
    obtain ⟨dayStart, hstart⟩ := (DateTime.returns_subDays_iff (t := now.dateNaive.midnight)
      (n := ((total - 1 - cell.2 : Nat) : Int)) (by omega)).mpr (by
        rw [hmicros]
        unfold dayMicros
        omega)
    have hs := (DateTime.subDays_eq_ok.1 hstart).trans hmicros
    obtain ⟨dayEnd, hstop⟩ := (DateTime.returns_addDays_iff (t := dayStart) (n := 1)
      (by omega)).mpr (by
        rw [hs]
        unfold dayMicros
        omega)
    have he := DateTime.addDays_eq_ok.1 hstop
    rw [hs, hend] at he
    have hok : Returns (dayOverlap pr markers dayStart dayEnd now) := by
      rw [returns_dayOverlap_iff, hs, he]
      exact hsum
    obtain ⟨found, hfound⟩ := hok
    exact ⟨dayStart, hstart, returns_bind_iff.2 ⟨dayEnd, hstop,
      returns_bind_iff.2 ⟨found, hfound, returns_ok _⟩⟩⟩

theorem returns_stripComponent_iff {blob : List (String × DayStripComponent)}
    {c : PublicComponent} :
    Returns (stripComponent pr historyMarkers now blob c) ↔ HistoryFits historyMarkers now c := by
  unfold stripComponent
  dsimp only
  rw [returns_bind_iff]
  have hdays : Returns (c.history.zipIdx.mapM (dayEntry pr (markersOf historyMarkers c) now
      (max c.history.length 1))) ↔ HistoryFits historyMarkers now c := by
    rw [returns_mapM_iff]
    have hslot : ∀ idx, idx < c.history.length → now.dateNaive.days -
        ((max c.history.length 1 - 1 - idx : Nat) : Int) = slotDay now c.history.length idx := by
      intro idx hidx
      unfold slotDay
      omega
    constructor
    · intro h idx hidx
      rw [← hslot idx hidx]
      have hmem : (c.history[idx], idx) ∈ c.history.zipIdx :=
        List.mem_zipIdx_iff_getElem?.mpr (List.getElem?_eq_getElem hidx)
      exact returns_dayEntry_iff.1 (h _ hmem)
    · rintro h ⟨state, idx⟩ hcell
      have hidx := (List.getElem?_eq_some_iff.mp (List.mem_zipIdx_iff_getElem?.mp hcell)).1
      rw [returns_dayEntry_iff, hslot idx hidx]
      exact h idx hidx
  rw [← hdays]
  exact ⟨fun ⟨days, h, _⟩ => ⟨days, h⟩, fun ⟨days, h⟩ => ⟨days, h, returns_ok _⟩⟩

theorem returns_buildDayStripJson_iff :
    Returns (buildDayStripJson pr page historyMarkers now) ↔
      ∀ g ∈ page.groups, ∀ c ∈ g.components, HistoryFits historyMarkers now c := by
  have hgroup : ∀ (blob : List (String × DayStripComponent)), ∀ g ∈ page.groups,
      Returns (g.components.foldlM (stripComponent pr historyMarkers now) blob) ↔
        ∀ c ∈ g.components, HistoryFits historyMarkers now c := by
    intro blob g _
    apply returns_foldlM_iff
    intro blob' c _
    exact returns_stripComponent_iff
  have hblob : Returns (page.groups.foldlM (fun blob group =>
      group.components.foldlM (stripComponent pr historyMarkers now) blob) []) ↔
      ∀ g ∈ page.groups, ∀ c ∈ g.components, HistoryFits historyMarkers now c := by
    apply returns_foldlM_iff
    exact hgroup
  unfold buildDayStripJson
  rw [returns_bind_iff, ← hblob]
  exact ⟨fun ⟨blob, h, _⟩ => ⟨blob, h⟩, fun ⟨blob, h⟩ => ⟨blob, h, returns_ok _⟩⟩

theorem returns_buildView_iff :
    Returns (buildView pr page historyMarkers silenced) ↔ Renderable page historyMarkers := by
  unfold buildView
  dsimp only
  rw [returns_bind_iff]
  constructor
  · rintro ⟨json, hjson, h⟩
    obtain ⟨active, hactive, h⟩ := returns_bind_iff.1 h
    obtain ⟨recent, hrecent, -⟩ := returns_bind_iff.1 h
    refine ⟨fun i hi => ?_, returns_buildDayStripJson_iff.1 ⟨json, hjson⟩⟩
    rw [← returns_buildIncidentSummary_iff]
    rcases List.mem_append.mp hi with hi | hi
    · exact returns_mapM_iff.1 ⟨active, hactive⟩ i hi
    · exact returns_mapM_iff.1 ⟨recent, hrecent⟩ i hi
  · rintro ⟨hmessages, hdays⟩
    have hall : ∀ is : List PublicIncident,
        (∀ i ∈ is, i ∈ page.activeIncidents ++ page.recentIncidents) →
        Returns (is.mapM (buildIncidentSummary pr page.generatedAt)) := fun is his =>
      returns_mapM_iff.2 fun i hi =>
        returns_buildIncidentSummary_iff.2 (hmessages i (his i hi))
    obtain ⟨json, hjson⟩ := returns_buildDayStripJson_iff.2 hdays
    obtain ⟨active, hactive⟩ := hall page.activeIncidents fun i hi =>
      List.mem_append_left _ hi
    obtain ⟨recent, hrecent⟩ := hall page.recentIncidents fun i hi =>
      List.mem_append_right _ hi
    exact ⟨json, hjson, returns_bind_iff.2 ⟨active, hactive,
      returns_bind_iff.2 ⟨recent, hrecent, returns_ok _⟩⟩⟩

theorem summarizes_of_buildView (h : buildView pr page historyMarkers silenced = .ok view) :
    List.Forall₂ Summarizes page.activeIncidents view.activeIncidents ∧
      List.Forall₂ Summarizes page.recentIncidents view.recentIncidents := by
  unfold buildView at h
  dsimp only at h
  obtain ⟨json, -, h⟩ := bind_eq_ok_iff.1 h
  obtain ⟨active, hactive, h⟩ := bind_eq_ok_iff.1 h
  obtain ⟨recent, hrecent, h⟩ := bind_eq_ok_iff.1 h
  cases h
  exact ⟨(mapM_eq_ok_iff.1 hactive).imp fun _ _ => summarizes_of_buildIncidentSummary,
    (mapM_eq_ok_iff.1 hrecent).imp fun _ _ => summarizes_of_buildIncidentSummary⟩

end

/-- The page is rendered, with every string it shortens cut between two characters, exactly
when the messages, the days and the sums of its incidents fit. -/
theorem rendered_iff (pr : Printers) (page : PublicStatusPage) (historyMarkers : List Marker)
    (silenced : Uuid → Bool) :
    (∃ view, buildView pr page historyMarkers silenced = .ok view ∧
        List.Forall₂ Summarizes page.activeIncidents view.activeIncidents ∧
        List.Forall₂ Summarizes page.recentIncidents view.recentIncidents) ↔
      Renderable page historyMarkers := by
  constructor
  · rintro ⟨view, h, -⟩
    exact returns_buildView_iff.1 ⟨view, h⟩
  · intro hfits
    obtain ⟨view, h⟩ : Returns (buildView pr page historyMarkers silenced) :=
      returns_buildView_iff.2 hfits
    exact ⟨view, h, summarizes_of_buildView h⟩

namespace One

/-- 241 bytes, the last two of them one letter. -/
def accented : List Char := 'a' :: List.replicate 120 'é'

def noon : DateTime := ⟨1746964800000000, by decide, by decide⟩

def update : PublicIncidentUpdate := ⟨noon, .investigating, String.ofList accented⟩

def incident : PublicIncident :=
  ⟨1, 7, "API", "API down", noon, none, .major, .investigating, [update]⟩

def page : PublicStatusPage where
  overall := ⟨.operational, "All Systems Operational"⟩
  generatedAt := noon
  siteName := "Acme"
  groups := []
  activeIncidents := [incident]
  recentIncidents := []
  recentIncidentsHasMore := false
  activeMaintenance := []
  upcomingMaintenance := []

def printers : Printers := ⟨fun _ => "", fun _ => "", fun _ _ => "", fun _ => none⟩

end One

theorem One.accented_uncut :
    ¬ (Text.byteLen accented ≤ maxSummary ∨
      Text.isCharBoundary accented maxSummary = true) := by
  decide +kernel

/-- An operator's update in which byte 240 is inside a letter takes the page down. -/
theorem accented_update_panics :
    ¬ ∃ view, buildView One.printers One.page [] (fun _ => false) = .ok view ∧
      List.Forall₂ Summarizes One.page.activeIncidents view.activeIncidents ∧
      List.Forall₂ Summarizes One.page.recentIncidents view.recentIncidents := by
  rintro ⟨view, h, -⟩
  have hfits := (returns_buildView_iff.1 ⟨view, h⟩).messages One.incident
    List.mem_cons_self One.update rfl
  rw [MessageFits, byteLen, One.update, String.toList_ofList] at hfits
  exact One.accented_uncut hfits

end Uptimepage.PublicStatus

import Uptimepage.Series.Cover
import Uptimepage.StatusPages.View

/-!
# A day's cell and its popover

The cell's colour comes from `paint_strips`, which walks each incident over its days, and
the popover from `day_overlap`, which asks every incident about one day.
-/

namespace Uptimepage.PublicStatus

open Chrono

/-- The marker and the window of one incident. -/
structure Describes (m : Marker) (w : PaintWindowRow) : Prop where
  componentId : m.componentId = w.targetId
  startedAt : m.startedAt = w.startedAt
  endedAt : m.endedAt = w.endedAt

/-- The part of an incident that falls on a day. -/
def Marker.stretch (m : Marker) (dayStart dayEnd now : DateTime) : Finset Int :=
  Cover.span (max m.startedAt.micros dayStart.micros)
    (min (m.endedAt.getD now).micros dayEnd.micros)

/-- The part of a day that is over. -/
def elapsed (dayStart dayEnd now : DateTime) : Finset Int :=
  Cover.span dayStart.micros (min dayEnd.micros now.micros)

/-- The part of it in which some incident was open. -/
def downtimeOf (incidents : List Marker) (dayStart dayEnd now : DateTime) : Finset Int :=
  (elapsed dayStart dayEnd now).filter fun t =>
    ∃ m ∈ incidents, m.startedAt.micros ≤ t ∧ t < (m.endedAt.getD now).micros

section

variable {pr : Printers} {dayStart dayEnd now : DateTime} {incidents markers : List Marker}
  {windows : List PaintWindowRow} {id : Uuid}

theorem card_stretch (m : Marker) :
    ((m.stretch dayStart dayEnd now).card : Int) =
      m.overlap dayStart.micros dayEnd.micros now := by
  unfold Marker.stretch Marker.overlap
  rw [Cover.card_span]
  omega

theorem sum_card_stretch :
    (((incidents.map fun m => m.stretch dayStart dayEnd now).map Finset.card).sum : Int) =
      (incidents.map fun m => m.overlap dayStart.micros dayEnd.micros now).sum := by
  induction incidents with
  | nil => rfl
  | cons m incidents ih =>
    simp only [List.map_cons, List.sum_cons]
    rw [Nat.cast_add, card_stretch, ih]

theorem downtimeOf_eq_covered :
    downtimeOf incidents dayStart dayEnd now =
      Cover.covered (elapsed dayStart dayEnd now)
        (incidents.map fun m => m.stretch dayStart dayEnd now) := by
  unfold downtimeOf Cover.covered
  apply Finset.filter_congr
  intro t ht
  rw [elapsed, Cover.mem_span] at ht
  simp only [List.mem_map, exists_exists_and_eq_and, Marker.stretch, Cover.mem_span]
  constructor
  · rintro ⟨m, hm, hle, hlt⟩
    exact ⟨m, hm, by omega, by omega⟩
  · rintro ⟨m, hm, hle, hlt⟩
    exact ⟨m, hm, by omega, by omega⟩

theorem links_ne_nil_iff (pr : Printers) (m : Marker) :
    m.links pr dayStart dayEnd now ≠ [] ↔
      m.startedAt.micros < dayEnd.micros ∧ dayStart.micros < (m.endedAt.getD now).micros := by
  unfold Marker.links
  split
  · next hout =>
    rw [DateTime.le_iff, DateTime.le_iff] at hout
    exact ⟨fun h => absurd rfl h, fun h => by omega⟩
  · next hin =>
    rw [DateTime.le_iff, DateTime.le_iff] at hin
    exact ⟨fun _ => by omega, fun _ => List.cons_ne_nil _ _⟩

theorem paints_iff {w : PaintWindowRow} {day : Int} (hstart : dayStart.micros = day * dayMicros)
    (hend : dayEnd.micros = (day + 1) * dayMicros) (hbegun : dayStart < now) :
    w.Paints now day ↔
      w.startedAt.micros < dayEnd.micros ∧ dayStart.micros < (w.endedAt.getD now).micros := by
  rw [DateTime.lt_iff] at hbegun
  unfold PaintWindowRow.Paints
  simp only [DateTime.dateNaive, DateTime.micros_min]
  unfold dayMicros at *
  omega

theorem exists_marker_iff (hsame : List.Forall₂ Describes markers windows)
    (p : DateTime → Option DateTime → Prop) :
    (∃ m ∈ markers.filter fun m => m.componentId = id, p m.startedAt m.endedAt) ↔
      ∃ w ∈ windows, w.targetId = id ∧ p w.startedAt w.endedAt := by
  induction hsame with
  | nil => simp
  | @cons m w markers windows hmw _ ih =>
    have hw : w.targetId = m.componentId := hmw.componentId.symm
    simp only [List.mem_cons, exists_eq_or_imp, ← ih, ← hmw.startedAt, ← hmw.endedAt, hw]
    by_cases hid : m.componentId = id
    · simp [hid]
    · simp [hid]

variable {clock : DateTime} {componentIds : List Uuid} {presence : List HistoryDayRow}
  {strips : Uuid → Option (List DayState)} {strip : List DayState} {state : DayState}
  {spanDays i : Nat} {downtime : Int} {related : List DayRelated}

theorem impact_iff_related
    (hpaint : paintStrips clock componentIds presence windows now spanDays = .ok strips)
    (hstrip : strips id = some strip) (hstate : strip[i]? = some state)
    (hsame : List.Forall₂ Describes markers windows)
    (hstart : dayStart.micros = slotDay now spanDays i * dayMicros)
    (hend : dayEnd.micros = (slotDay now spanDays i + 1) * dayMicros)
    (hover : dayOverlap pr (markers.filter fun m => m.componentId = id) dayStart dayEnd now =
      .ok (downtime, related))
    (hbegun : dayStart < now) :
    state.impact?.isSome = true ↔ related ≠ [] := by
  obtain ⟨-, -, rfl⟩ := dayOverlap_eq_ok_iff.1 hover
  rw [paintStrips_impact_iff hpaint hstrip hstate]
  simp only [paints_iff hstart hend hbegun]
  rw [← exists_marker_iff hsame fun started ended =>
    started.micros < dayEnd.micros ∧ dayStart.micros < (ended.getD now).micros]
  simp only [ne_eq, List.flatMap_eq_nil_iff, not_forall, exists_prop, ← links_ne_nil_iff pr]

theorem downtime_eq_iff
    (hover : dayOverlap pr incidents dayStart dayEnd now = .ok (downtime, related)) :
    downtime = (incidents.map fun m => ((m.stretch dayStart dayEnd now).card : Int)).sum ∧
      ((downtimeOf incidents dayStart dayEnd now).card : Int) ≤ downtime ∧
      (downtime = (downtimeOf incidents dayStart dayEnd now).card ↔
        (∀ m ∈ incidents, m.stretch dayStart dayEnd now ⊆ elapsed dayStart dayEnd now) ∧
        incidents.Pairwise fun m n =>
          Disjoint (m.stretch dayStart dayEnd now) (n.stretch dayStart dayEnd now)) := by
  obtain ⟨hsum, -, -⟩ := dayOverlap_eq_ok_iff.1 hover
  have htotal : downtime =
      ((incidents.map fun m => m.stretch dayStart dayEnd now).map Finset.card).sum := by
    rw [hsum, sum_card_stretch]
  have hcover := Cover.card_covered_le (elapsed dayStart dayEnd now)
    (incidents.map fun m => m.stretch dayStart dayEnd now)
  rw [← downtimeOf_eq_covered] at hcover
  refine ⟨?_, by omega, ?_⟩
  · simp only [hsum, card_stretch]
  · have heq : downtime = (downtimeOf incidents dayStart dayEnd now).card ↔
        (downtimeOf incidents dayStart dayEnd now).card =
          ((incidents.map fun m => m.stretch dayStart dayEnd now).map Finset.card).sum := by
      omega
    rw [heq, downtimeOf_eq_covered, Cover.card_covered_eq_iff, List.pairwise_map]
    simp only [List.forall_mem_map]

/-- On a day that has begun the cell shows an incident exactly when the popover lists one;
the downtime beside the list is at least what the incidents cover of the day so far, and that
exactly when none reaches past it and no two of them overlap in it. -/
theorem cell_matches_popover
    (hpaint : paintStrips clock componentIds presence windows now spanDays = .ok strips)
    (hstrip : strips id = some strip) (hstate : strip[i]? = some state)
    (hsame : List.Forall₂ Describes markers windows)
    (hstart : now.dateNaive.midnight.subDays ((spanDays - 1 - i : Nat) : Int) = .ok dayStart)
    (hend : dayStart.addDays 1 = .ok dayEnd)
    (hincidents : incidents = markers.filter fun m => m.componentId = id)
    (hover : dayOverlap pr incidents dayStart dayEnd now = .ok (downtime, related))
    (hbegun : dayStart < now) :
    (state.impact?.isSome = true ↔ related ≠ []) ∧
      downtime = (incidents.map fun m => ((m.stretch dayStart dayEnd now).card : Int)).sum ∧
      ((downtimeOf incidents dayStart dayEnd now).card : Int) ≤ downtime ∧
      (downtime = (downtimeOf incidents dayStart dayEnd now).card ↔
        (∀ m ∈ incidents, m.stretch dayStart dayEnd now ⊆ elapsed dayStart dayEnd now) ∧
        incidents.Pairwise fun m n =>
          Disjoint (m.stretch dayStart dayEnd now) (n.stretch dayStart dayEnd now)) ∧
      (downtime = (downtimeOf incidents dayStart dayEnd now).card →
        downtime ≤ (elapsed dayStart dayEnd now).card) := by
  have hlen := paintStrips_length hpaint hstrip
  have hi : i < spanDays := hlen ▸ (List.getElem?_eq_some_iff.mp hstate).1
  have hs : dayStart.micros = slotDay now spanDays i * dayMicros := by
    have hmicros := DateTime.subDays_eq_ok.1 hstart
    rw [NaiveDate.midnight_micros] at hmicros
    unfold slotDay dayMicros at *
    omega
  have he : dayEnd.micros = (slotDay now spanDays i + 1) * dayMicros := by
    have hmicros := DateTime.addDays_eq_ok.1 hend
    rw [hs] at hmicros
    unfold dayMicros at *
    omega
  obtain ⟨hsum, hle, heq⟩ := downtime_eq_iff hover
  subst hincidents
  refine ⟨impact_iff_related hpaint hstrip hstate hsame hs he hover hbegun, hsum, hle, heq, ?_⟩
  intro hcovers
  rw [hcovers]
  exact_mod_cast Finset.card_le_card (Finset.filter_subset _ _)

end

namespace One

def midnight : DateTime := ⟨1746921600000000, by decide, by decide⟩

def nextMidnight : DateTime := ⟨1747008000000000, by decide, by decide⟩

def halfPast : DateTime := ⟨1746923400000000, by decide, by decide⟩

/-- Open since midnight. -/
def down (id : Uuid) (ended : Option DateTime) : Marker := ⟨id, 7, "API down", midnight, ended⟩

def window (ended : Option DateTime) : PaintWindowRow :=
  ⟨7, "down", "major", "monitor", none, midnight, ended⟩

theorem describes (id : Uuid) (ended : Option DateTime) :
    Describes (down id ended) (window ended) := ⟨rfl, rfl, rfl⟩

theorem exists_state (w : PaintWindowRow) (now : DateTime)
    (h : minDay * dayMicros ≤ now.micros - (90 : Nat) * dayMicros) :
    ∃ strips strip state, paintStrips now [7] [] [w] now 90 = .ok strips ∧
      strips 7 = some strip ∧ strip[89]? = some state := by
  obtain ⟨strips, hstrips⟩ : Returns (paintStrips now [7] [] [w] now 90) :=
    returns_paintStrips_iff.2 h
  obtain ⟨strip, hstrip⟩ := exists_strip hstrips List.mem_cons_self
  have hlen := paintStrips_length hstrips hstrip
  exact ⟨strips, strip, strip[89], hstrips, hstrip, List.getElem?_eq_getElem _⟩

end One

/-- Noon, with one incident open since midnight. -/
theorem cell_matches_popover_at_noon :
    ∃ strips strip state downtime related,
      paintStrips One.noon [7] [] [One.window none] One.noon 90 = .ok strips ∧
      strips 7 = some strip ∧ strip[89]? = some state ∧
      dayOverlap One.printers [One.down 1 none] One.midnight One.nextMidnight One.noon =
        .ok (downtime, related) ∧
      state.impact?.isSome = true ∧ related ≠ [] := by
  obtain ⟨strips, strip, state, hpaint, hstrip, hstate⟩ :=
    One.exists_state (One.window none) One.noon (by decide)
  obtain ⟨⟨downtime, related⟩, hover⟩ : Returns (dayOverlap One.printers [One.down 1 none]
      One.midnight One.nextMidnight One.noon) := returns_dayOverlap_iff.2 (by decide)
  have hlinks : related ≠ [] := by
    rw [(dayOverlap_eq_ok_iff.1 hover).2.2]
    exact List.cons_ne_nil _ _
  have hmatch := cell_matches_popover hpaint hstrip hstate (.cons (One.describes 1 none) .nil)
    (DateTime.subDays_eq_ok.2 rfl) (DateTime.addDays_eq_ok.2 rfl) rfl hover (by decide)
  exact ⟨strips, strip, state, downtime, related, hpaint, hstrip, hstate, hover,
    hmatch.1.mpr hlinks, hlinks⟩

/-- At noon two incidents open since midnight give a downtime of the whole day; and at
midnight an incident that ends half an hour later is listed and not shown. -/
theorem overlap_counts_twice :
    (∃ downtime related, dayOverlap One.printers [One.down 1 none, One.down 2 none]
        One.midnight One.nextMidnight One.noon = .ok (downtime, related) ∧
      ((elapsed One.midnight One.nextMidnight One.noon).card : Int) < downtime) ∧
    ∃ strips strip state downtime related,
      paintStrips One.midnight [7] [] [One.window (some One.halfPast)] One.midnight 90 =
        .ok strips ∧
      strips 7 = some strip ∧ strip[89]? = some state ∧
      dayOverlap One.printers [One.down 1 (some One.halfPast)] One.midnight One.nextMidnight
        One.midnight = .ok (downtime, related) ∧
      state.impact? = none ∧ related ≠ [] := by
  constructor
  · obtain ⟨⟨downtime, related⟩, hover⟩ : Returns (dayOverlap One.printers
        [One.down 1 none, One.down 2 none] One.midnight One.nextMidnight One.noon) :=
      returns_dayOverlap_iff.2 (by decide)
    refine ⟨downtime, related, hover, ?_⟩
    rw [(dayOverlap_eq_ok_iff.1 hover).1, elapsed, Cover.card_span]
    decide
  · obtain ⟨strips, strip, state, hpaint, hstrip, hstate⟩ :=
      One.exists_state (One.window (some One.halfPast)) One.midnight (by decide)
    obtain ⟨⟨downtime, related⟩, hover⟩ : Returns (dayOverlap One.printers
        [One.down 1 (some One.halfPast)] One.midnight One.nextMidnight One.midnight) :=
      returns_dayOverlap_iff.2 (by decide)
    refine ⟨strips, strip, state, downtime, related, hpaint, hstrip, hstate, hover, ?_, ?_⟩
    · rw [← Option.not_isSome_iff_eq_none, paintStrips_impact_iff hpaint hstrip hstate]
      rintro ⟨w, hw, -, -, hpast⟩
      rw [List.mem_singleton.mp hw] at hpast
      revert hpast
      decide
    · rw [(dayOverlap_eq_ok_iff.1 hover).2.2]
      exact List.cons_ne_nil _ _

/-! ## Strips by their definition -/

def PaintWindowRow.stop (w : PaintWindowRow) (now : DateTime) : DateTime :=
  min (w.endedAt.getD now) now

/-- An instant of the window, half-open and cut at `now`, is on the day. -/
def PaintWindowRow.Meets (w : PaintWindowRow) (now : DateTime) (day : Int) : Prop :=
  ∃ t : Int, w.startedAt.micros ≤ t ∧ t < (w.stop now).micros ∧
    day * dayMicros ≤ t ∧ t < (day + 1) * dayMicros

section

variable {now clock : DateTime} {componentIds : List Uuid} {presence : List HistoryDayRow}
  {windows : List PaintWindowRow} {strips : Uuid → Option (List DayState)} {spanDays : Nat}

theorem PaintWindowRow.paints_iff_meets (w : PaintWindowRow) (day : Int)
    (h : w.startedAt < w.stop now) : w.Paints now day ↔ w.Meets now day := by
  rw [DateTime.lt_iff] at h
  simp only [Paints, Meets, stop, DateTime.dateNaive] at *
  unfold dayMicros at *
  constructor
  · rintro ⟨hle, hlt⟩
    exact ⟨max w.startedAt.micros (day * 86400000000), by omega⟩
  · rintro ⟨t, _⟩
    omega

theorem PaintWindowRow.paints_iff_of_le (w : PaintWindowRow) (day : Int)
    (h : w.stop now ≤ w.startedAt) :
    w.Paints now day ↔
      w.startedAt.dateNaive.days = day ∧ day * dayMicros < (w.stop now).micros := by
  rw [DateTime.le_iff] at h
  simp only [Paints, stop, DateTime.dateNaive] at *
  unfold dayMicros at *
  omega

/-- Every strip has a cell for each day, the worst of the windows that show on it.  A window
with an instant shows on the days it meets; one without, on the day of both its ends. -/
theorem strips_show_worst
    (h : paintStrips clock componentIds presence windows now spanDays = .ok strips) :
    (∀ id ∈ componentIds, ∃ strip, strips id = some strip ∧ strip.length = spanDays ∧
      ∀ i state, strip[i]? = some state →
        IsDayState (fun impact => ∃ w ∈ windows, w.targetId = id ∧
            w.Paints now (slotDay now spanDays i) ∧ w.impact = impact)
          (∃ r ∈ presence, r.targetId = id ∧ r.HasChecks clock (slotDay now spanDays i)) state) ∧
    (∀ w : PaintWindowRow, ∀ day,
      (w.startedAt < w.stop now → (w.Paints now day ↔ w.Meets now day)) ∧
      (w.stop now ≤ w.startedAt → (w.Paints now day ↔
        w.startedAt.dateNaive.days = day ∧ day * dayMicros < (w.stop now).micros))) ∧
    ∀ others : List PaintWindowRow, others.Perm windows →
      paintStrips clock componentIds presence others now spanDays = .ok strips := by
  refine ⟨fun id hid => ?_, fun w day => ⟨w.paints_iff_meets day, w.paints_iff_of_le day⟩,
    fun others hperm => (paintStrips_perm hperm).trans h⟩
  obtain ⟨strip, hstrip⟩ := exists_strip h hid
  exact ⟨strip, hstrip, paintStrips_length h hstrip,
    fun i state hstate => paintStrips_state h hstrip hstate⟩

end

/-- At noon, with checks on the day before and an incident open since midnight. -/
theorem strips_show_worst_down :
    ∃ strips strip, paintStrips One.noon [7] [⟨7, 1746835200, 4⟩] [One.window none] One.noon 90 =
        .ok strips ∧ strips 7 = some strip ∧ strip.length = 90 ∧
      strip[88]? = some .operational ∧ strip[89]? = some .majorOutage := by
  obtain ⟨strips, h⟩ : Returns (paintStrips One.noon [7] [⟨7, 1746835200, 4⟩] [One.window none]
      One.noon 90) := returns_paintStrips_iff.2 (by decide)
  obtain ⟨strip, hstrip, hlen, hcell⟩ := (strips_show_worst h).1 7 List.mem_cons_self
  refine ⟨strips, strip, h, hstrip, hlen, ?_, ?_⟩
  · have hget := List.getElem?_eq_getElem (l := strip) (i := 88) (by omega)
    rw [hget]
    rcases hcell 88 _ hget with ⟨_, -, ⟨w, hw, -, hpaints, -⟩, -⟩ | ⟨-, ⟨hop, -⟩ | ⟨-, hno⟩⟩
    · rw [List.mem_singleton.mp hw] at hpaints
      exact absurd hpaints (by decide)
    · rw [hop]
    · exact absurd ⟨_, List.mem_cons_self, rfl, by decide, by decide⟩ hno
  · have hget := List.getElem?_eq_getElem (l := strip) (i := 89) (by omega)
    rw [hget]
    have hshows : ∃ w ∈ [One.window none], w.targetId = 7 ∧
        w.Paints One.noon (slotDay One.noon 90 89) ∧ w.impact = .majorOutage :=
      ⟨_, List.mem_cons_self, rfl, by decide, rfl⟩
    rcases hcell 89 _ hget with ⟨impact, himpact, ⟨w, hw, -, -, rfl⟩, -⟩ | ⟨hno, -⟩
    · rw [List.mem_singleton.mp hw] at himpact
      revert himpact
      generalize strip[89] = state
      cases state <;> decide
    · exact absurd hshows (hno _)

/-- A window from noon to half past midnight of the same day, and its cell at noon. -/
theorem inverted_window_shows :
    ¬ ∀ windows now strips strip i state, paintStrips now [7] [] windows now 90 = .ok strips →
      strips 7 = some strip → strip[i]? = some state →
      IsDayState (fun impact => ∃ w ∈ windows, w.targetId = 7 ∧
        w.Meets now (slotDay now 90 i) ∧ w.impact = impact) False state := by
  intro hclaim
  obtain ⟨strips, strip, state, hpaint, hstrip, hstate⟩ := One.exists_state
    ⟨7, "down", "major", "monitor", none, One.noon, some One.halfPast⟩ One.noon (by decide)
  have hshows := (paintStrips_impact_iff hpaint hstrip hstate).2
    ⟨_, List.mem_cons_self, rfl, by decide⟩
  rcases hclaim _ _ _ _ _ _ hpaint hstrip hstate with ⟨_, -, ⟨w, hw, -, hmeets, -⟩, -⟩ | hnone
  · rw [List.mem_singleton.mp hw] at hmeets
    obtain ⟨t, hle, hlt, -⟩ := hmeets
    exact absurd (hle.trans_lt hlt) (by decide)
  · rcases hnone.2 with ⟨-, hfalse⟩ | ⟨rfl, -⟩
    · exact hfalse
    · cases hshows

end Uptimepage.PublicStatus

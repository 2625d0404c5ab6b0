import Uptimepage.Domain.Narration
import Uptimepage.Series.Cover

/-!
# Confirmed downtime

`confirmed_downtime_secs` adds up, over the incidents that count, the whole seconds each one
overlaps the window.
-/

namespace Uptimepage.Narration

open Chrono

namespace Incident

/-- The term of one incident. -/
def overlapSecs (i : Incident) (winFrom winTo now : Instant) : Int :=
  let stop := min (i.endedAt.getD now) winTo
  let start := max i.startedAt winFrom
  max (start.secondsBetween stop) 0

/-- From its start to its end, or to now. -/
def stretch (i : Incident) (now : Instant) : Finset Int :=
  Cover.span i.startedAt.nanos (i.endedAt.getD now).nanos

/-- The part of it inside the window. -/
def overlap (i : Incident) (winFrom winTo now : Instant) : Finset Int :=
  Cover.span (max i.startedAt.nanos winFrom.nanos) (min (i.endedAt.getD now).nanos winTo.nanos)

end Incident

/-- `.sum()` of `i64`s, which wraps in a release build. -/
def confirmedDowntimeSecs (incidents : List Incident) (winFrom winTo now : Instant) : Int :=
  Int.bmod ((incidents.filter Incident.countsAsDowntime).map fun i =>
    i.overlapSecs winFrom winTo now).sum 18446744073709551616

def window (winFrom winTo : Instant) : Finset Int := Cover.span winFrom.nanos winTo.nanos

/-- The union of the counted incidents, clipped to the window. -/
def downtime (incidents : List Incident) (winFrom winTo now : Instant) : Finset Int :=
  Cover.covered (window winFrom winTo)
    ((incidents.filter Incident.countsAsDowntime).map fun i => i.stretch now)

/-- No two of the counted incidents overlap inside the window. -/
def Apart (incidents : List Incident) (winFrom winTo now : Instant) : Prop :=
  (incidents.filter Incident.countsAsDowntime).Pairwise fun i j =>
    Disjoint (i.overlap winFrom winTo now) (j.overlap winFrom winTo now)

/-- The whole seconds of each counted overlap, added up. -/
def overlapSum (incidents : List Incident) (winFrom winTo now : Instant) : Nat :=
  ((incidents.filter Incident.countsAsDowntime).map fun i =>
    (i.overlap winFrom winTo now).card / 1000000000).sum

section

variable {incidents : List Incident} {winFrom winTo now : Instant}

theorem overlap_subset (i : Incident) : i.overlap winFrom winTo now ⊆ window winFrom winTo := by
  intro t ht
  rw [Incident.overlap, Cover.mem_span] at ht
  rw [window, Cover.mem_span]
  omega

theorem overlapSecs_eq (i : Incident) :
    i.overlapSecs winFrom winTo now =
      ((i.overlap winFrom winTo now).card / 1000000000 : Nat) := by
  unfold Incident.overlapSecs Incident.overlap
  dsimp only
  rw [Instant.max_secondsBetween, Cover.card_span, Instant.nanos_min, Instant.nanos_max]

theorem sum_overlapSecs (counted : List Incident) :
    (counted.map fun i => i.overlapSecs winFrom winTo now).sum =
      ((counted.map fun i => (i.overlap winFrom winTo now).card / 1000000000).sum : Nat) := by
  induction counted with
  | nil => rfl
  | cons i counted ih =>
    rw [List.map_cons, List.map_cons, List.sum_cons, List.sum_cons, ih, overlapSecs_eq,
      Nat.cast_add]

theorem downtime_eq :
    downtime incidents winFrom winTo now =
      Cover.covered (window winFrom winTo)
        ((incidents.filter Incident.countsAsDowntime).map fun i =>
          i.overlap winFrom winTo now) := by
  unfold downtime Cover.covered
  apply Finset.filter_congr
  intro t ht
  rw [window, Cover.mem_span] at ht
  simp only [List.mem_map, exists_exists_and_eq_and, Incident.stretch, Incident.overlap,
    Cover.mem_span]
  constructor
  · rintro ⟨i, hi, hle, hlt⟩
    exact ⟨i, hi, by omega, by omega⟩
  · rintro ⟨i, hi, hle, hlt⟩
    exact ⟨i, hi, by omega, by omega⟩

theorem card_downtime_eq_iff :
    (downtime incidents winFrom winTo now).card =
        ((incidents.filter Incident.countsAsDowntime).map fun i =>
          (i.overlap winFrom winTo now).card).sum ↔
      Apart incidents winFrom winTo now := by
  have hiff := @Cover.card_covered_eq_iff _ _ (window winFrom winTo)
    ((incidents.filter Incident.countsAsDowntime).map fun i => i.overlap winFrom winTo now)
  rw [List.map_map, List.pairwise_map] at hiff
  rw [downtime_eq]
  refine hiff.trans (and_iff_right ?_)
  simp only [List.forall_mem_map]
  exact fun i _ => overlap_subset i

theorem card_downtime_le :
    (downtime incidents winFrom winTo now).card ≤ (winTo.nanos - winFrom.nanos).toNat := by
  have h := Finset.card_le_card (Cover.covered_subset (window winFrom winTo)
    ((incidents.filter Incident.countsAsDowntime).map fun i => i.stretch now))
  rwa [window, Cover.card_span] at h

theorem sum_div_le {α : Type} (f : α → Nat) (n : Nat) (hn : 0 < n) (l : List α) :
    n * (l.map fun a => f a / n).sum ≤ (l.map f).sum ∧
      (l.map f).sum ≤ n * (l.map fun a => f a / n).sum + (n - 1) * l.length := by
  induction l with
  | nil => simp
  | cons a l ih =>
    simp only [List.map_cons, List.sum_cons, List.length_cons, Nat.mul_add]
    have hdiv := Nat.div_add_mod (f a) n
    have hmod := Nat.mod_lt (f a) hn
    omega

theorem sum_div_eq {α : Type} {f : α → Nat} {n : Nat} {l : List α} (h : ∀ a ∈ l, n ∣ f a) :
    n * (l.map fun a => f a / n).sum = (l.map f).sum := by
  induction l with
  | nil => simp
  | cons a l ih =>
    obtain ⟨ha, hl⟩ := List.forall_mem_cons.mp h
    simp only [List.map_cons, List.sum_cons, Nat.mul_add]
    rw [ih hl, Nat.mul_div_cancel' ha]

theorem confirmedDowntimeSecs_eq :
    confirmedDowntimeSecs incidents winFrom winTo now =
      (overlapSum incidents winFrom winTo now : Int).bmod 18446744073709551616 := by
  rw [confirmedDowntimeSecs, sum_overlapSecs, overlapSum]

theorem confirmedDowntimeSecs_of_lt
    (h : overlapSum incidents winFrom winTo now < 9223372036854775808) :
    confirmedDowntimeSecs incidents winFrom winTo now =
      overlapSum incidents winFrom winTo now := by
  rw [confirmedDowntimeSecs_eq, Int.bmod_eq_of_le] <;> omega

theorem overlapSum_of_apart (h : Apart incidents winFrom winTo now) :
    1000000000 * overlapSum incidents winFrom winTo now ≤
        (downtime incidents winFrom winTo now).card ∧
      (downtime incidents winFrom winTo now).card ≤
        1000000000 * overlapSum incidents winFrom winTo now +
          999999999 * (incidents.filter Incident.countsAsDowntime).length := by
  rw [card_downtime_eq_iff.2 h]
  exact sum_div_le _ 1000000000 (by omega) _

theorem overlapSum_lt (h : Apart incidents winFrom winTo now) :
    overlapSum incidents winFrom winTo now < 9223372036854775808 := by
  have hsum := (overlapSum_of_apart h).1
  have hwindow := @card_downtime_le incidents winFrom winTo now
  have hfrom := winFrom.min_le
  have hto := winTo.lt_max
  unfold minDay dayNanos at hfrom
  unfold maxDay dayNanos at hto
  omega

/-- The value is the sum of the counted overlaps in whole seconds.  Where no two of them meet
it is the length of their union, short of less than a second at each, and at most the length
of the window; and when no overlap has a fraction of a second and the sum fits, it is the
length of the union only there. -/
theorem confirmedDowntimeSecs_sum_of_overlaps (incidents : List Incident)
    (winFrom winTo now : Instant) :
    confirmedDowntimeSecs incidents winFrom winTo now =
        (overlapSum incidents winFrom winTo now : Int).bmod 18446744073709551616 ∧
      (Apart incidents winFrom winTo now →
        1000000000 * confirmedDowntimeSecs incidents winFrom winTo now ≤
            (downtime incidents winFrom winTo now).card ∧
          ((downtime incidents winFrom winTo now).card : Int) ≤
            1000000000 * confirmedDowntimeSecs incidents winFrom winTo now +
              999999999 * (incidents.filter Incident.countsAsDowntime).length ∧
          confirmedDowntimeSecs incidents winFrom winTo now ≤
            max (winFrom.secondsBetween winTo) 0) ∧
      ((∀ i ∈ incidents.filter Incident.countsAsDowntime,
          1000000000 ∣ (i.overlap winFrom winTo now).card) →
        overlapSum incidents winFrom winTo now < 9223372036854775808 →
        (1000000000 * confirmedDowntimeSecs incidents winFrom winTo now =
            (downtime incidents winFrom winTo now).card ↔
          Apart incidents winFrom winTo now)) := by
  refine ⟨confirmedDowntimeSecs_eq, fun hapart => ?_, fun hwhole hfits => ?_⟩
  · obtain ⟨hlow, hhigh⟩ := overlapSum_of_apart hapart
    rw [confirmedDowntimeSecs_of_lt (overlapSum_lt hapart)]
    refine ⟨by omega, by omega, ?_⟩
    have hwindow := @card_downtime_le incidents winFrom winTo now
    rw [Instant.max_secondsBetween]
    omega
  · have hsum := sum_div_eq hwhole
    rw [confirmedDowntimeSecs_of_lt hfits, ← card_downtime_eq_iff, ← hsum]
    unfold overlapSum
    omega

end

/-! ## Two incidents at once -/

namespace One

/-- The numerals of seconds below. -/
local instance neZeroU32 : NeZero 4294967296 := ⟨by decide⟩

def outageAt (id : Uuid) (startedAt endedAt : Instant) : Incident :=
  { newIncident id 7 (failed startedAt) with endedAt := some endedAt }

/-- The monitor's incident and a declared one, over the same hundred seconds. -/
def declaredTwice : List Incident :=
  [outageAt 1 (Instant.ofSeconds 0) (Instant.ofSeconds 100),
    outageAt 2 (Instant.ofSeconds 0) (Instant.ofSeconds 100)]

/-- A half second after a number of seconds. -/
def halfPast (n : Fin 4294967296) : Instant where
  nanos := n * secondNanos + 500000000
  min_le := by unfold minDay dayNanos secondNanos; omega
  lt_max := by unfold maxDay dayNanos secondNanos; omega

/-- Two incidents of half a second. -/
def halves : List Incident :=
  [outageAt 1 (Instant.ofSeconds 0) (halfPast 0), outageAt 2 (Instant.ofSeconds 1) (halfPast 1)]

theorem halves_apart :
    Apart halves (Instant.ofSeconds 0) (Instant.ofSeconds 2) (Instant.ofSeconds 2) := by
  unfold Apart halves
  simp only [outageAt, newIncident, List.filter_cons, List.filter_nil, if_true,
    List.pairwise_cons, List.Pairwise.nil, List.mem_singleton, forall_eq, Incident.overlap,
    Option.getD_some, and_true, List.not_mem_nil, false_imp_iff, implies_true]
  rw [Finset.disjoint_left]
  intro t ht ht'
  rw [Cover.mem_span] at ht ht'
  simp only [failed, halfPast, Instant.ofSeconds, secondNanos] at ht ht'
  omega

/-- Two incidents over one outage count it twice, beyond the length of the window; two of
half a second are not counted at all. -/
theorem downtime_is_not_the_union :
    (confirmedDowntimeSecs declaredTwice (Instant.ofSeconds 0) (Instant.ofSeconds 100)
          (Instant.ofSeconds 100) = 200 ∧
        (downtime declaredTwice (Instant.ofSeconds 0) (Instant.ofSeconds 100)
          (Instant.ofSeconds 100)).card / 1000000000 ≤ 100 ∧
        (Instant.ofSeconds 0).secondsBetween (Instant.ofSeconds 100) = 100) ∧
      confirmedDowntimeSecs halves (Instant.ofSeconds 0) (Instant.ofSeconds 2)
          (Instant.ofSeconds 2) = 0 ∧
        (downtime halves (Instant.ofSeconds 0) (Instant.ofSeconds 2)
          (Instant.ofSeconds 2)).card / 1000000000 = 1 := by
  refine ⟨⟨by decide, ?_, by decide⟩, by decide, ?_⟩
  · have h := @card_downtime_le declaredTwice (Instant.ofSeconds 0) (Instant.ofSeconds 100)
      (Instant.ofSeconds 100)
    simp only [Instant.ofSeconds, secondNanos] at h ⊢
    omega
  · rw [card_downtime_eq_iff.2 halves_apart]
    simp only [halves, outageAt, newIncident, List.filter_cons, List.filter_nil, if_true,
      Incident.overlap, Option.getD_some, List.map_cons, List.map_nil, Cover.card_span]
    decide

end One

end Uptimepage.Narration

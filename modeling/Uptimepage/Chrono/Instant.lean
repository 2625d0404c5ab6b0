import Uptimepage.Chrono.DateTime

/-!
# Times to the nanosecond

`chrono`'s `DateTime<Utc>` to its full resolution, over the calendar of `DateTime`, and the
whole seconds between two of them (`secondsBetween`).
-/

namespace Uptimepage.Chrono

def dayNanos : Int := 86400000000000

def secondNanos : Int := 1000000000

@[ext]
structure Instant where
  nanos : Int
  min_le : minDay * dayNanos ≤ nanos
  lt_max : nanos < (maxDay + 1) * dayNanos
deriving DecidableEq

namespace Instant

instance : LinearOrder Instant := LinearOrder.lift' nanos fun _ _ h => Instant.ext h

theorem le_iff {a b : Instant} : a ≤ b ↔ a.nanos ≤ b.nanos := Iff.rfl

@[simp] theorem nanos_max (a b : Instant) : (max a b).nanos = max a.nanos b.nanos := by
  rcases le_total a b with h | h
  · rw [max_eq_right h, max_eq_right (le_iff.1 h)]
  · rw [max_eq_left h, max_eq_left (le_iff.1 h)]

@[simp] theorem nanos_min (a b : Instant) : (min a b).nanos = min a.nanos b.nanos := by
  rcases le_total a b with h | h
  · rw [min_eq_left h, min_eq_left (le_iff.1 h)]
  · rw [min_eq_right h, min_eq_right (le_iff.1 h)]

/-- The time a number of seconds after the epoch. -/
def ofSeconds (n : Fin 4294967296) : Instant where
  nanos := n * secondNanos
  min_le := by unfold minDay dayNanos secondNanos; omega
  lt_max := by unfold maxDay dayNanos secondNanos; omega

/-- A time the database keeps, which is a whole number of microseconds. -/
def ofMicros (t : DateTime) : Instant where
  nanos := t.micros * 1000
  min_le := by
    have := t.min_le
    unfold dayMicros at this
    unfold dayNanos
    omega
  lt_max := by
    have := t.lt_max
    unfold dayMicros at this
    unfold dayNanos
    omega

/-- `(end - start).num_seconds()`: the fraction of a second is dropped. -/
def secondsBetween (start stop : Instant) : Int :=
  (stop.nanos - start.nanos).tdiv secondNanos

theorem max_secondsBetween (start stop : Instant) :
    max (start.secondsBetween stop) 0 =
      ((stop.nanos - start.nanos).toNat / 1000000000 : Nat) := by
  unfold secondsBetween secondNanos
  generalize stop.nanos - start.nanos = d
  rcases le_total 0 d with hd | hd
  · rw [Int.tdiv_eq_ediv_of_nonneg hd]
    omega
  · have hneg : 0 ≤ (-d).tdiv 1000000000 := Int.tdiv_nonneg (by omega) (by omega)
    rw [Int.neg_tdiv] at hneg
    omega

end Instant

end Uptimepage.Chrono

import Mathlib

/-!
# Dates and times of a bounded calendar

`chrono`'s `NaiveDate` and `DateTime<Utc>` as its documentation describes them: a proleptic
calendar from January 1, 262144 BCE to December 31, 262142 CE, arithmetic with operators
that panics beyond it, and durations of at most `i64::MAX` milliseconds.  A date is a
number of days, a time a number of microseconds, both since the epoch; a `TimeDelta` is a
number of microseconds.
-/

namespace Uptimepage.Chrono

/-- What unwinds a thread. -/
inductive Panic
  /-- a string cut inside a character -/
  | charBoundary
  | dateTimeOverflow
  | timeDeltaOverflow
deriving DecidableEq

/-- The computation does not panic. -/
def Returns {α : Type} (e : Except Panic α) : Prop := ∃ r, e = .ok r

/-- January 1, 262144 BCE. -/
def minDay : Int := -96465292

/-- December 31, 262142 CE. -/
def maxDay : Int := 95026236

def dayMicros : Int := 86400000000

@[ext]
structure NaiveDate where
  days : Int
  min_le : minDay ≤ days
  le_max : days ≤ maxDay
deriving DecidableEq

@[ext]
structure DateTime where
  micros : Int
  min_le : minDay * dayMicros ≤ micros
  lt_max : micros < (maxDay + 1) * dayMicros
deriving DecidableEq

/-! ## Computations that can panic -/

section

variable {α β : Type} {e : Except Panic α}

@[simp] theorem returns_ok (a : α) : Returns (.ok a : Except Panic α) := ⟨a, rfl⟩

variable {f : α → Except Panic β} {xs : List α}

theorem bind_eq_ok_iff {b : β} : e >>= f = .ok b ↔ ∃ a, e = .ok a ∧ f a = .ok b := by
  cases e with
  | error p =>
    constructor
    · intro h
      cases h
    · rintro ⟨a, h, -⟩
      cases h
  | ok a => exact ⟨fun h => ⟨a, rfl, h⟩, fun ⟨_, h, hf⟩ => Except.ok.inj h ▸ hf⟩

theorem returns_bind_iff : Returns (e >>= f) ↔ ∃ a, e = .ok a ∧ Returns (f a) := by
  simp only [Returns, bind_eq_ok_iff]
  exact ⟨fun ⟨b, a, h, hf⟩ => ⟨a, h, b, hf⟩, fun ⟨a, h, b, hf⟩ => ⟨b, a, h, hf⟩⟩

theorem mapM_eq_ok_iff {ys : List β} :
    xs.mapM f = .ok ys ↔ List.Forall₂ (fun x y => f x = .ok y) xs ys := by
  induction xs generalizing ys with
  | nil =>
    rw [List.mapM_nil, List.forall₂_nil_left_iff]
    exact ⟨fun h => (Except.ok.inj h).symm, fun h => h ▸ rfl⟩
  | cons x xs ih =>
    rw [List.mapM_cons, bind_eq_ok_iff, List.forall₂_cons_left_iff]
    constructor
    · rintro ⟨y, hy, hrest⟩
      obtain ⟨rest, hmap, heq⟩ := bind_eq_ok_iff.1 hrest
      exact ⟨y, rest, hy, ih.mp hmap, (Except.ok.inj heq).symm⟩
    · rintro ⟨y, rest, hy, hmap, rfl⟩
      exact ⟨y, hy, bind_eq_ok_iff.2 ⟨rest, ih.mpr hmap, rfl⟩⟩

theorem returns_mapM_iff : Returns (xs.mapM f) ↔ ∀ x ∈ xs, Returns (f x) := by
  induction xs with
  | nil => simp [Returns, List.mapM_nil, pure, Except.pure]
  | cons x xs ih =>
    rw [List.mapM_cons, returns_bind_iff, List.forall_mem_cons, ← ih]
    constructor
    · rintro ⟨y, hy, hrest⟩
      obtain ⟨rest, hmap, -⟩ := returns_bind_iff.1 hrest
      exact ⟨⟨y, hy⟩, rest, hmap⟩
    · rintro ⟨⟨y, hy⟩, rest, hmap⟩
      exact ⟨y, hy, returns_bind_iff.2 ⟨rest, hmap, returns_ok _⟩⟩

theorem returns_foldlM_iff {f : β → α → Except Panic β} {p : α → Prop}
    (hf : ∀ b, ∀ x ∈ xs, Returns (f b x) ↔ p x) (b : β) :
    Returns (xs.foldlM f b) ↔ ∀ x ∈ xs, p x := by
  induction xs generalizing b with
  | nil => simp [Returns, List.foldlM_nil, pure, Except.pure]
  | cons x xs ih =>
    rw [List.foldlM_cons, returns_bind_iff, List.forall_mem_cons,
      ← hf b x List.mem_cons_self]
    have hrest := fun b' => ih (fun b x hx => hf b x (List.mem_cons_of_mem _ hx)) b'
    constructor
    · rintro ⟨b', h, hall⟩
      exact ⟨⟨b', h⟩, (hrest b').mp hall⟩
    · rintro ⟨⟨b', h⟩, hall⟩
      exact ⟨b', h, (hrest b').mpr hall⟩

end

/-! ## Dates -/

def NaiveDate.succOpt (d : NaiveDate) : Option NaiveDate :=
  if h : d.days < maxDay then some ⟨d.days + 1, by have := d.min_le; omega, by omega⟩ else none

/-- `and_hms_opt(0, 0, 0)`, which every date has. -/
def NaiveDate.midnight (d : NaiveDate) : DateTime where
  micros := d.days * dayMicros
  min_le := by have := d.min_le; unfold dayMicros; omega
  lt_max := by have := d.le_max; unfold dayMicros; omega

namespace DateTime

instance : LinearOrder DateTime := LinearOrder.lift' micros fun _ _ h => DateTime.ext h

theorem le_iff {a b : DateTime} : a ≤ b ↔ a.micros ≤ b.micros := Iff.rfl

theorem lt_iff {a b : DateTime} : a < b ↔ a.micros < b.micros := Iff.rfl

@[simp] theorem micros_max (a b : DateTime) : (max a b).micros = max a.micros b.micros := by
  rcases le_total a b with h | h
  · rw [max_eq_right h, max_eq_right (le_iff.1 h)]
  · rw [max_eq_left h, max_eq_left (le_iff.1 h)]

@[simp] theorem micros_min (a b : DateTime) : (min a b).micros = min a.micros b.micros := by
  rcases le_total a b with h | h
  · rw [min_eq_left h, min_eq_left (le_iff.1 h)]
  · rw [min_eq_right h, min_eq_right (le_iff.1 h)]

def dateNaive (t : DateTime) : NaiveDate where
  days := t.micros / dayMicros
  min_le := by have := t.min_le; unfold dayMicros at *; omega
  le_max := by have := t.lt_max; unfold dayMicros at *; omega

/-! ## Arithmetic -/

def addDelta (t : DateTime) (δ : Int) : Except Panic DateTime :=
  if h : minDay * dayMicros ≤ t.micros + δ ∧ t.micros + δ < (maxDay + 1) * dayMicros then
    .ok ⟨t.micros + δ, h.1, h.2⟩
  else .error .dateTimeOverflow

def subDelta (t : DateTime) (δ : Int) : Except Panic DateTime := t.addDelta (-δ)

/-- The difference of two times; the calendar is too short for it to overflow. -/
def since (a b : DateTime) : Int := a.micros - b.micros

end DateTime

namespace TimeDelta

/-- `i64::MAX` milliseconds. -/
def maxMicros : Int := (2 ^ 63 - 1) * 1000

def checked (δ : Int) : Except Panic Int :=
  if -maxMicros ≤ δ ∧ δ ≤ maxMicros then .ok δ else .error .timeDeltaOverflow

def days (n : Int) : Except Panic Int := checked (n * dayMicros)

def add (a b : Int) : Except Panic Int := checked (a + b)

/-- `num_seconds`, towards zero. -/
def numSeconds (δ : Int) : Int := δ.tdiv 1000000

theorem checked_eq_ok {δ ε : Int} (h : checked δ = .ok ε) : ε = δ := by
  unfold checked at h
  split at h
  · exact (Except.ok.inj h).symm
  · cases h

theorem returns_checked_iff {δ : Int} (h0 : 0 ≤ δ) :
    Returns (checked δ) ↔ δ ≤ maxMicros := by
  unfold checked
  constructor
  · rintro ⟨ε, h⟩
    split at h
    · next hle => exact hle.2
    · cases h
  · intro hle
    rw [if_pos ⟨by unfold maxMicros; omega, hle⟩]
    exact ⟨δ, rfl⟩

end TimeDelta

/-- `t - Duration::days(n)`. -/
def DateTime.subDays (t : DateTime) (n : Int) : Except Panic DateTime := do
  t.subDelta (← TimeDelta.days n)

/-- `t + Duration::days(n)`. -/
def DateTime.addDays (t : DateTime) (n : Int) : Except Panic DateTime := do
  t.addDelta (← TimeDelta.days n)

namespace DateTime

variable {t r : DateTime} {n : Int}

theorem days_of_inside (h : -(maxDay + 1 - minDay) ≤ n ∧ n ≤ maxDay + 1 - minDay) :
    TimeDelta.days n = .ok (n * dayMicros) := by
  unfold TimeDelta.days TimeDelta.checked
  rw [if_pos]
  unfold TimeDelta.maxMicros dayMicros
  unfold maxDay minDay at h
  omega

theorem addDelta_eq_ok {δ : Int} :
    t.addDelta δ = .ok r ↔ r.micros = t.micros + δ := by
  unfold addDelta
  constructor
  · intro h
    split at h
    · exact congrArg micros (Except.ok.inj h).symm
    · cases h
  · intro h
    have hle := r.min_le
    have hlt := r.lt_max
    rw [dif_pos ⟨h ▸ hle, h ▸ hlt⟩]
    exact congrArg Except.ok (DateTime.ext h.symm)

theorem addDays_eq_ok : t.addDays n = .ok r ↔ r.micros = t.micros + n * dayMicros := by
  unfold addDays
  by_cases hn : -(maxDay + 1 - minDay) ≤ n ∧ n ≤ maxDay + 1 - minDay
  · rw [days_of_inside hn]
    exact addDelta_eq_ok
  · constructor
    · intro h
      cases hd : TimeDelta.days n with
      | error e => rw [hd] at h; cases h
      | ok δ =>
        rw [hd] at h
        rw [← TimeDelta.checked_eq_ok hd]
        exact addDelta_eq_ok.1 h
    · intro h
      exfalso
      apply hn
      have ht := t.min_le
      have ht' := t.lt_max
      have hr := r.min_le
      have hr' := r.lt_max
      unfold minDay maxDay dayMicros at *
      omega

theorem subDays_eq_ok : t.subDays n = .ok r ↔ r.micros = t.micros - n * dayMicros := by
  have hneg : t.subDays n = t.addDays (-n) := by
    unfold subDays addDays subDelta TimeDelta.days TimeDelta.checked
    rw [Int.neg_mul]
    by_cases h : -TimeDelta.maxMicros ≤ n * dayMicros ∧ n * dayMicros ≤ TimeDelta.maxMicros
    · rw [if_pos h, if_pos ⟨by omega, by omega⟩]
      rfl
    · rw [if_neg h, if_neg (by omega)]
      rfl
  rw [hneg, addDays_eq_ok, Int.neg_mul, Int.sub_eq_add_neg]

theorem returns_subDays_iff (hn : 0 ≤ n) :
    Returns (t.subDays n) ↔ minDay * dayMicros ≤ t.micros - n * dayMicros := by
  simp only [Returns, subDays_eq_ok]
  constructor
  · rintro ⟨r, hr⟩
    exact hr ▸ r.min_le
  · intro h
    have ht := t.lt_max
    refine ⟨⟨t.micros - n * dayMicros, h, ?_⟩, rfl⟩
    unfold dayMicros at *
    omega

theorem returns_addDays_iff (hn : 0 ≤ n) :
    Returns (t.addDays n) ↔ t.micros + n * dayMicros < (maxDay + 1) * dayMicros := by
  simp only [Returns, addDays_eq_ok]
  constructor
  · rintro ⟨r, hr⟩
    exact hr ▸ r.lt_max
  · intro h
    have ht := t.min_le
    refine ⟨⟨t.micros + n * dayMicros, ?_, h⟩, rfl⟩
    unfold dayMicros at *
    omega

end DateTime

/-! ## Days -/

@[simp] theorem NaiveDate.midnight_micros (d : NaiveDate) :
    d.midnight.micros = d.days * dayMicros := rfl

theorem NaiveDate.succOpt_eq_some {d next : NaiveDate} (h : d.succOpt = some next) :
    next.days = d.days + 1 := by
  unfold NaiveDate.succOpt at h
  split at h
  · cases h
    rfl
  · cases h

theorem NaiveDate.succOpt_eq_none {d : NaiveDate} (h : d.succOpt = none) : d.days = maxDay := by
  unfold NaiveDate.succOpt at h
  split at h
  · cases h
  · have := d.le_max
    omega

end Uptimepage.Chrono

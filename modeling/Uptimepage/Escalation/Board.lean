import Uptimepage.Escalation.Duties

/-!
# The board of pages to retry

The retry discipline with everything else of the engine left out.  A `Board` has the
columns of each row that decide a retry, what each running task owes, what the sweep has
picked up and how often each row was sent.
-/

namespace Uptimepage

/-- The columns of a row of the paging log that decide whether it is retried. -/
structure Slip where
  id : Uuid
  org : OrgId
  status : NotificationStatus
  attempt : Int
  nextAttemptAt : Option Time
deriving DecidableEq

namespace Slip

/-- Queued or failed, under the cap, and not waiting for its backoff. -/
def Pending (now : Time) (cap : Int) (s : Slip) : Prop :=
  (s.status = .queued ∨ s.status = .failed) ∧ s.attempt < cap ∧ ∀ t ∈ s.nextAttemptAt, t ≤ now

/-- Sent, suppressed, or failed with no attempt left. -/
def Final (cap : Int) (s : Slip) : Prop :=
  s.status ≠ .queued ∧ (s.status = .failed → cap ≤ s.attempt)

/-- A failed row below the cap says when it is tried again. -/
def Planned (cap : Int) (s : Slip) : Prop :=
  0 ≤ s.attempt ∧ (s.status = .failed → s.attempt < cap → s.nextAttemptAt.isSome)

/-- To be sent as attempt `a`: just recorded, or pending. -/
def Ready (cap : Int) (now : Time) (s : Slip) (a : Int) : Prop :=
  (s.status = .queued ∧ s.attempt = 1 ∧ a = 1) ∨ (s.Pending now cap ∧ a = s.attempt + 1)

def marked (oc : NotificationOutcome) (s : Slip) : Slip :=
  ⟨s.id, s.org, oc.status, oc.attempt, oc.nextAttemptAt⟩

variable {cap a : Int} {now now' : Time} {s : Slip}

theorem Pending.mono (h : s.Pending now cap) (hle : now ≤ now') : s.Pending now' cap :=
  ⟨h.1, h.2.1, fun t ht => le_trans (h.2.2 t ht) hle⟩

theorem Ready.mono (h : s.Ready cap now a) (hle : now ≤ now') : s.Ready cap now' a :=
  h.imp_right fun hp => ⟨hp.1.mono hle, hp.2⟩

theorem Pending.not_final (h : s.Pending now cap) : ¬ s.Final cap := by
  rintro ⟨hq, hf⟩
  obtain ⟨hs, hlt, -⟩ := h
  rcases hs with hs | hs
  · exact hq hs
  · exact absurd hlt (Int.not_lt.mpr (hf hs))

theorem Ready.not_final (h : s.Ready cap now a) : ¬ s.Final cap := by
  rcases h with ⟨hq, -, -⟩ | ⟨hp, -⟩
  · exact fun hf => hf.1 hq
  · exact hp.not_final

theorem Ready.attempt_le (h : s.Ready cap now a) : s.attempt ≤ a := by
  rcases h with ⟨-, hs, ha⟩ | ⟨-, ha⟩
  · omega
  · omega

theorem Ready.le_cap (h : s.Ready cap now a) (hcap : 1 ≤ cap) : a ≤ cap := by
  rcases h with ⟨-, -, ha⟩ | ⟨⟨-, hlt, -⟩, ha⟩
  · omega
  · omega

theorem Ready.pos (h : s.Ready cap now a) (hs : s.Planned cap) : 1 ≤ a := by
  have hnonneg := hs.1
  rcases h with ⟨-, -, ha⟩ | ⟨-, ha⟩
  · omega
  · omega

theorem Ready.eq_succ (h : s.Ready cap now a) (hs : s.status ≠ .queued) : a = s.attempt + 1 := by
  rcases h with ⟨hq, -, -⟩ | ⟨-, ha⟩
  · exact absurd hq hs
  · exact ha

end Slip

structure Board where
  slips : List Slip
  clock : Time
  /-- What the running task `i` is to do; `none` for what is not running. -/
  duty : Nat → Option Duty
  /-- Picked up by the sweep and not started. -/
  todo : List PendingNotification
  /-- How often each row was sent. -/
  tried : Uuid → Nat

namespace Board

/-- Nobody owes the row. -/
def Unowed (b : Board) (id : Uuid) : Prop := ∀ i org a t, b.duty i ≠ some (.owes org id a t)

/-- The row `p` was picked up from is still as it was. -/
def Matches (cap : Int) (now : Time) (p : PendingNotification) (s : Slip) : Prop :=
  s.id = p.id ∧ s.org = p.org ∧ s.attempt = p.attempt ∧ s.Pending now cap

inductive Move (cap : Int) (b : Board) : Board → Prop
  /-- Time passes, a task goes on with something else or ends, the sweep drops items. -/
  | rest {b'} : b'.slips = b.slips → b.clock ≤ b'.clock → b'.tried = b.tried →
      b'.todo.Sublist b.todo →
      (∀ i d, b'.duty i = some d → b.duty i = some d ∨ d = .free) →
      (∀ i org id a, b.duty i = some (.owes org id a true) → b'.duty i = b.duty i) → Move cap b b'
  /-- Task `i` records a row, and owes it if it is queued. -/
  | record {b'} (i : Nat) (s : Slip) : b.duty i = some .free → (∀ s' ∈ b.slips, s'.id ≠ s.id) →
      s.nextAttemptAt = none →
      (s.status = .queued ∧ s.attempt = 1 ∨ s.status = .suppressed ∧ s.attempt = 0) →
      b'.slips = b.slips ++ [s] → b.clock ≤ b'.clock → b'.tried = b.tried → b'.todo = b.todo →
      (∀ j, j ≠ i → b'.duty j = b.duty j) →
      (∀ d, b'.duty i = some d → d = .free ∨
        s.status = .queued ∧ d = .owes s.org s.id s.attempt false) → Move cap b b'
  /-- Task `i` sends the row it owes. -/
  | send {b'} (i : Nat) (org : OrgId) (id : Uuid) (a : Int) :
      b.duty i = some (.owes org id a false) → b'.slips = b.slips → b.clock ≤ b'.clock →
      b'.tried id = b.tried id + 1 → (∀ id', id' ≠ id → b'.tried id' = b.tried id') →
      b'.todo = b.todo → (∀ j, j ≠ i → b'.duty j = b.duty j) →
      b'.duty i = some (.owes org id a true) → Move cap b b'
  /-- Task `i` marks the row it owes. -/
  | mark {b'} (i : Nat) (org : OrgId) (id : Uuid) (a : Int) (t : Bool) (oc : NotificationOutcome) :
      b.duty i = some (.owes org id a t) → oc.attempt = a → oc.status ≠ .queued →
      (oc.status = .failed → oc.attempt < cap → oc.nextAttemptAt.isSome) →
      b'.slips = b.slips.map (fun s => if s.id = id ∧ s.org = org then s.marked oc else s) →
      b.clock ≤ b'.clock → b'.tried = b.tried → b'.todo = b.todo →
      (∀ j, j ≠ i → b'.duty j = b.duty j) → (∀ d, b'.duty i = some d → d = .free) → Move cap b b'
  /-- A scan picks pending rows up that nobody owes. -/
  | scan {b'} : b'.slips = b.slips → b.clock ≤ b'.clock → b'.tried = b.tried →
      b'.duty = b.duty → (∀ p ∈ b'.todo, ∃ s ∈ b.slips, Matches cap b'.clock p s) →
      (b'.todo.map (·.id)).Nodup → (∀ p ∈ b'.todo, b.Unowed p.id) → Move cap b b'
  /-- The retry of the next picked row is started. -/
  | start {b'} (i : Nat) (p : PendingNotification) : b.todo = p :: b'.todo → b.duty i = none →
      b'.slips = b.slips → b.clock ≤ b'.clock → b'.tried = b.tried →
      (∀ j, j ≠ i → b'.duty j = b.duty j) →
      (∀ d, b'.duty i = some d → d = .owes p.org p.id (p.attempt + 1) false) → Move cap b b'

/-- Every row owed is ready to be sent as the attempt its task will mark it with, no two
tasks owe one row, and a row was sent at most as often as its counter says. -/
structure Discipline (cap : Int) (b : Board) : Prop where
  keyed : (b.slips.map (·.id)).Nodup
  planned : ∀ s ∈ b.slips, s.Planned cap
  owed : ∀ i org id a t, b.duty i = some (.owes org id a t) →
    ∃ s ∈ b.slips, s.id = id ∧ s.org = org ∧ s.Ready cap b.clock a
  alone : ∀ i j org org' id a a' t t', b.duty i = some (.owes org id a t) →
    b.duty j = some (.owes org' id a' t') → i = j
  todo : ∀ p ∈ b.todo, (∃ s ∈ b.slips, Matches cap b.clock p s) ∧ b.Unowed p.id
  distinct : (b.todo.map (·.id)).Nodup
  known : ∀ id, b.tried id ≠ 0 → ∃ s ∈ b.slips, s.id = id
  spent : ∀ s ∈ b.slips, b.tried s.id = 0 ∨
    (b.tried s.id ≤ s.attempt ∧ s.attempt ≤ cap ∧ s.status ≠ .queued) ∨
    ∃ i org a, b.duty i = some (.owes org s.id a true) ∧ b.tried s.id ≤ a

variable {cap : Int} {b b' : Board} {s s' : Slip} {i : Nat} {org : OrgId} {id : Uuid} {a : Int}
  {t : Bool}

section
variable (h : b.Discipline cap)
include h

theorem Discipline.slip_eq (hs : s ∈ b.slips) (hs' : s' ∈ b.slips) (hid : s.id = s'.id) : s = s' :=
  List.inj_on_of_nodup_map h.keyed hs hs' hid

theorem Discipline.ready (hi : b.duty i = some (.owes org id a t)) (hs : s ∈ b.slips)
    (hid : s.id = id) : s.org = org ∧ s.Ready cap b.clock a := by
  obtain ⟨s', hs', hid', horg, hready⟩ := h.owed i org id a t hi
  obtain rfl := h.slip_eq hs hs' (hid.trans hid'.symm)
  exact ⟨horg, hready⟩

theorem Discipline.tried_lt (hi : b.duty i = some (.owes org id a false)) :
    (b.tried id : Int) < a := by
  obtain ⟨s, hs, rfl, -, hready⟩ := h.owed i org id a false hi
  have hpos := hready.pos (h.planned s hs)
  rcases h.spent s hs with hzero | ⟨hle, -, hq⟩ | ⟨j, org', a', hj, -⟩
  · omega
  · have := hready.eq_succ hq
    omega
  · obtain rfl := h.alone _ _ _ _ _ _ _ _ _ hi hj
    rw [hi] at hj
    cases hj

theorem Discipline.tried_le (hi : b.duty i = some (.owes org id a t)) :
    (b.tried id : Int) ≤ a := by
  obtain ⟨s, hs, rfl, -, hready⟩ := h.owed i org id a t hi
  have hpos := hready.pos (h.planned s hs)
  rcases h.spent s hs with hzero | ⟨hle, -, -⟩ | ⟨j, org', a', hj, hle⟩
  · omega
  · have := hready.attempt_le
    omega
  · obtain rfl := h.alone _ _ _ _ _ _ _ _ _ hi hj
    rw [hi] at hj
    cases hj
    exact hle

theorem Discipline.tried_le_cap (hcap : 1 ≤ cap) (id : Uuid) : (b.tried id : Int) ≤ cap := by
  by_cases hzero : b.tried id = 0
  · omega
  · obtain ⟨s, hs, rfl⟩ := h.known id hzero
    rcases h.spent s hs with hz | ⟨hle, hcap', -⟩ | ⟨j, org, a, hj, hle⟩
    · exact absurd hz hzero
    · omega
    · have := (h.ready hj hs rfl).2.le_cap hcap
      omega

theorem Discipline.unowed_of_final (hs : s ∈ b.slips) (hf : s.Final cap) : b.Unowed s.id := by
  intro i org a t hi
  exact (h.ready hi hs rfl).2.not_final hf

end

/-! ## One move -/

theorem Move.attempt_le (h : b.Discipline cap) (hm : Move cap b b') (hs : s ∈ b.slips) :
    ∃ s' ∈ b'.slips, s'.id = s.id ∧ s.attempt ≤ s'.attempt := by
  cases hm with
  | rest hslips | send _ _ _ _ _ hslips | scan hslips | start _ _ _ _ hslips =>
    exact ⟨s, hslips ▸ hs, rfl, le_refl _⟩
  | record _ r _ _ _ _ hslips =>
    exact ⟨s, hslips ▸ List.mem_append_left _ hs, rfl, le_refl _⟩
  | mark i org id a t oc hi ha _ _ hslips =>
    refine ⟨_, hslips ▸ List.mem_map_of_mem hs, ?_⟩
    by_cases hkey : s.id = id ∧ s.org = org
    · have hle := (h.ready hi hs hkey.1).2.attempt_le
      rw [if_pos hkey]
      refine ⟨rfl, ?_⟩
      show s.attempt ≤ oc.attempt
      omega
    · rw [if_neg hkey]
      exact ⟨rfl, le_refl _⟩

theorem Move.final (h : b.Discipline cap) (hm : Move cap b b') (hs : s ∈ b.slips)
    (hf : s.Final cap) : s ∈ b'.slips ∧ b'.tried s.id = b.tried s.id := by
  cases hm with
  | rest hslips _ htried | scan hslips _ htried | start _ _ _ _ hslips _ htried =>
    exact ⟨hslips ▸ hs, by rw [htried]⟩
  | record _ r _ _ _ _ hslips _ htried =>
    exact ⟨hslips ▸ List.mem_append_left _ hs, by rw [htried]⟩
  | send i org id a hi hslips _ _ hothers =>
    refine ⟨hslips ▸ hs, hothers _ fun hid => ?_⟩
    exact h.unowed_of_final hs hf i org a false (hid ▸ hi)
  | mark i org id a t oc hi _ _ _ hslips _ htried =>
    refine ⟨?_, by rw [htried]⟩
    have hno : ¬ (s.id = id ∧ s.org = org) := by
      rintro ⟨rfl, -⟩
      exact h.unowed_of_final hs hf i org a t hi
    have hmem := List.mem_map_of_mem (f := fun s : Slip =>
      if s.id = id ∧ s.org = org then s.marked oc else s) hs
    rw [if_neg hno] at hmem
    exact hslips ▸ hmem

/-! ### The discipline is kept -/

theorem Discipline.spent_of (h : b.Discipline cap) (htried : b'.tried = b.tried)
    (hs : s ∈ b.slips)
    (hkeep : ∀ i org a, b.duty i = some (.owes org s.id a true) → b'.duty i = b.duty i) :
    b'.tried s.id = 0 ∨
      ((b'.tried s.id : Int) ≤ s.attempt ∧ s.attempt ≤ cap ∧ s.status ≠ .queued) ∨
      ∃ i org a, b'.duty i = some (.owes org s.id a true) ∧ (b'.tried s.id : Int) ≤ a := by
  rw [htried]
  rcases h.spent s hs with hz | hle | ⟨i, org, a, hi, hle⟩
  · exact .inl hz
  · exact .inr (.inl hle)
  · exact .inr (.inr ⟨i, org, a, (hkeep i org a hi).trans hi, hle⟩)

theorem Matches.mono {now now' : Time} {p : PendingNotification} (h : Matches cap now p s)
    (hle : now ≤ now') : Matches cap now' p s :=
  ⟨h.1, h.2.1, h.2.2.1, h.2.2.2.mono hle⟩

theorem Discipline.rest (h : b.Discipline cap) (hslips : b'.slips = b.slips)
    (hclock : b.clock ≤ b'.clock) (htried : b'.tried = b.tried) (htodo : b'.todo.Sublist b.todo)
    (hduty : ∀ i d, b'.duty i = some d → b.duty i = some d ∨ d = .free)
    (hkeep : ∀ i org id a, b.duty i = some (.owes org id a true) → b'.duty i = b.duty i) :
    b'.Discipline cap := by
  have howes : ∀ i org id a t, b'.duty i = some (.owes org id a t) →
      b.duty i = some (.owes org id a t) := by
    intro i org id a t hi
    rcases hduty i _ hi with hi | hfree
    · exact hi
    · cases hfree
  refine ⟨hslips ▸ h.keyed, hslips ▸ h.planned, ?_, ?_, ?_, ?_, ?_, ?_⟩
  · intro i org id a t hi
    obtain ⟨s, hs, hid, horg, hready⟩ := h.owed i org id a t (howes i org id a t hi)
    exact ⟨s, hslips ▸ hs, hid, horg, hready.mono hclock⟩
  · intro i j org org' id a a' t t' hi hj
    exact h.alone i j org org' id a a' t t' (howes _ _ _ _ _ hi) (howes _ _ _ _ _ hj)
  · intro p hp
    obtain ⟨⟨s, hs, hm⟩, hno⟩ := h.todo p (htodo.subset hp)
    exact ⟨⟨s, hslips ▸ hs, hm.mono hclock⟩, fun i org a t hi => hno i org a t (howes _ _ _ _ _ hi)⟩
  · exact h.distinct.sublist (htodo.map _)
  · rw [htried, hslips]
    exact h.known
  · rw [hslips]
    exact fun s hs => h.spent_of htried hs fun i org a => hkeep i org s.id a

theorem Discipline.record (h : b.Discipline cap) (hi : b.duty i = some .free)
    (hfresh : ∀ s' ∈ b.slips, s'.id ≠ s.id) (hnext : s.nextAttemptAt = none)
    (hrow : s.status = .queued ∧ s.attempt = 1 ∨ s.status = .suppressed ∧ s.attempt = 0)
    (hslips : b'.slips = b.slips ++ [s]) (hclock : b.clock ≤ b'.clock)
    (htried : b'.tried = b.tried) (htodo : b'.todo = b.todo)
    (hothers : ∀ j, j ≠ i → b'.duty j = b.duty j)
    (hself : ∀ d, b'.duty i = some d → d = .free ∨
      s.status = .queued ∧ d = .owes s.org s.id s.attempt false) : b'.Discipline cap := by
  have hold : ∀ s' ∈ b.slips, s' ∈ b'.slips := fun s' hs' => hslips ▸ List.mem_append_left _ hs'
  have hnew : s ∈ b'.slips := hslips ▸ List.mem_append_right _ List.mem_cons_self
  have hmem : ∀ s' ∈ b'.slips, s' ∈ b.slips ∨ s' = s := by
    intro s' hs'
    rw [hslips] at hs'
    simpa using hs'
  -- Every debt is an old one, or that of the new row.
  have howes : ∀ j org id a t, b'.duty j = some (.owes org id a t) →
      (j ≠ i ∧ b.duty j = some (.owes org id a t)) ∨
        (j = i ∧ s.status = .queued ∧ org = s.org ∧ id = s.id ∧ a = s.attempt) := by
    intro j org id a t hj
    by_cases hji : j = i
    · subst hji
      rcases hself _ hj with hfree | ⟨hq, howe⟩
      · cases hfree
      · cases howe
        exact .inr ⟨rfl, hq, rfl, rfl, rfl⟩
    · exact .inl ⟨hji, hothers j hji ▸ hj⟩
  have hunowed : ∀ j org a t, b.duty j ≠ some (.owes org s.id a t) := by
    intro j org a t hj
    obtain ⟨s', hs', hid, -⟩ := h.owed j org s.id a t hj
    exact hfresh s' hs' hid
  refine ⟨?_, ?_, ?_, ?_, ?_, htodo ▸ h.distinct, ?_, ?_⟩
  · rw [hslips, List.map_append, List.nodup_append]
    refine ⟨h.keyed, by simp, fun x hx y hy => ?_⟩
    obtain ⟨s', hs', rfl⟩ := List.mem_map.mp hx
    obtain rfl : y = s.id := by simpa using hy
    exact hfresh s' hs'
  · intro s' hs'
    rcases hmem s' hs' with hs' | rfl
    · exact h.planned s' hs'
    · rcases hrow with ⟨hst, ha⟩ | ⟨hst, ha⟩
      · exact ⟨by omega, fun hf => by rw [hst] at hf; cases hf⟩
      · exact ⟨by omega, fun hf => by rw [hst] at hf; cases hf⟩
  · intro j org id a t hj
    rcases howes j org id a t hj with ⟨-, hj⟩ | ⟨-, hq, rfl, rfl, rfl⟩
    · obtain ⟨s', hs', hid, horg, hready⟩ := h.owed j org id a t hj
      exact ⟨s', hold s' hs', hid, horg, hready.mono hclock⟩
    · refine ⟨s, hnew, rfl, rfl, ?_⟩
      rcases hrow with ⟨hst, ha⟩ | ⟨hst, -⟩
      · exact .inl ⟨hst, ha, ha⟩
      · rw [hst] at hq
        cases hq
  · intro j k org org' id a a' t t' hj hk
    rcases howes j org id a t hj with ⟨-, hj⟩ | ⟨rfl, -, -, rfl, -⟩ <;>
      rcases howes k org' _ a' t' hk with ⟨-, hk⟩ | ⟨rfl, -, -, hid, -⟩
    · exact h.alone j k org org' id a a' t t' hj hk
    · exact absurd (hid ▸ hj) (hunowed j org a t)
    · exact absurd hk (hunowed k org' a' t')
    · rfl
  · intro p hp
    obtain ⟨⟨s', hs', hm⟩, hno⟩ := h.todo p (htodo ▸ hp)
    refine ⟨⟨s', hold s' hs', hm.mono hclock⟩, fun j org a t hj => ?_⟩
    rcases howes j org p.id a t hj with ⟨-, hj⟩ | ⟨-, -, -, hid, -⟩
    · exact hno j org a t hj
    · exact hfresh s' hs' (hm.1.trans hid)
  · intro id hid
    rw [htried] at hid
    obtain ⟨s', hs', hid'⟩ := h.known id hid
    exact ⟨s', hold s' hs', hid'⟩
  · intro s' hs'
    rcases hmem s' hs' with hs' | rfl
    · refine h.spent_of htried hs' fun j org a hj => hothers j ?_
      rintro rfl
      rw [hi] at hj
      cases hj
    · refine .inl ?_
      by_contra hne
      rw [htried] at hne
      obtain ⟨s', hs', hid⟩ := h.known _ hne
      exact hfresh s' hs' hid

theorem Discipline.send (h : b.Discipline cap) (hi : b.duty i = some (.owes org id a false))
    (hslips : b'.slips = b.slips) (hclock : b.clock ≤ b'.clock)
    (htried : b'.tried id = b.tried id + 1) (hrest : ∀ id', id' ≠ id → b'.tried id' = b.tried id')
    (htodo : b'.todo = b.todo) (hothers : ∀ j, j ≠ i → b'.duty j = b.duty j)
    (hself : b'.duty i = some (.owes org id a true)) : b'.Discipline cap := by
  have howes : ∀ j org' id' a' t', b'.duty j = some (.owes org' id' a' t') →
      ∃ t, b.duty j = some (.owes org' id' a' t) := by
    intro j org' id' a' t' hj
    by_cases hji : j = i
    · subst hji
      rw [hself] at hj
      cases hj
      exact ⟨false, hi⟩
    · exact ⟨t', hothers j hji ▸ hj⟩
  refine ⟨hslips ▸ h.keyed, hslips ▸ h.planned, ?_, ?_, ?_, htodo ▸ h.distinct, ?_, ?_⟩
  · intro j org' id' a' t' hj
    obtain ⟨t, hj⟩ := howes j org' id' a' t' hj
    obtain ⟨s, hs, hid, horg, hready⟩ := h.owed j org' id' a' t hj
    exact ⟨s, hslips ▸ hs, hid, horg, hready.mono hclock⟩
  · intro j k org₁ org₂ id' a₁ a₂ t₁ t₂ hj hk
    obtain ⟨t, hj⟩ := howes j org₁ id' a₁ t₁ hj
    obtain ⟨t', hk⟩ := howes k org₂ id' a₂ t₂ hk
    exact h.alone j k org₁ org₂ id' a₁ a₂ t t' hj hk
  · intro p hp
    obtain ⟨⟨s, hs, hm⟩, hno⟩ := h.todo p (htodo ▸ hp)
    refine ⟨⟨s, hslips ▸ hs, hm.mono hclock⟩, fun j org' a' t' hj => ?_⟩
    obtain ⟨t, hj⟩ := howes j org' p.id a' t' hj
    exact hno j org' a' t hj
  · intro id' hid'
    rw [hslips]
    by_cases heq : id' = id
    · subst heq
      obtain ⟨s, hs, hid, -⟩ := h.owed i org id' a false hi
      exact ⟨s, hs, hid⟩
    · exact h.known id' (hrest id' heq ▸ hid')
  · intro s hs
    rw [hslips] at hs
    by_cases heq : s.id = id
    · subst heq
      have hlt := h.tried_lt hi
      refine .inr (.inr ⟨i, org, a, hself, ?_⟩)
      rw [htried]
      omega
    · rw [hrest s.id heq]
      rcases h.spent s hs with hz | hle | ⟨j, org', a', hj, hle⟩
      · exact .inl hz
      · exact .inr (.inl hle)
      · refine .inr (.inr ⟨j, org', a', (hothers j ?_).trans hj, hle⟩)
        rintro rfl
        rw [hi] at hj
        cases hj

theorem Discipline.mark (h : b.Discipline cap) (hcap : 1 ≤ cap) {oc : NotificationOutcome}
    (hi : b.duty i = some (.owes org id a t)) (ha : oc.attempt = a) (hq : oc.status ≠ .queued)
    (hplan : oc.status = .failed → oc.attempt < cap → oc.nextAttemptAt.isSome)
    (hslips : b'.slips = b.slips.map fun s =>
      if s.id = id ∧ s.org = org then s.marked oc else s)
    (hclock : b.clock ≤ b'.clock) (htried : b'.tried = b.tried) (htodo : b'.todo = b.todo)
    (hothers : ∀ j, j ≠ i → b'.duty j = b.duty j) (hself : ∀ d, b'.duty i = some d → d = .free) :
    b'.Discipline cap := by
  -- The one row that is rewritten is the row task `i` owes.
  have hkey : ∀ s ∈ b.slips, (s.id = id ∧ s.org = org ↔ s.id = id) := fun s hs =>
    ⟨fun hk => hk.1, fun hid => ⟨hid, (h.ready hi hs hid).1⟩⟩
  have hother : ∀ s ∈ b.slips, s.id ≠ id → s ∈ b'.slips := by
    intro s hs hne
    rw [hslips]
    exact List.mem_map.mpr ⟨s, hs, if_neg fun hk => hne hk.1⟩
  have hmem : ∀ s' ∈ b'.slips, (s' ∈ b.slips ∧ s'.id ≠ id) ∨
      ∃ s ∈ b.slips, s.id = id ∧ s' = s.marked oc := by
    intro s' hs'
    rw [hslips] at hs'
    obtain ⟨s, hs, rfl⟩ := List.mem_map.mp hs'
    by_cases hid : s.id = id
    · rw [if_pos ((hkey s hs).mpr hid)]
      exact .inr ⟨s, hs, hid, rfl⟩
    · rw [if_neg fun hk => hid hk.1]
      exact .inl ⟨hs, hid⟩
  have howes : ∀ j org' id' a' t', b'.duty j = some (.owes org' id' a' t') →
      j ≠ i ∧ b.duty j = some (.owes org' id' a' t') ∧ id' ≠ id := by
    intro j org' id' a' t' hj
    have hji : j ≠ i := by
      rintro rfl
      cases hself _ hj
    have hj' : b.duty j = some (.owes org' id' a' t') := hothers j hji ▸ hj
    refine ⟨hji, hj', ?_⟩
    rintro rfl
    exact hji (h.alone j i org' org id' a' a t' t hj' hi)
  have hpos : 1 ≤ a := by
    obtain ⟨s, hs, -, -, hready⟩ := h.owed i org id a t hi
    exact hready.pos (h.planned s hs)
  refine ⟨?_, ?_, ?_, ?_, ?_, htodo ▸ h.distinct, ?_, ?_⟩
  · have hids : b'.slips.map (·.id) = b.slips.map (·.id) := by
      rw [hslips, List.map_map]
      refine List.map_congr_left fun s _ => ?_
      show (if s.id = id ∧ s.org = org then s.marked oc else s).id = s.id
      split <;> rfl
    rw [hids]
    exact h.keyed
  · intro s' hs'
    rcases hmem s' hs' with ⟨hs', -⟩ | ⟨s, hs, -, rfl⟩
    · exact h.planned s' hs'
    · refine ⟨?_, hplan⟩
      show 0 ≤ oc.attempt
      omega
  · intro j org' id' a' t' hj
    obtain ⟨-, hj, hne⟩ := howes j org' id' a' t' hj
    obtain ⟨s, hs, hid, horg, hready⟩ := h.owed j org' id' a' t' hj
    exact ⟨s, hother s hs (hid ▸ hne), hid, horg, hready.mono hclock⟩
  · intro j k org₁ org₂ id' a₁ a₂ t₁ t₂ hj hk
    exact h.alone j k org₁ org₂ id' a₁ a₂ t₁ t₂ (howes _ _ _ _ _ hj).2.1 (howes _ _ _ _ _ hk).2.1
  · intro p hp
    obtain ⟨⟨s, hs, hm⟩, hno⟩ := h.todo p (htodo ▸ hp)
    have hne : s.id ≠ id := by
      intro hid
      exact hno i org a t (hm.1 ▸ hid ▸ hi)
    exact ⟨⟨s, hother s hs hne, hm.mono hclock⟩,
      fun j org' a' t' hj => hno j org' a' t' (howes _ _ _ _ _ hj).2.1⟩
  · intro id' hid'
    rw [htried] at hid'
    obtain ⟨s, hs, hid⟩ := h.known id' hid'
    rw [hslips]
    refine ⟨_, List.mem_map_of_mem hs, ?_⟩
    show (if s.id = id ∧ s.org = org then s.marked oc else s).id = id'
    split <;> exact hid
  · intro s' hs'
    rcases hmem s' hs' with ⟨hs', hne⟩ | ⟨s, hs, rfl, rfl⟩
    · refine h.spent_of htried hs' fun j org' a' hj => hothers j ?_
      rintro rfl
      rw [hi] at hj
      cases hj
      exact hne rfl
    · refine .inr (.inl ⟨?_, ?_, hq⟩)
      · show (b'.tried s.id : Int) ≤ oc.attempt
        have := h.tried_le hi
        rw [htried]
        omega
      · show oc.attempt ≤ cap
        have := (h.ready hi hs rfl).2.le_cap hcap
        omega

theorem Discipline.scan (h : b.Discipline cap) (hslips : b'.slips = b.slips)
    (hclock : b.clock ≤ b'.clock) (htried : b'.tried = b.tried) (hduty : b'.duty = b.duty)
    (hpicked : ∀ p ∈ b'.todo, ∃ s ∈ b.slips, Matches cap b'.clock p s)
    (hnodup : (b'.todo.map (·.id)).Nodup) (hfree : ∀ p ∈ b'.todo, b.Unowed p.id) :
    b'.Discipline cap := by
  refine ⟨hslips ▸ h.keyed, hslips ▸ h.planned, ?_, hduty ▸ h.alone, ?_, hnodup, ?_, ?_⟩
  · intro i org id a t hi
    obtain ⟨s, hs, hid, horg, hready⟩ := h.owed i org id a t (hduty ▸ hi)
    exact ⟨s, hslips ▸ hs, hid, horg, hready.mono hclock⟩
  · intro p hp
    rw [hslips]
    refine ⟨hpicked p hp, fun i org a t hi => ?_⟩
    exact hfree p hp i org a t (hduty ▸ hi)
  · rw [htried, hslips]
    exact h.known
  · rw [hslips]
    exact fun s hs => h.spent_of htried hs fun i _ _ _ => congrFun hduty i

theorem Discipline.start (h : b.Discipline cap) {p : PendingNotification}
    (htodo : b.todo = p :: b'.todo) (hi : b.duty i = none) (hslips : b'.slips = b.slips)
    (hclock : b.clock ≤ b'.clock) (htried : b'.tried = b.tried)
    (hothers : ∀ j, j ≠ i → b'.duty j = b.duty j)
    (hself : ∀ d, b'.duty i = some d → d = .owes p.org p.id (p.attempt + 1) false) :
    b'.Discipline cap := by
  have hhere : p ∈ b.todo := htodo ▸ List.mem_cons_self
  have hlater : ∀ q ∈ b'.todo, q ∈ b.todo := fun q hq => htodo ▸ List.mem_cons_of_mem _ hq
  obtain ⟨⟨s, hs, hid, horg, hattempt, hpend⟩, hno⟩ := h.todo p hhere
  have hdistinct : p.id ∉ b'.todo.map (·.id) ∧ (b'.todo.map (·.id)).Nodup := by
    have := h.distinct
    rw [htodo, List.map_cons, List.nodup_cons] at this
    exact this
  have howes : ∀ j org id a t, b'.duty j = some (.owes org id a t) →
      (j ≠ i ∧ b.duty j = some (.owes org id a t)) ∨
        (j = i ∧ org = p.org ∧ id = p.id ∧ a = p.attempt + 1) := by
    intro j org id a t hj
    by_cases hji : j = i
    · subst hji
      cases hself _ hj
      exact .inr ⟨rfl, rfl, rfl, rfl⟩
    · exact .inl ⟨hji, hothers j hji ▸ hj⟩
  refine ⟨hslips ▸ h.keyed, hslips ▸ h.planned, ?_, ?_, ?_, hdistinct.2, ?_, ?_⟩
  · intro j org id a t hj
    rw [hslips]
    rcases howes j org id a t hj with ⟨-, hj⟩ | ⟨-, rfl, rfl, rfl⟩
    · obtain ⟨s', hs', hid', horg', hready⟩ := h.owed j org id a t hj
      exact ⟨s', hs', hid', horg', hready.mono hclock⟩
    · exact ⟨s, hs, hid, horg, .inr ⟨hpend.mono hclock, by omega⟩⟩
  · intro j k org org' id a a' t t' hj hk
    rcases howes j org id a t hj with ⟨-, hj⟩ | ⟨rfl, -, rfl, -⟩ <;>
      rcases howes k org' _ a' t' hk with ⟨-, hk⟩ | ⟨rfl, -, hid', -⟩
    · exact h.alone j k org org' id a a' t t' hj hk
    · exact absurd (hid' ▸ hj) (hno j org a t)
    · exact absurd hk (hno k org' a' t')
    · rfl
  · intro q hq
    obtain ⟨⟨s', hs', hm⟩, hno'⟩ := h.todo q (hlater q hq)
    refine ⟨⟨s', hslips ▸ hs', hm.mono hclock⟩, fun j org a t hj => ?_⟩
    rcases howes j org q.id a t hj with ⟨-, hj⟩ | ⟨-, -, hid', -⟩
    · exact hno' j org a t hj
    · exact hdistinct.1 (List.mem_map.mpr ⟨q, hq, hid'⟩)
  · rw [htried, hslips]
    exact h.known
  · rw [hslips]
    refine fun s hs => h.spent_of htried hs fun j org a hj => hothers j ?_
    rintro rfl
    rw [hi] at hj
    cases hj

theorem Discipline.move (h : b.Discipline cap) (hcap : 1 ≤ cap) (hm : Move cap b b') :
    b'.Discipline cap := by
  cases hm with
  | rest hslips hclock htried htodo hduty hkeep =>
    exact h.rest hslips hclock htried htodo hduty hkeep
  | record i s hi hfresh hnext hrow hslips hclock htried htodo hothers hself =>
    exact h.record hi hfresh hnext hrow hslips hclock htried htodo hothers hself
  | send i org id a hi hslips hclock htried hrest htodo hothers hself =>
    exact h.send hi hslips hclock htried hrest htodo hothers hself
  | mark i org id a t oc hi ha hq hplan hslips hclock htried htodo hothers hself =>
    exact h.mark hcap hi ha hq hplan hslips hclock htried htodo hothers hself
  | scan hslips hclock htried hduty hpicked hnodup hfree =>
    exact h.scan hslips hclock htried hduty hpicked hnodup hfree
  | start i p htodo hi hslips hclock htried hothers hself =>
    exact h.start htodo hi hslips hclock htried hothers hself

end Board

end Uptimepage

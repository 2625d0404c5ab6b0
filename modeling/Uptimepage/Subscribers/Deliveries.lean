import Mathlib
import Uptimepage.Async.Tasks
import Uptimepage.Domain.Incident
import Uptimepage.Sql.Rows

/-!
# The delivery log of subscriber notifications

A dispatcher's tick lists what is pending, claims the deliveries one by one and then sends them,
each with its own `mark`.  A claim takes over a `queued` row that is older than ten minutes,
whoever queued it: a row whose holder is still waiting for its turn, or has sent and did not get
to mark, is sent again (`subscriber_notified_twice`).
-/

namespace Uptimepage.Subscribers

open Async Sql

inductive EventKind
  | incidentUpdate
  | maintenance
deriving DecidableEq

structure Key where
  subscriberId : Uuid
  eventKind : EventKind
  eventRef : Uuid
  phase : String
deriving DecidableEq

inductive Status
  | queued
  | sent
  | failed
deriving DecidableEq

/-- A row of `status_page_subscriber_deliveries`. -/
structure Delivery where
  key : Key
  status : Status
  error : Option String
  attempts : Nat
  createdAt : Time
  sentAt : Option Time
deriving DecidableEq

def FANOUT_MAX_ATTEMPTS : Nat := 3

def CLAIM_ORPHAN_MINUTES : Int := 10

def SEND_CONCURRENCY : Nat := 8

structure Store where
  now : Time
  rows : Rows Delivery.key

/-! ## The statements -/

namespace Delivery

def fresh (k : Key) (now : Time) : Delivery := ⟨k, .queued, none, 0, now, none⟩

/-- A queued row that is past the orphan bound. -/
def orphaned (d : Delivery) (now : Time) : Bool :=
  d.status == .queued && decide (d.createdAt < now - seconds (60 * CLAIM_ORPHAN_MINUTES))

def claimable (d : Delivery) (now : Time) : Bool :=
  (d.status == .failed && decide (d.attempts < FANOUT_MAX_ATTEMPTS)) || d.orphaned now

def requeue (now : Time) (d : Delivery) : Delivery :=
  { d with status := .queued, error := none, createdAt := now }

@[simp] theorem requeue_key (now : Time) (d : Delivery) : (d.requeue now).key = d.key := rfl

def outcome (error : Option String) (now : Time) (d : Delivery) : Delivery :=
  { d with
    status := if error.isNone then .sent else .failed
    error := error
    attempts := d.attempts + if error.isNone then 0 else 1
    sentAt := if error.isNone then some now else d.sentAt }

@[simp] theorem outcome_key (error : Option String) (now : Time) (d : Delivery) :
    (d.outcome error now).key = d.key := rfl

/-- The delivery is not listed. -/
def settled (d : Delivery) (now : Time) : Bool :=
  d.status == .sent ||
    (d.status == .queued && decide (d.createdAt > now - seconds (60 * CLAIM_ORPHAN_MINUTES))) ||
    (d.status == .failed && decide (FANOUT_MAX_ATTEMPTS ≤ d.attempts))

end Delivery

namespace Store

def row? (st : Store) (k : Key) : Option Delivery := st.rows.get? k

/-- `none` when the delivery is not claimed. -/
def claim (st : Store) (k : Key) : Option Store :=
  match st.row? k with
  | none => some { st with rows := st.rows.insert (.fresh k st.now) }
  | some d =>
    if d.claimable st.now then
      some { st with
        rows := st.rows.update (fun d => d.key == k) (Delivery.requeue st.now)
          (Delivery.requeue_key st.now) }
    else none

def mark (st : Store) (k : Key) (error : Option String) : Store :=
  { st with
    rows := st.rows.update (fun d => d.key == k) (Delivery.outcome error st.now)
      (Delivery.outcome_key error st.now) }

/-- `list_pending`, from the candidates that the pages' tables give. -/
def listPending (st : Store) (kind : EventKind) (limit : Nat) (candidates : List Key) :
    List Key :=
  (candidates.filter fun k => k.eventKind == kind &&
    !(st.row? k).any fun d => d.settled st.now).take limit

end Store

/-! ## A tick -/

/-- Where a claimed delivery is.  The answer of a send is its error. -/
inductive Stage
  | waiting
  | sending
  | answered (error : Option String)
  | marked (error : Option String)
  /-- The row could not be marked; this is logged. -/
  | unmarked (error : Option String)
deriving DecidableEq

structure Job where
  key : Key
  stage : Stage
deriving DecidableEq

def Job.wait (k : Key) : Job := ⟨k, .waiting⟩

inductive Phase
  | listing (kind : EventKind) (limit : Nat)
  | claiming (todo claimed : List Key)
  | delivering (jobs : List Job)
  /-- The tick was given up with these claims, or its process ended. -/
  | ended (jobs : List Job)
deriving DecidableEq

structure Request where
  kind : EventKind
  batchLimit : Nat
deriving DecidableEq

inductive Choice
  | list (candidates : List Key)
  | claim
  /-- The listing or the claim fails. -/
  | fails
  /-- The next delivery's turn. -/
  | send (j : Nat)
  | answer (j : Nat) (error : Option String)
  | mark (j : Nat)
  | markFails (j : Nat)
  | crash
deriving DecidableEq

def Stage.active : Stage → Bool
  | sending | answered _ => true
  | _ => false

def Stage.begun : Stage → Bool
  | waiting => false
  | _ => true

/-- `for_each_concurrent` starts the deliveries in order, so many at a time. -/
def hasTurn (jobs : List Job) (j : Nat) : Bool :=
  (jobs.take j).all (fun job => job.stage.begun) &&
    decide (jobs.countP (fun job => job.stage.active) < SEND_CONCURRENCY)

def deliver (st : Store) (jobs : List Job) (j : Nat) (job : Job) :
    Choice → Option (Store × Phase)
  | .send _ =>
    if job.stage = .waiting ∧ hasTurn jobs j then
      some (st, .delivering (jobs.set j { job with stage := .sending }))
    else none
  | .answer _ error =>
    if job.stage = .sending then
      some (st, .delivering (jobs.set j { job with stage := .answered error }))
    else none
  | .mark _ =>
    match job.stage with
    | .answered error =>
      some (st.mark job.key error, .delivering (jobs.set j { job with stage := .marked error }))
    | _ => none
  | .markFails _ =>
    match job.stage with
    | .answered error => some (st, .delivering (jobs.set j { job with stage := .unmarked error }))
    | _ => none
  | _ => none

def next (st : Store) : Phase → Choice → Option (Store × Phase)
  | .ended _, _ => none
  | .listing kind limit, .list candidates =>
    some (st, .claiming (st.listPending kind limit candidates) [])
  | .listing _ _, .fails | .listing _ _, .crash => some (st, .ended [])
  | .claiming [] claimed, .claim => some (st, .delivering (claimed.map Job.wait))
  | .claiming (k :: todo) claimed, .claim =>
    match st.claim k with
    | some st' => some (st', .claiming todo (claimed ++ [k]))
    | none => some (st, .claiming todo claimed)
  -- an error of a claim ends the tick, with what it has claimed
  | .claiming (_ :: _) claimed, .fails => some (st, .ended (claimed.map Job.wait))
  | .claiming _ claimed, .crash => some (st, .ended (claimed.map Job.wait))
  | .delivering jobs, .crash => some (st, .ended jobs)
  | .delivering jobs, .send j => jobs[j]?.bind fun job => deliver st jobs j job (.send j)
  | .delivering jobs, .answer j error =>
    jobs[j]?.bind fun job => deliver st jobs j job (.answer j error)
  | .delivering jobs, .mark j => jobs[j]?.bind fun job => deliver st jobs j job (.mark j)
  | .delivering jobs, .markFails j => jobs[j]?.bind fun job => deliver st jobs j job (.markFails j)
  | _, _ => none

/-- Time passes by itself. -/
def program : Program Store Phase Request Choice Nat where
  first := fun r => .listing r.kind r.batchLimit
  next := next
  outer := fun st passed => { st with now := st.now + passed }

/-! ## Counting claims -/

def Stage.succeeded : Stage → Bool
  | answered none | marked none | unmarked none => true
  | _ => false

/-- The send began, and the row does not have its outcome. -/
def Stage.unsettled : Stage → Bool
  | sending | answered _ | unmarked _ => true
  | _ => false

def Stage.markedSent : Stage → Bool
  | marked none => true
  | _ => false

def Stage.markedFailed : Stage → Bool
  | marked (some _) => true
  | _ => false

def Stage.isMarked (stage : Stage) : Bool := stage.markedSent || stage.markedFailed

/-- The jobs of a tick for a delivery. -/
def Phase.countJobs (k : Key) (f : Stage → Bool) : Phase → Nat
  | listing _ _ | claiming _ _ => 0
  | delivering jobs | ended jobs => jobs.countP fun job => job.key == k && f job.stage

/-- The claims of a delivery that can still be sent, or whose send began and is not marked. -/
def Phase.openClaims (k : Key) : Phase → Nat
  | listing _ _ => 0
  | claiming _ claimed => claimed.count k
  | delivering jobs => jobs.countP fun job => job.key == k && !job.stage.isMarked
  | ended jobs => jobs.countP fun job => job.key == k && job.stage.unsettled

def total (s : Pooled Store Phase) (f : Phase → Nat) : Nat := (s.tasks.map f).sum

def attempts (s : Pooled Store Phase) (k : Key) : Nat := total s (Phase.countJobs k Stage.begun)

/-- How often it was sent successfully. -/
def successes (s : Pooled Store Phase) (k : Key) : Nat :=
  total s (Phase.countJobs k Stage.succeeded)

/-- The next claim takes a queued row over. -/
def takesOver (st : Store) : Phase → Choice → Option Key
  | .claiming (k :: _) _, .claim => if (st.row? k).any fun d => d.orphaned st.now then some k else none
  | _, _ => none

/-- A queued row is taken over when the claim that queued it is given up and its send never began. -/
def abandoned (s : Pooled Store Phase) : Act Request Choice Nat → Bool
  | .go i choice =>
    match (s.tasks[i]?).bind fun p => takesOver s.store p choice with
    | some k => s.tasks.all fun p => p.openClaims k == 0
    | none => true
  | _ => true

/-! ## What the statements do to a row -/

section

variable {st st' : Store} {k k' : Key} {error : Option String}

theorem row?_claim (h : st.claim k = some st') :
    (st'.row? k = some (.fresh k st.now) ∧ st.row? k = none) ∨
    ∃ d, st.row? k = some d ∧ d.claimable st.now = true ∧ st'.row? k = some (d.requeue st.now) := by
  unfold Store.claim at h
  split at h
  · next hnone =>
    cases h
    refine .inl ⟨?_, hnone⟩
    exact Rows.get?_eq_some.2 ⟨Rows.mem_insert_self hnone, rfl⟩
  · next d hd =>
    split at h
    · next hclaimable =>
      cases h
      refine .inr ⟨d, hd, hclaimable, ?_⟩
      have hkey : d.key = k := (Rows.get?_eq_some.1 hd).2
      unfold Store.row? at hd ⊢
      dsimp only
      rw [Rows.get?_update, hd, Option.map_some, if_pos (beq_iff_eq.mpr hkey)]
    · cases h

theorem row?_claim_of_ne (h : st.claim k = some st') (hne : k' ≠ k) :
    st'.row? k' = st.row? k' := by
  unfold Store.claim at h
  split at h
  · cases h
    exact Rows.get?_insert_ne fun heq => hne heq.symm
  · split at h
    · cases h
      refine Rows.get?_update_of (Delivery.requeue_key st.now) ?_
      intro d hd
      rw [beq_eq_false_iff_ne, hd]
      exact hne
    · cases h

theorem row?_mark : (st.mark k error).row? k = (st.row? k).map (Delivery.outcome error st.now) := by
  unfold Store.row? Store.mark
  dsimp only
  rw [Rows.get?_update]
  cases hd : st.rows.get? k with
  | none => rfl
  | some d =>
    have hkey : d.key = k := (Rows.get?_eq_some.1 hd).2
    rw [Option.map_some, Option.map_some, if_pos (beq_iff_eq.mpr hkey)]

theorem row?_mark_of_ne (hne : k' ≠ k) : (st.mark k error).row? k' = st.row? k' := by
  refine Rows.get?_update_of (Delivery.outcome_key error st.now) ?_
  intro d hd
  rw [beq_eq_false_iff_ne, hd]
  exact hne

end

/-! ## What a step does to the counts -/

section

variable {k : Key}

theorem countP_wait (claimed : List Key) (f : Stage → Bool) :
    (claimed.map Job.wait).countP (fun job => job.key == k && f job.stage) =
      if f .waiting then claimed.count k else 0 := by
  rw [List.countP_map]
  by_cases hf : f .waiting = true
  · rw [if_pos hf]
    unfold List.count
    refine List.countP_congr ?_
    intro k' _
    simp [Job.wait, hf]
  · rw [if_neg hf]
    refine List.countP_eq_zero.mpr ?_
    intro k' _
    simp [Job.wait, hf]

/-- The claims of a tick are as before, but for those given up. -/
structure Phase.Quiet (p p' : Phase) : Prop where
  claims : ∀ k, p'.openClaims k ≤ p.openClaims k
  sent : ∀ k, p'.countJobs k Stage.markedSent = p.countJobs k Stage.markedSent
  failed : ∀ k, p'.countJobs k Stage.markedFailed = p.countJobs k Stage.markedFailed

theorem Phase.Quiet.deliver {jobs : List Job} {j : Nat} {job : Job} {stage : Stage}
    (hj : jobs[j]? = some job) (hold : job.stage.isMarked = false)
    (hnew : stage.isMarked = false) :
    Phase.Quiet (.delivering jobs) (.delivering (jobs.set j { job with stage := stage })) := by
  simp only [Stage.isMarked, Bool.or_eq_false_iff] at hold hnew
  refine ⟨?_, ?_, ?_⟩
  · intro k
    have hcount := countP_set_add (fun job => job.key == k && !job.stage.isMarked) hj
      { job with stage := stage }
    simp only [Stage.isMarked, hold, hnew] at hcount
    exact Nat.le_of_eq (Nat.add_right_cancel hcount)
  · intro k
    have hcount := countP_set_add (fun job => job.key == k && job.stage.markedSent) hj
      { job with stage := stage }
    simp only [hold, hnew] at hcount
    exact Nat.add_right_cancel hcount
  · intro k
    have hcount := countP_set_add (fun job => job.key == k && job.stage.markedFailed) hj
      { job with stage := stage }
    simp only [hold, hnew] at hcount
    exact Nat.add_right_cancel hcount

theorem Phase.Quiet.dropped (todo claimed : List Key) :
    Phase.Quiet (.claiming todo claimed) (.ended (claimed.map Job.wait)) := by
  refine ⟨?_, ?_, ?_⟩
  · intro k
    have hnone := countP_wait (k := k) claimed Stage.unsettled
    simp only [Stage.unsettled, Bool.false_eq_true, ↓reduceIte] at hnone
    simp [Phase.openClaims, Stage.unsettled, hnone]
  · intro k
    exact countP_wait claimed Stage.markedSent
  · intro k
    exact countP_wait claimed Stage.markedFailed

theorem next_cases {st st' : Store} {p p' : Phase} {c : Choice}
    (h : next st p c = some (st', p')) :
    (st' = st ∧ Phase.Quiet p p') ∨
    (∃ k todo claimed, p = .claiming (k :: todo) claimed ∧ c = .claim ∧ st.claim k = some st' ∧
      p' = .claiming todo (claimed ++ [k])) ∨
    (∃ jobs j job error, p = .delivering jobs ∧ jobs[j]? = some job ∧
      job.stage = .answered error ∧ st' = st.mark job.key error ∧
      p' = .delivering (jobs.set j { job with stage := .marked error })) := by
  cases p with
  | listing kind limit =>
    left
    cases c <;> cases h <;> exact ⟨rfl, fun _ => Nat.le_refl _, fun _ => rfl, fun _ => rfl⟩
  | claiming todo claimed =>
    cases c with
    | claim =>
      cases todo with
      | nil =>
        cases h
        refine .inl ⟨rfl, ?_, ?_, ?_⟩
        · intro k
          exact Nat.le_of_eq (countP_wait claimed fun stage => !stage.isMarked)
        · intro k
          exact countP_wait claimed Stage.markedSent
        · intro k
          exact countP_wait claimed Stage.markedFailed
      | cons k todo =>
        simp only [next] at h
        split at h
        · next st₁ hclaim =>
          cases h
          exact .inr (.inl ⟨k, todo, claimed, rfl, rfl, hclaim, rfl⟩)
        · cases h
          exact .inl ⟨rfl, fun _ => Nat.le_refl _, fun _ => rfl, fun _ => rfl⟩
    | fails =>
      cases todo with
      | nil => cases h
      | cons k todo =>
        cases h
        exact .inl ⟨rfl, .dropped _ _⟩
    | crash =>
      cases todo <;> cases h <;> exact .inl ⟨rfl, .dropped _ _⟩
    | _ => cases todo <;> cases h
  | delivering jobs =>
    cases c with
    | crash =>
      cases h
      refine .inl ⟨rfl, ?_, fun _ => rfl, fun _ => rfl⟩
      intro k
      refine List.countP_mono_left ?_
      intro job _ hjob
      obtain ⟨hkey, hstage⟩ := Bool.and_eq_true_iff.mp hjob
      rw [hkey, Bool.true_and]
      cases hs : job.stage with
      | waiting | marked error => rw [hs] at hstage; cases hstage
      | _ => rfl
    | send j =>
      obtain ⟨job, hj, h⟩ := Option.bind_eq_some_iff.mp h
      simp only [deliver] at h
      split at h
      · next hturn =>
        cases h
        exact .inl ⟨rfl, .deliver hj (by rw [hturn.1]; rfl) rfl⟩
      · cases h
    | answer j error =>
      obtain ⟨job, hj, h⟩ := Option.bind_eq_some_iff.mp h
      simp only [deliver] at h
      split at h
      · next hsending =>
        cases h
        exact .inl ⟨rfl, .deliver hj (by rw [hsending]; rfl) rfl⟩
      · cases h
    | mark j =>
      obtain ⟨job, hj, h⟩ := Option.bind_eq_some_iff.mp h
      simp only [deliver] at h
      split at h
      · next error hanswered =>
        cases h
        exact .inr (.inr ⟨jobs, j, job, error, rfl, hj, hanswered, rfl, rfl⟩)
      · cases h
    | markFails j =>
      obtain ⟨job, hj, h⟩ := Option.bind_eq_some_iff.mp h
      simp only [deliver] at h
      split at h
      · next error hanswered =>
        cases h
        exact .inl ⟨rfl, .deliver hj (by rw [hanswered]; rfl) rfl⟩
      · cases h
    | _ => cases h
  | ended jobs => cases h

end

/-! ## The invariant -/

/-- What a row says of the claims made of it: how many are open, were marked sent, and were
marked failed. -/
def Consistent (d? : Option Delivery) (opened sent failed : Nat) : Prop :=
  match d? with
  | none => opened = 0 ∧ sent = 0 ∧ failed = 0
  | some d => failed = d.attempts ∧
    match d.status with
    | .queued => opened ≤ 1 ∧ sent = 0 ∧ failed < FANOUT_MAX_ATTEMPTS
    | .sent => opened = 0 ∧ sent = 1 ∧ failed < FANOUT_MAX_ATTEMPTS
    | .failed => opened = 0 ∧ sent = 0 ∧ failed ≤ FANOUT_MAX_ATTEMPTS

def Kept (s : Pooled Store Phase) : Prop :=
  ∀ k, Consistent (s.store.row? k) (total s (Phase.openClaims k))
    (total s (Phase.countJobs k Stage.markedSent)) (total s (Phase.countJobs k Stage.markedFailed))

section

variable {s s' : Pooled Store Phase} {i : Nat} {p p' : Phase} {st : Store}

theorem Consistent.fewer {d? : Option Delivery} {opened opened' sent failed : Nat}
    (h : Consistent d? opened sent failed) (hle : opened' ≤ opened) :
    Consistent d? opened' sent failed := by
  cases d? with
  | none =>
    obtain ⟨hopen, hsent, hfailed⟩ := h
    exact ⟨by omega, hsent, hfailed⟩
  | some d =>
    obtain ⟨hattempts, h⟩ := h
    refine ⟨hattempts, ?_⟩
    cases hstatus : d.status with
    | queued | sent | failed =>
      rw [hstatus] at h
      obtain ⟨hopen, hrest⟩ := h
      exact ⟨by omega, hrest⟩

theorem total_set (st : Store) (p' : Phase) (f : Phase → Nat) (hp : s.tasks[i]? = some p) :
    total ⟨st, s.tasks.set i p'⟩ f + f p = total s f + f p' := sum_set_add f hp p'

theorem Kept.quiet (h : Kept s) (hp : s.tasks[i]? = some p) (hq : Phase.Quiet p p') :
    Kept ⟨s.store, s.tasks.set i p'⟩ := by
  intro k
  have hopen := total_set s.store p' (Phase.openClaims k) hp
  have hsent := total_set s.store p' (Phase.countJobs k Stage.markedSent) hp
  have hfailed := total_set s.store p' (Phase.countJobs k Stage.markedFailed) hp
  rw [hq.sent] at hsent
  rw [hq.failed] at hfailed
  have hclaims := hq.claims k
  rw [Nat.add_right_cancel hsent, Nat.add_right_cancel hfailed]
  exact (h k).fewer (by omega)

theorem abandoned_open {k : Key} {todo claimed : List Key} {d : Delivery}
    (habandoned : abandoned s (.go i .claim) = true)
    (hp : s.tasks[i]? = some (.claiming (k :: todo) claimed)) (hd : s.store.row? k = some d)
    (horphaned : d.orphaned s.store.now = true) : total s (Phase.openClaims k) = 0 := by
  have htakes : takesOver s.store (.claiming (k :: todo) claimed) .claim = some k := by
    simp only [takesOver, hd, Option.any_some, horphaned, ↓reduceIte]
  simp only [abandoned, hp, Option.bind_some, htakes, List.all_eq_true, beq_iff_eq] at habandoned
  refine List.sum_eq_zero_iff_forall_eq_nat.mpr ?_
  intro n hn
  obtain ⟨q, hq, rfl⟩ := List.mem_map.mp hn
  exact habandoned q hq

theorem Kept.claimed (h : Kept s) {k : Key} {todo claimed : List Key}
    (hp : s.tasks[i]? = some (.claiming (k :: todo) claimed)) (hclaim : s.store.claim k = some st)
    (habandoned : abandoned s (.go i .claim) = true) :
    Kept ⟨st, s.tasks.set i (.claiming todo (claimed ++ [k]))⟩ := by
  intro k'
  have hopen := total_set st (.claiming todo (claimed ++ [k]))
    (Phase.openClaims k') hp
  have hsent := total_set st (.claiming todo (claimed ++ [k]))
    (Phase.countJobs k' Stage.markedSent) hp
  have hfailed := total_set st (.claiming todo (claimed ++ [k]))
    (Phase.countJobs k' Stage.markedFailed) hp
  rw [Nat.add_right_cancel hsent, Nat.add_right_cancel hfailed]
  simp only [Phase.openClaims, List.count_append] at hopen
  have hk' := h k'
  by_cases hne : k' = k
  · subst hne
    rw [List.count_singleton_self] at hopen
    rcases row?_claim hclaim with ⟨hrow, hnone⟩ | ⟨d, hd, hclaimable, hrow⟩
    · rw [hnone] at hk'
      obtain ⟨hopened, hsent', hfailed'⟩ := hk'
      rw [hrow]
      refine ⟨hfailed', ?_⟩
      simp only [Delivery.fresh, FANOUT_MAX_ATTEMPTS]
      omega
    · rw [hd] at hk'
      obtain ⟨hattempts, hk'⟩ := hk'
      rw [hrow]
      refine ⟨hattempts, ?_⟩
      simp only [Delivery.requeue]
      rcases Bool.or_eq_true_iff.mp hclaimable with hretry | horphaned
      · simp only [Bool.and_eq_true, beq_iff_eq, decide_eq_true_eq] at hretry
        rw [hretry.1] at hk'
        omega
      · have hzero := abandoned_open habandoned hp hd horphaned
        have hqueued : d.status = .queued := by
          unfold Delivery.orphaned at horphaned
          exact beq_iff_eq.mp (Bool.and_eq_true_iff.mp horphaned).1
        rw [hqueued] at hk'
        omega
  · have hother : [k].count k' = 0 := by
      refine List.count_eq_zero.mpr ?_
      rw [List.mem_singleton]
      exact hne
    rw [hother] at hopen
    rw [row?_claim_of_ne hclaim hne]
    exact hk'.fewer (by omega)

theorem Consistent.outcome {d : Delivery} {opened sent failed : Nat}
    (h : Consistent (some d) (opened + 1) sent failed) (error : Option String) (now : Time) :
    Consistent (some (d.outcome error now)) opened (sent + if error.isNone then 1 else 0)
      (failed + if error.isNone then 0 else 1) := by
  obtain ⟨hattempts, h⟩ := h
  refine ⟨by rw [hattempts]; rfl, ?_⟩
  cases hstatus : d.status with
  | queued =>
    rw [hstatus] at h
    obtain ⟨hopened, hsent, hfailed⟩ := h
    cases error with
    | none =>
      simp only [Delivery.outcome, Option.isNone_none, ↓reduceIte]
      omega
    | some error =>
      simp only [Delivery.outcome, Option.isNone_some, Bool.false_eq_true, ↓reduceIte]
      omega
  | sent | failed =>
    rw [hstatus] at h
    exact absurd h.1 (Nat.succ_ne_zero opened)

section

variable {jobs : List Job} {j : Nat} {job : Job} {error : Option String}

theorem openClaims_mark (hj : jobs[j]? = some job) (hanswered : job.stage = .answered error)
    (k : Key) :
    (Phase.delivering (jobs.set j { job with stage := .marked error })).openClaims k +
      (if job.key = k then 1 else 0) = (Phase.delivering jobs).openClaims k := by
  have hcount := countP_set_add (fun job => job.key == k && !job.stage.isMarked) hj
    { job with stage := .marked error }
  have hnew : (Stage.marked error).isMarked = true := by cases error <;> rfl
  have hold : (Stage.answered error).isMarked = false := rfl
  simp only [hanswered, hnew, hold, Bool.not_true, Bool.not_false, Bool.and_false, Bool.and_true,
    Bool.false_eq_true, ↓reduceIte, Nat.add_zero, beq_iff_eq] at hcount
  exact hcount

theorem countJobs_mark (hj : jobs[j]? = some job) (hanswered : job.stage = .answered error)
    (k : Key) {f : Stage → Bool} (hold : f (.answered error) = false) :
    (Phase.delivering (jobs.set j { job with stage := .marked error })).countJobs k f =
      (Phase.delivering jobs).countJobs k f +
        if job.key = k then (if f (.marked error) then 1 else 0) else 0 := by
  have hcount := countP_set_add (fun job => job.key == k && f job.stage) hj
    { job with stage := .marked error }
  simp only [hanswered, hold, Bool.and_false, Bool.false_eq_true, ↓reduceIte, Nat.add_zero,
    Bool.and_eq_true, beq_iff_eq] at hcount
  rw [← ite_and]
  exact hcount

theorem Kept.marked (h : Kept s) (hp : s.tasks[i]? = some (.delivering jobs))
    (hj : jobs[j]? = some job) (hanswered : job.stage = .answered error) :
    Kept ⟨s.store.mark job.key error,
      s.tasks.set i (.delivering (jobs.set j { job with stage := .marked error }))⟩ := by
  intro k
  have hcounts : ∀ f : Phase → Nat, _ := fun f => total_set (s.store.mark job.key error)
    (.delivering (jobs.set j { job with stage := .marked error })) f hp
  have hopen := hcounts (Phase.openClaims k)
  have hsent := hcounts (Phase.countJobs k Stage.markedSent)
  have hfailed := hcounts (Phase.countJobs k Stage.markedFailed)
  have hopen' := openClaims_mark hj hanswered k
  rw [countJobs_mark hj hanswered k rfl] at hsent hfailed
  have hk := h k
  by_cases hkey : job.key = k
  · subst hkey
    simp only [↓reduceIte] at hopen' hsent hfailed
    have hsent' : (Stage.marked error).markedSent = error.isNone := by cases error <;> rfl
    have hfailed' : (Stage.marked error).markedFailed = !error.isNone := by cases error <;> rfl
    rw [hsent'] at hsent
    rw [hfailed'] at hfailed
    rw [row?_mark]
    cases hd : s.store.row? job.key with
    | none =>
      rw [hd] at hk
      obtain ⟨hopened, -, -⟩ := hk
      omega
    | some d =>
      have hone : total s (Phase.openClaims job.key) =
          total ⟨s.store.mark job.key error,
            s.tasks.set i (.delivering (jobs.set j { job with stage := .marked error }))⟩
            (Phase.openClaims job.key) + 1 := by omega
      rw [hd, hone] at hk
      have hmarked := hk.outcome error s.store.now
      have hsum : ∀ a b x y : Nat, a + x = b + (x + y) → a = b + y := by omega
      rw [hsum _ _ _ _ hsent, hsum _ _ _ _ hfailed]
      cases error with
      | none => exact hmarked
      | some error => exact hmarked
  · simp only [if_neg hkey, Nat.add_zero] at hopen' hsent hfailed
    rw [row?_mark_of_ne fun heq => hkey heq.symm, Nat.add_right_cancel hsent,
      Nat.add_right_cancel hfailed]
    exact hk.fewer (by omega)

end

theorem Kept.step (h : Kept s) {e : Act Request Choice Nat} (habandoned : abandoned s e = true)
    (heq : program.step s e = some s') : Kept s' := by
  cases Program.stepped heq with
  | begin request =>
    intro k
    have hsame : ∀ f : Phase → Nat, f (.listing request.kind request.batchLimit) = 0 →
        total { s with tasks := s.tasks ++ [program.first request] } f = total s f := by
      intro f hf
      simp only [total, List.map_append, List.sum_append, List.map_cons, List.map_nil,
        List.sum_singleton]
      exact Nat.add_eq_left.mpr hf
    rw [hsame _ rfl, hsame _ rfl, hsame _ rfl]
    exact h k
  | go hp hnext =>
    rcases next_cases hnext with ⟨rfl, hquiet⟩ | ⟨k, todo, claimed, rfl, rfl, hclaim, rfl⟩ |
      ⟨jobs, j, job, error, rfl, hj, hanswered, rfl, rfl⟩
    · exact h.quiet hp hquiet
    · exact h.claimed hp hclaim habandoned
    · exact h.marked hp hj hanswered
  | outer passed => exact h

/-! ## What the invariant says -/

theorem countP_le_add {α : Type} {f g g' : α → Bool} (h : ∀ a, f a = true → g a = true ∨ g' a = true)
    (l : List α) : l.countP f ≤ l.countP g + l.countP g' := by
  induction l with
  | nil => exact Nat.le_refl 0
  | cons a l ih =>
    simp only [List.countP_cons]
    have ha := h a
    by_cases hf : f a = true
    · rcases ha hf with hg | hg'
      · simp only [hf, hg, ↓reduceIte]
        omega
      · simp only [hf, hg', ↓reduceIte]
        omega
    · simp only [hf, Bool.false_eq_true, ↓reduceIte]
      omega

theorem total_le {f g : Phase → Nat} (h : ∀ p, f p ≤ g p) : total s f ≤ total s g :=
  List.sum_le_sum fun p _ => h p

theorem total_add (f g : Phase → Nat) : total s (fun p => f p + g p) = total s f + total s g :=
  List.sum_map_add

theorem Stage.not_isMarked_of_unsettled {stage : Stage} (h : stage.unsettled = true) :
    stage.isMarked = false := by
  cases stage with
  | marked error => cases h
  | _ => rfl

theorem Stage.settled_of_succeeded {stage : Stage} (h : stage.succeeded = true) :
    stage.markedSent = true ∨ stage.unsettled = true := by
  cases stage with
  | waiting | sending => cases h
  | answered error | unmarked error => exact .inr rfl
  | marked error =>
    cases error with
    | none => exact .inl rfl
    | some error => cases h

theorem Stage.settled_of_begun {stage : Stage} (h : stage.begun = true) :
    stage.isMarked = true ∨ stage.unsettled = true := by
  cases stage with
  | waiting => cases h
  | sending | answered error | unmarked error => exact .inr rfl
  | marked error => cases error <;> exact .inl rfl

theorem countJobs_le_open {f g : Stage → Bool}
    (h : ∀ stage, f stage = true → g stage = true ∨ stage.unsettled = true) (k : Key) (p : Phase) :
    p.countJobs k f ≤ p.countJobs k g + p.openClaims k := by
  cases p with
  | listing kind limit | claiming todo claimed => exact Nat.zero_le _
  | delivering jobs =>
    refine countP_le_add ?_ jobs
    intro job hjob
    obtain ⟨hkey, hstage⟩ := Bool.and_eq_true_iff.mp hjob
    rw [hkey, Bool.true_and, Bool.true_and]
    rcases h job.stage hstage with hg | hunsettled
    · exact .inl hg
    · exact .inr (by rw [Stage.not_isMarked_of_unsettled hunsettled]; rfl)
  | ended jobs =>
    refine countP_le_add ?_ jobs
    intro job hjob
    obtain ⟨hkey, hstage⟩ := Bool.and_eq_true_iff.mp hjob
    rw [hkey, Bool.true_and, Bool.true_and]
    exact h job.stage hstage

theorem countJobs_isMarked_le (k : Key) (p : Phase) : p.countJobs k Stage.isMarked ≤
    p.countJobs k Stage.markedSent + p.countJobs k Stage.markedFailed := by
  cases p with
  | listing kind limit | claiming todo claimed => exact Nat.zero_le _
  | delivering jobs | ended jobs =>
    refine countP_le_add ?_ jobs
    intro job hjob
    obtain ⟨hkey, hstage⟩ := Bool.and_eq_true_iff.mp hjob
    rw [hkey, Bool.true_and, Bool.true_and]
    exact Bool.or_eq_true_iff.mp hstage

theorem Kept.successes_le_one (h : Kept s) (k : Key) : successes s k ≤ 1 := by
  have hle : successes s k ≤
      total s (Phase.countJobs k Stage.markedSent) + total s (Phase.openClaims k) := by
    rw [← total_add]
    exact total_le (countJobs_le_open (fun _ => Stage.settled_of_succeeded) k)
  have hk := h k
  cases hd : s.store.row? k with
  | none =>
    rw [hd] at hk
    obtain ⟨hopened, hsent, -⟩ := hk
    omega
  | some d =>
    rw [hd] at hk
    obtain ⟨-, hk⟩ := hk
    cases hstatus : d.status with
    | queued | sent | failed =>
      rw [hstatus] at hk
      obtain ⟨hopened, hsent, -⟩ := hk
      omega

theorem Kept.attempts_le (h : Kept s) (k : Key) : attempts s k ≤ FANOUT_MAX_ATTEMPTS := by
  have hmarked : attempts s k ≤ total s (Phase.countJobs k Stage.isMarked) +
      total s (Phase.openClaims k) := by
    rw [← total_add]
    exact total_le (countJobs_le_open (fun _ => Stage.settled_of_begun) k)
  have hsplit : total s (Phase.countJobs k Stage.isMarked) ≤
      total s (Phase.countJobs k Stage.markedSent) +
        total s (Phase.countJobs k Stage.markedFailed) := by
    rw [← total_add]
    exact total_le (countJobs_isMarked_le k)
  have hk := h k
  cases hd : s.store.row? k with
  | none =>
    rw [hd] at hk
    obtain ⟨hopened, hsent, hfailed⟩ := hk
    omega
  | some d =>
    rw [hd] at hk
    obtain ⟨-, hk⟩ := hk
    cases hstatus : d.status with
    | queued | sent | failed =>
      rw [hstatus] at hk
      obtain ⟨hopened, hsent, hfailed⟩ := hk
      omega

theorem Kept.sent_stays (h : Kept s) {k : Key} {d : Delivery} (hd : s.store.row? k = some d)
    (hsent : d.status = .sent) {e : Act Request Choice Nat} (heq : program.step s e = some s') :
    s'.store.row? k = some d := by
  cases Program.stepped heq with
  | begin request => exact hd
  | @go i choice p p' store hp hnext =>
    rcases next_cases hnext with ⟨rfl, -⟩ | ⟨k', todo, claimed, rfl, rfl, hclaim, rfl⟩ |
      ⟨jobs, j, job, error, rfl, hj, hanswered, rfl, rfl⟩
    · exact hd
    · by_cases hne : k = k'
      · subst hne
        rcases row?_claim hclaim with ⟨-, hnone⟩ | ⟨d', hd', hclaimable, -⟩
        · rw [hd] at hnone
          cases hnone
        · obtain rfl : d = d' := Option.some.inj (hd.symm.trans hd')
          simp [Delivery.claimable, Delivery.orphaned, hsent] at hclaimable
      · exact (row?_claim_of_ne hclaim hne).trans hd
    · by_cases hkey : job.key = k
      · subst hkey
        -- the claim of the tick is open, but a sent row has no open claims
        have hk := h job.key
        rw [hd] at hk
        obtain ⟨-, hk⟩ := hk
        rw [hsent] at hk
        have hopen := openClaims_mark hj hanswered job.key
        rw [if_pos rfl] at hopen
        have hmem : Phase.openClaims job.key (.delivering jobs) ≤
            total s (Phase.openClaims job.key) :=
          List.le_sum_of_mem (List.mem_map_of_mem (List.mem_of_getElem? hp))
        obtain ⟨hnone, -⟩ := hk
        omega
      · exact (row?_mark_of_ne fun heq => hkey heq.symm).trans hd
  | outer passed => exact hd

/-- **Subscribers are notified at most once**, attempted at most so often, and told so for good,
as long as a queued row is taken over only from a claim whose send never began and never will. -/
theorem subscribers_notified_once {s₀ : Pooled Store Phase} (hrows : s₀.store.rows.rows = [])
    (hidle : s₀.tasks = [])
    (hrun : Run program.step (fun s e => abandoned s e = true) s₀ s)
    (hlater : Run program.step (fun s e => abandoned s e = true) s s') :
    (∀ k, successes s k ≤ 1 ∧ attempts s k ≤ FANOUT_MAX_ATTEMPTS) ∧
    ∀ k d, s.store.row? k = some d → d.status = .sent → s'.store.row? k = some d := by
  have hstart : Kept s₀ := by
    intro k
    have hnone : s₀.store.row? k = none := by
      refine Rows.get?_eq_none.2 ?_
      rw [hrows]
      exact fun _ h => absurd h List.not_mem_nil
    simp [hnone, Consistent, total, hidle]
  have hkept : Kept s := hrun.invariant hstart fun _ _ _ h hok heq => h.step hok heq
  refine ⟨fun k => ⟨hkept.successes_le_one k, hkept.attempts_le k⟩, ?_⟩
  intro k d hd hsent
  have hboth : Kept s' ∧ s'.store.row? k = some d := by
    refine hlater.invariant (I := fun u => Kept u ∧ u.store.row? k = some d) ⟨hkept, hd⟩ ?_
    rintro u e v ⟨hu, hrow⟩ hok heq
    exact ⟨hu.step hok heq, hu.sent_stays hrow hsent heq⟩
  exact hboth.2

end

/-! ## Two dispatchers -/

namespace Two

def update : Key := ⟨5, .incidentUpdate, 8, ""⟩

def start : Pooled Store Phase := ⟨⟨0, Rows.empty⟩, []⟩

def tick : Request := ⟨.incidentUpdate, 100⟩

/-- The first dispatcher's send takes longer than ten minutes. -/
def slowSend : List (Act Request Choice Nat) :=
  [.begin tick, .go 0 (.list [update]), .go 0 .claim, .go 0 .claim, .go 0 (.send 0),
    .outer 601000000,
    .begin tick, .go 1 (.list [update]), .go 1 .claim, .go 1 .claim, .go 1 (.send 0),
    .go 1 (.answer 0 none), .go 1 (.mark 0), .go 0 (.answer 0 none), .go 0 (.mark 0)]

/-- The first dispatcher ends when it has claimed; the second is refused once. -/
def handedOver : List (Act Request Choice Nat) :=
  [.begin tick, .go 0 (.list [update]), .go 0 .claim, .go 0 .crash,
    .outer 601000000,
    .begin tick, .go 1 (.list [update]), .go 1 .claim, .go 1 .claim, .go 1 (.send 0),
    .go 1 (.answer 0 (some "refused")), .go 1 (.mark 0),
    .begin tick, .go 2 (.list [update]), .go 2 .claim, .go 2 .claim, .go 2 (.send 0),
    .go 2 (.answer 0 none), .go 2 (.mark 0)]

end Two

theorem subscribers_notified_once_retried : ∃ s, attempts s Two.update = 2 ∧
    Run program.step (fun s e => abandoned s e = true) Two.start s ∧
    successes s Two.update ≤ 1 ∧ attempts s Two.update ≤ FANOUT_MAX_ATTEMPTS := by
  obtain ⟨s, hrun, hattempts⟩ := exists_run_of_steps (show
    (steps (guarded program.step abandoned) Two.start Two.handedOver).any
      (fun s => attempts s Two.update == 2) = true by decide +kernel)
  have habandoned : Run program.step (fun s e => abandoned s e = true) Two.start s :=
    hrun.unguard fun _ _ h => h
  obtain ⟨hsuccesses, hle⟩ :=
    (subscribers_notified_once rfl rfl habandoned .refl).1 Two.update
  exact ⟨s, beq_iff_eq.mp hattempts, habandoned, hsuccesses, hle⟩

/-- Two dispatchers send one incident update to one subscriber. -/
theorem subscriber_notified_twice : ¬ ∀ s₀ s s' : Pooled Store Phase,
    s₀.store.rows.rows = [] → s₀.tasks = [] →
    Run program.step (fun _ _ => True) s₀ s → Run program.step (fun _ _ => True) s s' →
    (∀ k, successes s k ≤ 1 ∧ attempts s k ≤ FANOUT_MAX_ATTEMPTS) ∧
    ∀ k d, s.store.row? k = some d → d.status = .sent →
      ∃ d', s'.store.row? k = some d' ∧ d'.status = .sent := by
  intro h
  obtain ⟨s, hrun, hsuccesses⟩ := exists_run_of_steps (show
    (steps program.step Two.start Two.slowSend).any (fun s => successes s Two.update == 2) = true
    by decide +kernel)
  have hone := ((h Two.start s s rfl rfl hrun .refl).1 Two.update).1
  rw [beq_iff_eq.mp hsuccesses] at hone
  exact absurd hone (by decide)

end Uptimepage.Subscribers

import Mathlib.Data.List.Nodup
import Mathlib.Data.List.Perm.Basic
import Uptimepage.Async.Run
import Uptimepage.Domain.Incident

/-!
# Interactive checks

`ad_hoc_dispatch.rs`, for one region: the queue of dispatched checks, the waiters behind
them (`pending`), and the claims that agents hold open.  A claim looks at the queue, and
when it is empty awaits the region's `Notify`; a dispatch queues its check and then calls
`notify_one`.  These are separate steps here, and so is the gap between a claim's look at
the queue and the first poll of its `notified()`, from which on it counts as waiting.
-/

namespace Uptimepage

open Async

def maxQueue : Nat := 256

inductive DispatchKind
  | test
  | checkNow
deriving DecidableEq

/-- The check spec is handed through and left out. -/
structure DispatchedCheck where
  id : Uuid
  kind : DispatchKind
  orgId : OrgId
  targetId : Option Uuid
deriving DecidableEq

structure DispatchMeta where
  kind : DispatchKind
  orgId : OrgId
  targetId : Option Uuid
deriving DecidableEq

/-- An entry of `pending`; `waiting` while the one-shot sender is still in it. -/
structure PendingCheck where
  id : Uuid
  waiting : Bool
  dispatchMeta : DispatchMeta
deriving DecidableEq

/-- Where a claim is: about to lock the queue, behind an empty queue with `notified()` not
yet polled, waiting in the `Notify`, or woken and not yet run. -/
inductive ClaimPhase
  | looking
  | between
  | waiting
  | notified
deriving DecidableEq

structure Claim where
  limit : Nat
  phase : ClaimPhase
deriving DecidableEq

/-- What `complete` answered, and whether the request was still there to be told. -/
structure Completion where
  id : Uuid
  dispatchMeta : DispatchMeta
  delivered : Bool
deriving DecidableEq

/-- One region.  `notifying` counts the dispatches between their push and `notify_one`;
claims stand in the order in which they began to wait.  `issued`, `claimed`, `completions`
and `evicted` are history. -/
structure AdHoc where
  queue : List DispatchedCheck
  pending : List PendingCheck
  permit : Bool
  notifying : Nat
  claims : List Claim
  issued : Nat
  claimed : List (List DispatchedCheck)
  completions : List Completion
  evicted : List DispatchedCheck
deriving DecidableEq

/-- `leave` is a hold window that elapsed or a claim that was cancelled. -/
inductive AdHocEvent
  | dispatch (kind : DispatchKind) (orgId : OrgId) (targetId : Option Uuid)
  | notify
  | claim (limit : Nat)
  | look (i : Nat)
  | poll (i : Nat)
  | wake (i : Nat)
  | leave (i : Nat)
  | abandon (id : Uuid)
  | complete (id : Uuid)
  | expire (id : Uuid)

namespace AdHoc

def start : AdHoc where
  queue := []
  pending := []
  permit := false
  notifying := 0
  claims := []
  issued := 0
  claimed := []
  completions := []
  evicted := []

def wakeFirst : List Claim → Option (List Claim)
  | [] => none
  | c :: rest =>
    if c.phase = .waiting then some ({ c with phase := .notified } :: rest)
    else (wakeFirst rest).map (c :: ·)

def notifyOne (s : AdHoc) : AdHoc :=
  match wakeFirst s.claims with
  | some claims => { s with claims := claims }
  | none => { s with permit := true }

/-- `dispatch`, up to its `notify_one`. -/
def dispatch (s : AdHoc) (kind : DispatchKind) (orgId : OrgId) (targetId : Option Uuid) : AdHoc :=
  let check : DispatchedCheck := ⟨s.issued, kind, orgId, targetId⟩
  let pending := s.pending ++ [⟨check.id, true, ⟨kind, orgId, targetId⟩⟩]
  let s := { s with issued := s.issued + 1, notifying := s.notifying + 1 }
  match s.queue with
  | oldest :: rest =>
    if maxQueue ≤ s.queue.length then
      { s with pending := pending.filter (·.id ≠ oldest.id), queue := rest ++ [check],
               evicted := s.evicted ++ [oldest] }
    else { s with pending := pending, queue := s.queue ++ [check] }
  | [] => { s with pending := pending, queue := [check] }

/-- One turn of the loop of `claim`, up to its await. -/
def look (s : AdHoc) (i : Nat) (limit : Nat) : AdHoc :=
  if s.queue = [] then { s with claims := s.claims.set i ⟨limit, .between⟩ }
  else
    let n := min s.queue.length (max limit 1)
    { s with queue := s.queue.drop n, claimed := s.claimed ++ [s.queue.take n],
             claims := s.claims.eraseIdx i }

def complete (s : AdHoc) (id : Uuid) : AdHoc :=
  match s.pending.find? (·.id = id) with
  | none => s
  | some p =>
    { s with pending := s.pending.filter (·.id ≠ id),
             completions := s.completions ++ [⟨id, p.dispatchMeta, p.waiting⟩] }

def step (s : AdHoc) : AdHocEvent → Option AdHoc
  | .dispatch kind orgId targetId => some (s.dispatch kind orgId targetId)
  | .notify =>
    if 0 < s.notifying then some (notifyOne { s with notifying := s.notifying - 1 }) else none
  | .claim limit => some { s with claims := s.claims ++ [⟨limit, .looking⟩] }
  | .look i =>
    match s.claims[i]? with
    | some ⟨limit, .looking⟩ => some (s.look i limit)
    | _ => none
  | .poll i =>
    match s.claims[i]? with
    | some ⟨limit, .between⟩ =>
      if s.permit then some { s with permit := false, claims := s.claims.set i ⟨limit, .looking⟩ }
      else some { s with claims := s.claims.eraseIdx i ++ [⟨limit, .waiting⟩] }
    | _ => none
  | .wake i =>
    match s.claims[i]? with
    | some ⟨limit, .notified⟩ => some { s with claims := s.claims.set i ⟨limit, .looking⟩ }
    | _ => none
  | .leave i =>
    match s.claims[i]? with
    | some ⟨_, .between⟩ | some ⟨_, .waiting⟩ => some { s with claims := s.claims.eraseIdx i }
    | some ⟨_, .notified⟩ => some (notifyOne { s with claims := s.claims.eraseIdx i })
    | _ => none
  | .abandon id =>
    some { s with pending := s.pending.map fun p => if p.id = id then { p with waiting := false } else p }
  | .complete id => some (s.complete id)
  | .expire id => some { s with pending := s.pending.filter (·.id ≠ id) }

/-- No task can step without a timeout: every dispatch has notified, every claim waits. -/
def Quiescent (s : AdHoc) : Prop := s.notifying = 0 ∧ ∀ c ∈ s.claims, c.phase = .waiting

/-- A claim waits, or will unless it finds a permit. -/
def Waits (s : AdHoc) : Prop := ∃ c ∈ s.claims, c.phase = .waiting ∨ c.phase = .between

/-- Somebody will look at the queue again: there is a permit, a claim that was notified or
is about to look, or a dispatch about to notify. -/
def Stirring (s : AdHoc) : Prop :=
  s.permit = true ∨ 0 < s.notifying ∨ ∃ c ∈ s.claims, c.phase = .notified ∨ c.phase = .looking

/-- A claim that leaves checks behind while another waits leaves a wake-up too. -/
def Covers (s : AdHoc) : AdHocEvent → Prop
  | .look i => ∀ c ∈ s.claims[i]?, max c.limit 1 < s.queue.length →
    ({ s with claims := s.claims.eraseIdx i } : AdHoc).Waits →
    ({ s with claims := s.claims.eraseIdx i } : AdHoc).Stirring
  | _ => True

instance (s : AdHoc) : Decidable s.Quiescent := inferInstanceAs (Decidable (_ ∧ _))

instance (s : AdHoc) : Decidable s.Waits := inferInstanceAs (Decidable (∃ _ ∈ _, _))

instance (s : AdHoc) : Decidable s.Stirring := inferInstanceAs (Decidable (_ ∨ _ ∨ _))

instance (s : AdHoc) : DecidablePred s.Covers
  | .look _ => inferInstanceAs (Decidable (∀ _ ∈ _, _ → _ → _))
  | .dispatch _ _ _ | .notify | .claim _ | .poll _ | .wake _ | .leave _ | .abandon _ | .complete _
  | .expire _ => inferInstanceAs (Decidable True)

/-- What holds whoever is woken. -/
structure Tallied (s : AdHoc) : Prop where
  claimedOnce : (s.claimed.flatten.map (·.id)).Nodup
  completedOnce : (s.completions.map (·.id)).Nodup
  evictedUnclaimed : ∀ c ∈ s.evicted, ∀ d ∈ s.claimed.flatten, c.id ≠ d.id
  bounded : s.queue.length ≤ maxQueue

structure Orderly (s : AdHoc) : Prop extends Tallied s where
  awake : s.Quiescent → s.claims ≠ [] → s.queue = []

/-! ## Notifications -/

variable {claims : List Claim}

theorem wakeFirst_eq_none : wakeFirst claims = none ↔ ∀ c ∈ claims, c.phase ≠ .waiting := by
  induction claims with
  | nil => simp [wakeFirst]
  | cons c rest ih =>
    rw [wakeFirst]
    split
    · next hc => simp [hc]
    · next hc => simp [hc, ih]

theorem wakeFirst_notified {claims' : List Claim} (h : wakeFirst claims = some claims') :
    ∃ c ∈ claims', c.phase = .notified := by
  induction claims generalizing claims' with
  | nil => cases h
  | cons c rest ih =>
    rw [wakeFirst] at h
    split at h
    · cases h
      exact ⟨_, List.mem_cons_self, rfl⟩
    · obtain ⟨rest', hrest, rfl⟩ := Option.map_eq_some_iff.mp h
      obtain ⟨d, hd, hphase⟩ := ih hrest
      exact ⟨d, List.mem_cons_of_mem _ hd, hphase⟩

variable {s s' : AdHoc} {e : AdHocEvent}

/-- A queued check is not forgotten while a claim waits, and no claim waits beside a
permit. -/
structure Awake (s : AdHoc) : Prop where
  stirring : s.queue ≠ [] → s.Waits → s.Stirring
  permit : s.permit = true → ∀ c ∈ s.claims, c.phase ≠ .waiting

theorem notifyOne_stirring (s : AdHoc) : (notifyOne s).Stirring := by
  unfold notifyOne
  split
  · next claims heq =>
    obtain ⟨c, hc, hphase⟩ := wakeFirst_notified heq
    exact .inr (.inr ⟨c, hc, .inl hphase⟩)
  · exact .inl rfl

theorem notifyOne_awake (h : s.permit = true → ∀ c ∈ s.claims, c.phase ≠ .waiting) :
    (notifyOne s).Awake := by
  refine ⟨fun _ _ => notifyOne_stirring s, ?_⟩
  unfold notifyOne
  split
  · next claims heq =>
    intro hpermit
    rw [wakeFirst_eq_none.2 (h hpermit)] at heq
    cases heq
  · next hnone => exact fun _ => wakeFirst_eq_none.1 hnone

variable {i limit : Nat} {c : Claim}

theorem mem_eraseIdx_of_ne {d : Claim} (h : claims[i]? = some c) (hd : d ∈ claims) (hne : d ≠ c) :
    d ∈ claims.eraseIdx i := by
  obtain ⟨hi, rfl⟩ := List.getElem?_eq_some_iff.mp h
  have hperm := List.getElem_cons_eraseIdx_perm hi
  rcases List.mem_cons.mp (hperm.mem_iff.mpr hd) with rfl | hmem
  · exact absurd rfl hne
  · exact hmem

theorem awake_start : start.Awake := by
  refine ⟨fun h => absurd rfl h, fun h => ?_⟩
  cases h

theorem awake_dispatch (h : s.Awake) (kind : DispatchKind) (orgId : OrgId)
    (targetId : Option Uuid) : (s.dispatch kind orgId targetId).Awake := by
  have hpending : ∀ {t : AdHoc}, t.notifying = s.notifying + 1 → t.permit = s.permit →
      t.claims = s.claims → t.Awake := by
    intro t hn hp hc
    refine ⟨fun _ _ => .inr (.inl (by omega)), ?_⟩
    rw [hp, hc]
    exact h.permit
  unfold dispatch
  simp only
  split
  · split
    · exact hpending rfl rfl rfl
    · exact hpending rfl rfl rfl
  · exact hpending rfl rfl rfl

theorem awake_look (h : s.Awake) (hcovers : s.Covers (.look i))
    (hi : s.claims[i]? = some ⟨limit, .looking⟩) : (s.look i limit).Awake := by
  unfold look
  split
  · next hempty =>
    refine ⟨fun hne => absurd hempty hne, fun hpermit c hc => ?_⟩
    rcases List.mem_or_eq_of_mem_set hc with hold | rfl
    · exact h.permit hpermit c hold
    · exact fun hphase => by cases hphase
  · refine ⟨fun hleft hwaits => ?_, fun hpermit c hc => ?_⟩
    · have hlen : max limit 1 < s.queue.length := by
        by_contra hle
        apply hleft
        show s.queue.drop (min s.queue.length (max limit 1)) = []
        rw [List.drop_eq_nil_iff]
        omega
      exact hcovers _ hi hlen hwaits
    · exact h.permit hpermit c (List.mem_of_mem_eraseIdx hc)

theorem awake_poll (h : s.Awake) (hstep : s.step (.poll i) = some s') : s'.Awake := by
  simp only [step] at hstep
  split at hstep
  · next limit hi =>
    split at hstep
    · cases hstep
      obtain ⟨hlt, -⟩ := List.getElem?_eq_some_iff.mp hi
      refine ⟨fun _ _ => .inr (.inr ⟨_, List.mem_set hlt _, .inr rfl⟩), fun hpermit => ?_⟩
      cases hpermit
    · next hpermit =>
      cases hstep
      refine ⟨fun hne _ => ?_, fun hp => absurd hp hpermit⟩
      -- the claim was between before: whoever stirred then stirs now
      have hbefore : s.Waits := ⟨_, List.mem_of_getElem? hi, .inr rfl⟩
      rcases h.stirring hne hbefore with hp | hn | ⟨c, hc, hphase⟩
      · exact absurd hp hpermit
      · exact .inr (.inl hn)
      · refine .inr (.inr ⟨c, List.mem_append_left _ (mem_eraseIdx_of_ne hi hc ?_), hphase⟩)
        rintro rfl
        rcases hphase with hphase | hphase <;> cases hphase
  · cases hstep

theorem awake_wake (h : s.Awake) (hstep : s.step (.wake i) = some s') : s'.Awake := by
  simp only [step] at hstep
  split at hstep
  · next limit hi =>
    cases hstep
    obtain ⟨hlt, -⟩ := List.getElem?_eq_some_iff.mp hi
    refine ⟨fun _ _ => .inr (.inr ⟨_, List.mem_set hlt _, .inr rfl⟩), fun hpermit c hc => ?_⟩
    rcases List.mem_or_eq_of_mem_set hc with hold | rfl
    · exact h.permit hpermit c hold
    · exact fun hphase => by cases hphase
  · cases hstep

theorem awake_erase (h : s.Awake) (hi : s.claims[i]? = some c)
    (hphase : c.phase = .between ∨ c.phase = .waiting) :
    ({ s with claims := s.claims.eraseIdx i } : AdHoc).Awake := by
  refine ⟨fun hne hwaits => ?_, fun hpermit d hd => ?_⟩
  · obtain ⟨d, hd, hdphase⟩ := hwaits
    have hbefore : s.Waits := ⟨d, List.mem_of_mem_eraseIdx hd, hdphase⟩
    rcases h.stirring hne hbefore with hp | hn | ⟨d, hd, hdphase⟩
    · exact .inl hp
    · exact .inr (.inl hn)
    · refine .inr (.inr ⟨d, mem_eraseIdx_of_ne hi hd ?_, hdphase⟩)
      rintro rfl
      rcases hphase with hphase | hphase <;> rw [hphase] at hdphase <;>
        rcases hdphase with hdphase | hdphase <;> cases hdphase
  · exact h.permit hpermit d (List.mem_of_mem_eraseIdx hd)

theorem awake_leave (h : s.Awake) (hstep : s.step (.leave i) = some s') : s'.Awake := by
  simp only [step] at hstep
  split at hstep
  · next hi =>
    cases hstep
    exact awake_erase h hi (.inl rfl)
  · next hi =>
    cases hstep
    exact awake_erase h hi (.inr rfl)
  · cases hstep
    refine notifyOne_awake fun hpermit c hc => ?_
    exact h.permit hpermit c (List.mem_of_mem_eraseIdx hc)
  · cases hstep

theorem awake_step (h : s.Awake) (hcovers : s.Covers e) (hstep : s.step e = some s') :
    s'.Awake := by
  cases e with
  | dispatch kind orgId targetId =>
    cases hstep
    exact awake_dispatch h kind orgId targetId
  | notify =>
    simp only [step] at hstep
    split at hstep
    · cases hstep
      exact notifyOne_awake h.permit
    · cases hstep
  | claim limit =>
    cases hstep
    have hnew : (⟨limit, .looking⟩ : Claim) ∈ s.claims ++ [⟨limit, .looking⟩] :=
      List.mem_append_right _ List.mem_cons_self
    refine ⟨fun _ _ => .inr (.inr ⟨_, hnew, .inr rfl⟩), fun hpermit c hc => ?_⟩
    rcases List.mem_append.mp hc with hold | hnew
    · exact h.permit hpermit c hold
    · rw [List.mem_singleton.mp hnew]
      exact fun hphase => by cases hphase
  | look i =>
    simp only [step] at hstep
    split at hstep
    · next limit hi =>
      cases hstep
      exact awake_look h hcovers hi
    · cases hstep
  | poll i => exact awake_poll h hstep
  | wake i => exact awake_wake h hstep
  | leave i => exact awake_leave h hstep
  | abandon id =>
    cases hstep
    exact ⟨h.stirring, h.permit⟩
  | complete id =>
    cases hstep
    unfold complete
    split
    · exact h
    · exact ⟨h.stirring, h.permit⟩
  | expire id =>
    cases hstep
    exact ⟨h.stirring, h.permit⟩

/-! ## Checks -/

/-- The ids of every check that was dispatched, by where the check went. -/
def dispatched (s : AdHoc) : List Uuid :=
  (s.queue ++ s.claimed.flatten ++ s.evicted).map (·.id)

/-- The ids that can still be completed and those that were. -/
def answerable (s : AdHoc) : List Uuid :=
  s.pending.map (·.id) ++ s.completions.map (·.id)

/-- Every issued id went to one place, and is to be answered at most once. -/
structure Parted (s : AdHoc) : Prop where
  perm : s.dispatched.Perm (List.range s.issued)
  answerableOnce : s.answerable.Nodup
  fresh : ∀ id ∈ s.answerable, id < s.issued
  bounded : s.queue.length ≤ maxQueue

theorem parted_start : start.Parted := by
  refine ⟨.refl _, List.nodup_nil, ?_, Nat.zero_le _⟩
  intro id hid
  cases hid

theorem Parted.of_eq (h : s.Parted) (hqueue : s'.queue = s.queue)
    (hclaimed : s'.claimed = s.claimed) (hevicted : s'.evicted = s.evicted)
    (hissued : s'.issued = s.issued) (hanswer : s'.answerable.Sublist s.answerable) :
    s'.Parted := by
  refine ⟨?_, h.answerableOnce.sublist hanswer, fun id hid => ?_, hqueue ▸ h.bounded⟩
  · rw [dispatched, hqueue, hclaimed, hevicted, hissued]
    exact h.perm
  · rw [hissued]
    exact h.fresh id (hanswer.subset hid)

theorem parted_notifyOne (h : s.Parted) : (notifyOne s).Parted := by
  unfold notifyOne
  split
  · exact h.of_eq rfl rfl rfl rfl (.refl _)
  · exact h.of_eq rfl rfl rfl rfl (.refl _)

theorem parted_dispatch (h : s.Parted) (kind : DispatchKind) (orgId : OrgId)
    (targetId : Option Uuid) : (s.dispatch kind orgId targetId).Parted := by
  let entry : PendingCheck := ⟨s.issued, true, ⟨kind, orgId, targetId⟩⟩
  have hperm : ((s.pending ++ [entry]).map (·.id) ++ s.completions.map (·.id)).Perm
      (s.issued :: s.answerable) := by
    rw [List.map_append, List.append_assoc]
    exact List.perm_middle
  have hnodup : (s.issued :: s.answerable).Nodup :=
    List.nodup_cons.mpr ⟨fun hmem => Nat.lt_irrefl _ (h.fresh _ hmem), h.answerableOnce⟩
  have hfresh : ∀ id ∈ s.issued :: s.answerable, id < s.issued + 1 := by
    intro id hid
    rcases List.mem_cons.mp hid with rfl | hold
    · exact Nat.lt_succ_self _
    · exact Nat.lt_succ_of_lt (h.fresh id hold)
  have hrange : (s.issued :: s.dispatched).Perm (List.range (s.issued + 1)) := by
    rw [List.range_succ]
    exact (h.perm.cons _).trans (List.perm_append_singleton _ _).symm
  unfold dispatch
  simp only
  split
  · next oldest rest hqueue =>
    split
    · next hfull =>
      -- the oldest check moves from the queue to the evicted ones
      refine ⟨.trans ?_ hrange, ?_, fun id hid => hfresh id ?_, ?_⟩
      · simp only [dispatched, hqueue, List.map_append, List.map_cons, List.map_nil]
        refine List.perm_iff_count.mpr fun a => ?_
        simp only [List.count_append, List.count_cons, List.count_nil]
        omega
      · refine ((hperm.nodup_iff).mpr hnodup).sublist ?_
        exact List.Sublist.append (List.filter_sublist.map _) (.refl _)
      · refine hperm.mem_iff.mp ?_
        rcases List.mem_append.mp hid with hpending | hdone
        · exact List.mem_append_left _ ((List.filter_sublist.map _).subset hpending)
        · exact List.mem_append_right _ hdone
      · have := h.bounded
        simp only [hqueue, List.length_append, List.length_cons, List.length_nil] at this ⊢
        omega
    · next hroom =>
      refine ⟨.trans ?_ hrange, (hperm.nodup_iff).mpr hnodup,
        fun id hid => hfresh id (hperm.mem_iff.mp hid), ?_⟩
      · simp only [dispatched, hqueue, List.map_append, List.map_cons, List.map_nil]
        refine List.perm_iff_count.mpr fun a => ?_
        simp only [List.count_append, List.count_cons, List.count_nil]
        omega
      · simp only [hqueue, List.length_append, List.length_cons, List.length_nil] at hroom ⊢
        omega
  · next hqueue =>
    refine ⟨.trans ?_ hrange, (hperm.nodup_iff).mpr hnodup,
      fun id hid => hfresh id (hperm.mem_iff.mp hid), ?_⟩
    · simp only [dispatched, hqueue, List.map_append, List.map_cons, List.map_nil]
      exact .refl _
    · simp [maxQueue]

theorem parted_look (h : s.Parted) : (s.look i limit).Parted := by
  unfold look
  split
  · exact h.of_eq rfl rfl rfl rfl (.refl _)
  · refine ⟨.trans ?_ h.perm, h.answerableOnce, h.fresh, ?_⟩
    · refine List.Perm.map _ ?_
      simp only [List.flatten_append, List.flatten_cons, List.flatten_nil, List.append_nil]
      generalize min s.queue.length (max limit 1) = n
      conv_rhs => rw [← List.take_append_drop n s.queue]
      refine List.perm_iff_count.mpr fun a => ?_
      simp only [List.count_append]
      omega
    · have := h.bounded
      simp only [List.length_drop]
      omega

theorem parted_complete {id : Uuid} (h : s.Parted) : (s.complete id).Parted := by
  unfold complete
  split
  · exact h
  · next p hfind =>
    have hid : p.id = id := by simpa using List.find?_some hfind
    have hmem : id ∈ s.pending.map (·.id) := by
      rw [← hid]
      exact List.mem_map_of_mem (List.mem_of_find?_eq_some hfind)
    have hpending : (s.pending.map (·.id)).Nodup := (List.nodup_append.mp h.answerableOnce).1
    have hrest : (s.pending.filter (·.id ≠ id)).map (·.id) = (s.pending.map (·.id)).erase id := by
      rw [hpending.erase_eq_filter, List.filter_map]
      refine congrArg _ (List.filter_congr fun q _ => ?_)
      by_cases hq : q.id = id <;> simp [hq]
    let done : Completion := ⟨id, p.dispatchMeta, p.waiting⟩
    -- the id moves from the pending entries to the completions
    have hperm : ((s.pending.filter (·.id ≠ id)).map (·.id) ++
        (s.completions ++ [done]).map (·.id)).Perm s.answerable := by
      rw [hrest, List.map_append, ← List.append_assoc]
      refine (List.perm_append_singleton _ _).trans ?_
      exact (List.perm_cons_erase hmem).symm.append_right _
    refine ⟨h.perm, hperm.nodup_iff.mpr h.answerableOnce, fun id' hid' => ?_, h.bounded⟩
    exact h.fresh id' (hperm.mem_iff.mp hid')

theorem parted_step (h : s.Parted) (hstep : s.step e = some s') : s'.Parted := by
  cases e with
  | dispatch kind orgId targetId =>
    cases hstep
    exact parted_dispatch h kind orgId targetId
  | notify =>
    simp only [step] at hstep
    split at hstep
    · cases hstep
      exact parted_notifyOne (h.of_eq rfl rfl rfl rfl (.refl _))
    · cases hstep
  | claim limit =>
    cases hstep
    exact h.of_eq rfl rfl rfl rfl (.refl _)
  | look i =>
    simp only [step] at hstep
    split at hstep
    · cases hstep
      exact parted_look h
    · cases hstep
  | poll i =>
    simp only [step] at hstep
    split at hstep
    · split at hstep
      · cases hstep
        exact h.of_eq rfl rfl rfl rfl (.refl _)
      · cases hstep
        exact h.of_eq rfl rfl rfl rfl (.refl _)
    · cases hstep
  | wake i =>
    simp only [step] at hstep
    split at hstep
    · cases hstep
      exact h.of_eq rfl rfl rfl rfl (.refl _)
    · cases hstep
  | leave i =>
    simp only [step] at hstep
    split at hstep
    · cases hstep
      exact h.of_eq rfl rfl rfl rfl (.refl _)
    · cases hstep
      exact h.of_eq rfl rfl rfl rfl (.refl _)
    · cases hstep
      exact parted_notifyOne (h.of_eq rfl rfl rfl rfl (.refl _))
    · cases hstep
  | abandon id =>
    cases hstep
    refine h.of_eq rfl rfl rfl rfl ?_
    simp only [answerable, List.map_map]
    refine List.Sublist.append (List.map_congr_left (fun p _ => ?_) ▸ .refl _) (.refl _)
    simp only [Function.comp_apply]
    split
    · rfl
    · rfl
  | complete id =>
    cases hstep
    exact parted_complete h
  | expire id =>
    cases hstep
    refine h.of_eq rfl rfl rfl rfl ?_
    exact List.Sublist.append (List.filter_sublist.map _) (.refl _)

/-! ## Every run -/

theorem Awake.queue_eq_nil (h : s.Awake) (hq : s.Quiescent) (hclaims : s.claims ≠ []) :
    s.queue = [] := by
  obtain ⟨hnotifying, hwaiting⟩ := hq
  obtain ⟨c, hc⟩ := List.exists_mem_of_ne_nil _ hclaims
  by_contra hne
  rcases h.stirring hne ⟨c, hc, .inl (hwaiting c hc)⟩ with hpermit | hn | ⟨d, hd, hphase⟩
  · exact h.permit hpermit c hc (hwaiting c hc)
  · omega
  · rw [hwaiting d hd] at hphase
    rcases hphase with hphase | hphase
    · cases hphase
    · cases hphase

theorem Parted.claimed_nodup (h : s.Parted) : (s.claimed.flatten.map (·.id)).Nodup := by
  have hnodup : s.dispatched.Nodup := h.perm.nodup_iff.mpr List.nodup_range
  rw [dispatched, List.map_append, List.map_append] at hnodup
  exact (List.nodup_append.mp (List.nodup_append.mp hnodup).1).2.1

theorem Parted.evicted_unclaimed (h : s.Parted) :
    ∀ c ∈ s.evicted, ∀ d ∈ s.claimed.flatten, c.id ≠ d.id := by
  have hnodup : s.dispatched.Nodup := h.perm.nodup_iff.mpr List.nodup_range
  rw [dispatched, List.map_append, List.map_append] at hnodup
  intro c hc d hd heq
  have hmem : d.id ∈ s.queue.map (·.id) ++ s.claimed.flatten.map (·.id) :=
    List.mem_append_right _ (List.mem_map_of_mem hd)
  exact (List.nodup_append.mp hnodup).2.2 _ hmem _ (List.mem_map_of_mem hc) heq.symm

/-- **Interactive checks are handed out and answered at most once, and none is stranded**
in a run whose claims leave a wake-up behind with the checks they leave.  All but the last
part needs no such care. -/
theorem orderly_of_covered (s : AdHoc) (hrun : Run step (fun _ _ => True) start s) :
    s.Tallied ∧ (Run step Covers start s → s.Orderly) := by
  have hparted : s.Parted :=
    hrun.invariant parted_start fun _ _ _ hu _ hstep => parted_step hu hstep
  have htallied : s.Tallied :=
    { claimedOnce := hparted.claimed_nodup
      completedOnce := (List.nodup_append.mp hparted.answerableOnce).2.1
      evictedUnclaimed := hparted.evicted_unclaimed
      bounded := hparted.bounded }
  refine ⟨htallied, fun hcovered => ?_⟩
  have hawake : s.Awake :=
    hcovered.invariant awake_start fun _ _ _ hu hok hstep => awake_step hu hok hstep
  exact { toTallied := htallied, awake := hawake.queue_eq_nil }

/-- A claim that waits is woken by a dispatch and takes its check, which is completed. -/
theorem orderly_of_covered_woken :
    ∃ s, Run step Covers start s ∧ s.claimed.flatten.length = 1 ∧ s.completions.length = 1 ∧
      s.Orderly := by
  let events : List AdHocEvent := [.claim 1, .look 0, .poll 0, .dispatch .test 7 none, .notify,
    .wake 0, .look 0, .complete 0]
  obtain ⟨s, hrun, hs⟩ : ∃ s : AdHoc, Run step (fun s e => s.Covers e) start s ∧
      s.claimed.flatten.length = 1 ∧ s.completions.length = 1 :=
    exists_guarded_run events (by decide +kernel)
  obtain ⟨hclaimed, hcompleted⟩ := hs
  exact ⟨s, hrun, hclaimed, hcompleted,
    (orderly_of_covered s (hrun.mono fun _ _ _ => trivial)).2 hrun⟩

/-- Two claims find the queue empty, and two checks are dispatched before either waits:
the second `notify_one` finds the permit of the first still there.  One claim takes it and
one of the checks; the other waits beside the second check. -/
theorem check_stranded :
    ∃ s, Run step (fun _ _ => True) start s ∧ s.Quiescent ∧ s.claims ≠ [] ∧ s.queue ≠ [] := by
  let events : List AdHocEvent := [.claim 1, .claim 1, .look 0, .look 1, .dispatch .test 7 none,
    .notify, .dispatch .test 7 none, .notify, .poll 0, .look 0, .poll 0]
  obtain ⟨s, hrun, hs⟩ : ∃ s : AdHoc, Run step (fun _ _ => True) start s ∧
      s.Quiescent ∧ s.claims ≠ [] ∧ s.queue ≠ [] :=
    exists_run_satisfying events (by decide +kernel)
  exact ⟨s, hrun, hs⟩

end AdHoc

end Uptimepage

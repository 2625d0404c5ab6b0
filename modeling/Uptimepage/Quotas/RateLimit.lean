import Uptimepage.Async.Tasks
import Uptimepage.Domain.Incident
import Uptimepage.Limits.Limiter

/-!
# Rate limits

`quotas/ratelimit.rs`: one limiter per subject and category, built from the plan of the first
check and kept until a sweep finds it idle.  A plan that changes in between is not noticed
(`rate_limit_keeps_old_plan`), and a sweep removes what it collected without looking again.
-/

namespace Uptimepage.RateLimit

open Async Limits

inductive RateLimitCategory
  | apiWrites
  | apiReads
  | bulkOps
  | testNow
  | checkNow
  | support
deriving DecidableEq

/-- The rate budgets of a plan. -/
structure Plan where
  apiWritesPerMinute : Int
  apiReadsPerMinute : Int
  bulkOpsPerMinute : Int
  testNowPerMinute : Int
  checkNowPerMinute : Int
deriving DecidableEq

def SUPPORT_PER_MINUTE : Int := 2

namespace RateLimitCategory

/-- Floored at 1; a negative budget is `u32::MAX`. -/
def perMinute (category : RateLimitCategory) (plan : Plan) : Nat :=
  let raw := match category with
    | apiWrites => plan.apiWritesPerMinute
    | apiReads => plan.apiReadsPerMinute
    | bulkOps => plan.bulkOpsPerMinute
    | testNow => plan.testNowPerMinute
    | checkNow => plan.checkNowPerMinute
    | support => SUPPORT_PER_MINUTE
  max (if 0 ≤ raw then raw.toNat else 2 ^ 32 - 1) 1

def asScope (category : RateLimitCategory) (tier : String) : String :=
  let c := match category with
    | apiWrites => "api_writes"
    | apiReads => "api_reads"
    | bulkOps => "bulk_ops"
    | testNow => "test_now"
    | checkNow => "check_now"
    | support => "support"
  s!"{tier}_{c}"

theorem perMinute_pos (category : RateLimitCategory) (plan : Plan) :
    0 < category.perMinute plan := Nat.lt_of_lt_of_le Nat.one_pos (Nat.le_max_right _ _)

end RateLimitCategory

inductive RateLimitKey
  | account (id : Uuid) (category : RateLimitCategory)
  | user (id : UserId) (category : RateLimitCategory)
deriving DecidableEq

def RateLimitKey.category : RateLimitKey → RateLimitCategory
  | account _ category | user _ category => category

structure Denied where
  scope : String
  retryAfterSecs : Nat
deriving DecidableEq

/-- `perMinute`, not in the source, is what the limiter was built for. -/
structure Entry (L : Limiter) where
  key : RateLimitKey
  perMinute : Nat
  limiter : L.State
  lastSeen : Int

structure Checked where
  key : RateLimitKey
  answer : Answer
  denied : Option Denied
deriving DecidableEq

/-- `entries` has every entry ever made, `limiters` the map; `log` is not in the source. -/
structure Store (L : Limiter) where
  now : Time
  entries : List (Entry L)
  limiters : RateLimitKey → Option Nat
  log : List Checked

def minute : Int := seconds 60

section

variable (L : Limiter)

namespace Store

variable {L}

def nowMillis (st : Store L) : Int := st.now / 1000

def setLimiter (st : Store L) (key : RateLimitKey) (id : Option Nat) : Store L :=
  { st with limiters := fun key' => if key' = key then id else st.limiters key' }

def insert (st : Store L) (key : RateLimitKey) (limit : Nat) : Store L :=
  let entry : Entry L := ⟨key, limit, L.direct limit, st.nowMillis⟩
  { st.setLimiter key (some st.entries.length) with entries := st.entries ++ [entry] }

def touch (st : Store L) (id : Nat) : Store L :=
  { st with entries := st.entries.modify id fun e => { e with lastSeen := st.nowMillis } }

/-- The entry of a key, if it is older than the cutoff. -/
def isStale (st : Store L) (key : RateLimitKey) (cutoff : Int) : Bool :=
  ((st.limiters key).bind fun id => st.entries[id]?).any fun e => decide (e.lastSeen < cutoff)

/-- The wait of a refused check, in whole seconds. -/
def denial (st : Store L) (key : RateLimitKey) (tier : String) (notUntil : Int) : Denied :=
  ⟨key.category.asScope tier, max ((notUntil - st.now).toNat / 1000000 % 2 ^ 32) 1⟩

def checkEntry (st : Store L) (id : Nat) (e : Entry L) (tier : String) (limit : Nat) : Store L :=
  let (notUntil, limiter) := L.check e.limiter st.now
  { st with
    entries := st.entries.set id { e with limiter := limiter }
    log := st.log ++ [⟨e.key, ⟨st.now, limit, notUntil.isNone⟩,
      notUntil.map (st.denial e.key tier)⟩] }

/-- The checks of a subject and category, in order. -/
def checksOf (st : Store L) (key : RateLimitKey) : List Answer :=
  (st.log.filter fun c => c.key == key).map Checked.answer

end Store

inductive Request
  | check (key : RateLimitKey) (tier : String) (plan : Plan)
  | sweep (idleMillis : Nat)
deriving DecidableEq

/-- `limit` is what the check's own plan allows. -/
inductive Phase
  | getting (key : RateLimitKey) (tier : String) (limit : Nat)
  | touching (id : Nat) (key : RateLimitKey) (tier : String) (limit : Nat)
  | checking (id : Nat) (key : RateLimitKey) (tier : String) (limit : Nat)
  | sweeping (idleMillis : Nat)
  | collecting (cutoff : Int) (stale : List RateLimitKey)
  | removing (stale : List RateLimitKey)
  | done
deriving DecidableEq

def Request.first : Request → Phase
  | check key tier plan => .getting key tier (key.category.perMinute plan)
  | sweep idleMillis => .sweeping idleMillis

inductive Choice
  | ok
  /-- The sweep comes to this key. -/
  | see (key : RateLimitKey)
deriving DecidableEq

def next (st : Store L) : Phase → Choice → Option (Store L × Phase)
  | .getting key tier limit, .ok =>
    match st.limiters key with
    | some id => some (st, .touching id key tier limit)
    | none => some (st.insert key limit, .touching st.entries.length key tier limit)
  | .touching id key tier limit, .ok => some (st.touch id, .checking id key tier limit)
  | .checking id _ tier limit, .ok =>
    st.entries[id]?.map fun e => (st.checkEntry id e tier limit, .done)
  | .sweeping idleMillis, .ok => some (st, .collecting (st.nowMillis - idleMillis) [])
  | .collecting cutoff stale, .see key =>
    some (st, .collecting cutoff (if st.isStale key cutoff then stale ++ [key] else stale))
  | .collecting _ stale, .ok => some (st, .removing stale)
  | .removing (key :: rest), .ok => some (st.setLimiter key none, .removing rest)
  | .removing [], .ok => some (st, .done)
  | _, _ => none

def program : Program (Store L) Phase Request Choice Nat where
  first := Request.first
  next := next L
  outer := fun st passed => { st with now := st.now + passed }

/-! ## What is steady -/

def Phase.holds (id : Nat) : Phase → Bool
  | touching id' _ _ _ | checking id' _ _ _ => id' == id
  | _ => false

/-- A check finds no entry, or one that was built for what its own plan allows; and a sweep takes
no entry that a check holds or whose limiter was checked within the last minute. -/
def steady (s : Pooled (Store L) Phase) : Act Request Choice Nat → Bool
  | .go i .ok =>
    match s.tasks[i]? with
    | some (.getting key _ limit) =>
      ((s.store.limiters key).bind fun id => s.store.entries[id]?).all fun e =>
        e.perMinute == limit
    | some (.removing (key :: _)) =>
      (s.store.limiters key).all fun id => !s.tasks.any (Phase.holds id) &&
        (s.store.checksOf key).all fun a => decide (a.time + minute ≤ s.store.now)
    | _ => true
  | _ => true

end

/-! ## The invariant -/

section

variable {L : Limiter} {s s' : Pooled (Store L) Phase} {st st' : Store L} {i id limit : Nat}
  {p p' : Phase} {key key' : RateLimitKey} {tier : String} {e : Entry L}

/-- What the checks of a key went through: the limiters before, and the present one, which began
a minute after their last check. -/
inductive Served (st : Store L) (key : RateLimitKey) : Prop
  | idle (hnone : st.limiters key = none) (hfollows : Follows minute (st.checksOf key))
      (hleft : ∀ a ∈ st.checksOf key, a.time + minute ≤ st.now)
  | live {id : Nat} {e : Entry L} {before : List Answer} {times : List Int} {start : Int}
      (hid : st.limiters key = some id) (he : st.entries[id]? = some e) (hkey : e.key = key)
      (hpos : 0 < e.perMinute) (hfollows : Follows minute before)
      (hbefore : ∀ a ∈ before, a.time + minute ≤ start) (hstart : start ≤ st.now)
      (hsorted : times.Pairwise (· ≤ ·)) (htimes : ∀ t ∈ times, start ≤ t ∧ t ≤ st.now)
      (hlimiter : e.limiter = L.after (L.direct e.perMinute) times)
      (hchecks : st.checksOf key = before ++ L.answers e.perMinute (L.direct e.perMinute) times)

/-- A check in flight holds the entry of its key, built for its limit. -/
def Phase.Fits (st : Store L) : Phase → Prop
  | touching id key _ limit | checking id key _ limit =>
    st.limiters key = some id ∧ ∃ e, st.entries[id]? = some e ∧ e.key = key ∧ e.perMinute = limit
  | getting _ _ limit => 0 < limit
  | _ => True

structure Sound (s : Pooled (Store L) Phase) : Prop where
  fits : ∀ q ∈ s.tasks, q.Fits s.store
  served : ∀ key, Served s.store key

theorem Served.follows (hlawful : L.Lawful minute) (h : Served st key) :
    Follows minute (st.checksOf key) := by
  cases h with
  | idle hnone hfollows hleft => exact hfollows
  | live hid he hkey hpos hfollows hbefore hstart hsorted htimes hlimiter hchecks =>
    rw [hchecks]
    refine hfollows.append hlawful (by decide) hpos hsorted hbefore ?_
    exact fun t ht => (htimes t ht).1

/-- The entry of a key, up to when it was last seen. -/
def Entry.Same (e e' : Entry L) : Prop :=
  e'.key = e.key ∧ e'.perMinute = e.perMinute ∧ e'.limiter = e.limiter

theorem Served.frame (h : Served st key) (hlimiters : st'.limiters key = st.limiters key)
    (hentries : ∀ id e, st.limiters key = some id → st.entries[id]? = some e →
      ∃ e', st'.entries[id]? = some e' ∧ e.Same e')
    (hchecks : st'.checksOf key = st.checksOf key) (hnow : st.now ≤ st'.now) :
    Served st' key := by
  cases h with
  | idle hnone hfollows hleft =>
    refine .idle (hlimiters.trans hnone) (hchecks ▸ hfollows) ?_
    rw [hchecks]
    exact fun a ha => Int.le_trans (hleft a ha) hnow
  | live hid he hkey hpos hfollows hbefore hstart hsorted htimes hlimiter hheld =>
    obtain ⟨e', he', hkey', hbuilt, hstate⟩ := hentries _ _ hid he
    rw [← hbuilt] at hpos hlimiter hheld
    refine .live (hlimiters.trans hid) he' (hkey'.trans hkey) hpos hfollows hbefore
      (Int.le_trans hstart hnow) hsorted ?_ (hstate.trans hlimiter) (hchecks.trans hheld)
    exact fun t ht => ⟨(htimes t ht).1, Int.le_trans (htimes t ht).2 hnow⟩

theorem ne_of_served (h : Served st key) (he : st.entries[id]? = some e) (hkey : e.key ≠ key) :
    st.limiters key ≠ some id := by
  intro hid
  cases h with
  | idle hnone hfollows hleft =>
    rw [hnone] at hid
    cases hid
  | live hid' he' hkey' hpos hfollows hbefore hstart hsorted htimes hlimiter hchecks =>
    obtain rfl := Option.some.inj (hid'.symm.trans hid)
    obtain rfl := Option.some.inj (he'.symm.trans he)
    exact hkey hkey'

theorem Phase.Fits.frame {q : Phase} (h : q.Fits st)
    (hlimiters : ∀ id key, q.holds id = true → st.limiters key = some id →
      st'.limiters key = some id)
    (hentries : ∀ (id : Nat) e, st.entries[id]? = some e →
      ∃ e', st'.entries[id]? = some e' ∧ e'.key = e.key ∧ e'.perMinute = e.perMinute) :
    q.Fits st' := by
  cases q with
  | touching id key tier limit | checking id key tier limit =>
    obtain ⟨hid, e, he, hkey, hbuilt⟩ := h
    obtain ⟨e', he', hkey', hbuilt'⟩ := hentries id e he
    exact ⟨hlimiters id key (beq_self_eq_true id) hid, e', he', hkey'.trans hkey,
      hbuilt'.trans hbuilt⟩
  | getting key tier limit => exact h
  | _ => trivial

theorem Sound.quiet (h : Sound s) (hfits : p'.Fits s.store) :
    Sound ⟨s.store, s.tasks.set i p'⟩ := ⟨forall_mem_set h.fits hfits, h.served⟩

theorem Sound.inserted (h : Sound s) (hnone : s.store.limiters key = none) (hpos : 0 < limit) :
    Sound ⟨s.store.insert key limit,
      s.tasks.set i (.touching s.store.entries.length key tier limit)⟩ := by
  have hnew : (s.store.insert key limit).entries[s.store.entries.length]? =
      some ⟨key, limit, L.direct limit, s.store.nowMillis⟩ := List.getElem?_concat_length
  have hold : ∀ (id : Nat) e, s.store.entries[id]? = some e →
      (s.store.insert key limit).entries[id]? = some e := by
    intro id e he
    exact (List.getElem?_append_left (List.getElem?_eq_some_iff.mp he).1).trans he
  have hself : (s.store.insert key limit).limiters key = some s.store.entries.length := if_pos rfl
  have hother : ∀ key', key' ≠ key →
      (s.store.insert key limit).limiters key' = s.store.limiters key' := fun _ hne => if_neg hne
  refine ⟨?_, ?_⟩
  · refine forall_mem_set (fun q hq => ?_) ⟨hself, _, hnew, rfl, rfl⟩
    refine (h.fits q hq).frame ?_ fun id e he => ⟨e, hold id e he, rfl, rfl⟩
    intro id key' _ hid
    rw [hother key' ?_, hid]
    rintro rfl
    rw [hnone] at hid
    cases hid
  · intro key'
    by_cases heq : key' = key
    · subst heq
      have hserved := h.served key'
      cases hserved with
      | idle _ hfollows hleft =>
        exact .live hself hnew rfl hpos hfollows hleft (Int.le_refl _) .nil
          (fun t ht => absurd ht List.not_mem_nil) rfl (List.append_nil _).symm
      | live hid =>
        rw [hnone] at hid
        cases hid
    · exact (h.served key').frame (hother key' heq)
        (fun id e _ he => ⟨e, hold id e he, rfl, rfl, rfl⟩) rfl (Int.le_refl _)

theorem Sound.touched (h : Sound s)
    (hp : s.tasks[i]? = some (.touching id key tier limit)) :
    Sound ⟨s.store.touch id, s.tasks.set i (.checking id key tier limit)⟩ := by
  have hold : ∀ (id' : Nat) e, s.store.entries[id']? = some e →
      ∃ e', (s.store.touch id).entries[id']? = some e' ∧ e.Same e' := by
    intro id' e he
    refine ⟨if id = id' then { e with lastSeen := s.store.nowMillis } else e, ?_, ?_⟩
    · unfold Store.touch
      rw [List.getElem?_modify, he]
      rfl
    · split
      · exact ⟨rfl, rfl, rfl⟩
      · exact ⟨rfl, rfl, rfl⟩
  have hfits : ∀ q ∈ s.tasks, q.Fits (s.store.touch id) := by
    intro q hq
    refine (h.fits q hq).frame (fun _ _ _ hid => hid) ?_
    intro id' e he
    obtain ⟨e', he', hkey, hbuilt, -⟩ := hold id' e he
    exact ⟨e', he', hkey, hbuilt⟩
  have hholds := hfits _ (List.mem_of_getElem? hp)
  refine ⟨forall_mem_set hfits hholds, ?_⟩
  intro key'
  exact (h.served key').frame rfl (fun id' e _ he => hold id' e he) rfl (Int.le_refl _)

theorem checksOf_checkEntry (st : Store L) (id : Nat) (e : Entry L) (tier : String)
    (limit : Nat) (key : RateLimitKey) :
    (st.checkEntry id e tier limit).checksOf key = st.checksOf key ++
      if e.key = key then [⟨st.now, limit, (L.check e.limiter st.now).1.isNone⟩] else [] := by
  unfold Store.checksOf Store.checkEntry
  dsimp only
  rw [List.filter_append, List.map_append]
  by_cases heq : e.key = key
  · simp [heq]
  · simp [heq]

theorem Sound.checked (h : Sound s) (hp : s.tasks[i]? = some (.checking id key tier limit))
    (he : s.store.entries[id]? = some e) :
    Sound ⟨s.store.checkEntry id e tier limit, s.tasks.set i .done⟩ := by
  obtain ⟨hid, e₀, he₀, hkey, hbuilt⟩ := h.fits _ (List.mem_of_getElem? hp)
  obtain rfl := Option.some.inj (he₀.symm.trans he)
  have hlt : id < s.store.entries.length := (List.getElem?_eq_some_iff.mp he).1
  have hself : (s.store.checkEntry id e₀ tier limit).entries[id]? =
      some { e₀ with limiter := (L.check e₀.limiter s.store.now).2 } :=
    List.getElem?_set_self hlt
  have hother : ∀ id', id ≠ id' →
      (s.store.checkEntry id e₀ tier limit).entries[id']? = s.store.entries[id']? :=
    fun _ hne => List.getElem?_set_ne hne
  have hfits : ∀ q ∈ s.tasks, q.Fits (s.store.checkEntry id e₀ tier limit) := by
    intro q hq
    refine (h.fits q hq).frame (fun _ _ _ hid => hid) ?_
    intro id' e' he'
    by_cases heq : id = id'
    · subst heq
      obtain rfl := Option.some.inj (he.symm.trans he')
      exact ⟨_, hself, rfl, rfl⟩
    · exact ⟨e', (hother id' heq).trans he', rfl, rfl⟩
  refine ⟨forall_mem_set hfits trivial, ?_⟩
  intro key'
  by_cases heq : e₀.key = key'
  · subst heq
    rw [← hkey] at hid
    have hserved := h.served e₀.key
    cases hserved with
    | idle hnone hfollows hleft =>
      rw [hnone] at hid
      cases hid
    | live hid' he' hkey' hpos hfollows hbefore hstart hsorted htimes hlimiter hchecks =>
      obtain rfl := Option.some.inj (hid'.symm.trans hid)
      obtain rfl := Option.some.inj (he'.symm.trans he)
      have hsorted' := List.pairwise_append.mpr ⟨hsorted, List.pairwise_singleton _ s.store.now,
        fun t ht t' ht' => List.mem_singleton.mp ht' ▸ (htimes t ht).2⟩
      refine .live hid hself rfl hpos hfollows hbefore hstart hsorted' ?_ ?_ ?_
      · intro t ht
        rcases List.mem_append.mp ht with ht | ht
        · exact htimes t ht
        · rw [List.mem_singleton.mp ht]
          exact ⟨hstart, Int.le_refl _⟩
      · rw [Limiter.after_append, ← hlimiter]
        rfl
      · rw [checksOf_checkEntry, if_pos rfl, hchecks, Limiter.answers_snoc, ← hlimiter, hbuilt,
          List.append_assoc]
  · refine (h.served key').frame rfl ?_ ?_ (Int.le_refl _)
    · intro id' e' hid' he'
      have hne : id ≠ id' := by
        rintro rfl
        exact ne_of_served (h.served key') he heq hid'
      exact ⟨e', (hother id' hne).trans he', rfl, rfl, rfl⟩
    · rw [checksOf_checkEntry, if_neg heq, List.append_nil]

theorem Sound.removed (h : Sound s) (hlawful : L.Lawful minute) {rest : List RateLimitKey}
    (hp : s.tasks[i]? = some (.removing (key :: rest)))
    (hsteady : steady L s (.go i .ok) = true) :
    Sound ⟨s.store.setLimiter key none, s.tasks.set i (.removing rest)⟩ := by
  have hother : ∀ key', key' ≠ key →
      (s.store.setLimiter key none).limiters key' = s.store.limiters key' := fun _ hne => if_neg hne
  simp only [steady, hp] at hsteady
  refine ⟨?_, ?_⟩
  · refine forall_mem_set (fun q hq => ?_) trivial
    refine (h.fits q hq).frame ?_ fun id e he => ⟨e, he, rfl, rfl⟩
    intro id key' hholds hid
    rw [hother key' ?_, hid]
    rintro rfl
    rw [hid, Option.all_some, Bool.and_eq_true, Bool.not_eq_true', List.any_eq_false] at hsteady
    exact hsteady.1 q hq hholds
  · intro key'
    by_cases heq : key' = key
    · subst heq
      have hfollows := (h.served key').follows hlawful
      refine .idle (if_pos rfl) hfollows ?_
      have hserved := h.served key'
      cases hserved with
      | idle hnone hfollows hleft => exact hleft
      | live hid =>
        rw [hid, Option.all_some, Bool.and_eq_true, List.all_eq_true] at hsteady
        exact fun a ha => of_decide_eq_true (hsteady.2 a ha)
    · exact (h.served key').frame (hother key' heq) (fun id e _ he => ⟨e, he, rfl, rfl, rfl⟩) rfl
        (Int.le_refl _)

theorem Sound.went (h : Sound s) (hlawful : L.Lawful minute) {choice : Choice}
    (hp : s.tasks[i]? = some p) (hnext : next L s.store p choice = some (st, p'))
    (hsteady : steady L s (.go i choice) = true) : Sound ⟨st, s.tasks.set i p'⟩ := by
  have hfits := h.fits p (List.mem_of_getElem? hp)
  cases choice with
  | see key =>
    cases p with
    | collecting cutoff stale =>
      cases hnext
      exact h.quiet trivial
    | removing stale => cases stale <;> cases hnext
    | _ => cases hnext
  | ok =>
    cases p with
    | getting key tier limit =>
      cases hid : s.store.limiters key with
      | none =>
        simp only [next, hid] at hnext
        cases hnext
        exact h.inserted hid hfits
      | some id =>
        simp only [next, hid] at hnext
        cases hnext
        have hserved := h.served key
        cases hserved with
        | idle hnone =>
          rw [hnone] at hid
          cases hid
        | live hid' he hkey =>
          obtain rfl := Option.some.inj (hid'.symm.trans hid)
          simp only [steady, hp, hid, Option.bind_some, he, Option.all_some,
            beq_iff_eq] at hsteady
          exact h.quiet ⟨hid, _, he, hkey, hsteady⟩
    | touching id key tier limit =>
      cases hnext
      exact h.touched hp
    | checking id key tier limit =>
      obtain ⟨e, he, heq⟩ := Option.map_eq_some_iff.mp hnext
      cases heq
      exact h.checked hp he
    | sweeping idleMillis =>
      cases hnext
      exact h.quiet trivial
    | collecting cutoff stale =>
      cases hnext
      exact h.quiet trivial
    | removing stale =>
      cases stale with
      | nil =>
        cases hnext
        exact h.quiet trivial
      | cons key rest =>
        cases hnext
        exact h.removed hlawful hp hsteady
    | done => cases hnext

theorem Sound.step (h : Sound s) (hlawful : L.Lawful minute) {a : Act Request Choice Nat}
    (hsteady : steady L s a = true) (heq : (program L).step s a = some s') : Sound s' := by
  cases Program.stepped heq with
  | begin request =>
    refine ⟨?_, h.served⟩
    intro q hq
    rcases List.mem_append.mp hq with hq | hq
    · exact h.fits q hq
    · rw [List.mem_singleton.mp hq]
      cases request with
      | check key tier plan => exact key.category.perMinute_pos plan
      | sweep idleMillis => trivial
  | go hp hnext => exact h.went hlawful hp hnext hsteady
  | outer passed =>
    refine ⟨?_, ?_⟩
    · exact fun q hq => (h.fits q hq).frame (fun _ _ _ hid => hid)
        fun id e he => ⟨e, he, rfl, rfl⟩
    · exact fun key => (h.served key).frame rfl (fun id e _ he => ⟨e, he, rfl, rfl, rfl⟩) rfl
        (Int.le_add_of_nonneg_right (Int.natCast_nonneg passed))

/-- No check was made. -/
structure Store.Fresh (st : Store L) : Prop where
  limiters : ∀ key, st.limiters key = none
  log : st.log = []

/-- **Rate limits follow the plan**: while the plan of a subject allows `n` a minute, its checks
of a category are admitted at most `n` times and `n` a minute more, and after an upgrade to `n`
the first `n` are admitted, as long as every check finds a limiter of its own plan, and the
sweeps take none that is in use. -/
theorem rate_limits_follow_plan (hlawful : L.Lawful minute) {s₀ : Pooled (Store L) Phase}
    (hfresh : s₀.store.Fresh) (hidle : s₀.tasks = [])
    (hrun : Run (program L).step (fun s a => steady L s a = true) s₀ s) {n : Nat}
    {pre seg post : List Answer} (heq : s.store.checksOf key = pre ++ seg ++ post)
    (hplan : ∀ a ∈ seg, a.limit = n) :
    (∀ first last : Int, first ≤ last → (∀ a ∈ seg, first ≤ a.time ∧ a.time ≤ last) →
      minute * admitted seg ≤ n * (minute + (last - first))) ∧
    (pre.getLast?.any (fun a => decide (a.limit < n)) = true → seg.length ≤ n →
      ∀ a ∈ seg, a.admitted = true) := by
  have hinit : Sound s₀ := by
    refine ⟨by simp [hidle], ?_⟩
    intro key
    have hnone : s₀.store.checksOf key = [] := by
      unfold Store.checksOf
      rw [hfresh.log]
      rfl
    refine .idle (hfresh.limiters key) ?_ ?_
    · rw [hnone]
      exact .nil (by decide)
    · rw [hnone]
      exact fun a ha => absurd ha List.not_mem_nil
  have hsound : Sound s := hrun.invariant hinit fun _ _ _ h hok heq => h.step hlawful hok heq
  exact (hsound.served key).follows hlawful n pre seg post heq hplan

end

/-! ## An upgrade -/

namespace One

def plan (n : Int) : Plan := ⟨n, n, n, n, n⟩

def key : RateLimitKey := .account 1 .apiWrites

def start : Pooled (Store (gcra minute)) Phase := ⟨⟨0, [], fun _ => none, []⟩, []⟩

def checked (i : Nat) (n : Int) : List (Act Request Choice Nat) :=
  [.begin (.check key "per_account" (plan n)), .go i .ok, .go i .ok, .go i .ok]

/-- The limiter of the old plan is swept after an hour. -/
def swept : List (Act Request Choice Nat) :=
  checked 0 1 ++
  ([.outer 3600000001000, .begin (.sweep 3600000), .go 1 .ok, .go 1 (.see key), .go 1 .ok,
    .go 1 .ok] : List (Act Request Choice Nat)) ++ checked 2 5 ++ checked 3 5

/-- It is still there. -/
def upgraded : List (Act Request Choice Nat) := checked 0 1 ++ checked 1 5

theorem start_fresh : start.store.Fresh := ⟨fun _ => rfl, rfl⟩

end One

theorem rate_limits_follow_plan_swept : ∃ s,
    Run (program (gcra minute)).step (fun s a => steady (gcra minute) s a = true) One.start s ∧
    s.store.checksOf One.key =
      [⟨0, 1, true⟩] ++ [⟨3600000001000, 5, true⟩, ⟨3600000001000, 5, true⟩] ∧
    ∀ a ∈ [(⟨3600000001000, 5, true⟩ : Answer), ⟨3600000001000, 5, true⟩], a.admitted = true := by
  obtain ⟨s, hrun, hend⟩ := exists_run_of_steps (show
    (steps (guarded (program (gcra minute)).step (steady (gcra minute))) One.start
        One.swept).any
      (fun s => s.store.checksOf One.key ==
        [⟨0, 1, true⟩] ++ [⟨3600000001000, 5, true⟩, ⟨3600000001000, 5, true⟩]) = true by
    decide +kernel)
  have hchecks := beq_iff_eq.mp hend
  have hsteady : Run (program (gcra minute)).step (fun s a => steady (gcra minute) s a = true)
      One.start s := hrun.unguard fun _ _ h => h
  have hlaw := rate_limits_follow_plan (n := 5) (gcra_lawful (by decide)) One.start_fresh rfl
    hsteady (hchecks.trans (List.append_nil _).symm) (by simp)
  exact ⟨s, hsteady, hchecks, hlaw.2 rfl (by decide)⟩

/-- The first check after the upgrade is refused. -/
theorem rate_limit_keeps_old_plan : ¬ ∀ (L : Limiter), L.Lawful minute →
    ∀ s₀ s : Pooled (Store L) Phase, s₀.store.Fresh → s₀.tasks = [] →
    Run (program L).step (fun _ _ => True) s₀ s →
    ∀ key n pre seg post, s.store.checksOf key = pre ++ seg ++ post →
    (∀ a ∈ seg, a.limit = n) →
    (∀ first last : Int, first ≤ last → (∀ a ∈ seg, first ≤ a.time ∧ a.time ≤ last) →
      minute * admitted seg ≤ n * (minute + (last - first))) ∧
    (pre.getLast?.any (fun a => decide (a.limit < n)) = true → seg.length ≤ n →
      ∀ a ∈ seg, a.admitted = true) := by
  intro h
  obtain ⟨s, hrun, hend⟩ := exists_run_of_steps (show
    (steps (program (gcra minute)).step One.start One.upgraded).any
      (fun s => s.store.checksOf One.key == [⟨0, 1, true⟩] ++ [⟨0, 5, false⟩]) = true by
    decide +kernel)
  have hlaw := h (gcra minute) (gcra_lawful (by decide)) One.start s One.start_fresh rfl hrun
    One.key 5 [⟨0, 1, true⟩] [⟨0, 5, false⟩] [] (beq_iff_eq.mp hend) (by simp)
  have hadmitted := hlaw.2 rfl (by decide) ⟨0, 5, false⟩ (List.mem_singleton.mpr rfl)
  cases hadmitted

end Uptimepage.RateLimit

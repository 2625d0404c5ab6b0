import Mathlib
import Uptimepage.Async.Run
import Uptimepage.Scheduler.Registry

/-!
# The scheduler's driver

`scheduler/runner.rs`: the refresher sends its diffs over a channel, the driver applies them to a
heap of due times and a map of what is live, and drains what is due.  A removed or rescheduled
target leaves its entry in the heap, to be dropped when it is popped.
-/

namespace Uptimepage.Scheduler

open Async

/-- Most of a first probe's stagger, 5 s. -/
def INITIAL_PROBE_SPREAD : Nat := 5 * 10 ^ 9

/-- A pending fire, live only while `seq` is its id's. -/
structure Due where
  instant : Int
  id : Uuid
  seq : Nat
  first : Bool
deriving DecidableEq

/-- The derived order: field by field. -/
def Due.le (a b : Due) : Prop :=
  a.instant < b.instant ∨ a.instant = b.instant ∧ (a.id < b.id ∨ a.id = b.id ∧
    (a.seq < b.seq ∨ a.seq = b.seq ∧ (a.first = true → b.first = true)))

instance : DecidableRel Due.le := fun _ _ => inferInstanceAs (Decidable (_ ∨ _))

/-- The heap, as the list of its entries in the order in which they are popped. -/
abbrev Heap := List Due

def push (heap : Heap) (due : Due) : Heap := heap.orderedInsert Due.le due

/-- The call of `drain_due` under way, with the entries it dispatched, newest first. -/
structure Drain where
  now : Int
  dispatched : List Due
deriving DecidableEq

/-- The registry, the channel with its diffs, oldest first, and the driver's own variables.  `source`
is the list last read and `applied` the diffs that the driver has taken, newest first. -/
structure State where
  registry : Registry
  channel : List RegistryDiff
  heap : Heap
  live : AList fun _ : Uuid => Nat
  nextSeq : Nat
  drain : Option Drain
  source : List ScheduledTarget
  applied : List RegistryDiff

def State.init : State := ⟨∅, [], [], ∅, 0, none, [], []⟩

/-- How often a target was scheduled. -/
def State.schedules (s : State) : Nat := (s.applied.map fun diff => diff.ids.length).sum

inductive Event
  | refresh (fresh : List ScheduledTarget)
  | applyDiff (now : Int)
  | drainDue (now : Int)
  | turn
deriving DecidableEq

section

-- The hash of an id, by the standard library's `DefaultHasher`.
variable (hash : Uuid → Nat)

def staggerOffset (id : Uuid) (interval : Nat) : Nat :=
  let intervalMs := interval / 10 ^ 6 % 2 ^ 64
  if intervalMs = 0 then 0 else hash id % intervalMs * 10 ^ 6

/-- The first point of the grid after `now`.  What is skipped is counted in a `u32`. -/
def nextTick (sched : Int) (base : Nat) (now : Int) : Int :=
  let next := sched + base
  if now < next then next
  else
    let skips := min ((now - next).toNat / max base 1 + 1) (2 ^ 32 - 1)
    next + (base * skips : Nat)

def schedule (now : Int) (s : State) (st : ScheduledTarget) : State :=
  let seq := s.nextSeq
  let cap := min INITIAL_PROBE_SPREAD (st.target.interval / 2)
  { s with
    nextSeq := (seq + 1) % 2 ^ 64
    live := s.live.insert st.id seq
    heap := push s.heap ⟨now + staggerOffset hash st.id cap, st.id, seq, true⟩ }

def applyDiff (now : Int) (s : State) (diff : RegistryDiff) : State :=
  let s := (diff.added ++ diff.updated).foldl (schedule hash now) s
  { s with live := diff.removed.foldl (fun live id => live.erase id) s.live }

/-- The point of the grid that an entry stands for. -/
def anchor (due : Due) (base : Nat) : Int :=
  if due.first then due.instant + staggerOffset hash due.id base else due.instant

def drainTurn (s : State) (d : Drain) : State :=
  match s.heap with
  | [] => { s with drain := none }
  | due :: rest =>
    if due.instant ≤ d.now then
      if s.live.lookup due.id ≠ some due.seq then { s with heap := rest }
      else
        match s.registry.lookup due.id with
        | none => { s with heap := rest, live := s.live.erase due.id }
        | some st =>
          let base := st.target.interval
          let next := nextTick (anchor hash due base) base d.now
          { s with
            heap := push rest ⟨next, due.id, due.seq, false⟩
            drain := some { d with dispatched := due :: d.dispatched } }
    else { s with drain := none }

/-- The driver applies and drains in turn; the registry is refreshed at any time. -/
def step (s : State) : Event → Option State
  | .refresh fresh =>
    let (registry, diff) := Scheduler.refresh s.registry fresh
    some { s with registry := registry, channel := s.channel ++ [diff], source := fresh }
  | .applyDiff now =>
    match s.drain, s.channel with
    | none, diff :: rest =>
      some { applyDiff hash now s diff with channel := rest, applied := diff :: s.applied }
    | _, _ => none
  | .drainDue now =>
    match s.drain with
    | none => some { s with drain := some ⟨now, []⟩ }
    | some _ => none
  | .turn =>
    match s.drain with
    | none => none
    | some d => some (drainTurn hash s d)

/-- No entry that is live is popped `2 ^ 32` intervals late. -/
def timely (s : State) : Event → Bool
  | .turn =>
    match s.drain, s.heap with
    | some d, due :: _ =>
      match s.registry.lookup due.id with
      | some st =>
        s.live.lookup due.id != some due.seq ||
          d.now < anchor hash due st.target.interval + st.target.interval * 2 ^ 32
      | none => true
    | _, _ => true
  | _ => true

end

/-- An applied diff removes the id, and none since then has it back. -/
def Gone (id : Uuid) : List RegistryDiff → Prop
  | [] => False
  | diff :: older => id ∈ diff.removed ∨ id ∉ diff.ids ∧ Gone id older

/-- Will the id be live when the diffs are applied? -/
def Awaited (id : Uuid) (live : Prop) (diffs : List RegistryDiff) : Prop :=
  diffs.foldl (fun live diff => (live ∨ id ∈ diff.ids) ∧ id ∉ diff.removed) live

/-- The entries that carry the number `seq` of `id`. -/
def Due.carries (id : Uuid) (seq : Nat) (due : Due) : Bool := due.id == id && due.seq == seq

/-- After `n` schedules each live id has one entry with its number. -/
structure Agree (n : Nat) (s : State) : Prop where
  next : s.nextSeq = n % 2 ^ 64
  below : ∀ due ∈ s.heap, due.seq < n
  one : ∀ id seq, s.live.lookup id = some seq → s.heap.countP (Due.carries id seq) = 1

/-- The ids: those of the registry are the list's, and the driver gets there with the diffs that
wait; a removed id is not live. -/
structure Tracks (s : State) : Prop where
  source : ∀ id, id ∈ s.registry ↔ ∃ st ∈ s.source, st.id = id
  awaited : ∀ id, id ∈ s.registry ↔ Awaited id (id ∈ s.live) s.channel
  gone : ∀ id, id ∈ s.live → ¬ Gone id s.applied

inductive Turn (hash : Uuid → Nat) (s : State) (d : Drain) : State → Prop
  | done : Turn hash s d { s with drain := none }
  | stale {due : Due} {rest : Heap} (heap : s.heap = due :: rest)
      (notLive : s.live.lookup due.id ≠ some due.seq) : Turn hash s d { s with heap := rest }
  | forgotten {due : Due} {rest : Heap} (heap : s.heap = due :: rest)
      (unknown : due.id ∉ s.registry) :
      Turn hash s d { s with heap := rest, live := s.live.erase due.id }
  | dispatched {due : Due} {rest : Heap} {st : ScheduledTarget} (heap : s.heap = due :: rest)
      (reached : due.instant ≤ d.now) (live : s.live.lookup due.id = some due.seq)
      (known : s.registry.lookup due.id = some st) :
      Turn hash s d
        { s with
          heap := push rest ⟨nextTick (anchor hash due st.target.interval) st.target.interval d.now,
            due.id, due.seq, false⟩
          drain := some { d with dispatched := due :: d.dispatched } }

/-- What a drain dispatched is not due again before it ends. -/
structure Once (s : State) (d : Drain) : Prop where
  nodup : (d.dispatched.map Due.id).Nodup
  later : ∀ id ∈ d.dispatched.map Due.id, ∀ due ∈ s.heap, due.id = id →
    s.live.lookup id = some due.seq → d.now < due.instant

section

variable {hash : Uuid → Nat} {s t : State} {diff : RegistryDiff} {now : Int} {id : Uuid}
  {st : ScheduledTarget} {n : Nat} {due due' : Due} {rest : Heap} {d : Drain}

/-! ## The grid -/

theorem now_lt_nextTick {sched : Int} {base : Nat} :
    now < nextTick sched base now ↔ now < sched + base * 2 ^ 32 := by
  unfold nextTick
  dsimp only
  by_cases hnext : now < sched + base
  · rw [if_pos hnext]
    omega
  rw [if_neg hnext]
  rcases Nat.eq_zero_or_pos base with rfl | hpos
  · simp only [Nat.zero_mul]
    omega
  obtain ⟨behind, hbehind⟩ : ∃ n : Nat, now = sched + base + n :=
    ⟨(now - (sched + base)).toNat, by omega⟩
  have htoNat : (now - (sched + base)).toNat = behind := by omega
  rw [htoNat, Nat.max_eq_left hpos]
  have hlow := Nat.div_mul_le_self behind base
  have hhigh := Nat.lt_div_mul_add hpos (a := behind)
  rcases Nat.lt_or_ge (behind / base + 1) (2 ^ 32) with hskips | hskips
  · rw [Nat.min_eq_left (by omega)]
    have hgrid : base * (behind / base + 1) = behind / base * base + base := by
      rw [Nat.mul_add, Nat.mul_one, Nat.mul_comm]
    have hcap := Nat.mul_le_mul_left base (Nat.le_of_lt_succ hskips)
    omega
  · rw [Nat.min_eq_right (by omega)]
    omega

/-! ## Heap and live map -/

theorem mem_push : due ∈ push rest due' ↔ due = due' ∨ due ∈ rest := by
  unfold push
  exact List.mem_orderedInsert _

theorem countP_push (p : Due → Bool) (rest : Heap) (due : Due) :
    (push rest due).countP p = rest.countP p + if p due = true then 1 else 0 := by
  unfold push
  rw [(List.perm_orderedInsert _ _ _).countP_eq, List.countP_cons]

variable {seq : Nat} {heap : Heap} {live : AList fun _ : Uuid => Nat} {e : Event}

theorem carries_iff : Due.carries id seq due = true ↔ due.id = id ∧ due.seq = seq := by
  unfold Due.carries
  rw [Bool.and_eq_true, beq_iff_eq, beq_iff_eq]

theorem countP_carries_eq_zero (h : ∀ due ∈ heap, due.seq < seq) :
    heap.countP (Due.carries id seq) = 0 := by
  rw [List.countP_eq_zero]
  intro due hdue hcarries
  have hlt := h due hdue
  have hseq := (carries_iff.1 hcarries).2
  omega

theorem Agree.schedule (hash : Uuid → Nat) (now : Int) (st : ScheduledTarget) (h : Agree n s)
    (hn : n < 2 ^ 64) : Agree (n + 1) (schedule hash now s st) := by
  have hnext : s.nextSeq = n := h.next.trans (Nat.mod_eq_of_lt hn)
  refine ⟨?_, ?_, ?_⟩
  · show (s.nextSeq + 1) % 2 ^ 64 = _
    rw [hnext]
  · intro due hdue
    rcases mem_push.1 hdue with rfl | hdue
    · show s.nextSeq < n + 1
      omega
    · exact Nat.lt_succ_of_lt (h.below due hdue)
  · intro id seq hlive
    show (push s.heap _).countP _ = 1
    rw [countP_push]
    by_cases hid : id = st.id
    · subst hid
      obtain rfl : s.nextSeq = seq := Option.some.inj ((AList.lookup_insert _).symm.trans hlive)
      rw [countP_carries_eq_zero (hnext ▸ h.below), if_pos (by simp [Due.carries])]
    · have hold : s.live.lookup id = some seq := (AList.lookup_insert_ne hid).symm.trans hlive
      rw [h.one id seq hold, if_neg]
      intro hcarries
      exact hid (carries_iff.1 hcarries).1.symm

theorem Agree.schedules (l : List ScheduledTarget) (h : Agree n s) (hn : n + l.length ≤ 2 ^ 64) :
    Agree (n + l.length) (l.foldl (Scheduler.schedule hash now) s) := by
  induction l generalizing n s with
  | nil => exact h
  | cons st l ih =>
    rw [List.length_cons] at hn ⊢
    have hrest := ih (h.schedule hash now st (by omega)) (by omega)
    rwa [Nat.add_assoc, Nat.add_comm 1] at hrest

theorem Agree.drop (h : Agree n s) (hheap : ∀ due ∈ heap, due ∈ s.heap)
    (hlive : ∀ id seq, live.lookup id = some seq → s.live.lookup id = some seq ∧
      heap.countP (Due.carries id seq) = s.heap.countP (Due.carries id seq)) :
    Agree n { s with heap := heap, live := live } := by
  refine ⟨h.next, fun due hdue => h.below due (hheap due hdue), ?_⟩
  intro id seq hid
  obtain ⟨hold, hcount⟩ := hlive id seq hid
  exact hcount.trans (h.one id seq hold)

theorem Agree.applyDiff (hash : Uuid → Nat) (now : Int) (diff : RegistryDiff) (h : Agree n s)
    (hn : n + diff.ids.length ≤ 2 ^ 64) : Agree (n + diff.ids.length) (applyDiff hash now s diff) := by
  have hlength : diff.ids.length = (diff.added ++ diff.updated).length := List.length_map _
  rw [hlength] at hn ⊢
  refine (h.schedules _ hn).drop (fun due hdue => hdue) ?_
  intro id seq hlive
  rw [lookup_foldl_erase] at hlive
  split at hlive
  · cases hlive
  · exact ⟨hlive, rfl⟩

theorem turn_drainTurn (hash : Uuid → Nat) (s : State) (d : Drain) :
    Turn hash s d (drainTurn hash s d) := by
  unfold drainTurn
  split
  · exact .done
  · next due rest hheap =>
    split
    · next hdue =>
      split
      · next hstale => exact .stale hheap hstale
      · next hlive =>
        split
        · next hnone => exact .forgotten hheap (AList.lookup_eq_none.mp hnone)
        · next st hst => exact .dispatched hheap hdue (not_not.mp hlive) hst
    · exact .done

theorem step_cases (h : step hash s e = some t) :
    (∃ fresh, e = .refresh fresh ∧
      t = { s with
        registry := (refresh s.registry fresh).1
        channel := s.channel ++ [(refresh s.registry fresh).2]
        source := fresh }) ∨
    (∃ now diff rest, e = .applyDiff now ∧ s.drain = none ∧ s.channel = diff :: rest ∧
      t = { applyDiff hash now s diff with channel := rest, applied := diff :: s.applied }) ∨
    (∃ now, e = .drainDue now ∧ s.drain = none ∧ t = { s with drain := some ⟨now, []⟩ }) ∨
    ∃ d, e = .turn ∧ s.drain = some d ∧ Turn hash s d t := by
  cases e with
  | refresh fresh => exact .inl ⟨fresh, rfl, (Option.some.inj h).symm⟩
  | applyDiff now =>
    unfold step at h
    dsimp only at h
    split at h
    · next diff rest hdrain hchannel =>
      exact .inr (.inl ⟨now, diff, rest, rfl, hdrain, hchannel, (Option.some.inj h).symm⟩)
    · cases h
  | drainDue now =>
    unfold step at h
    dsimp only at h
    split at h
    · next hdrain => exact .inr (.inr (.inl ⟨now, rfl, hdrain, (Option.some.inj h).symm⟩))
    · cases h
  | turn =>
    unfold step at h
    dsimp only at h
    split at h
    · cases h
    · next d hdrain =>
      have hturn := turn_drainTurn hash s d
      rw [Option.some.inj h] at hturn
      exact .inr (.inr (.inr ⟨d, rfl, hdrain, hturn⟩))

theorem Turn.of_dispatched (ht : Turn hash s d t) (hdrain : s.drain = some d)
    (h : t.drain = some { d with dispatched := due :: d.dispatched }) :
    s.live.lookup due.id = some due.seq := by
  have hne : d ≠ { d with dispatched := due :: d.dispatched } := fun heq =>
    List.cons_ne_self due d.dispatched (congrArg Drain.dispatched heq).symm
  cases ht with
  | done => cases h
  | stale => exact absurd (Option.some.inj (hdrain.symm.trans h)) hne
  | forgotten => exact absurd (Option.some.inj (hdrain.symm.trans h)) hne
  | dispatched _ _ hlive _ =>
    obtain rfl := (List.cons.inj (congrArg Drain.dispatched (Option.some.inj h))).1
    exact hlive

theorem Agree.turn (h : Agree n s) (ht : Turn hash s d t) : Agree n t := by
  cases ht with
  | done => exact ⟨h.next, h.below, h.one⟩
  | @stale due rest hheap hstale =>
    have hrest : ∀ due' ∈ rest, due' ∈ s.heap := fun due' hdue' => by
      rw [hheap]
      exact List.mem_cons_of_mem _ hdue'
    refine h.drop hrest fun id seq hlive => ⟨hlive, ?_⟩
    rw [hheap, List.countP_cons_of_neg]
    intro hcarries
    obtain ⟨rfl, rfl⟩ := carries_iff.1 hcarries
    exact hstale hlive
  | @forgotten due rest hheap _ =>
    have hrest : ∀ due' ∈ rest, due' ∈ s.heap := fun due' hdue' => by
      rw [hheap]
      exact List.mem_cons_of_mem _ hdue'
    refine h.drop hrest fun id seq hlive => ?_
    have hid : id ≠ due.id := by
      rintro rfl
      rw [AList.lookup_erase] at hlive
      cases hlive
    rw [AList.lookup_erase_ne hid] at hlive
    refine ⟨hlive, ?_⟩
    rw [hheap, List.countP_cons_of_neg]
    intro hcarries
    exact hid (carries_iff.1 hcarries).1.symm
  | @dispatched due rest st hheap _ _ _ =>
    refine ⟨h.next, ?_, ?_⟩
    · intro due' hdue'
      have hbelow := h.below
      rw [hheap] at hbelow
      rcases mem_push.1 hdue' with rfl | hdue'
      · exact hbelow due List.mem_cons_self
      · exact hbelow due' (List.mem_cons_of_mem _ hdue')
    · intro id seq hlive
      have hone := h.one id seq hlive
      rw [hheap, List.countP_cons] at hone
      show (push rest _).countP _ = 1
      rw [countP_push]
      exact hone

/-! ## Ids -/

theorem schedules_frame (hash : Uuid → Nat) (now : Int) (l : List ScheduledTarget) (s : State) :
    (l.foldl (schedule hash now) s).registry = s.registry ∧
      (l.foldl (schedule hash now) s).drain = s.drain ∧
      (l.foldl (schedule hash now) s).source = s.source := by
  induction l generalizing s with
  | nil => exact ⟨rfl, rfl, rfl⟩
  | cons st l ih => exact ih (schedule hash now s st)

theorem mem_live_schedules (hash : Uuid → Nat) (now : Int) (l : List ScheduledTarget) (s : State) :
    id ∈ (l.foldl (schedule hash now) s).live ↔ id ∈ s.live ∨ ∃ st ∈ l, st.id = id := by
  induction l generalizing s with
  | nil => simp
  | cons st l ih =>
    rw [List.foldl_cons, ih]
    show id ∈ s.live.insert st.id s.nextSeq ∨ _ ↔ _
    rw [AList.mem_insert]
    simp only [List.mem_cons, exists_eq_or_imp]
    constructor
    · rintro ((hid | hmem) | hex)
      · exact .inr (.inl hid.symm)
      · exact .inl hmem
      · exact .inr (.inr hex)
    · rintro (hmem | hid | hex)
      · exact .inl (.inr hmem)
      · exact .inl (.inl hid.symm)
      · exact .inr hex

theorem mem_live_applyDiff : id ∈ (applyDiff hash now s diff).live ↔
    (id ∈ s.live ∨ id ∈ diff.ids) ∧ id ∉ diff.removed := by
  have hids : id ∈ diff.ids ↔ ∃ st ∈ diff.added ++ diff.updated, st.id = id := List.mem_map
  rw [hids, ← mem_live_schedules hash now, ← AList.lookup_isSome]
  unfold applyDiff
  rw [lookup_foldl_erase]
  split
  · next hremoved => exact ⟨fun h => (nomatch h), fun h => absurd hremoved h.2⟩
  · next hkept =>
    rw [AList.lookup_isSome]
    exact ⟨fun h => ⟨h, hkept⟩, And.left⟩

theorem awaited_mono {p q : Prop} (hpq : p → q) (diffs : List RegistryDiff) :
    Awaited id p diffs → Awaited id q diffs := by
  induction diffs generalizing p q with
  | nil => exact hpq
  | cons diff diffs ih => exact ih fun h => ⟨h.1.imp_left hpq, h.2⟩

theorem Tracks.drop (h : Tracks s) {drain : Option Drain} (hsub : ∀ id, id ∈ live → id ∈ s.live)
    (hkept : ∀ id, id ∈ s.registry → id ∈ s.live → id ∈ live) :
    Tracks { s with heap := heap, live := live, drain := drain } := by
  refine ⟨h.source, ?_, fun id hid => h.gone id (hsub id hid)⟩
  intro id
  constructor
  · intro hid
    exact awaited_mono (hkept id hid) _ ((h.awaited id).mp hid)
  · intro hawaited
    exact (h.awaited id).mpr (awaited_mono (hsub id) _ hawaited)

theorem Tracks.turn (h : Tracks s) (ht : Turn hash s d t) : Tracks t := by
  cases ht with
  | done => exact h.drop (fun _ => id) (fun _ _ => id)
  | stale => exact h.drop (fun _ => id) (fun _ _ => id)
  | @forgotten due rest _ hunknown =>
    refine h.drop (fun id hid => (AList.mem_erase.mp hid).2) ?_
    intro id hreg hlive
    refine AList.mem_erase.mpr ⟨?_, hlive⟩
    rintro rfl
    exact hunknown hreg
  | dispatched => exact h.drop (fun _ => id) (fun _ _ => id)

theorem Tracks.step (h : Tracks s) (hstep : step hash s e = some t) : Tracks t := by
  rcases step_cases hstep with ⟨fresh, -, rfl⟩ | ⟨now, diff, rest, -, -, hchannel, rfl⟩ |
    ⟨now, -, -, rfl⟩ | ⟨d, -, -, hturn⟩
  · refine ⟨fun id => mem_refresh, ?_, h.gone⟩
    intro id
    show id ∈ (refresh s.registry fresh).1 ↔ Awaited id _ (s.channel ++ [_])
    unfold Awaited
    rw [List.foldl_append, mem_of_diff]
    show _ ↔ (Awaited id _ s.channel ∨ _) ∧ _
    rw [← h.awaited id]
    constructor
    · rintro (⟨hmem, hkept⟩ | hids)
      · exact ⟨.inl hmem, hkept⟩
      · exact ⟨.inr hids, notMem_removed_of_mem_ids hids⟩
    · rintro ⟨hmem | hids, hkept⟩
      · exact .inl ⟨hmem, hkept⟩
      · exact .inr hids
  · obtain ⟨hregistry, -, hsource⟩ := schedules_frame hash now (diff.added ++ diff.updated) s
    refine ⟨?_, ?_, ?_⟩
    · show ∀ id, id ∈ State.registry (List.foldl _ _ _) ↔ ∃ st ∈ State.source (List.foldl _ _ _), _
      rw [hregistry, hsource]
      exact h.source
    · intro id
      show id ∈ State.registry (List.foldl _ _ _) ↔
        Awaited id (id ∈ (applyDiff hash now s diff).live) rest
      rw [hregistry, mem_live_applyDiff, h.awaited id, hchannel]
      rfl
    · intro id hid
      obtain ⟨hlive, hkept⟩ := mem_live_applyDiff.1 hid
      rintro (hremoved | ⟨hids, hgone⟩)
      · exact hkept hremoved
      · exact h.gone id (hlive.resolve_right hids) hgone
  · exact h.drop (fun _ => id) (fun _ _ => id)
  · exact h.turn hturn

/-! ## Runs -/

theorem Turn.applied (ht : Turn hash s d t) : t.applied = s.applied := by
  cases ht <;> rfl

theorem Agree.step (h : s.schedules < 2 ^ 64 → Agree s.schedules s)
    (hstep : step hash s e = some t) :
    s.schedules ≤ t.schedules ∧ (t.schedules < 2 ^ 64 → Agree t.schedules t) := by
  rcases step_cases hstep with ⟨fresh, -, rfl⟩ | ⟨now, diff, rest, -, -, -, rfl⟩ |
    ⟨now, -, -, rfl⟩ | ⟨d, -, -, hturn⟩
  · refine ⟨Nat.le_refl _, fun ht => ?_⟩
    obtain ⟨hnext, hbelow, hone⟩ := h ht
    exact ⟨hnext, hbelow, hone⟩
  · have hschedules : State.schedules { Scheduler.applyDiff hash now s diff with
        channel := rest, applied := diff :: s.applied } = s.schedules + diff.ids.length := by
      show (List.map _ (diff :: s.applied)).sum = _
      rw [List.map_cons, List.sum_cons, Nat.add_comm]
      rfl
    rw [hschedules]
    refine ⟨Nat.le_add_right _ _, fun ht => ?_⟩
    have hold := h (Nat.lt_of_le_of_lt (Nat.le_add_right _ _) ht)
    obtain ⟨hnext, hbelow, hone⟩ := Agree.applyDiff hash now diff hold (Nat.le_of_lt ht)
    exact ⟨hnext, hbelow, hone⟩
  · refine ⟨Nat.le_refl _, fun ht => ?_⟩
    obtain ⟨hnext, hbelow, hone⟩ := h ht
    exact ⟨hnext, hbelow, hone⟩
  · have hschedules : t.schedules = s.schedules := by
      unfold State.schedules
      rw [hturn.applied]
    rw [hschedules]
    exact ⟨Nat.le_refl _, fun ht => (h ht).turn hturn⟩

theorem Once.turn (h : Once s d) (hagree : Agree n s) (hdrain : s.drain = some d)
    (htimely : timely hash s .turn = true) (ht : Turn hash s d t) {d' : Drain}
    (hd' : t.drain = some d') : Once t d' := by
  cases ht with
  | done => cases hd'
  | @stale due rest hheap _ =>
    obtain rfl := Option.some.inj (hdrain.symm.trans hd')
    refine ⟨h.nodup, fun id hid due' hdue' => h.later id hid due' ?_⟩
    rw [hheap]
    exact List.mem_cons_of_mem _ hdue'
  | @forgotten due rest hheap _ =>
    obtain rfl := Option.some.inj (hdrain.symm.trans hd')
    refine ⟨h.nodup, fun id hid due' hdue' hid' hlive => ?_⟩
    have hne : id ≠ due.id := by
      rintro rfl
      rw [AList.lookup_erase] at hlive
      cases hlive
    refine h.later id hid due' ?_ hid' ((AList.lookup_erase_ne hne).symm.trans hlive)
    rw [hheap]
    exact List.mem_cons_of_mem _ hdue'
  | @dispatched due rest st hheap hreached hlive hknown =>
    obtain rfl := Option.some.inj hd'
    have hmem : ∀ due' ∈ rest, due' ∈ s.heap := fun due' hdue' => by
      rw [hheap]
      exact List.mem_cons_of_mem _ hdue'
    refine ⟨List.nodup_cons.mpr ⟨?_, h.nodup⟩, ?_⟩
    · intro hid
      have hlater := h.later due.id hid due (by rw [hheap]; exact List.mem_cons_self) rfl hlive
      omega
    · intro id hid due' hdue' hid' hlive'
      rcases mem_push.1 hdue' with rfl | hdue'
      · refine now_lt_nextTick.2 ?_
        unfold timely at htimely
        simpa [hdrain, hheap, hknown, hlive] using htimely
      · rcases List.mem_cons.mp hid with rfl | hid
        · -- the entry popped was the one that is live
          have hone := hagree.one due.id due.seq hlive
          rw [hheap, List.countP_cons_of_pos (carries_iff.2 ⟨rfl, rfl⟩), Nat.add_eq_right,
            List.countP_eq_zero] at hone
          have hseq : due.seq = due'.seq := Option.some.inj (hlive.symm.trans hlive')
          exact absurd (carries_iff.2 ⟨hid', hseq.symm⟩) (hone due' hdue')
        · exact h.later id hid due' (hmem due' hdue') hid' hlive'

theorem Once.step (h : ∀ d, s.drain = some d → Once s d) (hagree : Agree n s)
    (htimely : timely hash s e = true) (hstep : step hash s e = some t) :
    ∀ d, t.drain = some d → Once t d := by
  rcases step_cases hstep with ⟨fresh, -, rfl⟩ | ⟨now, diff, rest, -, hdrain, -, rfl⟩ |
    ⟨now, -, -, rfl⟩ | ⟨d, rfl, hdrain, hturn⟩
  · exact fun d hd => ⟨(h d hd).nodup, (h d hd).later⟩
  · intro d hd
    change State.drain (List.foldl _ _ _) = some d at hd
    rw [(schedules_frame hash now (diff.added ++ diff.updated) s).2.1, hdrain] at hd
    cases hd
  · intro d hd
    obtain rfl := Option.some.inj hd
    exact ⟨List.nodup_nil, fun id hid => absurd hid List.not_mem_nil⟩
  · exact fun d' hd' => (h d hdrain).turn hagree hdrain htimely hturn hd'

theorem agree_init : Agree 0 .init :=
  ⟨rfl, fun due hdue => absurd hdue List.not_mem_nil, fun id seq hlive => by
    rw [State.init, AList.lookup_empty] at hlive
    cases hlive⟩

theorem tracks_init : Tracks .init := by
  refine ⟨?_, fun id => Iff.rfl, fun id hid => absurd hid (AList.notMem_empty id)⟩
  intro id
  exact ⟨fun hid => absurd hid (AList.notMem_empty id),
    fun ⟨_, hst, _⟩ => absurd hst List.not_mem_nil⟩

theorem agree_of_run {ok : State → Event → Prop} (h : Run (step hash) ok .init s)
    (hseq : s.schedules < 2 ^ 64) : Agree s.schedules s :=
  h.invariant (I := fun s => s.schedules < 2 ^ 64 → Agree s.schedules s) (fun _ => agree_init)
    (fun _ _ _ hagree _ hstep => (Agree.step hagree hstep).2) hseq

theorem once_of_run (h : Run (step hash) (fun s e => timely hash s e = true) .init s)
    (hseq : s.schedules < 2 ^ 64) : ∀ d, s.drain = some d → Once s d := by
  have hboth := h.invariant
    (I := fun s => s.schedules < 2 ^ 64 → Agree s.schedules s ∧ ∀ d, s.drain = some d → Once s d)
    (fun _ => ⟨agree_init, fun d hd => by cases hd⟩) ?_
  · exact (hboth hseq).2
  · intro u e v hu htimely hstep hv
    obtain ⟨hle, hagree⟩ := Agree.step (fun hseq => (hu hseq).1) hstep
    obtain ⟨hold, honce⟩ := hu (Nat.lt_of_le_of_lt hle hv)
    exact ⟨hagree hv, Once.step honce hold htimely hstep⟩

end

/-- **Heap and live map agree** while fewer than `2 ^ 64` schedules are made: a live id has one
entry with its number; what a turn dispatches is live under the entry's number and was not removed
since it was last scheduled; with no diff waiting, the live ids are those of the list last read; and
in a run where no live entry is popped `2 ^ 32` intervals late, a drain dispatches a target at most
once. -/
theorem heap_live_agree {hash : Uuid → Nat} {s : State}
    (h : Run (step hash) (fun _ _ => True) .init s) (hseq : s.schedules < 2 ^ 64) :
    (∀ id seq, s.live.lookup id = some seq → s.heap.countP (Due.carries id seq) = 1) ∧
    (∀ d due t, s.drain = some d → step hash s .turn = some t →
      t.drain = some { d with dispatched := due :: d.dispatched } →
        s.live.lookup due.id = some due.seq ∧ ¬ Gone due.id s.applied) ∧
    (s.channel = [] → ∀ id, id ∈ s.live ↔ ∃ st ∈ s.source, st.id = id) ∧
    (Run (step hash) (fun s e => timely hash s e = true) .init s →
      ∀ d, s.drain = some d → (d.dispatched.map Due.id).Nodup) := by
  have htracks : Tracks s := h.invariant tracks_init fun _ _ _ htracks _ hstep => htracks.step hstep
  refine ⟨(agree_of_run h hseq).one, ?_, ?_, ?_⟩
  · intro d due t hdrain hstep hdispatched
    rcases step_cases hstep with ⟨_, hturn, -⟩ | ⟨_, _, _, hturn, -⟩ | ⟨_, hturn, -⟩ |
      ⟨d', -, hdrain', hturn⟩
    · cases hturn
    · cases hturn
    · cases hturn
    · obtain rfl := Option.some.inj (hdrain.symm.trans hdrain')
      have hlive := hturn.of_dispatched hdrain hdispatched
      refine ⟨hlive, htracks.gone due.id ?_⟩
      exact AList.lookup_isSome.mp (by rw [hlive]; rfl)
  · intro hchannel id
    rw [← htracks.source id, htracks.awaited id, hchannel]
    rfl
  · exact fun htimely d hd => (once_of_run htimely hseq d hd).nodup

namespace One

def hash (id : Uuid) : Nat := id * 2654435761

/-- The target is read, scheduled, and due in a drain at `now`. -/
def fires (now : Int) : List Event :=
  [.refresh [probe "a"], .applyDiff 0, .drainDue now, .turn]

/-- The drain dispatched these, few targets having been scheduled. -/
def fired (ids : List Uuid) (s : State) : Bool :=
  decide ((s.drain.map fun d => d.dispatched.map Due.id) = some ids) && decide (s.schedules < 2 ^ 64)

end One

/-- Ten seconds on, the target of the list is dispatched, and its entry put back. -/
theorem heap_live_agree_after_drain : ∃ s : State,
    (s.drain.map fun d => d.dispatched.map Due.id) = some [7] ∧
    (∀ id seq, s.live.lookup id = some seq → s.heap.countP (Due.carries id seq) = 1) ∧
    (∀ d due t, s.drain = some d → step One.hash s .turn = some t →
      t.drain = some { d with dispatched := due :: d.dispatched } →
        s.live.lookup due.id = some due.seq ∧ ¬ Gone due.id s.applied) ∧
    (s.channel = [] → ∀ id, id ∈ s.live ↔ ∃ st ∈ s.source, st.id = id) ∧
    (Run (step One.hash) (fun s e => timely One.hash s e = true) .init s →
      ∀ d, s.drain = some d → (d.dispatched.map Due.id).Nodup) := by
  obtain ⟨s, hrun, hs⟩ := exists_run_of_steps
    (show (steps (step One.hash) .init (One.fires (10 * 10 ^ 9))).any (One.fired [7]) = true by
      decide +kernel)
  unfold One.fired at hs
  rw [Bool.and_eq_true, decide_eq_true_iff, decide_eq_true_iff] at hs
  exact ⟨s, hs.1, heap_live_agree hrun hs.2⟩

/-- An entry popped `2 ^ 34` intervals late is put back where it is still due. -/
theorem drain_dispatches_twice : ¬ ∀ (hash : Uuid → Nat) (s : State) (d : Drain),
    Run (step hash) (fun _ _ => True) .init s → s.schedules < 2 ^ 64 → s.drain = some d →
      (d.dispatched.map Due.id).Nodup := by
  intro h
  obtain ⟨s, hrun, hs⟩ := exists_run_of_steps
    (show (steps (step One.hash) .init (One.fires (60 * 10 ^ 9 * 2 ^ 34) ++ [.turn])).any
      (One.fired [7, 7]) = true by decide +kernel)
  unfold One.fired at hs
  rw [Bool.and_eq_true, decide_eq_true_iff, decide_eq_true_iff] at hs
  obtain ⟨d, hdrain, hdispatched⟩ := Option.map_eq_some_iff.mp hs.1
  have hnodup := h One.hash s d hrun hs.2 hdrain
  rw [hdispatched] at hnodup
  exact absurd hnodup (by decide)

end Uptimepage.Scheduler

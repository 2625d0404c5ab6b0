import Uptimepage.Async.SharedCell
import Uptimepage.Worker.CircuitBreaker

/-!
# The breakers of the worker pool

`WorkerPool` in `worker/pool.rs`: `get_or_init_breaker` looks a host's breaker up, `dispatch` and
`run_once` probe through it, and `sweep_breakers` takes out the breakers that are closed and that
nobody has.
-/

namespace Uptimepage.BreakerPool

open Async CircuitBreaker

abbrev Request := CircuitBreaker.Request

abbrev Phase := CircuitBreaker.Phase

abbrev Choice := CircuitBreaker.Choice

/-- The clock is that of `Utc::now()`, in seconds. -/
def breaker (cfg : Config) :
    CellProgram Int Breaker Request Phase Choice Nat where
  fresh := Breaker.new
  idle := fun _ b => b.state == .closed
  asks := true
  first := CircuitBreaker.Request.first
  next := fun now b => next cfg { b with now := now }
  done := fun phase =>
    match phase with
    | .finished _ => true
    | _ => false
  outer := fun now passed => now + passed

abbrev State := SharedMap.State String Int Breaker Request Phase

abbrev Event := SharedMap.Event String Request Choice Nat

def program (cfg : Config) : Program (SharedMap.Store String Int Breaker)
    (SharedMap.Task String CircuitBreaker.Request CircuitBreaker.Phase)
    (SharedMap.Visit String CircuitBreaker.Request) (Option CircuitBreaker.Choice) Nat :=
  SharedMap.program (breaker cfg)

/-! ## Wedged -/

/-- What a call of `allow` answers from `phase` on when no other task has a step. -/
def answers (cfg : Config) : Nat → Breaker → Phase → Bool
  | 0, _, _ => false
  | fuel + 1, b, phase =>
    match phase with
    | .throttling _ => true
    | .finished _ => false
    | _ =>
      match next cfg b phase .ok with
      | some (b', phase') => answers cfg fuel b' phase'
      | none => false

/-- A call of `allow` has eight steps at most. -/
def allow (cfg : Config) (b : Breaker) : Bool := answers cfg 8 b (.allowing .dispatch)

/-- The probe was let through and is not over. -/
def running : Phase → Bool
  | .throttling _ | .probing _ | .recording _ _ | .failing | .forgiving | .releasing _ _
  | .succeeding | .resetting _ _ => true
  | _ => false

/-- No half-open breaker without a running probe refuses one. -/
def NeverWedged (cfg : Config) (s : State) : Prop :=
  ∀ host b, s.store.value host = some b → b.state = .halfOpen →
    (∀ p ∈ SharedMap.users host s.tasks, running p = false) → allow cfg b = true

def ends (cfg : Config) (b : Breaker) : Phase → Choice → Bool
  | .throttling _, .throttled => true
  | .probing _, .dropped => true
  | .failing, .ok => fetchAdd b.failureCount < cfg.failureThreshold
  | .forgiving, .ok => true
  | .succeeding, .ok => fetchAdd b.successCount < cfg.successThreshold
  | .resetting target .load, .ok => b.state == target
  | _, _ => false

/-- The step leaves a half-open breaker with its slots taken: a probe ends in the half-open state,
or the breaker becomes half-open, and nobody else is running. -/
def strands (cfg : Config) (b : Breaker) (others : Multiset Phase) (p : Phase) (choice : Choice) :
    Prop :=
  (∀ q ∈ others, running q = false) ∧
    match p, choice with
    | .turning _, .ok => b.state = .opened ∧ cfg.halfOpenMaxCalls ≤ b.halfOpenInFlight
    | .resetting _ .inFlight, .ok => b.state = .halfOpen ∧ cfg.halfOpenMaxCalls = 0
    | _, _ => ends cfg b p choice = true ∧ b.state = .halfOpen ∧
      cfg.halfOpenMaxCalls ≤ b.halfOpenInFlight

def KeepsProbing (cfg : Config) (s : State) (e : Event) : Prop :=
  ∀ host p choice b, SharedMap.workAt host s e = some (p, choice) → s.store.value host = some b →
    ¬ strands cfg b ((SharedMap.users host s.tasks).erase p) p choice

section

variable {cfg : Config} {b b' : Breaker} {p p' : Phase} {choice : Choice} {others : Multiset Phase}

theorem allow_halfOpen (h : b.state = .halfOpen) :
    allow cfg b = decide (b.halfOpenInFlight < cfg.halfOpenMaxCalls) := by
  by_cases hmax : cfg.halfOpenMaxCalls ≤ b.halfOpenInFlight
  · have hnot : ¬ b.halfOpenInFlight < cfg.halfOpenMaxCalls := by omega
    simp [allow, answers, next, h, hmax, hnot]
  · have hlt : b.halfOpenInFlight < cfg.halfOpenMaxCalls := by omega
    simp [allow, answers, next, h, hmax, hlt, Caller.allowed]

/-- What there is to show of one breaker and its users. -/
def Probes (cfg : Config) (b : Breaker) (ps : Multiset Phase) : Prop :=
  b.state = .halfOpen → (∀ p ∈ ps, running p = false) → b.halfOpenInFlight < cfg.halfOpenMaxCalls

theorem probes_cons : Probes cfg b (p ::ₘ others) ↔ (b.state = .halfOpen → running p = false →
    (∀ q ∈ others, running q = false) → b.halfOpenInFlight < cfg.halfOpenMaxCalls) := by
  unfold Probes
  simp only [Multiset.forall_mem_cons]
  constructor
  · exact fun h hstate hp hothers => h hstate ⟨hp, hothers⟩
  · exact fun h hstate hall => h hstate hall.1 hall.2

theorem probes_iff_of_running (hp' : running p' = true) (hfree : ¬ strands cfg b others p choice) :
    Probes cfg b' (p' ::ₘ others) ↔ ¬ strands cfg b others p choice := by
  refine iff_of_true ?_ hfree
  rw [probes_cons, hp']
  exact fun _ hidle => nomatch hidle

theorem probes_iff_of_idle (h : Probes cfg b (p ::ₘ others)) (hp : running p = false)
    (hstate : b'.state = b.state) (hcount : b'.halfOpenInFlight ≤ b.halfOpenInFlight)
    (hfree : ¬ strands cfg b others p choice) :
    Probes cfg b' (p' ::ₘ others) ↔ ¬ strands cfg b others p choice := by
  refine iff_of_true ?_ hfree
  rw [probes_cons] at h ⊢
  intro hhalf _ hothers
  rw [hstate] at hhalf
  exact hcount.trans_lt (h hhalf hp hothers)

theorem probes_iff_of_ends (hp' : running p' = false) (hstate : b'.state = b.state)
    (hcount : b'.halfOpenInFlight = b.halfOpenInFlight)
    (hstrands : strands cfg b others p choice ↔ (∀ q ∈ others, running q = false) ∧
      ends cfg b p choice = true ∧ b.state = .halfOpen ∧
        cfg.halfOpenMaxCalls ≤ b.halfOpenInFlight)
    (hends : ends cfg b p choice = true) :
    Probes cfg b' (p' ::ₘ others) ↔ ¬ strands cfg b others p choice := by
  rw [probes_cons, hstate, hcount, hp', hstrands, hends]
  constructor
  · rintro h ⟨hothers, -, hhalf, hfull⟩
    exact absurd (h hhalf rfl hothers) (not_lt.mpr hfull)
  · intro h hhalf _ hothers
    by_contra hfull
    exact h ⟨hothers, rfl, hhalf, not_lt.mp hfull⟩

/-- A probe that has met its threshold goes on, and one that has not ends. -/
theorem probes_iff_of_threshold {threshold count : Nat} {target : BreakerState}
    (hstate : b'.state = b.state) (hcount : b'.halfOpenInFlight = b.halfOpenInFlight)
    (hstrands : strands cfg b others p choice ↔ (∀ q ∈ others, running q = false) ∧
      ends cfg b p choice = true ∧ b.state = .halfOpen ∧
        cfg.halfOpenMaxCalls ≤ b.halfOpenInFlight)
    (hends : ends cfg b p choice = decide (count < threshold)) :
    Probes cfg b' ((if threshold ≤ count then .resetting target .load else .finished false) ::ₘ
      others) ↔ ¬ strands cfg b others p choice := by
  split
  · next hmet =>
    refine probes_iff_of_running rfl fun hs => ?_
    exact not_lt.mpr hmet (of_decide_eq_true (hends.symm.trans (hstrands.mp hs).2.1))
  · next hnot =>
    exact probes_iff_of_ends rfl hstate hcount hstrands
      (hends.trans (decide_eq_true (not_le.mp hnot)))

theorem probes_iff_turning {caller : Caller} (h : Probes cfg b (.turning caller ::ₘ others))
    (hnext : next cfg b (.turning caller) .ok = some (b', p')) :
    Probes cfg b' (p' ::ₘ others) ↔ ¬ strands cfg b others (.turning caller) .ok := by
  unfold next at hnext
  dsimp only at hnext
  split at hnext
  · next hopened =>
    cases hnext
    -- the breaker becomes half-open, with the slots it had
    have hstrands : strands cfg b others (.turning caller) .ok ↔
        (∀ q ∈ others, running q = false) ∧ cfg.halfOpenMaxCalls ≤ b.halfOpenInFlight :=
      and_congr_right fun _ => and_iff_right hopened
    rw [probes_cons, hstrands, not_and, not_le]
    exact ⟨fun h => h rfl rfl, fun h _ _ => h⟩
  · next hnot =>
    cases hnext
    exact probes_iff_of_idle h rfl rfl le_rfl fun hs => hnot hs.2.1

theorem probes_iff_recording {slot isFailure : Bool}
    (hnext : next cfg b (.recording slot isFailure) .ok = some (b', p')) :
    Probes cfg b' (p' ::ₘ others) ↔ ¬ strands cfg b others (.recording slot isFailure) .ok := by
  unfold next at hnext
  dsimp only at hnext
  split at hnext
  · cases hnext
    refine probes_iff_of_running ?_ fun hs => Bool.false_ne_true hs.2.1
    cases isFailure <;> rfl
  · cases hnext
    exact probes_iff_of_running rfl fun hs => Bool.false_ne_true hs.2.1
  · next hopened =>
    cases hnext
    refine iff_of_true ?_ fun hs => Bool.false_ne_true hs.2.1
    intro hhalf
    rw [hopened] at hhalf
    cases hhalf

theorem probes_iff_resetting {target : BreakerState} {stmt : Reset}
    (hreset : b.reset target stmt = (b', p')) :
    Probes cfg b' (p' ::ₘ others) ↔ ¬ strands cfg b others (.resetting target stmt) .ok := by
  cases stmt with
  | load =>
    cases hreset
    by_cases hthere : b.state = target
    · rw [if_pos hthere]
      exact probes_iff_of_ends rfl rfl rfl Iff.rfl (beq_iff_eq.mpr hthere)
    · rw [if_neg hthere]
      exact probes_iff_of_running rfl fun hs => hthere (beq_iff_eq.mp hs.2.1)
  | inFlight =>
    cases hreset
    have hstrands : strands cfg b others (.resetting target .inFlight) .ok ↔
        (∀ q ∈ others, running q = false) ∧ b.state = .halfOpen ∧
          cfg.halfOpenMaxCalls = 0 := Iff.rfl
    rw [probes_cons, hstrands]
    constructor
    · rintro hkeeps ⟨hothers, hhalf, hzero⟩
      exact absurd (hkeeps hhalf rfl hothers) (by rw [hzero]; exact Nat.lt_irrefl 0)
    · intro hfree hhalf _ hothers
      exact Nat.pos_of_ne_zero fun hzero => hfree ⟨hothers, hhalf, hzero⟩
  | _ =>
    cases hreset
    exact probes_iff_of_running rfl fun hs => Bool.false_ne_true hs.2.1

theorem probes_iff_of_ok (hnext : next cfg b p .ok = some (b', p'))
    (h : Probes cfg b (p ::ₘ others)) :
    Probes cfg b' (p' ::ₘ others) ↔ ¬ strands cfg b others p .ok := by
  cases p with
  | peeking | cooling caller | clearingSuccesses caller | loading caller =>
    cases hnext
    exact probes_iff_of_idle h rfl rfl le_rfl fun hs => Bool.false_ne_true hs.2.1
  | allowing caller =>
    unfold next at hnext
    dsimp only at hnext
    split at hnext <;> cases hnext <;>
      exact probes_iff_of_idle h rfl rfl le_rfl fun hs => Bool.false_ne_true hs.2.1
  | turning caller => exact probes_iff_turning h hnext
  | clearingInFlight caller =>
    cases hnext
    exact probes_iff_of_idle h rfl rfl (Nat.zero_le _) fun hs => Bool.false_ne_true hs.2.1
  | admitting caller cur =>
    unfold next at hnext
    dsimp only at hnext
    split at hnext
    · cases hnext
      refine probes_iff_of_running ?_ fun hs => Bool.false_ne_true hs.2.1
      cases caller <;> rfl
    · cases hnext
      exact probes_iff_of_idle h rfl rfl le_rfl fun hs => Bool.false_ne_true hs.2.1
  | throttling slot =>
    cases hnext
    exact probes_iff_of_running rfl fun hs => Bool.false_ne_true hs.2.1
  | recording slot isFailure => exact probes_iff_recording hnext
  | failing | succeeding =>
    cases hnext
    exact probes_iff_of_threshold rfl rfl Iff.rfl rfl
  | forgiving =>
    cases hnext
    exact probes_iff_of_ends rfl rfl rfl Iff.rfl rfl
  | releasing slot isFailure =>
    cases hnext
    refine probes_iff_of_running ?_ fun hs => Bool.false_ne_true hs.2.1
    cases isFailure <;> rfl
  | resetting target stmt => exact probes_iff_resetting (Option.some.inj hnext)
  | probing slot | finished slot => cases hnext

theorem probes_iff_of_next (hnext : next cfg b p choice = some (b', p'))
    (h : Probes cfg b (p ::ₘ others)) :
    Probes cfg b' (p' ::ₘ others) ↔ ¬ strands cfg b others p choice := by
  rcases choice_of_next hnext with
    rfl | ⟨rfl, ⟨_, rfl, rfl, rfl⟩ | ⟨_, _, rfl, rfl, rfl⟩ | ⟨_, rfl, rfl, rfl⟩⟩
  · exact probes_iff_of_ok hnext h
  · exact probes_iff_of_ends rfl rfl rfl Iff.rfl rfl
  · exact probes_iff_of_running rfl fun hs => Bool.false_ne_true hs.2.1
  · exact probes_iff_of_ends rfl rfl rfl Iff.rfl rfl

variable {now : Int} {act : Option (Phase × Choice)} {v v' : Option Breaker} {ps ps' : Multiset Phase}

theorem probes_shown (h : ∀ b, v = some b → Probes cfg b ps)
    (hshown : SharedMap.Shown (breaker cfg) now act v ps v' ps') :
    (∀ b, v' = some b → Probes cfg b ps') ↔
      ∀ p choice b, act = some (p, choice) → v = some b → ¬ strands cfg b (ps.erase p) p choice := by
  have hnone : act = none → (∀ b, v' = some b → Probes cfg b ps') →
      ((∀ b, v' = some b → Probes cfg b ps') ↔
        ∀ p choice b, act = some (p, choice) → v = some b →
          ¬ strands cfg b (ps.erase p) p choice) := by
    rintro rfl hkept
    refine ⟨fun _ p choice b hact => ?_, fun _ => hkept⟩
    cases hact
  cases hshown with
  | still => exact hnone rfl h
  | joined request b ps =>
    refine hnone rfl fun b' hb' => ?_
    rw [probes_cons]
    exact fun hstate _ hothers => h b' hb' hstate hothers
  | made request =>
    refine hnone rfl fun b hb => ?_
    obtain rfl := Option.some.inj hb
    exact fun hstate => nomatch hstate
  | @worked b b' p p' choice ps does =>
    have hprobes : Probes cfg { b with now := now } (p ::ₘ ps) := h b rfl
    have hiff := probes_iff_of_next does hprobes
    constructor
    · intro hkept p₁ choice₁ b₁ hact hb
      obtain ⟨rfl, rfl⟩ := Prod.mk.inj (Option.some.inj hact)
      obtain rfl := Option.some.inj hb
      rw [Multiset.erase_cons_head]
      exact hiff.mp (hkept b' rfl)
    · intro hsafe b₁ hb
      obtain rfl := Option.some.inj hb
      have hnot := hsafe p choice b rfl rfl
      rw [Multiset.erase_cons_head] at hnot
      exact hiff.mpr hnot
  | left b ps done =>
    refine hnone rfl fun b' hb' hstate hothers => h b' hb' hstate ?_
    rw [Multiset.forall_mem_cons]
    refine ⟨?_, hothers⟩
    rename_i p
    cases p with
    | finished slot => rfl
    | _ => cases done
  | swept idle => exact hnone rfl fun b hb => nomatch hb

end

section

variable {cfg : Config} {s t : State} {e : Event}

theorem neverWedged_iff : NeverWedged cfg s ↔
    ∀ host b, s.store.value host = some b → Probes cfg b (SharedMap.users host s.tasks) := by
  constructor
  · intro h host b hb hstate hidle
    have hallow := h host b hb hstate hidle
    rw [allow_halfOpen hstate] at hallow
    exact of_decide_eq_true hallow
  · intro h host b hb hstate hidle
    rw [allow_halfOpen hstate]
    exact decide_eq_true (h host b hb hstate hidle)

theorem neverWedged_step (hsound : SharedMap.Sound s) (h : NeverWedged cfg s)
    (hstep : (program cfg).step s e = some t) : NeverWedged cfg t ↔ KeepsProbing cfg s e := by
  rw [neverWedged_iff] at h ⊢
  unfold KeepsProbing
  exact forall_congr' fun host => probes_shown (h host) (hsound.shown hstep host)

end

/-! ## Slots that are given back -/

/-- A probe with a slot is not turned away or dropped, and records in the half-open state; only
such a probe gives a slot back, and the count is cleared when nobody has one. -/
def gives (b : Breaker) (others : Multiset Phase) : Phase → Choice → Prop
  | .throttling slot, .throttled => slot = false
  | .probing slot, .dropped => slot = false
  | .recording slot _, _ => slot = true → b.state = .halfOpen
  | .releasing slot _, _ => slot = true
  | .clearingInFlight _, _ => ∀ q ∈ others, q.slot = false
  | .resetting _ .inFlight, _ => ∀ q ∈ others, q.slot = false
  | _, _ => True

/-- Every slot is given back by who took it. -/
def GivesBack (s : State) (e : Event) : Prop :=
  ∀ host p choice b, SharedMap.workAt host s e = some (p, choice) → s.store.value host = some b →
    gives b ((SharedMap.users host s.tasks).erase p) p choice

/-- The count is that of the slots, and no probe is over with one. -/
structure Slotted (cfg : Config) (b : Breaker) (ps : Multiset Phase) : Prop where
  count : b.halfOpenInFlight = ps.countP (·.slot)
  bounded : b.halfOpenInFlight ≤ cfg.halfOpenMaxCalls
  admits : ∀ caller cur, .admitting caller cur ∈ ps → cur < cfg.halfOpenMaxCalls
  finished : .finished true ∉ ps

section

variable {cfg : Config} {b b' : Breaker} {p p' : Phase} {choice : Choice} {others ps ps' : Multiset Phase}
  {now : Int} {act : Option (Phase × Choice)} {v v' : Option Breaker}

theorem allowed_ne_over (caller : Caller) (slot slot' : Bool) : caller.allowed slot ≠ .finished slot' := by
  cases caller <;> nofun

theorem over_of_next (h : next cfg b p choice = some (b', .finished true)) :
    (p = .throttling true ∧ choice = .throttled) ∨ (p = .probing true ∧ choice = .dropped) := by
  rcases choice_of_next h with
    rfl | ⟨-, ⟨_, rfl, rfl, ⟨⟩⟩ | ⟨_, _, -, -, ⟨⟩⟩ | ⟨_, rfl, rfl, ⟨⟩⟩⟩
  · exfalso
    cases p with
    | peeking | cooling caller | loading caller | failing | releasing slot isFailure | succeeding =>
      obtain ⟨-, hp⟩ := Prod.mk.inj (Option.some.inj h)
      split at hp <;> cases hp
    | turning caller =>
      unfold next at h
      dsimp only at h
      split at h <;> cases h
    | allowing caller =>
      unfold next at h
      dsimp only at h
      split at h
      · exact allowed_ne_over _ _ _ (congrArg Prod.snd (Option.some.inj h))
      · cases h
      · cases h
    | admitting caller cur =>
      unfold next at h
      dsimp only at h
      split at h
      · exact allowed_ne_over _ _ _ (congrArg Prod.snd (Option.some.inj h))
      · cases h
    | recording slot isFailure =>
      unfold next at h
      dsimp only at h
      split at h
      · obtain ⟨-, hp⟩ := Prod.mk.inj (Option.some.inj h)
        split at hp <;> cases hp
      · cases h
      · cases h
    | resetting target stmt =>
      have hreset : b.reset target stmt = (b', .finished true) := Option.some.inj h
      cases stmt with
      | load =>
        obtain ⟨-, hp⟩ := Prod.mk.inj hreset
        split at hp <;> cases hp
      | _ => cases hreset
    | _ => cases h
  · exact .inl ⟨rfl, rfl⟩
  · exact .inr ⟨rfl, rfl⟩

theorem slotted_worked (hnext : next cfg b p choice = some (b', p'))
    (hgives : gives b others p choice) (h : Slotted cfg b (p ::ₘ others)) :
    Slotted cfg b' (p' ::ₘ others) := by
  obtain ⟨hcount, hbounded, hadmits, hover⟩ := h
  have hfits := cfg.fits
  have hcur : ∀ caller cur, .admitting caller cur ∈ p' ::ₘ others → cur < cfg.halfOpenMaxCalls := by
    intro caller cur hmem
    rcases Multiset.mem_cons.mp hmem with heq | hmem
    · rw [← heq] at hnext
      exact admitting_of_next hnext
    · exact hadmits caller cur (Multiset.mem_cons_of_mem hmem)
  have hdone : .finished true ∉ p' ::ₘ others := by
    intro hmem
    rcases Multiset.mem_cons.mp hmem with heq | hmem
    · rw [← heq] at hnext
      rcases over_of_next hnext with ⟨rfl, rfl⟩ | ⟨rfl, rfl⟩
      · cases hgives
      · cases hgives
    · exact hover (Multiset.mem_cons_of_mem hmem)
  rw [Multiset.countP_cons] at hcount
  suffices hslots : b'.halfOpenInFlight = (p' ::ₘ others).countP (·.slot) ∧
      b'.halfOpenInFlight ≤ cfg.halfOpenMaxCalls from ⟨hslots.1, hslots.2, hcur, hdone⟩
  rw [Multiset.countP_cons]
  cases moved hnext with
  | still same flag slot settled =>
    rw [same, slot]
    exact ⟨hcount, hbounded⟩
  | taken caller =>
    have hlt := hadmits caller _ (Multiset.mem_cons_self _ _)
    rw [slot_allowed, if_pos rfl]
    refine ⟨?_, hlt⟩
    show b.halfOpenInFlight + 1 = _
    rw [hcount]
    rfl
  | @recorded slot isFailure _ state free =>
    have hslot : slot = false := by
      cases slot with
      | false => rfl
      | true => exact absurd (hgives rfl) state
    rw [free]
    rw [hslot] at hcount
    exact ⟨hcount, hbounded⟩
  | @released slot isFailure _ free =>
    obtain rfl : slot = true := hgives
    have hone : b.halfOpenInFlight = others.countP (·.slot) + 1 := hcount
    rw [free, if_neg Bool.false_ne_true]
    show fetchSub b.halfOpenInFlight = _ ∧ fetchSub b.halfOpenInFlight ≤ _
    rw [fetchSub_of_pos (by omega) (by omega)]
    omega
  | turned caller =>
    have hnone : others.countP (·.slot) = 0 :=
      Multiset.countP_eq_zero.mpr fun q hq => by simp [hgives q hq]
    rw [hnone]
    exact ⟨rfl, Nat.zero_le _⟩
  | reset target =>
    have hnone : others.countP (·.slot) = 0 :=
      Multiset.countP_eq_zero.mpr fun q hq => by simp [hgives q hq]
    rw [hnone]
    exact ⟨rfl, Nat.zero_le _⟩

theorem slot_of_idle (hp : running p = false) (hover : p ≠ .finished true) : p.slot = false := by
  cases p with
  | finished slot =>
    cases slot with
    | false => rfl
    | true => exact absurd rfl hover
  | throttling | probing | recording | releasing => cases hp
  | _ => rfl

theorem not_strands (hmax : 0 < cfg.halfOpenMaxCalls) (h : Slotted cfg b (p ::ₘ others))
    (hgives : gives b others p choice) : ¬ strands cfg b others p choice := by
  rintro ⟨hidle, hstrands⟩
  obtain ⟨hcount, -, -, hover⟩ := h
  have hothers : others.countP (·.slot) = 0 := by
    refine Multiset.countP_eq_zero.mpr fun q hq => ?_
    rw [slot_of_idle (hidle q hq) fun heq => hover (heq ▸ Multiset.mem_cons_of_mem hq)]
    exact Bool.false_ne_true
  rw [Multiset.countP_cons, hothers] at hcount
  have hfree : p.slot = false → cfg.halfOpenMaxCalls ≤ b.halfOpenInFlight → False := by
    intro hslot hfull
    rw [hslot] at hcount
    have hzero : b.halfOpenInFlight = 0 := hcount
    omega
  split at hstrands
  · exact hfree rfl hstrands.2
  · omega
  · obtain ⟨hends, -, hfull⟩ := hstrands
    refine hfree ?_ hfull
    unfold ends at hends
    split at hends
    · exact hgives
    · exact hgives
    · rfl
    · rfl
    · rfl
    · rfl
    · cases hends

theorem slotted_shown (h : ∀ b, v = some b → Slotted cfg b ps)
    (hgives : ∀ p choice b, act = some (p, choice) → v = some b → gives b (ps.erase p) p choice)
    (hshown : SharedMap.Shown (breaker cfg) now act v ps v' ps') :
    ∀ b, v' = some b → Slotted cfg b ps' := by
  have hbegun : ∀ (request : Request) (b : Breaker) (qs : Multiset Phase), Slotted cfg b qs →
      Slotted cfg b (request.first ::ₘ qs) := by
    intro request b qs hqs
    refine ⟨?_, hqs.bounded, fun caller cur hmem => ?_, fun hmem => ?_⟩
    · rw [Multiset.countP_cons, slot_first]
      exact hqs.count
    · rcases Multiset.mem_cons.mp hmem with heq | hmem
      · cases request with
        | dispatch => cases heq
        | runOnce force => cases force <;> cases heq
      · exact hqs.admits caller cur hmem
    · rcases Multiset.mem_cons.mp hmem with heq | hmem
      · cases request with
        | dispatch => cases heq
        | runOnce force => cases force <;> cases heq
      · exact hqs.finished hmem
  intro b₁ hb
  cases hshown with
  | still => exact h b₁ hb
  | joined request b ps => exact hbegun request b₁ ps (h b₁ hb)
  | made request =>
    obtain rfl := Option.some.inj hb
    exact hbegun request _ 0 ⟨rfl, Nat.zero_le _, fun _ _ hmem => absurd hmem (Multiset.notMem_zero _),
      Multiset.notMem_zero _⟩
  | @worked b b' p p' choice ps does =>
    obtain rfl := Option.some.inj hb
    obtain ⟨hcount, hbounded, hadmits, hover⟩ := h b rfl
    have hstep := hgives p choice b rfl rfl
    rw [Multiset.erase_cons_head] at hstep
    have hslotted : Slotted cfg { b with now := now } (p ::ₘ ps) := ⟨hcount, hbounded, hadmits, hover⟩
    exact slotted_worked does hstep hslotted
  | @left p b ps done =>
    obtain ⟨hcount, hbounded, hadmits, hover⟩ := h b₁ hb
    refine ⟨?_, hbounded, fun caller cur hmem => hadmits caller cur (Multiset.mem_cons_of_mem hmem),
      fun hmem => hover (Multiset.mem_cons_of_mem hmem)⟩
    cases p with
    | finished slot =>
      cases slot with
      | true => exact absurd (Multiset.mem_cons_self _ _) hover
      | false =>
        rw [Multiset.countP_cons] at hcount
        exact hcount
    | _ => cases done
  | swept idle => cases hb

end

section

variable {cfg : Config} {s t : State} {e : Event}

/-- What is kept in a run in which every slot is given back. -/
structure Returned (cfg : Config) (s : State) : Prop where
  sound : SharedMap.Sound s
  slotted : ∀ host b, s.store.value host = some b → Slotted cfg b (SharedMap.users host s.tasks)

theorem Returned.step (h : Returned cfg s) (hgives : GivesBack s e)
    (hstep : (program cfg).step s e = some t) : Returned cfg t :=
  ⟨h.sound.step hstep, fun host =>
    slotted_shown (h.slotted host) (hgives host) (h.sound.shown hstep host)⟩

theorem Returned.keepsProbing (hmax : 0 < cfg.halfOpenMaxCalls) (h : Returned cfg s)
    (hgives : GivesBack s e) : KeepsProbing cfg s e := by
  intro host p choice b hwork hvalue
  have hmem : p ∈ SharedMap.users host s.tasks := by
    unfold SharedMap.workAt at hwork
    split at hwork
    · next i choice' =>
      obtain ⟨task, htask, hheld⟩ := Option.bind_eq_some_iff.mp hwork
      obtain ⟨q, hq, heq⟩ := Option.map_eq_some_iff.mp hheld
      cases heq
      exact Multiset.mem_coe.mpr (List.mem_filterMap.mpr ⟨task, List.mem_of_getElem? htask, hq⟩)
    · cases hwork
  have hslotted := h.slotted host b hvalue
  have hback := hgives host p choice b hwork hvalue
  rw [← Multiset.cons_erase hmem] at hslotted
  exact not_strands hmax hslotted hback

theorem returned_init (now : Int) : Returned cfg (SharedMap.State.init now) :=
  ⟨SharedMap.Sound.init now, nofun⟩

end

/-- **When a breaker is never wedged.**  In a run of dispatches, `run_once` probes and sweeps, in
any interleaving, a half-open breaker without a running probe always lets one through, if and only
if no step strands a breaker: no probe is the last to end, turned away by the throttle, dropped or
through, while its breaker is half-open with all slots taken, and no breaker becomes half-open
with all slots taken and nobody running.  No step does where every slot is given back by who
took it. -/
theorem breaker_probes_iff (cfg : Config) (now : Int) (es : List Event) :
    (Throughout (program cfg).step (NeverWedged cfg) (SharedMap.State.init now) es ↔
      Allowed (program cfg).step (KeepsProbing cfg) (SharedMap.State.init now) es) ∧
    (0 < cfg.halfOpenMaxCalls → Allowed (program cfg).step GivesBack (SharedMap.State.init now) es →
      Throughout (program cfg).step (NeverWedged cfg) (SharedMap.State.init now) es) := by
  have hiff : Throughout (program cfg).step (NeverWedged cfg) (SharedMap.State.init now) es ↔
      Allowed (program cfg).step (KeepsProbing cfg) (SharedMap.State.init now) es :=
    throughout_iff_allowed (I := SharedMap.Sound) (fun _ _ _ h hstep => h.step hstep)
      (fun _ _ _ hsound h hstep => neverWedged_step hsound h hstep) es
      (SharedMap.Sound.init now) nofun
  refine ⟨hiff, fun hmax hback => hiff.mpr ?_⟩
  exact hback.imp (I := Returned cfg) (fun _ _ _ h hgives hstep => h.step hgives hstep)
    (fun _ _ h hgives => h.keepsProbing hmax hgives) (returned_init now)

namespace One

def cfg : Config := ⟨1, 2, 60, 1, by decide⟩

/-- Probe 0 finds the host down and trips its breaker.  A minute later dispatch 1 is let through
half-open. -/
def tripped : List Event :=
  ([.begin (.look "h" .dispatch), .go 0 none, .go 0 none, .go 0 (some .ok), .go 0 (some .ok),
    .go 0 (some (.verdict .down))] : List Event) ++
  (List.replicate 8 (.go 0 (some .ok)) : List Event) ++
  ([.go 0 none, .outer 60, .begin (.look "h" .dispatch), .go 1 none] : List Event) ++
  (List.replicate 7 (.go 1 (some .ok)) : List Event)

/-- The host's throttle has no permit. -/
def events : List Event := tripped ++ ([.go 1 (some .throttled), .go 1 none] : List Event)

def recovering : List Event :=
  tripped ++ ([.go 1 (some .ok), .go 1 (some (.verdict .up)), .go 1 (some .ok), .go 1 (some .ok),
    .go 1 (some .ok), .go 1 none] : List Event)

def halfOpen (s : State) : Bool :=
  (s.store.value "h").any fun b => b.state == .halfOpen && b.halfOpenInFlight == 0 &&
    b.successCount == 1

/-- The breaker of `"h"` is half-open, refuses, and has no users. -/
def wedged (s : State) : Bool :=
  (s.store.value "h").any (fun b => b.state == .halfOpen && !allow cfg b) &&
    (s.tasks.filterMap (SharedMap.Task.heldAt "h")).isEmpty

end One

theorem gives_of_settles {b : Breaker} {others : List Phase} {p : Phase} {choice : Choice}
    (h : p.settles b others = true) (hslot : p.slot = true → choice ≠ .throttled ∧ choice ≠ .dropped) :
    gives b others p choice := by
  unfold gives
  split
  · exact Bool.eq_false_iff.mpr fun hs => (hslot hs).1 rfl
  · exact Bool.eq_false_iff.mpr fun hs => (hslot hs).2 rfl
  · rintro rfl
    simpa [Phase.settles] using h
  · exact h
  · simpa [Phase.settles] using h
  · simpa [Phase.settles] using h
  · trivial

/-- `GivesBack`, evaluated. -/
def givesBack (s : State) : Event → Bool
  | .go i (some choice) =>
    match s.tasks[i]? with
    | some (.holding host _ p) => (s.store.value host).all fun b =>
      p.settles b ((s.tasks.filterMap (SharedMap.Task.heldAt host)).erase p) &&
        (!p.slot || decide (choice ≠ .throttled ∧ choice ≠ .dropped))
    | _ => true
  | _ => true

theorem givesBack_of (s : State) (e : Event) (h : givesBack s e = true) : GivesBack s e := by
  intro host p choice b hwork hb
  unfold SharedMap.workAt at hwork
  split at hwork
  · obtain ⟨task, htask, hheld⟩ := Option.bind_eq_some_iff.mp hwork
    obtain ⟨q, hq, ⟨⟩⟩ := Option.map_eq_some_iff.mp hheld
    cases task with
    | holding host' address phase =>
      obtain ⟨rfl, ⟨⟩⟩ := Option.ite_none_right_eq_some.mp hq
      simp only [givesBack, htask, hb, Option.all_some, Bool.and_eq_true, Bool.or_eq_true,
        Bool.not_eq_true', decide_eq_true_eq] at h
      rw [SharedMap.users, Multiset.coe_erase]
      exact gives_of_settles h.1 fun hs => h.2.resolve_left (by simp [hs])
    | _ => cases hq
  · cases hwork

/-- The dispatch is through, finds the host up, and gives its slot back. -/
theorem breaker_probes_iff_given_back :
    (steps (program One.cfg).step (SharedMap.State.init 0) One.recovering).any One.halfOpen = true ∧
      Throughout (program One.cfg).step (NeverWedged One.cfg) (SharedMap.State.init 0)
        One.recovering := by
  obtain ⟨s, hs, -⟩ := (Option.any_eq_true _ _).mp
    (show (steps (guarded (program One.cfg).step givesBack) (SharedMap.State.init 0)
      One.recovering).any One.halfOpen = true by decide +kernel)
  exact ⟨by decide +kernel,
    (breaker_probes_iff One.cfg 0 One.recovering).2 (by decide) (.of_guarded givesBack_of hs)⟩

/-- A dispatch that the host's throttle turns away keeps its half-open slot for ever. -/
theorem breaker_wedges : ¬ ∀ (cfg : Config) (now : Int) (es : List Event),
    0 < cfg.halfOpenMaxCalls →
      Throughout (program cfg).step (NeverWedged cfg) (SharedMap.State.init now) es := by
  intro h
  obtain ⟨s, hs, hwedged⟩ := (Option.any_eq_true _ _).mp
    (show (steps (program One.cfg).step (SharedMap.State.init 0) One.events).any One.wedged = true
      by decide +kernel)
  have hkept := (h One.cfg 0 One.events (by decide)).of_steps hs
  obtain ⟨hvalue, hempty⟩ := Bool.and_eq_true_iff.mp hwedged
  obtain ⟨b, hb, hrefuses⟩ := (Option.any_eq_true _ _).mp hvalue
  obtain ⟨hstate, hnot⟩ := Bool.and_eq_true_iff.mp hrefuses
  have hidle : SharedMap.users "h" s.tasks = 0 := by
    unfold SharedMap.users
    rw [List.isEmpty_iff.mp hempty]
    rfl
  have hallow := hkept "h" b hb (beq_iff_eq.mp hstate) fun p hp => by
    rw [hidle] at hp
    exact absurd hp (Multiset.notMem_zero p)
  rw [hallow] at hnot
  cases hnot

end Uptimepage.BreakerPool

import Mathlib.Data.Finset.Dedup
import Mathlib.Data.Finset.Order
import Mathlib.Data.List.AList
import Uptimepage.Async.Run
import Uptimepage.Series.Runs

/-!
# The bot's send budget

`telegram/budget.rs`: a send takes a slot that is neither before the bot's own pace allows nor
before its chat's, and the bot's cursor is put off by one send.
-/

namespace Uptimepage.Telegram

open Async

def second : Int := 1000000000

def GLOBAL_RATE_PER_SEC : Int := 25

def GLOBAL_BURST : Int := 25

def PRIVATE_CHAT_INTERVAL : Int := second

def GROUP_CHAT_INTERVAL : Int := 3 * second

def MAX_WAIT : Int := 10 * second

def CHAT_MAP_SWEEP_LEN : Nat := 8192

structure RateDeferred where
  retryAfterSecs : Nat
deriving DecidableEq

abbrev Chats := AList fun _ : Int => Int

structure BudgetState where
  globalCursor : Int
  chatNext : Chats

/-- The entries whose value `keep` holds of. -/
def retain (keep : Int → Bool) (chats : Chats) : Chats :=
  ⟨chats.entries.filter fun e => keep e.2, chats.nodupKeys.sublist List.filter_sublist⟩

def chatInterval (chat : Int) : Int :=
  if chat < 0 then GROUP_CHAT_INTERVAL else PRIVATE_CHAT_INTERVAL

def burstWindow : Int := GLOBAL_BURST * second / GLOBAL_RATE_PER_SEC

/-- Where the cursor less the burst window is no instant, `now` is later anyway. -/
def BudgetState.globalSlot (b : BudgetState) (now : Int) : Int :=
  max now (b.globalCursor - burstWindow)

def BudgetState.chatSlot (b : BudgetState) (now chat : Int) : Int :=
  (b.chatNext.lookup chat).getD now

def BudgetState.reserve (b : BudgetState) (now chat : Int) : BudgetState × Except RateDeferred Int :=
  let slot := max (b.globalSlot now) (b.chatSlot now chat)
  let wait := max (slot - now) 0
  if wait > MAX_WAIT then (b, .error ⟨(wait / second).toNat + 1⟩)
  else
    let chatNext := b.chatNext.insert chat (slot + chatInterval chat)
    let chatNext :=
      if CHAT_MAP_SWEEP_LEN < chatNext.entries.length then
        retain (fun next => decide (now < next)) chatNext
      else chatNext
    (⟨max b.globalCursor now + second / GLOBAL_RATE_PER_SEC, chatNext⟩, .ok slot)

/-! ## Runs -/

structure Call where
  now : Int
  chat : Int
deriving DecidableEq

/-- A slot that was granted.  `charged` is where the cursor stood, or the call if that was later. -/
structure Grant where
  call : Call
  slot : Int
  charged : Int
deriving DecidableEq

/-- The time of the last call, and the slots granted, newest first. -/
structure State where
  budget : BudgetState
  now : Int
  grants : List Grant

def State.init (now : Int) : State := ⟨⟨now, ∅⟩, now, []⟩

/-- The calls come in the order of their times. -/
def step (s : State) (call : Call) : Option State :=
  if call.now < s.now then none
  else
    match s.budget.reserve call.now call.chat with
    | (b, .ok slot) =>
      some ⟨b, call.now, ⟨call, slot, max s.budget.globalCursor call.now⟩ :: s.grants⟩
    | (b, .error _) => some { s with budget := b, now := call.now }

def State.within (s : State) (first last : Int) : Nat :=
  s.grants.countP fun g => decide (first ≤ g.slot ∧ g.slot ≤ last)

/-- The bot's pace: at most the burst, one more, and what the rate allows in the time. -/
def State.Paced (s : State) : Prop :=
  ∀ first last, first ≤ last →
    s.within first last * second ≤ (GLOBAL_BURST + 1) * second + GLOBAL_RATE_PER_SEC * (last - first)

/-- The chat does not put the slot past the cursor and the call, or the call is deferred. -/
def metered (s : State) (call : Call) : Bool :=
  let chatSlot := s.budget.chatSlot call.now call.chat
  decide (chatSlot ≤ max s.budget.globalCursor call.now ∨ call.now + MAX_WAIT < chatSlot)

/-- The map remembers until when a chat is to wait, or it need not wait any more. -/
def State.Remembers (s : State) : Prop :=
  ∀ g ∈ s.grants, g.slot + chatInterval g.call.chat ≤ s.now ∨
    ∃ next, s.budget.chatNext.lookup g.call.chat = some next ∧
      g.slot + chatInterval g.call.chat ≤ next

/-- Two slots of one chat are its interval apart. -/
def State.Spaced (s : State) : Prop :=
  s.grants.Pairwise fun later earlier =>
    later.call.chat = earlier.call.chat → earlier.slot + chatInterval earlier.call.chat ≤ later.slot

/-- The charges are an interval of the rate apart, and the cursor is past the last. -/
structure State.Charged (s : State) : Prop where
  apart : s.grants.Pairwise fun later earlier =>
    earlier.charged + second / GLOBAL_RATE_PER_SEC ≤ later.charged
  past : ∀ g ∈ s.grants, g.charged + second / GLOBAL_RATE_PER_SEC ≤ s.budget.globalCursor
  reached : ∀ g ∈ s.grants, g.slot ≤ g.charged
  covered : ∀ g ∈ s.grants, g.charged ≤ g.slot + burstWindow

section

variable {b b' : BudgetState} {s t : State} {call : Call} {now chat chat' slot : Int}
  {chats : Chats} {keep : Int → Bool} {e : RateDeferred}

/-! ## The map -/

theorem mem_lookup_retain {next : Int} : (retain keep chats).lookup chat = some next ↔
    chats.lookup chat = some next ∧ keep next = true := by
  rw [← Option.mem_def, AList.mem_lookup_iff, ← Option.mem_def, AList.mem_lookup_iff]
  exact List.mem_filter

theorem interval_pos (chat : Int) : 0 < chatInterval chat := by
  unfold chatInterval GROUP_CHAT_INTERVAL PRIVATE_CHAT_INTERVAL second
  split <;> omega

/-! ## A call -/

theorem reserve_deferred (h : b.reserve now chat = (b', .error e)) : b' = b := by
  unfold BudgetState.reserve at h
  dsimp only at h
  split at h
  · exact (Prod.mk.inj h).1.symm
  · cases h

theorem reserve_granted (h : b.reserve now chat = (b', .ok slot)) :
    slot = max (b.globalSlot now) (b.chatSlot now chat) ∧ now ≤ slot ∧ slot ≤ now + MAX_WAIT ∧
    b'.globalCursor = max b.globalCursor now + second / GLOBAL_RATE_PER_SEC ∧
    b'.chatNext.lookup chat = some (slot + chatInterval chat) ∧
    ∀ chat' ≠ chat, ∀ next, (b'.chatNext.lookup chat' = some next → b.chatNext.lookup chat' = some next) ∧
      (b.chatNext.lookup chat' = some next → now < next → b'.chatNext.lookup chat' = some next) := by
  unfold BudgetState.reserve at h
  dsimp only at h
  split at h
  · cases h
  · next hwait =>
    obtain ⟨rfl, hslot⟩ := Prod.mk.inj h
    obtain rfl := Except.ok.inj hslot
    have hnow : now ≤ max (b.globalSlot now) (b.chatSlot now chat) := by
      have : now ≤ b.globalSlot now := Int.le_max_left _ _
      omega
    have hpos := interval_pos chat
    refine ⟨rfl, hnow, by omega, rfl, ?_, ?_⟩
    · dsimp only
      split
      · rw [mem_lookup_retain, decide_eq_true_iff]
        exact ⟨AList.lookup_insert _, by omega⟩
      · exact AList.lookup_insert _
    · intro chat' hne next
      have hinsert : ∀ v, (b.chatNext.insert chat v).lookup chat' = b.chatNext.lookup chat' :=
        fun v => AList.lookup_insert_ne hne
      dsimp only
      split
      · rw [mem_lookup_retain, decide_eq_true_iff, hinsert]
        exact ⟨And.left, And.intro⟩
      · rw [hinsert]
        exact ⟨id, fun h _ => h⟩

theorem step_cases (h : step s call = some t) : s.now ≤ call.now ∧
    ((∃ e, s.budget.reserve call.now call.chat = (s.budget, .error e) ∧
      t = { s with now := call.now }) ∨
    ∃ b slot, s.budget.reserve call.now call.chat = (b, .ok slot) ∧
      t = ⟨b, call.now, ⟨call, slot, max s.budget.globalCursor call.now⟩ :: s.grants⟩) := by
  unfold step at h
  split at h
  · cases h
  · next hnow =>
    refine ⟨by omega, ?_⟩
    split at h
    · next b slot hreserve => exact .inr ⟨b, slot, hreserve, (Option.some.inj h).symm⟩
    · next b e hreserve =>
      obtain rfl := reserve_deferred hreserve
      exact .inl ⟨e, hreserve, (Option.some.inj h).symm⟩

theorem chatSlot_le_slot (h : b.reserve now chat = (b', .ok slot)) : b.chatSlot now chat ≤ slot := by
  obtain ⟨rfl, -⟩ := reserve_granted h
  exact Int.le_max_right _ _

theorem reserve_remembers {next : Int} {r : Except RateDeferred Int} (h : b.reserve now chat = (b', r))
    (hnext : b.chatNext.lookup chat' = some next) (hahead : now < next) :
    ∃ next', b'.chatNext.lookup chat' = some next' ∧ next ≤ next' := by
  cases r with
  | error e =>
    obtain rfl := reserve_deferred h
    exact ⟨next, hnext, Int.le_refl _⟩
  | ok slot =>
    obtain ⟨-, -, -, -, hown, hothers⟩ := reserve_granted h
    by_cases hchat : chat' = chat
    · subst hchat
      have hle := chatSlot_le_slot h
      unfold BudgetState.chatSlot at hle
      rw [hnext, Option.getD_some] at hle
      have hpos := interval_pos chat'
      exact ⟨_, hown, by omega⟩
    · exact ⟨next, (hothers chat' hchat next).2 hnext hahead, Int.le_refl _⟩

/-! ## What a step keeps -/

theorem State.Remembers.step (h : s.Remembers) (hstep : step s call = some t) : t.Remembers := by
  obtain ⟨hnow, ⟨e, -, rfl⟩ | ⟨b, slot, hreserve, rfl⟩⟩ := step_cases hstep
  · intro g hg
    rcases h g hg with hold | hnext
    · exact .inl (Int.le_trans hold hnow)
    · exact .inr hnext
  · intro g hg
    obtain ⟨-, -, -, -, hown, -⟩ := reserve_granted hreserve
    rcases List.mem_cons.mp hg with rfl | hg
    · exact .inr ⟨_, hown, Int.le_refl _⟩
    · rcases h g hg with hold | ⟨next, hnext, hle⟩
      · exact .inl (Int.le_trans hold hnow)
      · rcases Int.lt_or_le call.now next with hahead | hbehind
        · obtain ⟨next', hnext', hle'⟩ := reserve_remembers hreserve hnext hahead
          exact .inr ⟨next', hnext', Int.le_trans hle hle'⟩
        · exact .inl (Int.le_trans hle hbehind)

theorem State.Spaced.step (h : s.Spaced) (hremembers : s.Remembers) (hstep : step s call = some t) :
    t.Spaced := by
  obtain ⟨hnow, ⟨e, -, rfl⟩ | ⟨b, slot, hreserve, rfl⟩⟩ := step_cases hstep
  · exact h
  · refine List.pairwise_cons.mpr ⟨?_, h⟩
    intro g hg hchat
    obtain ⟨-, hlater, -⟩ := reserve_granted hreserve
    rcases hremembers g hg with hold | ⟨next, hnext, hle⟩
    · show g.slot + chatInterval g.call.chat ≤ slot
      omega
    · have hslot := chatSlot_le_slot hreserve
      unfold BudgetState.chatSlot at hslot
      rw [show call.chat = g.call.chat from hchat, hnext, Option.getD_some] at hslot
      exact Int.le_trans hle hslot

theorem State.Charged.step (h : s.Charged) (hmetered : metered s call = true)
    (hstep : step s call = some t) : t.Charged := by
  obtain ⟨hnow, ⟨e, -, rfl⟩ | ⟨b, slot, hreserve, rfl⟩⟩ := step_cases hstep
  · exact ⟨h.apart, h.past, h.reached, h.covered⟩
  · obtain ⟨hslot, hlater, hwait, hcursor, -, -⟩ := reserve_granted hreserve
    refine ⟨List.pairwise_cons.mpr ⟨?_, h.apart⟩, ?_, ?_, ?_⟩
    · intro g hg
      have hpast := h.past g hg
      show _ ≤ max s.budget.globalCursor call.now
      omega
    · intro g hg
      show _ ≤ b.globalCursor
      rw [hcursor]
      rcases List.mem_cons.mp hg with rfl | hg
      · exact Int.le_refl _
      · have hpast := h.past g hg
        have hrate : 0 ≤ second / GLOBAL_RATE_PER_SEC := by decide
        omega
    · intro g hg
      rcases List.mem_cons.mp hg with rfl | hg
      · show slot ≤ max s.budget.globalCursor call.now
        have hchat := chatSlot_le_slot hreserve
        unfold metered at hmetered
        rw [decide_eq_true_iff] at hmetered
        unfold BudgetState.globalSlot burstWindow GLOBAL_BURST GLOBAL_RATE_PER_SEC second at hslot
        omega
      · exact h.reached g hg
    · intro g hg
      rcases List.mem_cons.mp hg with rfl | hg
      · show max s.budget.globalCursor call.now ≤ slot + burstWindow
        have hwindow : 0 ≤ burstWindow := by decide
        unfold BudgetState.globalSlot at hslot
        omega
      · exact h.covered g hg

theorem State.Charged.paced (h : s.Charged) : s.Paced := by
  intro first last hle
  unfold State.within
  rw [List.countP_eq_length_filter]
  have hapart := h.apart.sublist
    (List.filter_sublist (p := fun g => decide (first ≤ g.slot ∧ g.slot ≤ last)))
  have hlength := Series.length_mul_le_of_spaced first (last + burstWindow) hapart ?_ ?_
  · unfold burstWindow GLOBAL_BURST GLOBAL_RATE_PER_SEC second at *
    omega
  · intro g hg
    obtain ⟨hg, hwithin⟩ := List.mem_filter.mp hg
    rw [decide_eq_true_iff] at hwithin
    have hreached := h.reached g hg
    have hcovered := h.covered g hg
    omega
  · have hwindow : 0 ≤ burstWindow + second / GLOBAL_RATE_PER_SEC := by decide
    omega

/-! ## A slot past the cursor -/

theorem exists_fresh (chats : Chats) :
    ∃ f : Nat → Int, Function.Injective f ∧ ∀ n, chats.lookup (f n) = none := by
  obtain ⟨last, hlast⟩ := chats.keys.toFinset.exists_le
  refine ⟨fun n => last + 1 + n, fun n m h => by dsimp only at h; omega, fun n => ?_⟩
  rw [AList.lookup_eq_none]
  intro hmem
  have hle : last + 1 + (n : Int) ≤ last := hlast _ (List.mem_toFinset.mpr (AList.mem_keys.2 hmem))
  omega

theorem exists_burst {first last : Int} (hnow : s.now ≤ first)
    (hcursor : max s.budget.globalCursor first = last) (hnear : last ≤ first + second)
    {f : Nat → Int} (hf : Function.Injective f)
    (hfresh : ∀ n, s.budget.chatNext.lookup (f n) = none) (k : Nat) (hk : k ≤ 26) :
    ∃ t new, Run step (fun _ _ => True) s t ∧ t.grants = new ++ s.grants ∧ new.length = k ∧
      (∀ g ∈ new, first ≤ g.slot ∧ g.slot ≤ last) ∧ t.now ≤ first ∧
      max t.budget.globalCursor first = last + k * 40000000 ∧
      ∀ n ≥ k, t.budget.chatNext.lookup (f n) = none := by
  induction k with
  | zero => exact ⟨s, [], .refl, rfl, rfl, nofun, hnow, by omega, fun n _ => hfresh n⟩
  | succ k ih =>
    obtain ⟨t, new, hrun, hgrants, hlength, hnew, hnow', hcursor', hfresh'⟩ := ih (by omega)
    clear ih
    have hchat : t.budget.chatSlot first (f k) = first := by
      unfold BudgetState.chatSlot
      rw [hfresh' k (Nat.le_refl k), Option.getD_none]
    have hglobal : first ≤ t.budget.globalSlot first ∧ t.budget.globalSlot first ≤ last := by
      unfold BudgetState.globalSlot burstWindow GLOBAL_BURST GLOBAL_RATE_PER_SEC second
      omega
    have hwait : ¬ max (max (t.budget.globalSlot first) (t.budget.chatSlot first (f k)) - first) 0 >
        MAX_WAIT := by
      unfold second at hnear
      unfold MAX_WAIT second
      omega
    obtain ⟨b, slot, hreserve⟩ : ∃ b slot, t.budget.reserve first (f k) = (b, .ok slot) := by
      unfold BudgetState.reserve
      dsimp only
      rw [if_neg hwait]
      exact ⟨_, _, rfl⟩
    obtain ⟨hslot, -, -, hadded, -, hothers⟩ := reserve_granted hreserve
    have hstep : step t ⟨first, f k⟩ = some ⟨b, first,
        ⟨⟨first, f k⟩, slot, max t.budget.globalCursor first⟩ :: t.grants⟩ := by
      unfold step
      rw [if_neg (by dsimp only; omega), hreserve]
    refine ⟨_, ⟨⟨first, f k⟩, slot, max t.budget.globalCursor first⟩ :: new,
      .snoc hrun trivial hstep, ?_, ?_, ?_, Int.le_refl _, ?_, ?_⟩
    · rw [List.cons_append, ← hgrants]
    · rw [List.length_cons, hlength]
    · intro g hg
      rcases List.mem_cons.mp hg with rfl | hg
      · show first ≤ slot ∧ slot ≤ last
        omega
      · exact hnew g hg
    · show max b.globalCursor first = _
      rw [hadded]
      unfold GLOBAL_RATE_PER_SEC second
      push_cast
      omega
    · intro n hn
      have hne : f n ≠ f k := fun h => absurd (hf h) (by omega)
      show b.chatNext.lookup (f n) = none
      rw [Option.eq_none_iff_forall_ne_some]
      intro next hnext
      have hold := (hothers (f n) hne next).1 hnext
      rw [hfresh' n (by omega)] at hold
      cases hold

theorem exists_overrun (hmetered : metered s call = false) (hstep : step s call = some t) :
    ∃ u, Run step (fun _ _ => True) t u ∧ ¬ u.Paced := by
  unfold metered at hmetered
  rw [decide_eq_false_iff_not, not_or] at hmetered
  obtain ⟨hpast, hwait⟩ := hmetered
  obtain ⟨hnow, ⟨e, hreserve, rfl⟩ | ⟨b, slot, hreserve, rfl⟩⟩ := step_cases hstep
  · unfold BudgetState.reserve at hreserve
    dsimp only at hreserve
    rw [if_neg] at hreserve
    · exact nomatch (Prod.mk.inj hreserve).2
    · unfold BudgetState.globalSlot burstWindow GLOBAL_BURST GLOBAL_RATE_PER_SEC second
      omega
  · obtain ⟨hslot, hlater, -, hcursor, -, -⟩ := reserve_granted hreserve
    have hchat : max s.budget.globalCursor call.now < slot := by
      have hle := chatSlot_le_slot hreserve
      omega
    obtain ⟨f, hf, hfresh⟩ := exists_fresh b.chatNext
    have hdue : second / GLOBAL_RATE_PER_SEC = 40000000 := by decide
    have hlast : max b.globalCursor slot < slot + 40000000 := by omega
    have hnear : max b.globalCursor slot ≤ slot + second := by
      unfold second
      omega
    obtain ⟨u, new, hrun, hgrants, hlength, hnew, -⟩ := exists_burst
      (s := ⟨b, call.now, ⟨call, slot, max s.budget.globalCursor call.now⟩ :: s.grants⟩)
      hlater rfl hnear hf hfresh 26 (Nat.le_refl _)
    refine ⟨u, hrun, fun hpaced => ?_⟩
    have hbound := hpaced slot (max b.globalCursor slot) (Int.le_max_right _ _)
    have hcount : 27 ≤ u.within slot (max b.globalCursor slot) := by
      unfold State.within
      rw [hgrants, List.countP_append, List.countP_cons_of_pos (by
        rw [decide_eq_true_iff]
        exact ⟨Int.le_refl _, Int.le_max_right _ _⟩)]
      have hall : new.countP (fun g => decide (slot ≤ g.slot ∧ g.slot ≤ max b.globalCursor slot)) =
          26 := by
        rw [← hlength, List.countP_eq_length]
        exact fun g hg => decide_eq_true (hnew g hg)
      omega
    unfold GLOBAL_BURST GLOBAL_RATE_PER_SEC second at hbound
    omega

end

/-- **The bot's send budget.**  In every run the slots of one chat are its interval apart, a slot is
granted within `MAX_WAIT` of its call, a deferral changes nothing, and a chat whose slot lies ahead
is remembered.  The bot's pace is kept in the runs in which no chat puts a granted slot past both
the call and the cursor, and any call that does can be followed by calls that break it. -/
theorem send_budget {start : Int} {s : State} (h : Run step (fun _ _ => True) (.init start) s) :
    s.Spaced ∧
    (∀ g ∈ s.grants, g.slot ≤ g.call.now + MAX_WAIT) ∧
    (∀ now chat b e, s.budget.reserve now chat = (b, .error e) → b = s.budget) ∧
    (∀ now chat b r chat' next, s.budget.reserve now chat = (b, r) →
      s.budget.chatNext.lookup chat' = some next → now < next →
        ∃ next', b.chatNext.lookup chat' = some next' ∧ next ≤ next') ∧
    (Run step (fun s call => metered s call = true) (.init start) s → s.Paced) ∧
    ∀ call t, metered s call = false → step s call = some t →
      ∃ u, Run step (fun _ _ => True) t u ∧ ¬ u.Paced := by
  have hspaced : s.Spaced ∧ s.Remembers := by
    refine h.invariant (I := fun s => s.Spaced ∧ s.Remembers) ⟨List.Pairwise.nil, nofun⟩ ?_
    exact fun u call v hu _ hstep => ⟨hu.1.step hu.2 hstep, hu.2.step hstep⟩
  have hwait : ∀ g ∈ s.grants, g.slot ≤ g.call.now + MAX_WAIT := by
    refine h.invariant (I := fun s => ∀ g ∈ s.grants, g.slot ≤ g.call.now + MAX_WAIT) nofun ?_
    intro u call v hu _ hstep
    obtain ⟨-, ⟨e, -, rfl⟩ | ⟨b, slot, hreserve, rfl⟩⟩ := step_cases hstep
    · exact hu
    · intro g hg
      rcases List.mem_cons.mp hg with rfl | hg
      · exact (reserve_granted hreserve).2.2.1
      · exact hu g hg
  refine ⟨hspaced.1, hwait, fun now chat b e => reserve_deferred,
    fun now chat b r chat' next => reserve_remembers, ?_, fun call t => exists_overrun⟩
  intro hmetered
  have hcharged : s.Charged := by
    refine hmetered.invariant ⟨List.Pairwise.nil, nofun, nofun, nofun⟩ ?_
    exact fun u call v hu hok hstep => hu.step hok hstep
  exact hcharged.paced

namespace One

def twice : List Call := [⟨0, -7⟩, ⟨0, -7⟩]

/-- Three seconds on, when the second slot of the group comes, 26 people are written to. -/
def burst : List Call := (List.range 26).map fun n => ⟨3 * second, n⟩

/-- The bot's pace within the moment 3 s. -/
def overrun (s : State) : Bool := decide (27 ≤ s.within (3 * second) (3 * second))

end One

/-- A message a second to one chat, and one to another, keep the bot's pace. -/
theorem send_budget_of_three : ∃ s : State,
    s.grants.map Grant.slot = [second, 0, 0] ∧ s.Spaced ∧ s.Paced := by
  obtain ⟨s, hrun, hs⟩ := exists_run_of_steps
    (show (steps (guarded step metered) (.init 0) [⟨0, 1⟩, ⟨0, 2⟩, ⟨second, 1⟩]).any
      (fun s => decide (s.grants.map Grant.slot = [second, 0, 0])) = true by decide +kernel)
  have hmetered : Run step (fun s call => metered s call = true) (.init 0) s :=
    Run.unguard (fun _ _ h => h) hrun
  obtain ⟨hspaced, -, -, -, hpaced, -⟩ := send_budget (hmetered.mono fun _ _ _ => trivial)
  exact ⟨s, of_decide_eq_true hs, hspaced, hpaced hmetered⟩

/-- The second message to a group waits three seconds. -/
example : (steps step (.init 0) One.twice).map (fun s => s.grants.map Grant.slot) =
    some [3 * second, 0] := by decide +kernel

/-- A group's second slot meets a burst: 27 slots at one moment. -/
theorem window_overrun : ¬ ∀ start s, Run step (fun _ _ => True) (.init start) s → s.Paced := by
  intro h
  obtain ⟨s, hrun, hs⟩ := exists_run_of_steps
    (show (steps step (.init 0) (One.twice ++ One.burst)).any One.overrun = true by decide +kernel)
  have hbound := h 0 s hrun (3 * second) (3 * second) (Int.le_refl _)
  unfold One.overrun at hs
  rw [decide_eq_true_iff] at hs
  unfold GLOBAL_BURST GLOBAL_RATE_PER_SEC at hbound
  unfold second at hbound hs
  omega

end Uptimepage.Telegram

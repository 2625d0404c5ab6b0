import Mathlib.Data.Finset.Card
import Uptimepage.Async.Run
import Uptimepage.Writer.Decide

/-!
# When an incident is closed

The closing branch of `decideMulti` over a sequence of ticks.  It asks that fewer than a quorum of
regions be confirmed bad and that some region have a confirmed good run that began after the
incident did; it does not ask which region.  A region that was down may be neither: one good
result ends its bad run, and a region that fell silent has no run at all.
-/

namespace Uptimepage

open Async

namespace Recovery

/-! ## Ticks -/

/-- What one tick reads of the monitor: the results of each region, one group a region. -/
structure Tick where
  groups : List (String × List CheckResult)
  distinct : (groups.map Prod.fst).Nodup
  /-- The id of the incident it may open. -/
  newId : Uuid

/-- What there was when an incident was closed. -/
structure Closing where
  downSince : Finset String
  groups : List (String × List CheckResult)

structure Watch where
  opened : Option OpenIncident
  /-- The regions that were confirmed down at some tick since it opened. -/
  downSince : Finset String
  closings : List Closing

def start : Watch := ⟨none, ∅, []⟩

/-- The regions whose trailing run, bad or good, has `c` results or more. -/
def named (run : List CheckResult → List CheckResult) (c : Nat)
    (groups : List (String × List CheckResult)) : Finset String :=
  ((groups.filter fun group => c ≤ (run group.2).length).map Prod.fst).toFinset

def downNow : Nat → List (String × List CheckResult) → Finset String := named trailingBadRun

def goodNow : Nat → List (String × List CheckResult) → Finset String := named trailingGoodRun

def threshold (confirmations : Nat) : Nat := max confirmations 1

section

variable (targetId : Uuid) (confirmations quorum : Nat)

/-- A tick decides, and what it decides is written. -/
def step (s : Watch) (t : Tick) : Option Watch :=
  let down := downNow (threshold confirmations) t.groups
  match decideMulti targetId s.opened.toList t.groups confirmations quorum with
  | [.open_ new] =>
    some { s with opened := some ⟨t.newId, new.targetId, new.startedAt, none⟩, downSince := down }
  | [.close _ _] => some ⟨none, ∅, s.closings ++ [⟨s.downSince ∪ down, t.groups⟩]⟩
  | _ => some { s with downSince := s.downSince ∪ down }

/-! ## Closings -/

/-- Fewer than a quorum of the regions that were down are without a confirmed good run. -/
def Closing.Confirmed (k : Closing) : Prop :=
  (k.downSince \ goodNow (threshold confirmations) k.groups).card < max quorum 1

def Confirmed (s : Watch) : Prop := ∀ k ∈ s.closings, k.Confirmed confirmations quorum

/-- The regions that were down and are now neither confirmed bad nor confirmed good. -/
def undecided (s : Watch) (t : Tick) : Finset String :=
  (s.downSince \ downNow (threshold confirmations) t.groups) \
    goodNow (threshold confirmations) t.groups

/-- While an incident is open, each region that was down has a confirmed run of one kind. -/
def Settled (s : Watch) (t : Tick) : Prop :=
  s.opened.isSome = true → ∀ name ∈ s.downSince, ∃ group ∈ t.groups, group.1 = name ∧
    (threshold confirmations ≤ (trailingBadRun group.2).length ∨
      threshold confirmations ≤ (trailingGoodRun group.2).length)

/-- The closing branch is taken while the regions still down and the undecided ones make a
quorum. -/
structure Masked (s : Watch) (t : Tick) : Prop where
  below : (confirmedBad (threshold confirmations) (verdicts t.groups)).length <
    min (max quorum 1) (max t.groups.length 1)
  recovered : ∃ inc, s.opened = some inc ∧
    ∃ ended ∈ recoveries (threshold confirmations) (verdicts t.groups), inc.startedAt < ended
  quorum : max quorum 1 ≤ (confirmedBad (threshold confirmations) (verdicts t.groups)).length +
    (undecided confirmations s t).card

end

/-! ## Regions and their runs -/

variable {targetId : Uuid} {confirmations quorum c : Nat}

theorem mem_named {run : List CheckResult → List CheckResult}
    {groups : List (String × List CheckResult)} {name : String} :
    name ∈ named run c groups ↔ ∃ group ∈ groups, group.1 = name ∧ c ≤ (run group.2).length := by
  unfold named
  simp only [List.mem_toFinset, List.mem_map, List.mem_filter, decide_eq_true_eq]
  constructor
  · rintro ⟨group, ⟨hmem, hlen⟩, hname⟩
    exact ⟨group, hmem, hname, hlen⟩
  · rintro ⟨group, hmem, hname, hlen⟩
    exact ⟨group, ⟨hmem, hlen⟩, hname⟩

theorem card_downNow (t : Tick) :
    (downNow c t.groups).card = (confirmedBad c (verdicts t.groups)).length := by
  have hnodup : ((t.groups.filter fun group => c ≤ (trailingBadRun group.2).length).map
      Prod.fst).Nodup :=
    t.distinct.sublist (List.filter_sublist.map Prod.fst)
  unfold downNow named
  rw [List.toFinset_card_of_nodup hnodup, List.length_map, confirmedBad_length, verdicts,
    List.countP_map, List.countP_eq_length_filter]
  rfl

theorem not_bad_and_good {results : List CheckResult} (hbad : 1 ≤ (trailingBadRun results).length)
    (hgood : 1 ≤ (trailingGoodRun results).length) : False := by
  unfold trailingBadRun at hbad
  unfold trailingGoodRun at hgood
  induction results using List.reverseRecOn with
  | nil => simp at hbad
  | append_singleton results r _ =>
    rw [List.rtakeWhile_concat] at hbad hgood
    cases hr : r.status.isBad with
    | false => simp [hr] at hbad
    | true => simp [hr] at hgood

theorem downNow_disjoint_goodNow (hc : 1 ≤ c) (t : Tick) :
    Disjoint (downNow c t.groups) (goodNow c t.groups) := by
  rw [Finset.disjoint_left]
  intro name hdown hgood
  obtain ⟨group, hmem, hname, hbad⟩ := mem_named.1 hdown
  obtain ⟨group', hmem', hname', hgood⟩ := mem_named.1 hgood
  have hsame : group = group' :=
    List.inj_on_of_nodup_map t.distinct hmem hmem' (hname.trans hname'.symm)
  rw [← hsame] at hgood
  exact not_bad_and_good (le_trans hc hbad) (le_trans hc hgood)

theorem card_unrecovered (confirmations : Nat) (s : Watch) (t : Tick) :
    ((s.downSince ∪ downNow (threshold confirmations) t.groups) \
        goodNow (threshold confirmations) t.groups).card =
      (confirmedBad (threshold confirmations) (verdicts t.groups)).length +
        (undecided confirmations s t).card := by
  have hc : 1 ≤ threshold confirmations := le_max_right _ _
  have hdisjoint := downNow_disjoint_goodNow hc t
  have hunion : (s.downSince ∪ downNow (threshold confirmations) t.groups) \
      goodNow (threshold confirmations) t.groups =
        downNow (threshold confirmations) t.groups ∪ undecided confirmations s t := by
    ext name
    have hnot : name ∈ downNow (threshold confirmations) t.groups →
        name ∉ goodNow (threshold confirmations) t.groups :=
      fun hdown => Finset.disjoint_left.mp hdisjoint hdown
    unfold undecided
    simp only [Finset.mem_sdiff, Finset.mem_union]
    tauto
  have hsplit : Disjoint (downNow (threshold confirmations) t.groups)
      (undecided confirmations s t) := by
    rw [Finset.disjoint_left]
    intro name hdown hundecided
    exact (Finset.mem_sdiff.mp (Finset.mem_sdiff.mp hundecided).1).2 hdown
  rw [hunion, Finset.card_union_of_disjoint hsplit, card_downNow]

/-! ## One tick -/

def WholeTarget (s : Watch) : Prop := ∀ inc, s.opened = some inc → inc.region = none

theorem WholeTarget.step {s u : Watch} {t : Tick} (hs : WholeTarget s)
    (h : step targetId confirmations quorum s t = some u) : WholeTarget u := by
  unfold Recovery.step at h
  dsimp only at h
  split at h
  · cases h
    rintro inc ⟨⟩
    rfl
  · cases h
    exact nofun
  · cases h
    exact hs

theorem actions_kind (targetId : Uuid) (confirmations quorum : Nat) {s : Watch}
    (hs : WholeTarget s) (t : Tick) :
    (decideMulti targetId s.opened.toList t.groups confirmations quorum).map Action.kind =
      match s.opened with
      | none =>
        if min (max quorum 1) (max t.groups.length 1) ≤
            (confirmedBad (threshold confirmations) (verdicts t.groups)).length then [.open_] else []
      | some inc =>
        if (confirmedBad (threshold confirmations) (verdicts t.groups)).length <
            min (max quorum 1) (max t.groups.length 1) ∧
            ∃ ended ∈ recoveries (threshold confirmations) (verdicts t.groups),
              inc.startedAt < ended then [.close]
        else [] := by
  have hlength : (verdicts t.groups).length = t.groups.length := List.length_map _
  rw [decideMulti_kind, hlength]
  cases hopened : s.opened with
  | none => rfl
  | some inc =>
    have hfind : (some inc).toList.find? (fun i => decide (i.region = none)) = some inc :=
      List.find?_cons_of_pos (decide_eq_true (hs inc hopened))
    rw [hfind]
    rfl

theorem closes_iff (targetId : Uuid) (confirmations quorum : Nat) {s : Watch}
    (hs : WholeTarget s) (t : Tick) :
    (∃ id ended, decideMulti targetId s.opened.toList t.groups confirmations quorum =
      [.close id ended]) ↔
    (confirmedBad (threshold confirmations) (verdicts t.groups)).length <
        min (max quorum 1) (max t.groups.length 1) ∧
      ∃ inc, s.opened = some inc ∧
        ∃ ended ∈ recoveries (threshold confirmations) (verdicts t.groups),
          inc.startedAt < ended := by
  have hkind := actions_kind targetId confirmations quorum hs t
  constructor
  · rintro ⟨id, ended, heq⟩
    rw [heq] at hkind
    cases hopened : s.opened with
    | none =>
      simp only [hopened] at hkind
      split at hkind <;> cases hkind
    | some inc =>
      simp only [hopened] at hkind
      split at hkind
      · next hcond => exact ⟨hcond.1, inc, rfl, hcond.2⟩
      · cases hkind
  · rintro ⟨hbelow, inc, hopened, hrecovered⟩
    simp only [hopened, if_pos (And.intro hbelow hrecovered)] at hkind
    rw [hopened]
    obtain ⟨action, hactions, haction⟩ := List.map_eq_singleton_iff.mp hkind
    rw [hactions]
    cases action with
    | close id ended => exact ⟨id, ended, rfl⟩
    | none => cases haction
    | open_ new => cases haction

theorem confirmed_step {s u : Watch} {t : Tick} (hs : WholeTarget s)
    (hconfirmed : Confirmed confirmations quorum s)
    (h : step targetId confirmations quorum s t = some u) :
    Confirmed confirmations quorum u ↔ ¬Masked confirmations quorum s t := by
  have hcloses := closes_iff targetId confirmations quorum hs t
  have hnone : (¬∃ id ended, decideMulti targetId s.opened.toList t.groups confirmations quorum =
      [.close id ended]) → ¬Masked confirmations quorum s t :=
    fun hnot hmasked => hnot (hcloses.mpr ⟨hmasked.below, hmasked.recovered⟩)
  unfold step at h
  dsimp only at h
  split at h
  · next new hactions =>
    cases h
    refine iff_of_true hconfirmed (hnone ?_)
    rintro ⟨id, ended, heq⟩
    rw [hactions] at heq
    cases heq
  · next id ended hactions =>
    cases h
    obtain ⟨hbelow, hrecovered⟩ := hcloses.mp ⟨id, ended, hactions⟩
    have hcard := card_unrecovered confirmations s t
    constructor
    · intro hall hmasked
      have hlast := hall _ (List.mem_append_right _ List.mem_cons_self)
      unfold Closing.Confirmed at hlast
      dsimp only at hlast
      rw [hcard] at hlast
      exact absurd hmasked.quorum (not_le_of_gt hlast)
    · intro hmasked k hk
      rcases List.mem_append.mp hk with hk | hk
      · exact hconfirmed k hk
      · obtain rfl := List.mem_singleton.mp hk
        unfold Closing.Confirmed
        dsimp only
        rw [hcard]
        by_contra hnot
        exact hmasked ⟨hbelow, hrecovered, not_lt.mp hnot⟩
  · next hother =>
    cases h
    refine iff_of_true hconfirmed (hnone ?_)
    rintro ⟨id, ended, heq⟩
    exact hother id ended heq

theorem Settled.undecided {s : Watch} {t : Tick} (h : Settled confirmations s t)
    (hopened : s.opened.isSome = true) : undecided confirmations s t = ∅ := by
  rw [Finset.eq_empty_iff_forall_notMem]
  intro name hname
  obtain ⟨hdown, hgood⟩ := Finset.mem_sdiff.mp hname
  obtain ⟨hsince, hdown⟩ := Finset.mem_sdiff.mp hdown
  obtain ⟨group, hmem, heq, hbad | hrecovered⟩ := h hopened name hsince
  · exact hdown (mem_named.2 ⟨group, hmem, heq, hbad⟩)
  · exact hgood (mem_named.2 ⟨group, hmem, heq, hrecovered⟩)

theorem Settled.not_masked {s : Watch} {t : Tick} (h : Settled confirmations s t) :
    ¬Masked confirmations quorum s t := by
  intro hmasked
  obtain ⟨inc, hopened, -⟩ := hmasked.recovered
  have hquorum := hmasked.quorum
  rw [h.undecided (by rw [hopened]; rfl), Finset.card_empty] at hquorum
  have hbelow := hmasked.below
  omega

/-- **Recovery needs confirmation**: where each region that was down since the incident opened has a
confirmed run at every tick, bad or good, every closing is confirmed.  In any sequence of ticks, all
are confirmed exactly if none closes an incident while too many of its regions are still down or
undecided. -/
theorem closings_confirmed (targetId : Uuid) (confirmations quorum : Nat) (ticks : List Tick) :
    (Allowed (step targetId confirmations quorum) (Settled confirmations) start ticks →
      Throughout (step targetId confirmations quorum) (Confirmed confirmations quorum) start
        ticks) ∧
    (Throughout (step targetId confirmations quorum) (Confirmed confirmations quorum) start ticks ↔
      Allowed (step targetId confirmations quorum)
        (fun s t => ¬Masked confirmations quorum s t) start ticks) := by
  have hwhole : WholeTarget start := by
    intro inc hopened
    cases hopened
  have hstart : Confirmed confirmations quorum start := by
    intro k hk
    exact absurd hk List.not_mem_nil
  have hiff : Throughout (step targetId confirmations quorum) (Confirmed confirmations quorum) start
      ticks ↔ Allowed (step targetId confirmations quorum)
        (fun s t => ¬Masked confirmations quorum s t) start ticks :=
    throughout_iff_allowed (I := WholeTarget) (fun _ _ _ hs h => hs.step h)
      (fun _ _ _ hs hconfirmed h => confirmed_step hs hconfirmed h) ticks hwhole hstart
  refine ⟨fun hsettled => hiff.mpr ?_, hiff⟩
  exact Allowed.imp (I := fun _ => True) (fun _ _ _ _ _ _ => trivial)
    (fun _ _ _ h => h.not_masked) trivial hsettled

/-! ## A good result in the failing region -/

namespace Sample

open Decide.Sample

/-- `eu` is down twice in a row; `us` is up throughout. -/
def outage : Tick where
  groups := [("eu", [result 0 .down, result 30 .down]), ("us", [result 0 .up, result 30 .up])]
  distinct := by decide
  newId := 1

/-- One good result in `eu`; the window has moved on, so that `us` seems to be up since later than
the incident began. -/
def blip : Tick where
  groups := [("eu", [result 30 .down, result 60 .up]), ("us", [result 30 .up, result 60 .up])]
  distinct := by decide
  newId := 2

/-- `eu` is up twice in a row. -/
def recovery : Tick where
  groups := [("eu", [result 60 .up, result 90 .up]), ("us", [result 60 .up, result 90 .up])]
  distinct := by decide
  newId := 3

end Sample

/-- The incident is closed when `eu` has been up twice. -/
theorem closings_confirmed_recovery :
    (∃ s, steps (step 7 2 1) start [Sample.outage, Sample.recovery] = some s ∧
      s.closings.length = 1) ∧
    Throughout (step 7 2 1) (Confirmed 2 1) start [Sample.outage, Sample.recovery] := by
  refine ⟨⟨_, rfl, rfl⟩, (closings_confirmed 7 2 1 _).1 ?_⟩
  rintro s ⟨⟩
  refine ⟨nofun, ?_⟩
  rintro s ⟨⟩
  refine ⟨fun _ name hname => ⟨("eu", _), List.mem_cons_self, ?_, .inr (by decide)⟩, trivial⟩
  revert name
  decide

/-- With two confirmations and a quorum of one, the one good result closes the incident. -/
theorem closed_by_one_result :
    ∃ s, steps (step 7 2 1) start [Sample.outage, Sample.blip] = some s ∧ s.opened = none ∧
      s.closings.length = 1 ∧ ¬Confirmed 2 1 s := by
  refine ⟨_, rfl, rfl, rfl, fun hconfirmed => ?_⟩
  have hlast := hconfirmed _ List.mem_cons_self
  unfold Closing.Confirmed at hlast
  exact absurd hlast (by decide)

end Recovery

end Uptimepage

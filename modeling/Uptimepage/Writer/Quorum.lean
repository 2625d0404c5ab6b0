import Uptimepage.Series.Runs
import Uptimepage.Writer.Decide

/-!
# The quorum rule

What the decision of a monitor should be, said without its sorts and counts: a region is down
when its results end in a bad run that is long enough, an incident opens when a quorum of
regions is, and closes on a recovery that began after it.
-/

namespace Uptimepage

open Series

variable {targetId : Uuid} {opens : List OpenIncident} {group : String × List CheckResult}
  {groups : List (String × List CheckResult)} {c q : Nat} {t : Time}

/-- The region's results end in `run`, and `run` is `c` bad results or more. -/
def DownWith (c : Nat) (group : String × List CheckResult) (run : List CheckResult) : Prop :=
  FinalRun (fun r => r.status.isBad = true) group.2 run ∧ c ≤ run.length

/-- The region's results end in `run`, and `run` is `c` results or more that are not bad. -/
def GoodWith (c : Nat) (group : String × List CheckResult) (run : List CheckResult) : Prop :=
  FinalRun (fun r => (!r.status.isBad) = true) group.2 run ∧ c ≤ run.length

def Down (c : Nat) (group : String × List CheckResult) : Prop :=
  ∃ run, DownWith c group run

def DownBy (c : Nat) (t : Time) (group : String × List CheckResult) : Prop :=
  ∃ run, DownWith c group run ∧ runStart run ≤ t

/-- The statuses of the confirmed bad runs. -/
def DownStatus (c : Nat) (groups : List (String × List CheckResult)) (status : CheckStatus) : Prop :=
  ∃ group ∈ groups, ∃ run, DownWith c group run ∧ ∃ r ∈ run, r.status = status

/-- A confirmed good run began at `t`, after the incident did. -/
def Recovered (c : Nat) (groups : List (String × List CheckResult)) (inc : OpenIncident)
    (t : Time) : Prop :=
  ∃ group ∈ groups, ∃ run, GoodWith c group run ∧ runStart run = t ∧ inc.startedAt < t

/-- What an opened incident says. -/
structure Opened (targetId : Uuid) (groups : List (String × List CheckResult)) (c q : Nat)
    (new : NewOpenIncident) : Prop where
  target : new.targetId = targetId
  startedAt : IsLeast {t | AtLeast q (DownBy c t) groups} new.startedAt
  occurs : DownStatus c groups new.statusAtStart
  worst : ∀ status, DownStatus c groups status →
    status.severityRank ≤ new.statusAtStart.severityRank
  down : ∀ name, name ∈ new.regionsDown ↔ name ≠ "" ∧ ∃ group ∈ groups, group.1 = name ∧ Down c group
  up : ∀ name, name ∈ new.regionsUp ↔ name ≠ "" ∧ ∃ group ∈ groups, group.1 = name ∧ ¬ Down c group
  parts : (new.regionsDown ++ new.regionsUp).Perm ((groups.map (·.1)).filter (· ≠ ""))

/-- A quorum is down and nothing is open. -/
def ShouldOpen (opens : List OpenIncident) (groups : List (String × List CheckResult))
    (c q : Nat) : Prop :=
  (∀ inc ∈ opens, inc.region ≠ none) ∧ AtLeast q (Down c) groups

/-- `inc` is the open incident, fewer than a quorum are down and a region has recovered. -/
def ShouldClose (opens : List OpenIncident) (groups : List (String × List CheckResult))
    (c q : Nat) (inc : OpenIncident) : Prop :=
  opens.find? (·.region = none) = some inc ∧ ¬ AtLeast q (Down c) groups ∧
    ∃ t, Recovered c groups inc t

/-- The rule: when an incident is opened, what it says, when one is closed and at what time. -/
structure QuorumRule (targetId : Uuid) (opens : List OpenIncident)
    (groups : List (String × List CheckResult)) (c q : Nat) (actions : List Action) : Prop where
  opensIff : (∃ new, actions = [.open_ new]) ↔ ShouldOpen opens groups c q
  opened : ∀ new, actions = [.open_ new] → Opened targetId groups c q new
  closesIff : (∃ id endedAt, actions = [.close id endedAt]) ↔ ∃ inc, ShouldClose opens groups c q inc
  closed : ∀ id endedAt, actions = [.close id endedAt] → ∃ inc, ShouldClose opens groups c q inc ∧
    inc.id = id ∧ IsGreatest {t | Recovered c groups inc t} endedAt
  nothing : ¬ ShouldOpen opens groups c q → (¬ ∃ inc, ShouldClose opens groups c q inc) →
    actions = []

/-! ## The rule, computed -/

variable {run : List CheckResult} {v : Verdict} {vs : List Verdict} {inc : OpenIncident}
  {ended : Time}

theorem downWith_iff : DownWith c group run ↔ run = trailingBadRun group.2 ∧ c ≤ run.length := by
  unfold DownWith trailingBadRun
  rw [finalRun_iff]

theorem goodWith_iff : GoodWith c group run ↔ run = trailingGoodRun group.2 ∧ c ≤ run.length := by
  unfold GoodWith trailingGoodRun
  rw [finalRun_iff (p := fun r : CheckResult => !r.status.isBad)]

theorem down_iff : Down c group ↔ c ≤ (trailingBadRun group.2).length := by
  unfold Down
  simp only [downWith_iff]
  constructor
  · rintro ⟨run, rfl, hlen⟩
    exact hlen
  · exact fun hlen => ⟨_, rfl, hlen⟩

theorem downBy_iff : DownBy c t group ↔
    c ≤ (trailingBadRun group.2).length ∧ runStart (trailingBadRun group.2) ≤ t := by
  unfold DownBy
  simp only [downWith_iff]
  constructor
  · rintro ⟨run, ⟨rfl, hlen⟩, hstart⟩
    exact ⟨hlen, hstart⟩
  · exact fun ⟨hlen, hstart⟩ => ⟨_, ⟨rfl, hlen⟩, hstart⟩

theorem mem_confirmedBad : v ∈ confirmedBad c vs ↔ v ∈ vs ∧ c ≤ v.bad.length := by
  rw [confirmedBad, List.mem_insertionSort, List.mem_filter, decide_eq_true_eq]

theorem atLeast_down : AtLeast q (Down c) groups ↔
    q ≤ (confirmedBad c (verdicts groups)).length := by
  have hdown : Down c = fun group => decide (c ≤ (trailingBadRun group.2).length) = true := by
    funext group
    rw [down_iff, decide_eq_true_eq]
  rw [hdown, atLeast_iff, confirmedBad_length, verdicts, List.countP_map]
  rfl

theorem atLeast_downBy : AtLeast q (DownBy c t) groups ↔
    q ≤ (confirmedBad c (verdicts groups)).countP fun v => runStart v.bad ≤ t := by
  have hdown : DownBy c t = fun group => decide (c ≤ (trailingBadRun group.2).length ∧
      runStart (trailingBadRun group.2) ≤ t) = true := by
    funext group
    rw [downBy_iff, decide_eq_true_eq]
  rw [hdown, atLeast_iff, confirmedBad, (List.perm_insertionSort _ _).countP_eq,
    List.countP_filter, verdicts, List.countP_map]
  apply iff_of_eq
  congr 2
  funext group
  simp [Bool.and_comm]

theorem pairwise_confirmedBad (vs : List Verdict) :
    (confirmedBad c vs).Pairwise fun v w => runStart v.bad ≤ runStart w.bad := by
  exact List.pairwise_insertionSort _ _

theorem recovered_iff : Recovered c groups inc t ↔
    t ∈ recoveries c (verdicts groups) ∧ inc.startedAt < t := by
  unfold Recovered recoveries
  simp only [goodWith_iff, List.mem_map, List.mem_filter, decide_eq_true_eq, verdicts]
  constructor
  · rintro ⟨group, hgroup, run, ⟨rfl, hlen⟩, rfl, hlt⟩
    exact ⟨⟨_, ⟨⟨group, hgroup, rfl⟩, hlen⟩, rfl⟩, hlt⟩
  · rintro ⟨⟨v, ⟨⟨group, hgroup, rfl⟩, hlen⟩, rfl⟩, hlt⟩
    exact ⟨group, hgroup, _, ⟨rfl, hlen⟩, rfl, hlt⟩

/-! ## What is opened -/

theorem downStatus_iff {status : CheckStatus} : DownStatus c groups status ↔
    status ∈ (confirmedBad c (verdicts groups)).flatMap fun v => v.bad.map (·.status) := by
  unfold DownStatus
  simp only [downWith_iff, List.mem_flatMap, List.mem_map, mem_confirmedBad, verdicts]
  constructor
  · rintro ⟨group, hgroup, run, ⟨rfl, hlen⟩, r, hr, rfl⟩
    exact ⟨_, ⟨⟨group, hgroup, rfl⟩, hlen⟩, r, hr, rfl⟩
  · rintro ⟨v, ⟨⟨group, hgroup, rfl⟩, hlen⟩, r, hr, rfl⟩
    exact ⟨group, hgroup, _, ⟨rfl, hlen⟩, r, hr, rfl⟩

theorem worst_downStatus (hc : 1 ≤ c) (hv : v ∈ confirmedBad c (verdicts groups)) :
    let worst := (maxByKey CheckStatus.severityRank
      ((confirmedBad c (verdicts groups)).flatMap fun v => v.bad.map (·.status))).getD .down
    DownStatus c groups worst ∧
      ∀ status, DownStatus c groups status → status.severityRank ≤ worst.severityRank := by
  dsimp only
  simp only [downStatus_iff]
  generalize hl : ((confirmedBad c (verdicts groups)).flatMap fun v => v.bad.map (·.status)) = l
  cases hmax : maxByKey CheckStatus.severityRank l with
  | none =>
    -- a confirmed run is not empty
    have hlen := (mem_confirmedBad.1 hv).2
    obtain ⟨r, hr⟩ := List.exists_mem_of_length_pos (Nat.lt_of_lt_of_le hc hlen)
    have hmem : r.status ∈ l := by
      rw [← hl]
      exact List.mem_flatMap.mpr ⟨v, hv, List.mem_map.mpr ⟨r, hr, rfl⟩⟩
    rw [maxByKey_eq_none hmax] at hmem
    cases hmem
  | some worst =>
    rw [Option.getD_some]
    exact ⟨maxByKey_mem hmax, fun status hstatus => le_maxByKey hmax hstatus⟩

theorem map_region_verdicts (groups : List (String × List CheckResult)) :
    (verdicts groups).map (·.region) = groups.map (·.1) := by
  rw [verdicts, List.map_map]
  rfl

theorem regions_perm :
    (((confirmedBad c vs).map (·.region)).filter (· ≠ "") ++
      (vs.filter fun v => v.bad.length < c ∧ v.region ≠ "").map (·.region)).Perm
      ((vs.map (·.region)).filter (· ≠ "")) := by
  have hdown : (((confirmedBad c vs).map (·.region)).filter (· ≠ "")).Perm
      (((vs.filter fun v => c ≤ v.bad.length).map (·.region)).filter (· ≠ "")) :=
    ((List.perm_insertionSort _ _).map _).filter _
  have hup : ((vs.filter fun v => v.bad.length < c ∧ v.region ≠ "").map (·.region)) =
      ((vs.filter fun v => !decide (c ≤ v.bad.length)).map (·.region)).filter (· ≠ "") := by
    rw [List.filter_map, List.filter_filter]
    congr 2
    funext v
    have hlt : decide (v.bad.length < c) = !decide (c ≤ v.bad.length) := by
      rw [← decide_not]
      exact decide_eq_decide.mpr not_le.symm
    simp [Bool.and_comm, hlt]
  rw [hup]
  apply (hdown.append_right _).trans
  rw [← List.filter_append, ← List.map_append]
  exact ((List.filter_append_perm _ vs).map _).filter _

theorem openAction_opened {trigger origin : Verdict} (hc : 1 ≤ c) (hq : 1 ≤ q)
    (htrigger : (confirmedBad c (verdicts groups))[q - 1]? = some trigger) :
    Opened targetId groups c q (openAction targetId c q (verdicts groups) trigger origin) := by
  have hworst := worst_downStatus hc (List.mem_of_getElem? htrigger)
  refine ⟨rfl, ?_, hworst.1, hworst.2, ?_, ?_, ?_⟩
  · have hleast := isLeast_getElem? (pairwise_confirmedBad (verdicts groups)) htrigger
    rw [Nat.sub_add_cancel hq] at hleast
    simp only [atLeast_downBy]
    exact hleast
  · intro name
    show name ∈ ((confirmedBad c (verdicts groups)).map (·.region)).filter (· ≠ "") ↔ _
    simp only [List.mem_filter, List.mem_map, mem_confirmedBad, verdicts, down_iff,
      decide_eq_true_eq]
    constructor
    · rintro ⟨⟨v, ⟨⟨group, hgroup, rfl⟩, hlen⟩, rfl⟩, hname⟩
      exact ⟨hname, group, hgroup, rfl, hlen⟩
    · rintro ⟨hname, group, hgroup, rfl, hlen⟩
      exact ⟨⟨_, ⟨⟨group, hgroup, rfl⟩, hlen⟩, rfl⟩, hname⟩
  · intro name
    show name ∈ ((verdicts groups).filter fun v => v.bad.length < c ∧ v.region ≠ "").map
      (·.region) ↔ _
    simp only [List.mem_filter, List.mem_map, verdicts, down_iff, decide_eq_true_eq, not_le]
    constructor
    · rintro ⟨v, ⟨⟨group, hgroup, rfl⟩, hlen, hname⟩, rfl⟩
      exact ⟨hname, group, hgroup, rfl, hlen⟩
    · rintro ⟨hname, group, hgroup, rfl, hlen⟩
      exact ⟨_, ⟨⟨group, hgroup, rfl⟩, hlen, hname⟩, rfl⟩
  · rw [← map_region_verdicts]
    exact regions_perm

/-! ## The decision is the rule -/

theorem isGreatest_max? (hmax : (recoveries c (verdicts groups)).max? = some ended)
    (hlt : inc.startedAt < ended) : IsGreatest {t | Recovered c groups inc t} ended := by
  simp only [recovered_iff]
  refine ⟨⟨List.max?_mem hmax, hlt⟩, ?_⟩
  rintro t ⟨ht, -⟩
  exact (List.max?_le_iff hmax).mp (le_refl ended) t ht

theorem find?_whole_eq_none : opens.find? (·.region = none) = none ↔
    ∀ inc ∈ opens, inc.region ≠ none := by
  simp

theorem quorumRule_nil (hopen : ¬ ShouldOpen opens groups c q)
    (hclose : ¬ ∃ inc, ShouldClose opens groups c q inc) :
    QuorumRule targetId opens groups c q [] := by
  refine ⟨⟨?_, fun h => absurd h hopen⟩, ?_, ⟨?_, fun h => absurd h hclose⟩, ?_, fun _ _ => rfl⟩
  · rintro ⟨new, hnew⟩
    cases hnew
  · intro new hnew
    cases hnew
  · rintro ⟨id, endedAt, hclosed⟩
    cases hclosed
  · intro id endedAt hclosed
    cases hclosed

theorem quorumRule_open {new : NewOpenIncident} (hopen : ShouldOpen opens groups c q)
    (hclose : ¬ ∃ inc, ShouldClose opens groups c q inc) (hopened : Opened targetId groups c q new) :
    QuorumRule targetId opens groups c q [.open_ new] := by
  refine ⟨⟨fun _ => hopen, fun _ => ⟨new, rfl⟩⟩, ?_, ⟨?_, fun h => absurd h hclose⟩, ?_,
    fun h _ => absurd hopen h⟩
  · intro new' hnew
    cases hnew
    exact hopened
  · rintro ⟨id, endedAt, hclosed⟩
    cases hclosed
  · intro id endedAt hclosed
    cases hclosed

theorem quorumRule_close (hopen : ¬ ShouldOpen opens groups c q)
    (hclose : ShouldClose opens groups c q inc)
    (hended : IsGreatest {t | Recovered c groups inc t} ended) :
    QuorumRule targetId opens groups c q [.close inc.id ended] := by
  refine ⟨⟨?_, fun h => absurd h hopen⟩, ?_, ⟨fun _ => ⟨inc, hclose⟩, fun _ => ⟨inc.id, ended, rfl⟩⟩,
    ?_, fun _ h => absurd ⟨inc, hclose⟩ h⟩
  · rintro ⟨new, hnew⟩
    cases hnew
  · intro new hnew
    cases hnew
  · intro id endedAt hclosed
    cases hclosed
    exact ⟨inc, hclose, rfl, hended⟩

/-- The decision is the quorum rule, with the confirmations at least one and the quorum between
one and the number of regions. -/
theorem decideMulti_quorumRule (targetId : Uuid) (opens : List OpenIncident)
    (groups : List (String × List CheckResult)) (confirmations quorum : Nat) :
    QuorumRule targetId opens groups (max confirmations 1)
      (min (max quorum 1) (max groups.length 1))
      (decideMulti targetId opens groups confirmations quorum) := by
  have hlen : (verdicts groups).length = groups.length := List.length_map _
  unfold decideMulti
  dsimp only
  rw [hlen]
  generalize hc : max confirmations 1 = c
  generalize hq : min (max quorum 1) (max groups.length 1) = q
  have hc' : 1 ≤ c := by omega
  have hq' : 1 ≤ q := by omega
  have hdown : AtLeast q (Down c) groups ↔ q ≤ (confirmedBad c (verdicts groups)).length :=
    atLeast_down
  split
  · next hfind =>
    have hwhole := find?_whole_eq_none.1 hfind
    have hnoClose : ¬ ∃ inc, ShouldClose opens groups c q inc := by
      rintro ⟨inc, hinc, -⟩
      rw [hfind] at hinc
      cases hinc
    split
    · next trigger origin htrigger horigin =>
      obtain ⟨hlt, -⟩ := List.getElem?_eq_some_iff.mp htrigger
      exact quorumRule_open ⟨hwhole, hdown.mpr (by omega)⟩ hnoClose
        (openAction_opened hc' hq' htrigger)
    · next hnone =>
      refine quorumRule_nil (fun ⟨_, hmany⟩ => ?_) hnoClose
      -- with a quorum of confirmed runs both places are taken
      have hle := hdown.mp hmany
      exact hnone _ _ (List.getElem?_eq_getElem (by omega)) (List.getElem?_eq_getElem (by omega))
  · next inc hfind =>
    have hnoOpen : ¬ ShouldOpen opens groups c q := by
      rintro ⟨hall, -⟩
      rw [find?_whole_eq_none.2 hall] at hfind
      cases hfind
    have hsame : ∀ inc', ShouldClose opens groups c q inc' → inc' = inc := by
      rintro inc' ⟨hinc, -⟩
      exact Option.some.inj (hinc.symm.trans hfind)
    split
    · next hfew =>
      split
      · next ended hmax =>
        by_cases hlt : inc.startedAt < ended
        · rw [if_pos hlt]
          have hgreatest := isGreatest_max? hmax hlt
          refine quorumRule_close hnoOpen ⟨hfind, ?_, ended, hgreatest.1⟩ hgreatest
          rw [hdown]
          omega
        · rw [if_neg hlt]
          refine quorumRule_nil hnoOpen ?_
          rintro ⟨inc', hshould⟩
          obtain rfl := hsame inc' hshould
          obtain ⟨-, -, t, ht⟩ := hshould
          obtain ⟨hmem, hafter⟩ := recovered_iff.1 ht
          have hle := (List.max?_le_iff hmax).mp (le_refl ended) t hmem
          exact hlt (lt_of_lt_of_le hafter hle)
      · next hmax =>
        refine quorumRule_nil hnoOpen ?_
        rintro ⟨inc', -, -, t, ht⟩
        have hmem := (recovered_iff.1 ht).1
        rw [List.max?_eq_none_iff.mp hmax] at hmem
        cases hmem
    · next hmany =>
      refine quorumRule_nil hnoOpen ?_
      rintro ⟨inc', -, hfew, -⟩
      exact hfew (hdown.mpr (by omega))

end Uptimepage

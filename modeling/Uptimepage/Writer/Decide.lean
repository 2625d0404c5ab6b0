import Mathlib.Data.List.DropRight
import Uptimepage.Store.IncidentWriter

/-!
# The writer's decision

`incident_writer/decide.rs` and the part of `mod.rs` that feeds it: the results of each
region, cut to the monitor's lookback window, give a trailing bad run and a trailing good
run; a quorum of confirmed bad runs opens an incident, and a confirmed good run that began
after the incident did closes it.
-/

namespace Uptimepage

/-- The decision.  `open_` is the source's `Open`. -/
inductive Action
  | none
  | open_ (new : NewOpenIncident)
  | close (incidentId : Uuid) (endedAt : Time)
deriving DecidableEq

inductive ActionKind
  | none
  | open_
  | close
deriving DecidableEq

def Action.kind : Action → ActionKind
  | .none => .none
  | .open_ _ => .open_
  | .close _ _ => .close

structure Verdict where
  region : String
  bad : List CheckResult
  good : List CheckResult
deriving DecidableEq

def runStart : List CheckResult → Time
  | [] => 0
  | r :: _ => r.timestamp

def trailingBadRun (results : List CheckResult) : List CheckResult :=
  results.rtakeWhile (·.status.isBad)

def trailingGoodRun (results : List CheckResult) : List CheckResult :=
  results.rtakeWhile (!·.status.isBad)

/-- `Iterator::max_by_key`: of several greatest elements the last. -/
def maxByKey {α : Type} (key : α → Nat) (l : List α) : Option α :=
  l.foldl (fun best x =>
    match best with
    | none => some x
    | some b => if key x < key b then some b else some x) none

/-- Two diagnostics that name the same cause. -/
def CheckDiagnostic.agrees (d other : CheckDiagnostic) : Bool :=
  other.kind == d.kind && other.confidence == d.confidence && other.provider == d.provider

/-- The failure the incident states: the cause a quorum of regions agrees on, else the first
protocol error. -/
def incidentErrorSample (bad : List Verdict) (reportingRegions quorum : Nat) : Option String :=
  let diagnosed : List (CheckResult × CheckDiagnostic) := bad.filterMap fun v =>
    v.bad.getLast?.bind fun result => result.diagnostic.map fun d => (result, d)
  let matching (d : CheckDiagnostic) : Nat := diagnosed.countP fun other => d.agrees other.2
  let firstError : Option String := bad.findSome? fun v => v.bad.findSome? (·.error)
  match maxByKey (fun candidate => matching candidate.2) diagnosed with
  | none => firstError
  | some (sample, diagnostic) =>
    if quorum ≤ matching diagnostic then
      let tally :=
        if 1 < reportingRegions then
          [toString (matching diagnostic) ++ "/" ++ toString reportingRegions ++
            " reporting regions agree"]
        else []
      some (" · ".intercalate
        (sample.error.toList ++ [diagnostic.summary, diagnostic.guidance] ++ tally))
    else firstError

def verdicts (byRegion : List (String × List CheckResult)) : List Verdict :=
  byRegion.map fun group => ⟨group.1, trailingBadRun group.2, trailingGoodRun group.2⟩

/-- The regions whose bad run is confirmed, earliest first. -/
def confirmedBad (threshold : Nat) (vs : List Verdict) : List Verdict :=
  (vs.filter fun v => threshold ≤ v.bad.length).insertionSort
    fun v w => runStart v.bad ≤ runStart w.bad

/-- The starts of the confirmed good runs. -/
def recoveries (threshold : Nat) (vs : List Verdict) : List Time :=
  (vs.filter fun v => threshold ≤ v.good.length).map fun v => runStart v.good

/-- The incident a quorum opens: it starts with the run that made the quorum. -/
def openAction (targetId : Uuid) (threshold quorum : Nat) (vs : List Verdict)
    (trigger origin : Verdict) : NewOpenIncident :=
  let bad := confirmedBad threshold vs
  { targetId := targetId
    startedAt := runStart trigger.bad
    statusAtStart :=
      (maxByKey CheckStatus.severityRank (bad.flatMap fun v => v.bad.map (·.status))).getD .down
    checkCount := origin.bad.length
    errorSample := incidentErrorSample bad vs.length quorum
    regionsDown := (bad.map (·.region)).filter (· ≠ "")
    regionsUp := (vs.filter fun v => v.bad.length < threshold ∧ v.region ≠ "").map (·.region) }

def decideMulti (targetId : Uuid) (opens : List OpenIncident)
    (byRegion : List (String × List CheckResult)) (confirmations quorum : Nat) : List Action :=
  let threshold := max confirmations 1
  let vs := verdicts byRegion
  let quorum := min (max quorum 1) (max vs.length 1)
  let bad := confirmedBad threshold vs
  match opens.find? (·.region = none) with
  | none =>
    match bad[quorum - 1]?, bad[0]? with
    | some trigger, some origin => [.open_ (openAction targetId threshold quorum vs trigger origin)]
    | _, _ => []
  | some inc =>
    if bad.length < quorum then
      match (recoveries threshold vs).max? with
      | some ended => if inc.startedAt < ended then [.close inc.id ended] else []
      | none => []
    else []

/-! ## What the writer reads of a monitor -/

/-- The fields of a `Target` the writer reads; the interval is in seconds. -/
structure ProbedTarget where
  id : Uuid
  interval : Nat
  alertConfirmations : Nat
  regionPolicy : RegionIncidentPolicy
deriving DecidableEq

/-- `lookback_for`, with the configured floor. -/
def lookbackFor (lookback : Int) (target : ProbedTarget) : Int :=
  max lookback (seconds (target.interval * 2 * (max target.alertConfirmations 1 : Nat)))

/-- The results of each region in order of time, by region. -/
def byRegion (tagged : List (String × CheckResult)) : List (String × List CheckResult) :=
  ((tagged.map (·.1)).dedup.insertionSort (· ≤ ·)).map fun region =>
    (region, ((tagged.filter (·.1 = region)).map (·.2)).insertionSort
      fun a b => a.timestamp ≤ b.timestamp)

/-- The decision on all of the results given. -/
def decideOn (target : ProbedTarget) (opens : List OpenIncident)
    (tagged : List (String × CheckResult)) : List Action :=
  let groups := byRegion tagged
  decideMulti target.id opens groups (max target.alertConfirmations 1)
    (target.regionPolicy.required groups.length)

/-- The decision of `process_target`, on the results in the monitor's own window. -/
def decideTarget (lookback : Int) (target : ProbedTarget) (opens : List OpenIncident)
    (tagged : List (String × CheckResult)) (now : Time) : List Action :=
  let cutoff := now - lookbackFor lookback target
  decideOn target opens (tagged.filter fun r => cutoff ≤ r.2.timestamp)

namespace Decide.Sample

def result (t : Int) (status : CheckStatus) : CheckResult where
  targetId := 7
  orgId := 1
  timestamp := seconds t
  status := status
  durationMs := 10
  dnsMs := none
  connectMs := none
  tlsMs := none
  ttfbMs := none
  responseCode := none
  responseSize := none
  diagnostic := none
  error := none

def target : ProbedTarget where
  id := 7
  interval := 60
  alertConfirmations := 2
  regionPolicy := .any

end Decide.Sample

/-! ## The greatest by a key -/

section

variable {α : Type} {key : α → Nat} {l : List α} {x y : α}

theorem maxByKey_mem (h : maxByKey key l = some x) : x ∈ l := by
  have hfold : ∀ (l : List α) (best : Option α), (l.foldl (fun best x =>
      match best with
      | none => some x
      | some b => if key x < key b then some b else some x) best) = some x →
        best = some x ∨ x ∈ l := by
    intro l
    induction l with
    | nil => exact fun best h => .inl h
    | cons y l ih =>
      intro best h
      rcases ih _ h with hbest | hmem
      · cases best with
        | none =>
          obtain rfl := Option.some.inj hbest
          exact .inr List.mem_cons_self
        | some b =>
          dsimp only at hbest
          split at hbest
          · exact .inl hbest
          · obtain rfl := Option.some.inj hbest
            exact .inr List.mem_cons_self
      · exact .inr (List.mem_cons_of_mem _ hmem)
  exact (hfold l none h).resolve_left (by simp)

theorem maxByKey_fold (l : List α) (best : Option α)
    (h : l.foldl (fun best x =>
      match best with
      | none => some x
      | some b => if key x < key b then some b else some x) best = some x) :
    (∀ b, best = some b → key b ≤ key x) ∧ ∀ y ∈ l, key y ≤ key x := by
  induction l generalizing best with
  | nil =>
    refine ⟨fun b hb => ?_, nofun⟩
    obtain rfl := Option.some.inj (hb.symm.trans h)
    exact le_refl _
  | cons y l ih =>
    obtain ⟨hbest, hrest⟩ := ih _ h
    cases best with
    | none =>
      exact ⟨nofun, List.forall_mem_cons.mpr ⟨hbest y rfl, hrest⟩⟩
    | some b =>
      dsimp only at hbest
      by_cases hlt : key y < key b
      · rw [if_pos hlt] at hbest
        have hb := hbest b rfl
        exact ⟨fun _ hb' => Option.some.inj hb' ▸ hb,
          List.forall_mem_cons.mpr ⟨le_of_lt (lt_of_lt_of_le hlt hb), hrest⟩⟩
      · rw [if_neg hlt] at hbest
        have hy := hbest y rfl
        exact ⟨fun _ hb' => Option.some.inj hb' ▸ le_trans (not_lt.mp hlt) hy,
          List.forall_mem_cons.mpr ⟨hy, hrest⟩⟩

theorem le_maxByKey (h : maxByKey key l = some x) (hy : y ∈ l) : key y ≤ key x :=
  (maxByKey_fold l none h).2 y hy

theorem maxByKey_eq_none (h : maxByKey key l = none) : l = [] := by
  have hfold : ∀ (l : List α) (b : α), (l.foldl (fun best x =>
      match best with
      | none => some x
      | some b => if key x < key b then some b else some x) (some b)) ≠ none := by
    intro l
    induction l with
    | nil => nofun
    | cons y l ih =>
      intro b
      rw [List.foldl_cons]
      dsimp only
      split
      · exact ih b
      · exact ih y
  cases l with
  | nil => rfl
  | cons y l => exact absurd h (hfold l y)

end

/-! ## The outcome -/

theorem required_clamped (policy : RegionIncidentPolicy) (n : Nat) :
    min (max (policy.required n) 1) (max n 1) = policy.required n := by
  unfold RegionIncidentPolicy.required
  dsimp only
  omega

theorem confirmedBad_length (threshold : Nat) (vs : List Verdict) :
    (confirmedBad threshold vs).length = vs.countP fun v => threshold ≤ v.bad.length := by
  rw [confirmedBad, List.length_insertionSort, List.countP_eq_length_filter]

theorem max?_lt_iff {l : List Time} {t : Time} :
    (∃ ended, l.max? = some ended ∧ t < ended) ↔ ∃ u ∈ l, t < u := by
  constructor
  · rintro ⟨ended, hmax, hlt⟩
    exact ⟨ended, List.max?_mem hmax, hlt⟩
  · rintro ⟨u, hu, hlt⟩
    cases hmax : l.max? with
    | none =>
      rw [List.max?_eq_none_iff] at hmax
      rw [hmax] at hu
      cases hu
    | some ended =>
      have hle := (List.max?_le_iff hmax).mp (le_refl ended) u hu
      exact ⟨ended, rfl, lt_of_lt_of_le hlt hle⟩

theorem decideMulti_kind (targetId : Uuid) (opens : List OpenIncident)
    (groups : List (String × List CheckResult)) (confirmations quorum : Nat) :
    (decideMulti targetId opens groups confirmations quorum).map Action.kind =
      match opens.find? (·.region = none) with
      | none =>
        if min (max quorum 1) (max (verdicts groups).length 1) ≤
            (confirmedBad (max confirmations 1) (verdicts groups)).length then [.open_] else []
      | some inc =>
        if (confirmedBad (max confirmations 1) (verdicts groups)).length <
            min (max quorum 1) (max (verdicts groups).length 1) ∧
            ∃ ended ∈ recoveries (max confirmations 1) (verdicts groups), inc.startedAt < ended then
          [.close]
        else [] := by
  unfold decideMulti
  simp only
  generalize confirmedBad (max confirmations 1) (verdicts groups) = bad
  generalize hq : min (max quorum 1) (max (verdicts groups).length 1) = q
  have hpos : 1 ≤ q := by omega
  split
  · by_cases hle : q ≤ bad.length
    · have htrigger : bad[q - 1]? = some (bad.get ⟨q - 1, by omega⟩) :=
        List.getElem?_eq_getElem (by omega)
      have horigin : bad[0]? = some (bad.get ⟨0, by omega⟩) :=
        List.getElem?_eq_getElem (by omega)
      rw [htrigger, horigin, if_pos hle]
      rfl
    · have htrigger : bad[q - 1]? = none := List.getElem?_eq_none (by omega)
      rw [htrigger, if_neg hle]
      rfl
  · next inc _ =>
    simp only [← max?_lt_iff]
    by_cases hlt : bad.length < q
    · cases hmax : (recoveries (max confirmations 1) (verdicts groups)).max? with
      | none => simp
      | some ended =>
        by_cases hended : inc.startedAt < ended
        · simp [hlt, hended, Action.kind]
        · simp [hended]
    · simp [hlt]

theorem decideMulti_open {targetId : Uuid} {opens : List OpenIncident}
    {groups : List (String × List CheckResult)} {confirmations quorum : Nat}
    {new : NewOpenIncident}
    (h : .open_ new ∈ decideMulti targetId opens groups confirmations quorum) :
    new.targetId = targetId ∧ ∃ trigger,
      (confirmedBad (max confirmations 1) (verdicts groups))[
        min (max quorum 1) (max (verdicts groups).length 1) - 1]? = some trigger ∧
      new.startedAt = runStart trigger.bad := by
  unfold decideMulti at h
  simp only at h
  split at h
  · split at h
    · next trigger origin htrigger _ =>
      cases List.mem_singleton.mp h
      exact ⟨rfl, trigger, htrigger, rfl⟩
    · cases h
  · split at h
    · split at h
      · split at h
        · cases List.mem_singleton.mp h
        · cases h
      · cases h
    · cases h

end Uptimepage

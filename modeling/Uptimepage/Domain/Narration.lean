import Uptimepage.Chrono.Instant
import Uptimepage.Domain.CheckResult
import Uptimepage.Series.Maximal

/-!
# Incidents read off a stream of checks

The public projection of an incident (`Incident` of `domain/incident.rs`) and
`coalesce_incidents`, a single pass with a pending incident.  A check that opens an incident
leaves its `ended_at` empty, and only a further bad check sets it: when a good check follows
at once, the incident is handed out as it was opened.
-/

namespace Uptimepage.Narration

open Chrono Series

/-- `updates` is left out: what builds an incident here leaves it empty. -/
structure Incident where
  id : Uuid
  targetId : Option Uuid
  startedAt : Instant
  endedAt : Option Instant
  status : CheckStatus
  durationSecs : Option Nat
  checkCount : Nat
  errorSample : Option String
  severity : IncidentSeverity
  countsAsDowntime : Bool
  publicTitle : Option String
  publicDescription : Option String
  createdAt : Option Instant
  updatedAt : Option Instant
  regionsDown : List String
  regionsUp : List String
deriving DecidableEq

structure Observation where
  ts : Instant
  status : CheckStatus
  error : Option String
deriving DecidableEq

/-- `bad`: a degraded check opens nothing. -/
def Observation.bad (o : Observation) : Bool := o.status = .down || o.status = .error

def extendIncident (inc : Incident) (o : Observation) : Incident :=
  { inc with
    checkCount := inc.checkCount + 1
    errorSample := if inc.errorSample.isNone then o.error else inc.errorSample
    endedAt := some o.ts
    durationSecs := some (max (inc.startedAt.secondsBetween o.ts) 0).toNat
    status := o.status }

def newIncident (id : Uuid) (targetId : Uuid) (o : Observation) : Incident where
  id := id
  targetId := some targetId
  startedAt := o.ts
  endedAt := none
  status := o.status
  durationSecs := none
  checkCount := 1
  errorSample := o.error
  severity := .major
  countsAsDowntime := true
  publicTitle := none
  publicDescription := none
  createdAt := none
  updatedAt := none
  regionsDown := []
  regionsUp := []

structure Coalescer where
  out : List Incident
  current : Option Incident
  drawn : Nat

section

variable (nowV7 : Nat → Uuid) (targetId : Uuid)

/-- The loop's body.  `nowV7 n` is what the call after `n` others of `Uuid::now_v7` returns. -/
def coalesceStep (c : Coalescer) (o : Observation) : Coalescer :=
  if o.bad then
    match c.current with
    | some inc => { c with current := some (extendIncident inc o) }
    | none =>
      { c with current := some (newIncident (nowV7 c.drawn) targetId o), drawn := c.drawn + 1 }
  else
    match c.current with
    | some inc => { c with out := c.out ++ [inc], current := none }
    | none => c

/-- The trailing run is still going on. -/
def Incident.ongoing (inc : Incident) : Incident :=
  { inc with endedAt := none, durationSecs := none }

def coalesceIncidents (observations : List Observation) : List Incident :=
  let c := observations.foldl (coalesceStep nowV7 targetId) ⟨[], none, 0⟩
  match c.current with
  | some inc => c.out ++ [inc.ongoing]
  | none => c.out

/-! ## What the pass makes of a run -/

/-- The incident pending after a run. -/
def ofRun (id : Uuid) : List Observation → Option Incident
  | [] => none
  | o :: run => some (run.foldl extendIncident (newIncident id targetId o))

/-- The pending incident handed out. -/
def Coalescer.flush (c : Coalescer) : Coalescer :=
  { c with out := c.out ++ c.current.toList, current := none }

variable {nowV7 targetId} {c : Coalescer} {inc : Incident} {gap run : List Observation}
  {o : Observation}

theorem flush_of_none (h : c.current = none) : c.flush = c := by
  cases c
  subst h
  simp [Coalescer.flush]

theorem coalesceStep_good (h : o.bad = false) : coalesceStep nowV7 targetId c o = c.flush := by
  cases c with
  | mk out current drawn =>
    cases current with
    | none => simp [coalesceStep, h, Coalescer.flush]
    | some inc => simp [coalesceStep, h, Coalescer.flush]

theorem flush_flush (c : Coalescer) : c.flush.flush = c.flush := flush_of_none rfl

theorem foldl_gap (hgap : ∀ o ∈ gap, o.bad = false) (h : gap ≠ [] ∨ c.current = none) :
    gap.foldl (coalesceStep nowV7 targetId) c = c.flush := by
  induction gap generalizing c with
  | nil => exact (flush_of_none (h.resolve_left (by simp))).symm
  | cons o gap ih =>
    obtain ⟨ho, hgap⟩ := List.forall_mem_cons.mp hgap
    rw [List.foldl_cons, coalesceStep_good ho, ih hgap (Or.inr rfl), flush_flush]

theorem foldl_extend (hrun : ∀ o ∈ run, o.bad = true) (h : c.current = some inc) :
    run.foldl (coalesceStep nowV7 targetId) c =
      { c with current := some (run.foldl extendIncident inc) } := by
  induction run generalizing c inc with
  | nil => rw [List.foldl_nil, List.foldl_nil, ← h]
  | cons o run ih =>
    obtain ⟨ho, hrun⟩ := List.forall_mem_cons.mp hrun
    have hstep : coalesceStep nowV7 targetId c o =
        { c with current := some (extendIncident inc o) } := by
      simp [coalesceStep, ho, h]
    rw [List.foldl_cons, List.foldl_cons, hstep, ih hrun rfl]

theorem foldl_run (hrun : ∀ o ∈ run, o.bad = true) (hne : run ≠ []) (h : c.current = none) :
    run.foldl (coalesceStep nowV7 targetId) c =
      ⟨c.out, ofRun targetId (nowV7 c.drawn) run, c.drawn + 1⟩ := by
  cases run with
  | nil => exact absurd rfl hne
  | cons o run =>
    obtain ⟨ho, hrun⟩ := List.forall_mem_cons.mp hrun
    have hstep : coalesceStep nowV7 targetId c o =
        ⟨c.out, some (newIncident (nowV7 c.drawn) targetId o), c.drawn + 1⟩ := by
      simp [coalesceStep, ho, h]
    rw [List.foldl_cons, hstep, foldl_extend hrun rfl]
    rfl

theorem foldl_spells {spells : List (Spell Observation)}
    (hgaps : ∀ s ∈ spells, ∀ o ∈ s.gap, o.bad = false)
    (hruns : ∀ s ∈ spells, s.run ≠ [] ∧ ∀ o ∈ s.run, o.bad = true)
    (hapart : ∀ s ∈ spells.tail, s.gap ≠ []) :
    ∃ c, (spells.flatMap fun s => s.gap ++ s.run).foldl (coalesceStep nowV7 targetId)
        ⟨[], none, 0⟩ = c ∧ c.drawn = spells.length ∧ (c.current = none ↔ spells = []) ∧
      c.flush.out.map some = spells.mapIdx fun i s => ofRun targetId (nowV7 i) s.run := by
  induction spells using List.reverseRecOn with
  | nil => exact ⟨_, rfl, rfl, by simp, rfl⟩
  | append_singleton spells s ih =>
    obtain ⟨c, hfold, hdrawn, hcurrent, hout⟩ := ih
      (fun s hs => hgaps s (List.mem_append_left _ hs))
      (fun s hs => hruns s (List.mem_append_left _ hs))
      (fun s' hs' => hapart s' (by cases spells with
        | nil => simp at hs'
        | cons first later => exact List.mem_append_left _ hs'))
    have hgap : s.gap ≠ [] ∨ c.current = none := by
      cases spells with
      | nil => exact Or.inr (hcurrent.mpr rfl)
      | cons first later => exact Or.inl (hapart s (by simp))
    obtain ⟨hne, hbad⟩ := hruns s (by simp)
    refine ⟨_, rfl, ?_⟩
    rw [List.flatMap_append, List.foldl_append, hfold, List.flatMap_singleton, List.foldl_append,
      foldl_gap (hgaps s (by simp)) hgap, foldl_run hbad hne rfl]
    refine ⟨by simp [Coalescer.flush, hdrawn], ?_, ?_⟩
    · cases hrun : s.run with
      | nil => exact absurd hrun hne
      | cons o run => simp [ofRun]
    · have hsome : ∀ run, run ≠ [] → ∃ inc, ofRun targetId (nowV7 c.flush.drawn) run = some inc := by
        rintro (_ | ⟨o, run⟩) h
        · exact absurd rfl h
        · exact ⟨_, rfl⟩
      obtain ⟨inc, hinc⟩ := hsome s.run hne
      have hdrawn' : c.flush.drawn = spells.length := hdrawn
      rw [List.mapIdx_concat, ← hout, ← hdrawn', hinc]
      simp [Coalescer.flush]

variable {observations rest : List Observation} {spells : List (Spell Observation)} {i : Nat}

theorem coalesceIncidents_eq (h : MaximalRuns Observation.bad observations spells rest) :
    (coalesceIncidents nowV7 targetId observations).map some = spells.mapIdx fun i s =>
      (ofRun targetId (nowV7 i) s.run).map
        (if i + 1 = spells.length ∧ rest = [] then Incident.ongoing else id) := by
  obtain ⟨c, hfold, -, hcurrent, hout⟩ :=
    @foldl_spells nowV7 targetId spells h.gaps h.runs h.apart
  unfold coalesceIncidents
  rw [h.split, List.foldl_append, hfold]
  dsimp only
  by_cases hrest : rest = []
  · subst hrest
    rw [List.foldl_nil]
    cases hpending : c.current with
    | none =>
      rw [flush_of_none hpending, hcurrent.mp hpending] at hout
      rw [hcurrent.mp hpending]
      exact hout
    | some inc =>
      have hne : spells ≠ [] := fun hnil => by simp [hcurrent.mpr hnil] at hpending
      obtain ⟨before, s, rfl⟩ := List.eq_nil_or_concat spells |>.resolve_left hne
      rw [List.concat_eq_append] at hout ⊢
      simp only [Coalescer.flush, hpending, Option.toList_some, List.map_append, List.map_cons,
        List.map_nil, List.mapIdx_concat] at hout
      obtain ⟨hbefore, hlast⟩ := List.append_inj' hout rfl
      have hearlier : before.mapIdx (fun i s => ofRun targetId (nowV7 i) s.run) =
          before.mapIdx fun i s' => (ofRun targetId (nowV7 i) s'.run).map
            (if i + 1 = (before ++ [s]).length ∧ ([] : List Observation) = [] then
              Incident.ongoing else id) := by
        apply List.ext_getElem?
        intro i
        rw [List.getElem?_mapIdx, List.getElem?_mapIdx]
        cases hi : before[i]? with
        | none => rfl
        | some s' =>
          have hlt := (List.getElem?_eq_some_iff.mp hi).1
          have hearly : i ≠ before.length := by omega
          simp [hearly]
      rw [List.mapIdx_concat, ← hearlier, ← hbefore, ← (List.cons.inj hlast).1]
      simp
  · rw [foldl_gap h.rest (Or.inl hrest)]
    simp only [hrest, and_false, if_false, Option.map_id, id_eq]
    exact hout

/-! ## The incidents and the runs -/

theorem startedAt_foldl : (run.foldl extendIncident inc).startedAt = inc.startedAt := by
  induction run generalizing inc with
  | nil => rfl
  | cons o run ih => exact ih

theorem checkCount_foldl :
    (run.foldl extendIncident inc).checkCount = inc.checkCount + run.length := by
  induction run generalizing inc with
  | nil => rfl
  | cons o run ih =>
    rw [List.foldl_cons, ih, List.length_cons]
    show inc.checkCount + 1 + run.length = inc.checkCount + (run.length + 1)
    omega

theorem endedAt_foldl :
    (run.foldl extendIncident inc).endedAt = (run.getLast?.map Observation.ts).or inc.endedAt := by
  induction run using List.reverseRecOn with
  | nil => simp
  | append_singleton run o ih => simp [List.foldl_append, extendIncident]

theorem length_coalesceIncidents
    (h : MaximalRuns Observation.bad observations spells rest) :
    (coalesceIncidents nowV7 targetId observations).length = spells.length := by
  have := congrArg List.length (@coalesceIncidents_eq nowV7 targetId _ _ _ h)
  simpa using this

theorem exists_spell (h : MaximalRuns Observation.bad observations spells rest)
    (hi : (coalesceIncidents nowV7 targetId observations)[i]? = some inc) :
    ∃ s o later, spells[i]? = some s ∧ s.run = o :: later ∧ inc.startedAt = o.ts ∧
      inc.checkCount = s.run.length ∧
      inc.endedAt = if i + 1 = spells.length ∧ rest = [] then none
        else later.getLast?.map Observation.ts := by
  have heq := congrArg (·[i]?) (@coalesceIncidents_eq nowV7 targetId _ _ _ h)
  simp only [List.getElem?_map, hi, Option.map_some, List.getElem?_mapIdx] at heq
  obtain ⟨s, hs, hrun⟩ := Option.map_eq_some_iff.mp heq.symm
  cases hcheck : s.run with
  | nil => exact absurd hcheck (h.runs s (List.mem_of_getElem? hs)).1
  | cons o later =>
    rw [hcheck, ofRun, Option.map_some, Option.some.injEq] at hrun
    refine ⟨s, o, later, hs, hcheck, ?_⟩
    rw [hcheck, List.length_cons, ← hrun]
    split
    · exact ⟨startedAt_foldl, by simp [Incident.ongoing, checkCount_foldl, newIncident]; omega, rfl⟩
    · exact ⟨startedAt_foldl, by simp [checkCount_foldl, newIncident]; omega,
        by simp [endedAt_foldl, newIncident]⟩

/-- An incident reports a run: it begins with its first check, counts its checks and, once it
has an end, ends with its last. -/
structure Reports (s : Spell Observation) (inc : Incident) : Prop where
  startedAt : s.run.head?.map Observation.ts = some inc.startedAt
  checkCount : inc.checkCount = s.run.length
  endedAt : ∀ e, inc.endedAt = some e → s.run.getLast?.map Observation.ts = some e

/-- The incidents are the maximal bad runs of the stream: they come one after another, their
checks add up to the bad ones, and the trailing run alone has no end. -/
structure Partitions (observations : List Observation) (incidents : List Incident) : Prop where
  runs : ∀ spells rest, MaximalRuns Observation.bad observations spells rest →
    List.Forall₂ Reports spells incidents
  disjoint : incidents.Pairwise fun inc next =>
    inc.startedAt ≤ next.startedAt ∧ ∀ e, inc.endedAt = some e → e ≤ next.startedAt
  checks : (incidents.map Incident.checkCount).sum = (observations.filter Observation.bad).length
  ongoing : ∀ spells rest, MaximalRuns Observation.bad observations spells rest →
    ∀ i inc, incidents[i]? = some inc →
      (inc.endedAt = none ↔ i + 1 = spells.length ∧ rest = [])

/-- Each bad run that is over has at least two checks. -/
def Lasting (observations : List Observation) : Prop :=
  ∀ spells rest, MaximalRuns Observation.bad observations spells rest →
    ∀ i s, spells[i]? = some s → (i + 1 = spells.length ∧ rest = []) ∨ 2 ≤ s.run.length

theorem reports (h : MaximalRuns Observation.bad observations spells rest) :
    List.Forall₂ Reports spells (coalesceIncidents nowV7 targetId observations) := by
  rw [List.forall₂_iff_get]
  refine ⟨(length_coalesceIncidents h).symm, fun i hspell hinc => ?_⟩
  obtain ⟨s, o, later, hs, hrun, hstart, hcount, hend⟩ :=
    exists_spell h (List.getElem?_eq_getElem hinc)
  obtain ⟨hlt, rfl⟩ := List.getElem?_eq_some_iff.mp hs
  refine ⟨?_, hcount, fun e he => ?_⟩
  · rw [List.get_eq_getElem, hrun, List.get_eq_getElem, hstart]
    rfl
  · rw [List.get_eq_getElem] at he
    rw [hend] at he
    split at he
    · cases he
    · rw [List.get_eq_getElem, hrun, List.getLast?_cons]
      cases hlast : later.getLast? with
      | none => simp [hlast] at he
      | some last => simpa [hlast] using he

theorem sum_checkCount {incidents : List Incident} (h : List.Forall₂ Reports spells incidents) :
    (incidents.map Incident.checkCount).sum = (spells.map fun s => s.run.length).sum := by
  induction h with
  | nil => rfl
  | cons hhead _ ih =>
    rw [List.map_cons, List.map_cons, List.sum_cons, List.sum_cons, hhead.checkCount, ih]

theorem disjoint_of_sorted
    (hsorted : observations.Pairwise fun o next => o.ts ≤ next.ts)
    (h : MaximalRuns Observation.bad observations spells rest) :
    (coalesceIncidents nowV7 targetId observations).Pairwise fun inc next =>
      inc.startedAt ≤ next.startedAt ∧ ∀ e, inc.endedAt = some e → e ≤ next.startedAt := by
  have hbad := hsorted.sublist (List.filter_sublist (p := Observation.bad))
  rw [← h.flatMap_run, List.pairwise_flatMap] at hbad
  obtain ⟨-, happart⟩ := hbad
  rw [List.pairwise_iff_getElem] at happart ⊢
  intro i j hi hj hij
  obtain ⟨s, o, later, hs, hrun, hstart, -, hend⟩ :=
    exists_spell h (List.getElem?_eq_getElem hi)
  obtain ⟨s', o', later', hs', hrun', hstart', -, -⟩ :=
    exists_spell h (List.getElem?_eq_getElem hj)
  obtain ⟨hi', rfl⟩ := List.getElem?_eq_some_iff.mp hs
  obtain ⟨hj', rfl⟩ := List.getElem?_eq_some_iff.mp hs'
  have horder := happart i j hi' hj' hij
  rw [hstart, hstart']
  refine ⟨horder o (by simp [hrun]) o' (by simp [hrun']), fun e he => ?_⟩
  rw [hend] at he
  split at he
  · cases he
  · obtain ⟨last, hlast, rfl⟩ := Option.map_eq_some_iff.mp he
    exact horder last (by simp [hrun, List.mem_of_getLast? hlast]) o' (by simp [hrun'])

theorem endedAt_eq_none_iff (h : MaximalRuns Observation.bad observations spells rest)
    {s : Spell Observation} (hs : spells[i]? = some s)
    (hi : (coalesceIncidents nowV7 targetId observations)[i]? = some inc) :
    inc.endedAt = none ↔ (i + 1 = spells.length ∧ rest = []) ∨ s.run.length = 1 := by
  obtain ⟨s', o, later, hs', hrun, -, -, hend⟩ := exists_spell h hi
  obtain rfl := Option.some.inj (hs.symm.trans hs')
  rw [hend, hrun, List.length_cons]
  split
  · next htrailing => simp [htrailing]
  · next hover =>
    rw [Option.map_eq_none_iff, List.getLast?_eq_none_iff, or_iff_right hover]
    constructor
    · rintro rfl
      rfl
    · intro hlen
      exact List.eq_nil_of_length_eq_zero (by omega)

/-- Every bad check is in the incident of its maximal run, and only the end of the incidents
is at stake: the stream is reported as it was exactly when each bad run that is over has at
least two checks. -/
theorem coalesceIncidents_partitions_iff (nowV7 : Nat → Uuid) (targetId : Uuid)
    (observations : List Observation)
    (hsorted : observations.Pairwise fun o next => o.ts ≤ next.ts) :
    Partitions observations (coalesceIncidents nowV7 targetId observations) ↔
      Lasting observations := by
  constructor
  · intro hpart spells rest h i s hs
    by_cases htrailing : i + 1 = spells.length ∧ rest = []
    · exact Or.inl htrailing
    · have hlt : i < (coalesceIncidents nowV7 targetId observations).length := by
        rw [length_coalesceIncidents h]
        exact (List.getElem?_eq_some_iff.mp hs).1
      have hi := List.getElem?_eq_getElem hlt
      have hne : s.run.length ≠ 1 := by
        intro hone
        apply htrailing
        exact (hpart.ongoing spells rest h i _ hi).mp
          ((endedAt_eq_none_iff h hs hi).mpr (Or.inr hone))
      have hpos := List.length_pos_iff.mpr (h.runs s (List.mem_of_getElem? hs)).1
      exact Or.inr (by omega)
  · intro hlasting
    refine ⟨fun _ _ h => reports h, ?_, ?_, fun spells rest h i inc hi => ?_⟩
    · obtain ⟨spells, rest, h⟩ := exists_maximalRuns Observation.bad observations
      exact disjoint_of_sorted hsorted h
    · obtain ⟨spells, rest, h⟩ := exists_maximalRuns Observation.bad observations
      rw [← h.sum_length_run]
      exact sum_checkCount (reports h)
    · obtain ⟨s, _, _, hs, -⟩ := exists_spell h hi
      rw [endedAt_eq_none_iff h hs hi]
      rcases hlasting spells rest h i s hs with htrailing | htwo
      · simp [htrailing]
      · exact or_iff_left (by omega)

end

/-! ## One failed check -/

namespace One

def failed (ts : Instant) : Observation := ⟨ts, .down, some "connection refused"⟩

def good (ts : Instant) : Observation := ⟨ts, .up, none⟩

/-- A check fails and the next one, a minute later, does not. -/
def blip : List Observation := [failed (Instant.ofSeconds 0), good (Instant.ofSeconds 60)]

/-- Two checks fail before one does not. -/
def outage : List Observation :=
  [failed (Instant.ofSeconds 0), failed (Instant.ofSeconds 60), good (Instant.ofSeconds 120)]

theorem coalesceIncidents_partitions_iff_outage :
    Partitions outage (coalesceIncidents id 7 outage) ↔ Lasting outage :=
  coalesceIncidents_partitions_iff id 7 outage (by decide)

theorem blip_runs :
    MaximalRuns Observation.bad blip [⟨[], [failed (Instant.ofSeconds 0)]⟩]
      [good (Instant.ofSeconds 60)] where
  split := rfl
  gaps := by simp
  runs := by simp [failed, Observation.bad]
  apart := by simp
  rest := by simp [good, Observation.bad]

/-- The outage is over, and its incident has no end. -/
theorem blip_never_ends : ¬ Partitions blip (coalesceIncidents id 7 blip) := by
  intro h
  have hnone := (h.ongoing _ _ blip_runs 0
    (newIncident 0 7 (failed (Instant.ofSeconds 0))) rfl).mp rfl
  exact List.cons_ne_nil _ _ hnone.2

end One

end Uptimepage.Narration

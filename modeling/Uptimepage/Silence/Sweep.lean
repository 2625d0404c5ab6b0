import Mathlib.Data.List.Dedup
import Uptimepage.Async.Run
import Uptimepage.Domain.Incident
import Uptimepage.Store.Table

/-!
# No-data notices

`observability/silence.rs` and `storage/silence.rs`: one sweep diffs the monitors without
a live probe against the silences recorded as open, enters the new ones, resolves the
recovered ones and tells the customers.  While more than a quarter of the fleet is silent
the sweep counts as a mass outage and sends nothing.
-/

namespace Uptimepage

open Async

/-- A target with its org; a trigger keeps the org of a silence row its target's. -/
abbrev Monitor := OrgId × Uuid

structure SilenceRow where
  monitor : Monitor
  silentSince : Time
  notifiedAt : Option Time
  resolvedAt : Option Time
deriving DecidableEq

structure OpenSilence where
  monitor : Monitor
  notified : Bool
deriving DecidableEq

namespace SilenceStore

def listOpen (rows : List SilenceRow) : List OpenSilence :=
  (rows.filter (·.resolvedAt.isNone)).map fun r =>
    { monitor := r.monitor, notified := r.notifiedAt.isSome }

/-- An open silence is left as it is; a resolved one starts over. -/
def enter (now : Time) (m : Monitor) (rows : List SilenceRow) : List SilenceRow :=
  if rows.any (·.monitor = m) then
    Table.update (fun r => r.monitor = m && r.resolvedAt.isSome)
      (fun r => { r with silentSince := now, notifiedAt := none, resolvedAt := none }) rows
  else rows ++ [{ monitor := m, silentSince := now, notifiedAt := none, resolvedAt := none }]

def markNotified (now : Time) (m : Monitor) (rows : List SilenceRow) : List SilenceRow :=
  Table.update (fun r => r.monitor = m && r.resolvedAt.isNone && r.notifiedAt.isNone)
    (fun r => { r with notifiedAt := some now }) rows

/-- Whether this call flipped the row, and the rows. -/
def resolve (now : Time) (m : Monitor) (rows : List SilenceRow) : Bool × List SilenceRow :=
  (rows.any fun r => r.monitor = m && r.resolvedAt.isNone,
    Table.update (fun r => r.monitor = m && r.resolvedAt.isNone)
      (fun r => { r with resolvedAt := some now }) rows)

end SilenceStore

/-- What happened to one monitor: `told` and `resumed` are the notices its channels got,
`ended` is the recovery of a silence they had been told of, in a sweep that was or was not
classed as a mass outage. -/
inductive SilenceEvent
  | told
  | ended (mass : Bool)
  | resumed
deriving DecidableEq

/-- The store, and what happened so far. -/
structure Silence where
  rows : List SilenceRow
  log : List (Monitor × SilenceEvent)
deriving DecidableEq

/-- What one sweep finds.  `delivery` is what each notice would come to. -/
structure SweepEnv where
  now : Time
  unmonitored : List Monitor
  enabledTargetCount : Int
  delivery : Option (Monitor → NotificationReason → Bool)

/-- More than `MAX_SILENCE_FRACTION`, a quarter, of the enabled monitors. -/
def SweepEnv.mass (env : SweepEnv) : Bool :=
  let unmonitored := env.unmonitored.dedup
  if unmonitored = [] then false
  else
    let total := max env.enabledTargetCount 0
    0 < total && total < 4 * unmonitored.length

/-- Every delivery succeeds. -/
def SweepEnv.Delivers (env : SweepEnv) : Prop :=
  ∃ notify, env.delivery = some notify ∧ ∀ m reason, notify m reason = true

namespace Silence

def start : Silence where
  rows := []
  log := []

def record (s : Silence) (m : Monitor) (e : SilenceEvent) : Silence :=
  { s with log := s.log ++ [(m, e)] }

/-- The `unmonitored.difference(&open_ids)` loop, one turn. -/
def enterOne (env : SweepEnv) (s : Silence) (m : Monitor) : Silence :=
  { s with rows := SilenceStore.enter env.now m s.rows }

/-- The loop over the open silences, one turn. -/
def recover (env : SweepEnv) (s : Silence) (o : OpenSilence) : Silence :=
  if o.monitor ∈ env.unmonitored then s
  else
    let (flipped, rows) := SilenceStore.resolve env.now o.monitor s.rows
    let s := { s with rows := rows }
    if flipped && o.notified then
      let s := s.record o.monitor (.ended env.mass)
      match env.delivery with
      | some notify =>
        if !env.mass && notify o.monitor .dataResumed then s.record o.monitor .resumed else s
      | none => s
    else s

/-- The loop that tells the customers, one turn. -/
def announce (env : SweepEnv) (notify : Monitor → NotificationReason → Bool) (s : Silence)
    (o : OpenSilence) : Silence :=
  if !o.notified && notify o.monitor .noData then
    let s := s.record o.monitor .told
    { s with rows := SilenceStore.markNotified env.now o.monitor s.rows }
  else s

/-- The state diff: the newly silent are entered, the recovered resolved. -/
def diff (env : SweepEnv) (s : Silence) : Silence :=
  let openNow := SilenceStore.listOpen s.rows
  let openIds := openNow.map (·.monitor)
  openNow.foldl (recover env)
    ((env.unmonitored.dedup.filter (· ∉ openIds)).foldl (enterOne env) s)

/-- The no-data notices. -/
def tell (env : SweepEnv) (s : Silence) : Silence :=
  if env.mass then s
  else
    match env.delivery with
    | some notify => (SilenceStore.listOpen s.rows).foldl (announce env notify) s
    | none => s

def sweep (env : SweepEnv) (s : Silence) : Silence := tell env (diff env s)

def step (s : Silence) (env : SweepEnv) : Option Silence := some (sweep env s)

/-- What happened to one monitor. -/
def history (s : Silence) (m : Monitor) : List SilenceEvent :=
  (s.log.filter (·.1 = m)).map Prod.snd

def notices (h : List SilenceEvent) : List NotificationReason :=
  h.filterMap fun
    | .told => some .noData
    | .resumed => some .dataResumed
    | .ended _ => none

end Silence

/-! ## The store, seen from one monitor -/

namespace SilenceStore

variable {now : Time} {m x : Monitor} {rows : List SilenceRow}

/-- One row a monitor: `target_id` is the primary key. -/
def Keyed (rows : List SilenceRow) : Prop := (rows.map (·.monitor)).Nodup

def row (m : Monitor) (rows : List SilenceRow) : Option SilenceRow :=
  rows.find? (·.monitor = m)

/-- What `enter` makes of the monitor's row. -/
def entered (now : Time) (m : Monitor) : Option SilenceRow → SilenceRow
  | none => { monitor := m, silentSince := now, notifiedAt := none, resolvedAt := none }
  | some r =>
    if r.resolvedAt.isSome then
      { r with silentSince := now, notifiedAt := none, resolvedAt := none }
    else r

theorem row_monitor {r : SilenceRow} (h : row m rows = some r) : r.monitor = m := by
  simpa using List.find?_some h

variable {p : SilenceRow → Bool} {f : SilenceRow → SilenceRow}

theorem row_update (hf : ∀ r, (f r).monitor = r.monitor) (m : Monitor) (rows : List SilenceRow) :
    row m (Table.update p f rows) = (row m rows).map fun r => if p r then f r else r := by
  refine Table.find?_update (fun r => ?_) rows
  rw [hf]

theorem row_update_other (hf : ∀ r, (f r).monitor = r.monitor)
    (hp : ∀ r, r.monitor = m → p r = false) (rows : List SilenceRow) :
    row m (Table.update p f rows) = row m rows := by
  refine Table.find?_update_of_disjoint (fun r => ?_) (fun r hr => ?_) rows
  · rw [hf]
  · exact hp r (by simpa using hr)

theorem keyed_update (hf : ∀ r, (f r).monitor = r.monitor) (h : Keyed rows) :
    Keyed (Table.update p f rows) := by
  rwa [Keyed, Table.map_update hf]

theorem row_enter_self : row m (enter now m rows) = some (entered now m (row m rows)) := by
  unfold enter
  split
  · next hany =>
    rw [row_update (by intro r; rfl)]
    cases hrow : row m rows with
    | none =>
      rw [row, List.find?_eq_none] at hrow
      obtain ⟨r, hr, hm⟩ := List.any_eq_true.mp hany
      exact absurd hm (hrow r hr)
    | some r =>
      have hm : r.monitor = m := row_monitor hrow
      simp [entered, hm]
  · next hany =>
    have hnone : row m rows = none := by
      rw [row, List.find?_eq_none]
      intro r hr hm
      exact hany (List.any_eq_true.mpr ⟨r, hr, hm⟩)
    rw [hnone, row, List.find?_append]
    rw [row] at hnone
    simp [hnone, entered]

theorem row_enter_other (hx : x ≠ m) : row m (enter now x rows) = row m rows := by
  unfold enter
  split
  · refine row_update_other (by intro r; rfl) (fun r hm => ?_) rows
    simp [hm, hx.symm]
  · rw [row, List.find?_append]
    simp [row, hx]

theorem row_resolve_self :
    row m (resolve now m rows).2 =
      (row m rows).map fun r => if r.resolvedAt.isNone then { r with resolvedAt := some now } else r := by
  rw [resolve, row_update (by intro r; rfl)]
  cases hrow : row m rows with
  | none => rfl
  | some r =>
    have hm : r.monitor = m := row_monitor hrow
    simp [hm]

theorem row_resolve_other (hx : x ≠ m) : row m (resolve now x rows).2 = row m rows := by
  refine row_update_other (by intro r; rfl) (fun r hm => ?_) rows
  simp [hm, hx.symm]

theorem row_markNotified_self :
    row m (markNotified now m rows) =
      (row m rows).map fun r =>
        if r.resolvedAt.isNone && r.notifiedAt.isNone then { r with notifiedAt := some now }
        else r := by
  rw [markNotified, row_update (by intro r; rfl)]
  cases hrow : row m rows with
  | none => rfl
  | some r =>
    have hm : r.monitor = m := row_monitor hrow
    simp [hm]

theorem row_markNotified_other (hx : x ≠ m) :
    row m (markNotified now x rows) = row m rows := by
  refine row_update_other (by intro r; rfl) (fun r hm => ?_) rows
  simp [hm, hx.symm]

theorem keyed_enter (h : Keyed rows) : Keyed (enter now m rows) := by
  unfold enter
  split
  · exact keyed_update (by intro r; rfl) h
  · next hany =>
    rw [Keyed, List.map_append, List.nodup_append']
    refine ⟨h, List.nodup_singleton _, fun m' hold hnew => hany ?_⟩
    obtain ⟨r, hr, rfl⟩ := List.mem_map.mp hold
    exact List.any_eq_true.mpr ⟨r, hr, by simpa using hnew⟩

theorem keyed_resolve (h : Keyed rows) : Keyed (resolve now m rows).2 :=
  keyed_update (by intro r; rfl) h

theorem keyed_markNotified (h : Keyed rows) : Keyed (markNotified now m rows) :=
  keyed_update (by intro r; rfl) h

/-- The monitor's open silence, if it has one. -/
def openOf : Option SilenceRow → Option OpenSilence
  | none => none
  | some r =>
    if r.resolvedAt.isNone then some { monitor := r.monitor, notified := r.notifiedAt.isSome }
    else none

theorem nodup_listOpen (h : Keyed rows) : ((listOpen rows).map (·.monitor)).Nodup := by
  have hsub : ((listOpen rows).map (·.monitor)).Sublist (rows.map (·.monitor)) := by
    rw [listOpen, List.map_map]
    exact List.filter_sublist.map _
  exact h.sublist hsub

theorem find?_listOpen (h : Keyed rows) (m : Monitor) :
    (listOpen rows).find? (·.monitor = m) = openOf (row m rows) := by
  induction rows with
  | nil => rfl
  | cons r rest ih =>
    rw [Keyed, List.map_cons, List.nodup_cons] at h
    have ih := ih h.2
    by_cases hm : r.monitor = m
    · have hrow : row m (r :: rest) = some r := by simp [row, hm]
      have hnone : row m rest = none := by
        rw [row, List.find?_eq_none]
        intro r' hr' hm'
        have hm' : r'.monitor = m := by simpa using hm'
        exact h.1 (hm ▸ hm' ▸ List.mem_map_of_mem hr')
      rw [hnone] at ih
      rw [hrow, openOf]
      unfold listOpen at ih ⊢
      rw [List.filter_cons]
      split
      · simp [hm]
      · exact ih
    · have hrow : row m (r :: rest) = row m rest := by simp [row, hm]
      rw [hrow, ← ih]
      unfold listOpen
      rw [List.filter_cons]
      split
      · simp [hm]
      · rfl

theorem resolve_flipped (now : Time) (h : Keyed rows) (m : Monitor) :
    (resolve now m rows).1 = (openOf (row m rows)).isSome := by
  rw [← find?_listOpen h, Bool.eq_iff_iff, List.find?_isSome]
  simp only [resolve, List.any_eq_true, listOpen, decide_eq_true_eq, List.mem_map, List.mem_filter]
  constructor
  · rintro ⟨r, hr, hm⟩
    rw [Bool.and_eq_true, decide_eq_true_eq] at hm
    exact ⟨_, ⟨r, ⟨hr, hm.2⟩, rfl⟩, hm.1⟩
  · rintro ⟨_, ⟨r, ⟨hr, hopen⟩, rfl⟩, hm⟩
    exact ⟨r, hr, by rw [hopen, Bool.and_true]; exact decide_eq_true hm⟩

end SilenceStore

/-! ## One sweep, seen from one monitor -/

namespace Silence

open SilenceStore

variable {env : SweepEnv} {s : Silence} {m : Monitor}

/-- What a monitor can see: its row and its history. -/
def view (m : Monitor) (s : Silence) : Option SilenceRow × List SilenceEvent :=
  (row m s.rows, s.history m)

theorem history_record_self (s : Silence) (m : Monitor) (e : SilenceEvent) :
    (s.record m e).history m = s.history m ++ [e] := by
  simp [history, record]

variable {x : Monitor}

theorem history_record_other (hx : x ≠ m) (s : Silence) (e : SilenceEvent) :
    (s.record x e).history m = s.history m := by
  simp [history, record, hx]

/-- A turn of the first loop. -/
def enterView (env : SweepEnv) (m : Monitor) (v : Option SilenceRow × List SilenceEvent) :
    Option SilenceRow × List SilenceEvent :=
  (some (entered env.now m v.1), v.2)

/-- A turn of the second loop, for the silence `o` of the monitor. -/
def recoverView (env : SweepEnv) (o : OpenSilence) (v : Option SilenceRow × List SilenceEvent) :
    Option SilenceRow × List SilenceEvent :=
  if o.monitor ∈ env.unmonitored then v
  else
    (v.1.map fun r => if r.resolvedAt.isNone then { r with resolvedAt := some env.now } else r,
      if (openOf v.1).isSome && o.notified then
        match env.delivery with
        | some notify =>
          if !env.mass && notify o.monitor .dataResumed then v.2 ++ [.ended env.mass, .resumed]
          else v.2 ++ [.ended env.mass]
        | none => v.2 ++ [.ended env.mass]
      else v.2)

/-- A turn of the third loop. -/
def announceView (env : SweepEnv) (notify : Monitor → NotificationReason → Bool)
    (o : OpenSilence) (v : Option SilenceRow × List SilenceEvent) :
    Option SilenceRow × List SilenceEvent :=
  if !o.notified && notify o.monitor .noData then
    (v.1.map fun r =>
      if r.resolvedAt.isNone && r.notifiedAt.isNone then { r with notifiedAt := some env.now }
      else r, v.2 ++ [.told])
  else v

theorem view_enterOne (s : Silence) : view m (enterOne env s m) = enterView env m (view m s) := by
  simp only [view, enterOne, enterView, row_enter_self]
  rfl

theorem view_enterOne_other (hx : x ≠ m) (s : Silence) : view m (enterOne env s x) = view m s := by
  simp only [view, enterOne, row_enter_other hx]
  rfl

variable {o : OpenSilence} {notify : Monitor → NotificationReason → Bool}

theorem recover_keyed (h : Keyed s.rows) : Keyed (recover env s o).rows := by
  unfold recover
  split
  · exact h
  · have hrows : Keyed (resolve env.now o.monitor s.rows).2 := keyed_resolve h
    simp only
    split
    · split
      · split
        · exact hrows
        · exact hrows
      · exact hrows
    · exact hrows

theorem view_recover (h : Keyed s.rows) (ho : o.monitor = m) :
    view m (recover env s o) = recoverView env o (view m s) := by
  subst ho
  unfold recover recoverView
  split
  · rfl
  · simp only [view, resolve_flipped env.now h]
    by_cases hb : ((openOf (row o.monitor s.rows)).isSome && o.notified) = true
    · simp only [hb, if_true]
      split
      · split
        · rw [history_record_self, history_record_self, List.append_assoc]
          exact Prod.ext row_resolve_self rfl
        · rw [history_record_self]
          exact Prod.ext row_resolve_self rfl
      · rw [history_record_self]
        exact Prod.ext row_resolve_self rfl
    · simp only [hb]
      exact Prod.ext row_resolve_self rfl

theorem view_recover_other (hx : o.monitor ≠ m) : view m (recover env s o) = view m s := by
  unfold recover
  split
  · rfl
  · simp only [view]
    split
    · split
      · split
        · rw [history_record_other hx, history_record_other hx]
          exact Prod.ext (row_resolve_other hx) rfl
        · rw [history_record_other hx]
          exact Prod.ext (row_resolve_other hx) rfl
      · rw [history_record_other hx]
        exact Prod.ext (row_resolve_other hx) rfl
    · exact Prod.ext (row_resolve_other hx) rfl

theorem announce_keyed (h : Keyed s.rows) : Keyed (announce env notify s o).rows := by
  unfold announce
  split
  · exact keyed_markNotified h
  · exact h

theorem view_announce (ho : o.monitor = m) :
    view m (announce env notify s o) = announceView env notify o (view m s) := by
  subst ho
  unfold announce announceView
  split
  · exact Prod.ext row_markNotified_self (history_record_self s o.monitor .told)
  · rfl

theorem view_announce_other (hx : o.monitor ≠ m) : view m (announce env notify s o) = view m s := by
  unfold announce
  split
  · exact Prod.ext (row_markNotified_other hx) (history_record_other hx s .told)
  · rfl

theorem find?_eq_self (m : Monitor) (l : List Monitor) :
    l.find? (fun x => id x = m) = if m ∈ l then some m else none := by
  induction l with
  | nil => rfl
  | cons x l ih =>
    rw [List.find?_cons]
    by_cases hx : x = m
    · simp [hx]
    · have hx' : m ≠ x := fun h => hx h.symm
      simp only [id_eq, hx, decide_false, List.mem_cons, hx', false_or]
      exact ih

/-- What the state diff does to one monitor. -/
def diffView (env : SweepEnv) (m : Monitor) (v : Option SilenceRow × List SilenceEvent) :
    Option SilenceRow × List SilenceEvent :=
  match openOf v.1 with
  | some o => recoverView env o v
  | none => if m ∈ env.unmonitored then enterView env m v else v

/-- What the notices do to one monitor. -/
def tellView (env : SweepEnv) (v : Option SilenceRow × List SilenceEvent) :
    Option SilenceRow × List SilenceEvent :=
  if env.mass then v
  else
    match env.delivery, openOf v.1 with
    | some notify, some o => announceView env notify o v
    | _, _ => v

theorem view_diff (h : Keyed s.rows) :
    Keyed (diff env s).rows ∧ view m (diff env s) = diffView env m (view m s) := by
  let openIds := (listOpen s.rows).map (·.monitor)
  let new := env.unmonitored.dedup.filter (· ∉ openIds)
  have hnew : (new.map id).Nodup := by
    rw [List.map_id]
    exact (List.nodup_dedup _).filter _
  obtain ⟨hkeyed₁, hview₁⟩ := Table.foldl_view (fun s => Keyed s.rows) id m (view m)
    (fun _ => enterView env m) (f := enterOne env) (fun s x hs => keyed_enter hs)
    (fun s x _ hx => view_enterOne_other hx s)
    (fun s x _ hx => by rw [show x = m from hx]; exact view_enterOne s) hnew h
  obtain ⟨hkeyed₂, hview₂⟩ := Table.foldl_view (fun s => Keyed s.rows) OpenSilence.monitor m
    (view m) (recoverView env) (f := recover env) (fun s o hs => recover_keyed hs)
    (fun s o _ hx => view_recover_other hx) (fun s o hs ho => view_recover hs ho)
    (nodup_listOpen h) hkeyed₁
  refine ⟨hkeyed₂, hview₂.trans ?_⟩
  -- the monitor has a turn in the second loop when its silence was open, and else one in
  -- the first when it is unmonitored
  have hmem : m ∈ openIds ↔ openOf (row m s.rows) ≠ none := by
    rw [← find?_listOpen h, ne_eq, List.find?_eq_none]
    simp [openIds]
  have hnewMem : m ∈ new ↔ m ∈ env.unmonitored ∧ openOf (row m s.rows) = none := by
    simp only [new, List.mem_filter, List.mem_dedup, decide_eq_true_eq, hmem, not_not]
  rw [find?_eq_self] at hview₁
  rw [find?_listOpen h, hview₁]
  have hfst : (view m s).1 = row m s.rows := rfl
  rw [diffView, hfst]
  cases hopen : openOf (row m s.rows) with
  | some o =>
    have hm : m ∉ new := by
      rw [hnewMem, hopen]
      rintro ⟨-, hnone⟩
      cases hnone
    rw [if_neg hm]
  | none =>
    by_cases hun : m ∈ env.unmonitored
    · rw [if_pos (hnewMem.mpr ⟨hun, hopen⟩)]
      simp [hun]
    · rw [if_neg fun hm => hun (hnewMem.mp hm).1]
      simp [hun]

theorem view_tell (h : Keyed s.rows) :
    Keyed (tell env s).rows ∧ view m (tell env s) = tellView env (view m s) := by
  unfold tell tellView
  split
  · exact ⟨h, rfl⟩
  · cases env.delivery with
    | none => exact ⟨h, rfl⟩
    | some notify =>
      obtain ⟨hkeyed, hview⟩ := Table.foldl_view (fun s => Keyed s.rows) OpenSilence.monitor m
        (view m) (announceView env notify) (f := announce env notify)
        (fun s o hs => announce_keyed hs) (fun s o _ hx => view_announce_other hx)
        (fun s o _ ho => view_announce ho) (nodup_listOpen h) h
      refine ⟨hkeyed, hview.trans ?_⟩
      rw [find?_listOpen h]
      have hfst : (view m s).1 = row m s.rows := rfl
      rw [hfst]
      cases openOf (row m s.rows) <;> rfl

/-! ## The notices of one monitor -/

/-- What can have happened to a monitor, and whether its channels were told of the silence
it is in. -/
inductive History : List SilenceEvent → Bool → Prop
  | nothing : History [] false
  | told {h} : History h false → History (h ++ [.told]) true
  | resumed {h} : History h true → History (h ++ [.ended false, .resumed]) false
  | suppressed {h} : History h true → History (h ++ [.ended true]) false

theorem History.alternates {h : List SilenceEvent} {b : Bool} (hist : History h b)
    (hmass : .ended true ∉ h) :
    (notices h).length % 2 = (if b then 1 else 0) ∧
      ∀ i reason, (notices h)[i]? = some reason →
        reason = if i % 2 = 0 then .noData else .dataResumed := by
  induction hist with
  | nothing => exact ⟨rfl, fun i reason hi => by simp [notices] at hi⟩
  | @told h _ ih =>
    obtain ⟨hlen, hall⟩ := ih fun hmem => hmass (List.mem_append_left _ hmem)
    have hnotices : notices (h ++ [.told]) = notices h ++ [.noData] := by simp [notices]
    rw [hnotices]
    refine ⟨by simp at hlen ⊢; omega, fun i reason hi => ?_⟩
    rw [List.getElem?_append] at hi
    split at hi
    · exact hall i reason hi
    · next hge =>
      obtain ⟨hlt, hi⟩ := List.getElem?_eq_some_iff.mp hi
      have hlast : i = (notices h).length := by
        simp only [List.length_singleton] at hlt
        omega
      simp only [Bool.false_eq_true, if_false] at hlen
      simp only [List.getElem_singleton] at hi
      rw [hlast, if_pos hlen, ← hi]
  | @resumed h _ ih =>
    obtain ⟨hlen, hall⟩ := ih fun hmem => hmass (List.mem_append_left _ hmem)
    have hnotices : notices (h ++ [.ended false, .resumed]) = notices h ++ [.dataResumed] := by
      simp [notices]
    rw [hnotices]
    refine ⟨by simp at hlen ⊢; omega, fun i reason hi => ?_⟩
    rw [List.getElem?_append] at hi
    split at hi
    · exact hall i reason hi
    · next hge =>
      obtain ⟨hlt, hi⟩ := List.getElem?_eq_some_iff.mp hi
      have hlast : i = (notices h).length := by
        simp only [List.length_singleton] at hlt
        omega
      simp only [if_true] at hlen
      simp only [List.getElem_singleton] at hi
      rw [hlast, if_neg (by omega), ← hi]
  | suppressed _ _ => exact absurd (List.mem_append_right _ List.mem_cons_self) hmass

/-- Whether the row is an open silence the channels were told of. -/
def told (r : Option SilenceRow) : Bool := (openOf r).any (·.notified)

theorem openOf_monitor {r : SilenceRow} (h : openOf (some r) = some o) :
    o = { monitor := r.monitor, notified := r.notifiedAt.isSome } ∧ r.resolvedAt.isNone = true := by
  simp only [openOf] at h
  split at h
  · next hopen =>
    cases h
    exact ⟨rfl, hopen⟩
  · cases h

variable {v : Option SilenceRow × List SilenceEvent}

theorem diffView_history (henv : env.Delivers) (h : History v.2 (told v.1)) :
    History (diffView env m v).2 (told (diffView env m v).1) := by
  obtain ⟨notify, hnotify, hall⟩ := henv
  obtain ⟨r, hist⟩ := v
  unfold diffView
  cases hopen : openOf r with
  | none =>
    have hquiet : told r = false := by simp [told, hopen]
    simp only at h ⊢
    split
    · -- a fresh silence has not been announced
      rw [hquiet] at h
      have hfresh : told (some (entered env.now m r)) = false := by
        cases r with
        | none => rfl
        | some r =>
          simp only [openOf] at hopen
          split at hopen
          · cases hopen
          · next hres =>
            have hsome : r.resolvedAt.isSome = true := by
              cases hr : r.resolvedAt with
              | none => simp [hr] at hres
              | some t => rfl
            simp [entered, hsome, told, openOf]
      simpa only [enterView, hfresh] using h
    · exact h
  | some o =>
    cases r with
    | none => cases hopen
    | some r =>
      obtain ⟨rfl, hunresolved⟩ := openOf_monitor hopen
      simp only [recoverView] at h ⊢
      split
      · exact h
      · have hclosed : told (some { r with resolvedAt := some env.now }) = false := rfl
        simp only [Option.map_some, hunresolved, if_true, hclosed, hopen, Option.isSome_some,
          Bool.true_and, hnotify, hall, Bool.and_true]
        have htold : told (some r) = r.notifiedAt.isSome := by simp [told, hopen]
        rw [htold] at h
        cases hn : r.notifiedAt.isSome with
        | false =>
          rw [hn] at h
          simpa using h
        | true =>
          rw [hn] at h
          cases hmass : env.mass with
          | true => simpa using h.suppressed
          | false => simpa using h.resumed

theorem tellView_history (henv : env.Delivers) (h : History v.2 (told v.1)) :
    History (tellView env v).2 (told (tellView env v).1) := by
  obtain ⟨notify, hnotify, hall⟩ := henv
  obtain ⟨r, hist⟩ := v
  unfold tellView
  split
  · exact h
  · rw [hnotify]
    cases hopen : openOf r with
    | none => exact h
    | some o =>
      cases r with
      | none => cases hopen
      | some r =>
        obtain ⟨rfl, hunresolved⟩ := openOf_monitor hopen
        have htold : told (some r) = r.notifiedAt.isSome := by simp [told, hopen]
        simp only [announceView, hall, Bool.and_true] at h ⊢
        rw [htold] at h
        cases hn : r.notifiedAt with
        | some t => simpa [hn, htold] using h
        | none =>
          rw [hn] at h
          have hmarked : told (some { r with notifiedAt := some env.now }) = true := by
            simp [told, openOf, hunresolved]
          simp only [hunresolved, hn, Option.map_some, Option.isSome_none, Option.isNone_none,
            Bool.and_true, Bool.not_false, if_true, hmarked]
          exact h.told

theorem keyed_sweep (h : Keyed s.rows) : Keyed (sweep env s).rows :=
  (view_tell (view_diff h (m := (0, 0))).1 (m := (0, 0))).1

variable (env) in
theorem view_sweep (h : Keyed s.rows) (m : Monitor) :
    view m (sweep env s) = tellView env (diffView env m (view m s)) := by
  obtain ⟨hkeyed₁, hview₁⟩ := view_diff h (m := m)
  obtain ⟨-, hview₂⟩ := view_tell hkeyed₁ (m := m)
  exact hview₂.trans (congrArg (tellView env) hview₁)

theorem sweep_monitored (henv : env.Delivers) (h : Keyed s.rows) (hm : m ∉ env.unmonitored) :
    openOf (row m (sweep env s).rows) = none ∧
      (sweep env s).history m = s.history m ++
        if told (row m s.rows) then .ended env.mass :: if env.mass then [] else [.resumed]
        else [] := by
  obtain ⟨notify, hnotify, hall⟩ := henv
  have hclosed : ∀ v, openOf v.1 = none → tellView env v = v := by
    intro v hnone
    unfold tellView
    rw [hnone]
    split
    · rfl
    · split
      · next hsome => cases hsome
      · rfl
  have hview := view_sweep env h m
  suffices hdiff : openOf (diffView env m (view m s)).1 = none ∧
      (diffView env m (view m s)).2 = s.history m ++
        if told (row m s.rows) then .ended env.mass :: if env.mass then [] else [.resumed]
        else [] by
    rw [hclosed _ hdiff.1] at hview
    exact ⟨(congrArg (openOf ∘ Prod.fst) hview).trans hdiff.1,
      (congrArg Prod.snd hview).trans hdiff.2⟩
  have hfst : (view m s).1 = row m s.rows := rfl
  unfold diffView told
  rw [hfst]
  cases hrow : row m s.rows with
  | none => simp [openOf, hm, hrow, view]
  | some r =>
    cases hopen : openOf (some r) with
    | none => simp [hm, hrow, hopen, view]
    | some o =>
      obtain ⟨rfl, hunresolved⟩ := openOf_monitor hopen
      simp only [recoverView, row_monitor hrow, hm, if_false, hfst, hrow, Option.map_some,
        hunresolved, if_true, hopen, Option.isSome_some, Bool.true_and, hnotify, hall, Bool.and_true,
        Option.any_some]
      refine ⟨rfl, ?_⟩
      cases r.notifiedAt.isSome <;> cases env.mass <;> simp [view]

theorem sweep_unmonitored (henv : env.Delivers) (h : Keyed s.rows) (hm : m ∈ env.unmonitored) :
    (openOf (row m (sweep env s).rows)).isSome = true ∧
      (sweep env s).history m = s.history m ++
        if told (row m s.rows) || env.mass then [] else [.told] := by
  obtain ⟨notify, hnotify, hall⟩ := henv
  obtain ⟨r, hopen, hdiff, htold⟩ : ∃ r, (openOf (some r)).isSome = true ∧
      diffView env m (view m s) = (some r, s.history m) ∧ told (some r) = told (row m s.rows) := by
    unfold diffView
    cases hopen : openOf (view m s).1 with
    | some o =>
      cases hrow : row m s.rows with
      | none =>
        rw [show (view m s).1 = row m s.rows from rfl, hrow] at hopen
        cases hopen
      | some r =>
        have hfst : (view m s).1 = some r := hrow
        rw [hfst] at hopen
        have ho : o.monitor = m := (openOf_monitor hopen).1 ▸ row_monitor hrow
        refine ⟨r, by rw [hopen]; rfl, ?_, rfl⟩
        simp only [recoverView, ho, hm, if_true]
        exact Prod.ext hfst rfl
    | none =>
      refine ⟨entered env.now m (row m s.rows), ?_, ?_, ?_⟩ <;>
        have hopen : openOf (row m s.rows) = none := hopen
      · cases hrow : row m s.rows with
        | none => rfl
        | some r => cases hres : r.resolvedAt <;> simp_all [openOf, entered]
      · simp only [hm, if_true]
        rfl
      · cases hrow : row m s.rows with
        | none => rfl
        | some r => cases hres : r.resolvedAt <;> simp_all [openOf, entered, told]
  have hview := view_sweep env h m
  rw [hdiff] at hview
  rw [← htold]
  obtain ⟨o, ho⟩ := Option.isSome_iff_exists.mp hopen
  obtain ⟨rfl, hunresolved⟩ := openOf_monitor ho
  have hrow := congrArg Prod.fst hview
  have hhistory := congrArg Prod.snd hview
  simp only [view, tellView, hnotify, ho, announceView, hall, Bool.and_true, Option.map_some,
    hunresolved, Bool.true_and] at hrow hhistory
  rw [hrow, hhistory]
  simp only [told, ho, Option.any_some]
  cases env.mass with
  | true => exact ⟨hopen, by simp⟩
  | false =>
    cases hn : r.notifiedAt with
    | some t => exact ⟨hopen, by simp⟩
    | none => exact ⟨by simp [openOf, hunresolved], by simp⟩

structure Sound (s : Silence) : Prop where
  keyed : Keyed s.rows
  history : ∀ m, History (s.history m) (told (row m s.rows))

theorem sound_sweep (henv : env.Delivers) (h : s.Sound) : (sweep env s).Sound := by
  refine ⟨keyed_sweep h.keyed, fun m => ?_⟩
  have hview := view_sweep env h.keyed m
  have hbefore : History (view m s).2 (told (view m s).1) := h.history m
  have hhist := tellView_history henv (diffView_history (m := m) henv hbefore)
  have hfst : row m (sweep env s).rows = _ := congrArg Prod.fst hview
  have hsnd : (sweep env s).history m = _ := congrArg Prod.snd hview
  rw [hfst, hsnd]
  exact hhist

theorem sound_start : start.Sound where
  keyed := List.nodup_nil
  history := fun _ => .nothing

/-- **No-data notices come in pairs**, but for a recovery seen in a mass sweep.  Along every
run of sweeps whose deliveries succeed, what happened to a monitor is a `History`: each
silence its channels were told of ends with one data-resumed notice, or in a mass sweep
with none; and as long as none of them ended in a mass sweep, the notices alternate.  The sweep
that finds the monitor probed again ends its silence; one that finds it without a probe leaves it
silent, and tells the channels of it if they were not told and the sweep is no mass sweep. -/
theorem silence_history (hrun : Run step (fun _ env => env.Delivers) start s)
    (m : Monitor) :
    History (s.history m) (told (row m s.rows)) ∧
      (.ended true ∉ s.history m → ∀ i reason, (notices (s.history m))[i]? = some reason →
        reason = if i % 2 = 0 then .noData else .dataResumed) ∧
      ∀ env : SweepEnv, env.Delivers →
        (m ∉ env.unmonitored → openOf (row m (sweep env s).rows) = none ∧
          (sweep env s).history m = s.history m ++
            if told (row m s.rows) then .ended env.mass :: if env.mass then [] else [.resumed]
            else []) ∧
        (m ∈ env.unmonitored → (openOf (row m (sweep env s).rows)).isSome = true ∧
          (sweep env s).history m = s.history m ++
            if told (row m s.rows) || env.mass then [] else [.told]) := by
  have hs : s.Sound := by
    refine hrun.invariant sound_start fun u env v hu henv hstep => ?_
    obtain rfl : sweep env u = v := Option.some.inj hstep
    exact sound_sweep henv hu
  exact ⟨hs.history m, fun hmass => ((hs.history m).alternates hmass).2, fun env henv =>
    ⟨fun hm => sweep_monitored henv hs.keyed hm, fun hm => sweep_unmonitored henv hs.keyed hm⟩⟩

namespace Sample

/-- A sweep of a fleet of ten. -/
def tenOf (unmonitored : List Monitor) : SweepEnv where
  now := 0
  unmonitored := unmonitored
  enabledTargetCount := 10
  delivery := some fun _ _ => true

theorem tenOf_delivers (unmonitored : List Monitor) : (tenOf unmonitored).Delivers :=
  ⟨_, rfl, fun _ _ => rfl⟩

end Sample

/-- One monitor goes silent and comes back. -/
theorem silence_history_recovered :
    ∃ s, Run step (fun _ env => env.Delivers) start s ∧
      History (s.history (1, 1)) true ∧
      (sweep (Sample.tenOf []) s).history (1, 1) = [.told, .ended false, .resumed] ∧
      openOf (row (1, 1) (sweep (Sample.tenOf []) s).rows) = none := by
  have hrun : Run step (fun _ env => env.Delivers) start (sweep (Sample.tenOf [(1, 1)]) start) :=
    .snoc .refl (Sample.tenOf_delivers _) rfl
  obtain ⟨hist, -, hnext⟩ := silence_history hrun (1, 1)
  obtain ⟨hclosed, hlog⟩ := (hnext (Sample.tenOf []) (Sample.tenOf_delivers _)).1 (by decide)
  exact ⟨_, hrun, hist, hlog, hclosed⟩

/-- The monitor comes back in the sweep in which three others of ten have gone silent, and
later goes silent again: its channels get two no-data notices in a row. -/
theorem resume_suppressed :
    ∃ s, Run step (fun _ env => env.Delivers) start s ∧
      notices (s.history (1, 1)) = [.noData, .noData] := by
  have hrun : Run step (fun _ env => env.Delivers) start
      (sweep (Sample.tenOf [(1, 1)]) (sweep (Sample.tenOf [(1, 2), (1, 3), (1, 4)])
        (sweep (Sample.tenOf [(1, 1)]) start))) :=
    .snoc (.snoc (.snoc .refl (Sample.tenOf_delivers _) rfl) (Sample.tenOf_delivers _) rfl)
      (Sample.tenOf_delivers _) rfl
  exact ⟨_, hrun, by decide⟩

end Silence

end Uptimepage

import Mathlib.Tactic.Common

/-!
# Runs of a labelled step function

A `Run` takes one enabled step after another, each meeting the guard `ok`.  `Run.invariant`
is the one induction over runs: what holds at the start and is kept by every guarded
step holds of every state reached.
-/

namespace Async

variable {State Label : Type} {step : State → Label → Option State}
  {ok : State → Label → Prop}

/-- Zero or more steps from `s` to `t`, each allowed by `ok` in the state it starts from. -/
inductive Run (step : State → Label → Option State) (ok : State → Label → Prop) (s : State) :
    State → Prop
  | refl : Run step ok s s
  | snoc {t u : State} {l : Label} : Run step ok s t → ok t l → step t l = some u → Run step ok s u

variable {I P : State → Prop} {s t : State} {ok' : State → Label → Prop}

theorem Run.invariant (h : Run step ok s t) (hs : I s)
    (hstep : ∀ u l v, I u → ok u l → step u l = some v → I v) : I t := by
  induction h with
  | refl => exact hs
  | snoc _ hok heq ih => exact hstep _ _ _ ih hok heq

theorem Run.mono (hok : ∀ u l, ok u l → ok' u l) (h : Run step ok s t) : Run step ok' s t := by
  induction h with
  | refl => exact .refl
  | snoc _ hl heq ih => exact .snoc ih (hok _ _ hl) heq

theorem Run.trans {u : State} (h₁ : Run step ok s t) (h₂ : Run step ok t u) : Run step ok s u := by
  induction h₂ with
  | refl => exact h₁
  | snoc _ hok heq ih => exact .snoc ih hok heq

/-- The run a list of labels makes, when each is enabled. -/
def steps (step : State → Label → Option State) : State → List Label → Option State
  | s, [] => some s
  | s, l :: ls =>
    match step s l with
    | none => none
    | some t => steps step t ls

variable {ls : List Label} {l : Label}

theorem Run.of_steps (h : steps step s ls = some t) : Run step (fun _ _ => True) s t := by
  induction ls generalizing s with
  | nil =>
    cases h
    exact .refl
  | cons l ls ih =>
    unfold steps at h
    split at h
    · cases h
    · next heq => exact .trans (.snoc .refl trivial heq) (ih h)

theorem Run.of_steps_allowed (h : steps step s ls = some t) (hok : ∀ l ∈ ls, ∀ u, ok u l) :
    Run step ok s t := by
  induction ls generalizing s with
  | nil =>
    cases h
    exact .refl
  | cons l ls ih =>
    unfold steps at h
    split at h
    · cases h
    · next heq =>
      have hrest := ih h fun l' hl' => hok l' (List.mem_cons_of_mem _ hl')
      exact .trans (.snoc .refl (hok l List.mem_cons_self _) heq) hrest

theorem exists_run_of_steps {P : State → Bool} (h : (steps step s ls).any P = true) :
    ∃ t, Run step (fun _ _ => True) s t ∧ P t = true := by
  cases heq : steps step s ls with
  | none => simp [heq] at h
  | some t => exact ⟨t, .of_steps heq, by simpa [heq] using h⟩

theorem exists_run_satisfying [DecidablePred P] (ls : List Label)
    (h : (steps step s ls).any (fun t => decide (P t)) = true) :
    ∃ t, Run step (fun _ _ => True) s t ∧ P t := by
  obtain ⟨t, hrun, ht⟩ := exists_run_of_steps h
  exact ⟨t, hrun, of_decide_eq_true ht⟩

theorem exists_runs_of_steps {P : State → State → State → Bool} {ls' : List Label}
    (h : (steps step s ls).any (fun t => (step t l).any fun u => (steps step u ls').any (P t u)) =
      true) :
    ∃ t u v, Run step (fun _ _ => True) s t ∧ step t l = some u ∧
      Run step (fun _ _ => True) u v ∧ P t u v = true := by
  obtain ⟨t, ht, h⟩ := (Option.any_eq_true _ _).mp h
  obtain ⟨u, hu, h⟩ := (Option.any_eq_true _ _).mp h
  obtain ⟨v, hv, h⟩ := (Option.any_eq_true _ _).mp h
  exact ⟨t, u, v, .of_steps ht, hu, .of_steps hv, h⟩

def guarded (step : State → Label → Option State) (allow : State → Label → Bool) (s : State)
    (l : Label) : Option State :=
  if allow s l then step s l else none

variable {allow : State → Label → Bool}

theorem guarded_eq_some :
    guarded step allow s l = some t ↔ allow s l = true ∧ step s l = some t := by
  unfold guarded
  split
  · next ha => exact ⟨fun h => ⟨ha, h⟩, fun h => h.2⟩
  · next ha => exact ⟨fun h => (nomatch h), fun h => absurd h.1 ha⟩

theorem Run.of_guarded (h : Run (guarded step allow) ok s t) :
    Run step (fun u l => ok u l ∧ allow u l = true) s t := by
  induction h with
  | refl => exact .refl
  | snoc _ hok heq ih =>
    obtain ⟨ha, heq⟩ := guarded_eq_some.1 heq
    exact .snoc ih ⟨hok, ha⟩ heq

theorem Run.unguard (hok : ∀ s l, allow s l = true → ok s l)
    (h : Run (guarded step allow) (fun _ _ => True) s t) : Run step ok s t :=
  Run.mono (fun s l hl => hok s l hl.2) h.of_guarded

theorem exists_guarded_run [DecidablePred P] [∀ s l, Decidable (ok s l)] (ls : List Label)
    (h : (steps (guarded step fun s l => decide (ok s l)) s ls).any (fun t => decide (P t)) =
      true) : ∃ t, Run step ok s t ∧ P t := by
  obtain ⟨t, hrun, ht⟩ := exists_run_satisfying ls h
  exact ⟨t, hrun.unguard fun _ _ hok => of_decide_eq_true hok, ht⟩

/-! ## A run that keeps a property, step by step -/

/-- Every state the labels lead through has `P`. -/
def Throughout (step : State → Label → Option State) (P : State → Prop) : State → List Label → Prop
  | s, [] => P s
  | s, l :: ls => P s ∧ ∀ t, step s l = some t → Throughout step P t ls

/-- Every step the labels make is allowed. -/
def Allowed (step : State → Label → Option State) (ok : State → Label → Prop) :
    State → List Label → Prop
  | _, [] => True
  | s, l :: ls => ∀ t, step s l = some t → ok s l ∧ Allowed step ok t ls

theorem Throughout.here (h : Throughout step P s ls) : P s := by
  cases ls with
  | nil => exact h
  | cons => exact h.1

theorem Throughout.of_steps (h : Throughout step P s ls) (ht : steps step s ls = some t) : P t := by
  induction ls generalizing s with
  | nil =>
    cases ht
    exact h
  | cons l ls ih =>
    unfold steps at ht
    split at ht
    · cases ht
    · next heq => exact ih (h.2 _ heq) ht

theorem throughout_iff_allowed (hI : ∀ s l t, I s → step s l = some t → I t)
    (hP : ∀ s l t, I s → P s → step s l = some t → (P t ↔ ok s l)) (ls : List Label) (hs : I s)
    (h : P s) : Throughout step P s ls ↔ Allowed step ok s ls := by
  induction ls generalizing s with
  | nil => exact ⟨fun _ => trivial, fun _ => h⟩
  | cons l ls ih =>
    unfold Throughout Allowed
    constructor
    · rintro ⟨-, hrest⟩ t ht
      have hPt := (hrest t ht).here
      exact ⟨(hP s l t hs h ht).mp hPt, (ih (hI s l t hs ht) hPt).mp (hrest t ht)⟩
    · intro hall
      refine ⟨h, fun t ht => ?_⟩
      obtain ⟨hok, hrest⟩ := hall t ht
      have hPt := (hP s l t hs h ht).mpr hok
      exact (ih (hI s l t hs ht) hPt).mpr hrest

theorem Allowed.imp (hI : ∀ s l t, I s → ok s l → step s l = some t → I t)
    (himp : ∀ s l, I s → ok s l → ok' s l) (hs : I s) (h : Allowed step ok s ls) :
    Allowed step ok' s ls := by
  induction ls generalizing s with
  | nil => trivial
  | cons l ls ih =>
    intro t ht
    obtain ⟨hok, hrest⟩ := h t ht
    exact ⟨himp s l hs hok, ih (hI s l t hs hok ht) hrest⟩

theorem Allowed.of_guarded (hok : ∀ s l, allow s l = true → ok s l)
    (h : steps (guarded step allow) s ls = some t) : Allowed step ok s ls := by
  induction ls generalizing s with
  | nil => trivial
  | cons l ls ih =>
    unfold steps at h
    split at h
    · cases h
    · next heq =>
      obtain ⟨ha, hstep⟩ := guarded_eq_some.1 heq
      intro u hu
      obtain rfl := Option.some.inj (hstep.symm.trans hu)
      exact ⟨hok s l ha, ih h⟩

end Async

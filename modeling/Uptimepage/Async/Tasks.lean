import Uptimepage.Async.Run
import Uptimepage.Async.Slots

/-!
# Tasks over one store

A `Program` says what a task does in one step: a statement that is atomic on the shared store,
with the environment's choice for it (that it fails, what the outside world answers).  `Stepped`
has one constructor for each way a state changes.
-/

namespace Async

structure Program (Store Phase Request Choice Outer : Type) where
  first : Request → Phase
  /-- `none` when the task is through, or has to wait. -/
  next : Store → Phase → Choice → Option (Store × Phase)
  /-- What happens to the store by itself. -/
  outer : Store → Outer → Store

/-- The tasks ever begun, each in its slot. -/
structure Pooled (Store Phase : Type) where
  store : Store
  tasks : List Phase
deriving DecidableEq

inductive Act (Request Choice Outer : Type)
  | begin (request : Request)
  | go (i : Nat) (choice : Choice)
  | outer (o : Outer)
deriving DecidableEq

variable {Store Phase Request Choice Outer : Type}

namespace Program

variable (program : Program Store Phase Request Choice Outer)

def step (s : Pooled Store Phase) : Act Request Choice Outer → Option (Pooled Store Phase)
  | .begin request => some { s with tasks := s.tasks ++ [program.first request] }
  | .go i choice => s.tasks[i]?.bind fun p =>
    (program.next s.store p choice).map fun r => ⟨r.1, s.tasks.set i r.2⟩
  | .outer o => some { s with store := program.outer s.store o }

inductive Stepped (s : Pooled Store Phase) :
    Act Request Choice Outer → Pooled Store Phase → Prop
  | begin (request : Request) :
    Stepped s (.begin request) { s with tasks := s.tasks ++ [program.first request] }
  | go {i : Nat} {choice : Choice} {p p' : Phase} {store : Store} (hp : s.tasks[i]? = some p)
      (hnext : program.next s.store p choice = some (store, p')) :
    Stepped s (.go i choice) ⟨store, s.tasks.set i p'⟩
  | outer (o : Outer) : Stepped s (.outer o) { s with store := program.outer s.store o }

variable {program}

theorem stepped {s s' : Pooled Store Phase} {e : Act Request Choice Outer}
    (h : program.step s e = some s') : program.Stepped s e s' := by
  cases e with
  | begin request =>
    cases h
    exact .begin request
  | go i choice =>
    obtain ⟨p, hp, h⟩ := Option.bind_eq_some_iff.mp h
    obtain ⟨⟨store, p'⟩, hnext, rfl⟩ := Option.map_eq_some_iff.mp h
    exact .go hp hnext
  | outer o =>
    cases h
    exact .outer o

end Program

/-! ## When one task moves on -/

section

variable {l : List Phase} {i : Nat} {p p' q : Phase}

theorem mem_set_self (h : l[i]? = some p) (p' : Phase) : p' ∈ l.set i p' :=
  List.mem_set (List.getElem?_eq_some_iff.mp h).1 p'

theorem mem_set_of_ne (h : l[i]? = some p) (hq : q ∈ l) (hne : q ≠ p) : q ∈ l.set i p' := by
  obtain ⟨j, hj⟩ := List.mem_iff_getElem?.mp hq
  have hij : i ≠ j := by
    intro hij
    rw [hij, hj] at h
    exact hne (Option.some.inj h)
  refine List.mem_iff_getElem?.mpr ⟨j, ?_⟩
  rw [List.getElem?_set_ne hij, hj]

theorem exists_mem_set {P : Phase → Prop} (h : l[i]? = some p) (hp : ¬P p)
    (hex : ∃ q ∈ l, P q) : ∃ q ∈ l.set i p', P q := by
  obtain ⟨q, hq, hPq⟩ := hex
  refine ⟨q, mem_set_of_ne h hq ?_, hPq⟩
  intro heq
  exact hp (heq ▸ hPq)

theorem mem_set_of_mem_eraseIdx (hq : q ∈ l.eraseIdx i) : q ∈ l.set i p' := by
  obtain ⟨j, hji, hj⟩ := List.mem_eraseIdx_iff_getElem?.mp hq
  refine List.mem_iff_getElem?.mpr ⟨j, ?_⟩
  rw [List.getElem?_set_ne hji.symm, hj]

theorem forall_mem_set {P : Phase → Prop} (hall : ∀ q ∈ l, P q) (hp' : P p') :
    ∀ q ∈ l.set i p', P q := by
  intro q hq
  rcases List.mem_or_eq_of_mem_set hq with hq | rfl
  · exact hall q hq
  · exact hp'

theorem sum_set_add (f : Phase → Nat) (h : l[i]? = some p) (p' : Phase) :
    ((l.set i p').map f).sum + f p = (l.map f).sum + f p' := by
  induction l generalizing i with
  | nil => cases h
  | cons a l ih =>
    cases i with
    | zero =>
      obtain rfl : a = p := Option.some.inj h
      simp only [List.set_cons_zero, List.map_cons, List.sum_cons]
      omega
    | succ i =>
      have hrest := ih (i := i) (by simpa using h)
      simp only [List.set_cons_succ, List.map_cons, List.sum_cons]
      omega

theorem countP_set_add (f : Phase → Bool) (h : l[i]? = some p) (p' : Phase) :
    (l.set i p').countP f + (if f p then 1 else 0) = l.countP f + (if f p' then 1 else 0) := by
  obtain ⟨hi, rfl⟩ := List.getElem?_eq_some_iff.mp h
  rw [List.countP_set hi]
  have hpos : f l[i] = true → 0 < l.countP f := fun hf =>
    List.countP_pos_iff.mpr ⟨l[i], List.getElem_mem hi, hf⟩
  by_cases hf : f l[i] = true
  · have := hpos hf
    simp only [hf, if_true]
    omega
  · simp only [Bool.not_eq_true] at hf
    simp [hf]

end

end Async

import Mathlib.Data.Multiset.Filter
import Uptimepage.Async.Tasks

/-!
# A map of shared cells, swept of what nobody uses

A concurrent map whose entries are reference-counted cells (`DashMap<K, Arc<T>>`).  A user
looks up its key, puts a fresh cell there when there is none, works on the cell through the
reference it got and drops the reference.  A sweep takes out an entry when its count says that
the map has the only reference and its cell is idle.  One step is one call of the map, one
statement of a user, or one of the two looks of the sweep at an entry; between these the sweep
has the entry locked against the map's calls, not against those who hold a reference.
-/

namespace Async

/-- What is done to a cell by those who have a reference to it. -/
structure CellProgram (Env Cell Request Phase Choice Outer : Type) where
  fresh : Env → Cell
  /-- The sweep may take the cell out. -/
  idle : Env → Cell → Bool
  /-- The lookup asks for the key before it takes the entry. -/
  asks : Bool
  first : Request → Phase
  /-- `none` when the user is through, or has to wait. -/
  next : Env → Cell → Phase → Choice → Option (Cell × Phase)
  /-- The user may drop its reference. -/
  done : Phase → Bool
  outer : Env → Outer → Env

namespace SharedMap

/-- A cell with the count of the references to it. -/
structure Counted (Cell : Type) where
  value : Cell
  strong : Nat
deriving DecidableEq

/-- `cells` are those ever made, each at its address. -/
structure Store (Key Env Cell : Type) where
  env : Env
  cells : List (Counted Cell)
  entries : Key → Option Nat
  /-- The sweep is at the entry. -/
  locked : Key → Bool

inductive Task (Key Request Phase : Type)
  /-- `map.get(&key)`. -/
  | asking (key : Key) (request : Request)
  /-- `map.entry(key).or_insert_with(..).clone()`. -/
  | entering (key : Key) (request : Request)
  | holding (key : Key) (address : Nat) (phase : Phase)
  /-- `Arc::strong_count(slot) != 1`. -/
  | counting (key : Key)
  /-- `idle(slot)`. -/
  | judging (key : Key) (address : Nat)
  | finished
deriving DecidableEq

inductive Visit (Key Request : Type)
  | look (key : Key) (request : Request)
  | sweep (key : Key)
deriving DecidableEq

abbrev State (Key Env Cell Request Phase : Type) :=
  Pooled (Store Key Env Cell) (Task Key Request Phase)

abbrev Event (Key Request Choice Outer : Type) := Act (Visit Key Request) (Option Choice) Outer

/-- Nobody has looked anything up. -/
def State.init {Key Env Cell Request Phase : Type} (env : Env) : State Key Env Cell Request Phase :=
  ⟨⟨env, [], fun _ => none, fun _ => false⟩, []⟩

section

variable {Key Env Cell Request Phase Choice Outer : Type} [DecidableEq Key]

namespace Store

variable (s : Store Key Env Cell) (key : Key) (address : Nat)

/-- One more reference. -/
def clone : Store Key Env Cell :=
  { s with cells := s.cells.modify address fun c => { c with strong := c.strong + 1 } }

/-- One less. -/
def release : Store Key Env Cell :=
  { s with cells := s.cells.modify address fun c => { c with strong := c.strong - 1 } }

def write (value : Cell) : Store Key Env Cell :=
  { s with cells := s.cells.modify address fun c => { c with value := value } }

/-- A fresh cell, with the map's reference and that of who made it. -/
def insert (value : Cell) : Store Key Env Cell :=
  { s with
    cells := s.cells ++ [⟨value, 2⟩]
    entries := Function.update s.entries key (some s.cells.length) }

def remove : Store Key Env Cell :=
  { s.release address with entries := Function.update s.entries key none }

def lock (on : Bool) : Store Key Env Cell := { s with locked := Function.update s.locked key on }

end Store

variable (prog : CellProgram Env Cell Request Phase Choice Outer)

/-- A lookup that found the entry, or made it. -/
def Store.enter (s : Store Key Env Cell) (key : Key) (request : Request) :
    Store Key Env Cell × Task Key Request Phase :=
  match s.entries key with
  | some address => (s.clone address, .holding key address (prog.first request))
  | none => (s.insert key (prog.fresh s.env), .holding key s.cells.length (prog.first request))

/-- A statement of the map's own code, or of the user with its choice. -/
def next (s : Store Key Env Cell) :
    Task Key Request Phase → Option Choice → Option (Store Key Env Cell × Task Key Request Phase)
  | .asking key request, none =>
    if s.locked key then none
    else if s.entries key = none then some (s, .entering key request)
    else some (s.enter prog key request)
  | .entering key request, none =>
    if s.locked key then none else some (s.enter prog key request)
  | .holding key address phase, some choice =>
    s.cells[address]?.bind fun c => (prog.next s.env c.value phase choice).map fun r =>
      (s.write address r.1, .holding key address r.2)
  | .holding _ address phase, none =>
    if prog.done phase then some (s.release address, .finished) else none
  | .counting key, none =>
    if s.locked key then none
    else
      match s.entries key with
      | some address =>
        if s.cells[address]?.any (·.strong == 1) then
          some (s.lock key true, .judging key address)
        else some (s, .finished)
      | none => some (s, .finished)
  | .judging key address, none =>
    some (if s.cells[address]?.any fun c => prog.idle s.env c.value then
        (s.remove key address).lock key false
      else s.lock key false, .finished)
  | _, _ => none

def program : Program (Store Key Env Cell) (Task Key Request Phase) (Visit Key Request)
    (Option Choice) Outer where
  first
    | .look key request => if prog.asks then .asking key request else .entering key request
    | .sweep key => .counting key
  next := next prog
  outer := fun s o => { s with env := prog.outer s.env o }

inductive Moved (s : Store Key Env Cell) :
    Task Key Request Phase → Option Choice → Store Key Env Cell → Task Key Request Phase → Prop
  | missed (key : Key) (request : Request) : Moved s (.asking key request) none s (.entering key request)
  | cloned {task : Task Key Request Phase} {key : Key} {request : Request} {address : Nat}
      (looks : task = .asking key request ∨ task = .entering key request)
      (free : s.locked key = false) (entry : s.entries key = some address) :
      Moved s task none (s.clone address) (.holding key address (prog.first request))
  | made {key : Key} {request : Request} (free : s.locked key = false)
      (vacant : s.entries key = none) :
      Moved s (.entering key request) none (s.insert key (prog.fresh s.env))
        (.holding key s.cells.length (prog.first request))
  | worked {key : Key} {address : Nat} {phase phase' : Phase} {choice : Choice} {c : Counted Cell}
      {value : Cell} (cell : s.cells[address]? = some c)
      (does : prog.next s.env c.value phase choice = some (value, phase')) :
      Moved s (.holding key address phase) (some choice) (s.write address value)
        (.holding key address phase')
  | dropped {key : Key} {address : Nat} {phase : Phase} (done : prog.done phase = true) :
      Moved s (.holding key address phase) none (s.release address) .finished
  | passed (key : Key) : Moved s (.counting key) none s .finished
  | counted {key : Key} {address : Nat} {c : Counted Cell} (free : s.locked key = false)
      (entry : s.entries key = some address) (cell : s.cells[address]? = some c)
      (alone : c.strong = 1) :
      Moved s (.counting key) none (s.lock key true) (.judging key address)
  | kept (key : Key) (address : Nat) : Moved s (.judging key address) none (s.lock key false) .finished
  | swept {key : Key} {address : Nat} {c : Counted Cell} (cell : s.cells[address]? = some c)
      (idle : prog.idle s.env c.value = true) :
      Moved s (.judging key address) none ((s.remove key address).lock key false) .finished

variable {prog} {s s' : Store Key Env Cell} {task task' : Task Key Request Phase}
  {choice : Option Choice}

theorem moved_enter {key : Key} {request : Request}
    (looks : task = .asking key request ∨ task = .entering key request)
    (hlook : task = .asking key request → s.entries key ≠ none) (free : s.locked key = false)
    (h : s.enter prog key request = (s', task')) :
    Moved prog s task none s' task' := by
  unfold Store.enter at h
  split at h
  · next address hentry =>
    cases h
    exact .cloned looks free hentry
  · next hentry =>
    cases h
    rcases looks with rfl | rfl
    · exact absurd hentry (hlook rfl)
    · exact .made free hentry

theorem moved (h : next prog s task choice = some (s', task')) : Moved prog s task choice s' task' := by
  cases choice with
  | some choice =>
    cases task with
    | holding key address phase =>
      obtain ⟨c, hcell, h⟩ := Option.bind_eq_some_iff.mp h
      obtain ⟨⟨value, phase'⟩, hnext, h⟩ := Option.map_eq_some_iff.mp h
      cases h
      exact .worked hcell hnext
    | _ => cases h
  | none =>
    cases task with
    | asking key request =>
      unfold next at h
      dsimp only at h
      split at h
      · cases h
      · next hfree =>
        split at h
        · cases h
          exact .missed key request
        · next hentry =>
          exact moved_enter (.inl rfl) (fun _ => hentry) (by simpa using hfree)
            (Option.some.inj h)
    | entering key request =>
      unfold next at h
      dsimp only at h
      split at h
      · cases h
      · next hfree =>
        exact moved_enter (.inr rfl) nofun (by simpa using hfree) (Option.some.inj h)
    | holding key address phase =>
      unfold next at h
      dsimp only at h
      split at h
      · next hdone =>
        cases h
        exact .dropped hdone
      · cases h
    | counting key =>
      unfold next at h
      dsimp only at h
      split at h
      · cases h
      · next hfree =>
        split at h
        · next address hentry =>
          split at h
          · next hstrong =>
            cases h
            obtain ⟨c, hcell, hone⟩ := (Option.any_eq_true _ _).mp hstrong
            exact .counted (by simpa using hfree) hentry hcell (by simpa using hone)
          · cases h
            exact .passed key
        · cases h
          exact .passed key
    | judging key address =>
      have h : (if s.cells[address]?.any fun c => prog.idle s.env c.value then
        (s.remove key address).lock key false else s.lock key false, Task.finished) = (s', task') :=
        Option.some.inj h
      split at h
      · next hidle =>
        cases h
        obtain ⟨c, hcell, hidle⟩ := (Option.any_eq_true _ _).mp hidle
        exact .swept hcell hidle
      · cases h
        exact .kept key address
    | finished => cases h

/-! ## The users of a key -/

/-- The phase of the task's work on the key's cell. -/
def Task.heldAt (key : Key) : Task Key Request Phase → Option Phase
  | .holding key' _ phase => if key' = key then some phase else none
  | _ => none

/-- The sweep is at the key's entry. -/
def Task.judges (key : Key) : Task Key Request Phase → Bool
  | .judging key' _ => decide (key' = key)
  | _ => false

def users (key : Key) (tasks : List (Task Key Request Phase)) : Multiset Phase :=
  (tasks.filterMap (Task.heldAt key) : List Phase)

section

variable {key key' : Key} {address : Nat} {phase : Phase} {tasks : List (Task Key Request Phase)}
  {i : Nat}

theorem users_set (key : Key) (h : tasks[i]? = some task) (task' : Task Key Request Phase) :
    ∃ rest : Multiset Phase,
      users key tasks = ((task.heldAt key).toList : Multiset Phase) + rest ∧
      users key (tasks.set i task') = ((task'.heldAt key).toList : Multiset Phase) + rest := by
  have hsplit : ∀ (l : List (Task Key Request Phase)) (t : Task Key Request Phase),
      users key (t :: l) = ((t.heldAt key).toList : Multiset Phase) + users key l := by
    intro l t
    unfold users
    rw [List.filterMap_cons]
    cases t.heldAt key with
    | none => rfl
    | some p => rfl
  have hperm : ∀ {l l' : List (Task Key Request Phase)}, l.Perm l' → users key l = users key l' := by
    intro l l' hperm
    exact Multiset.coe_eq_coe.mpr (hperm.filterMap _)
  obtain ⟨hi, rfl⟩ := List.getElem?_eq_some_iff.mp h
  have hset : i < (tasks.set i task').length := by rwa [List.length_set]
  refine ⟨users key (tasks.eraseIdx i), ?_, ?_⟩
  · rw [← hsplit]
    exact (hperm (List.getElem_cons_eraseIdx_perm hi)).symm
  · have hold := hperm (List.getElem_cons_eraseIdx_perm hset)
    rw [List.getElem_set_self, List.eraseIdx_set_eq, hsplit] at hold
    exact hold.symm

theorem users_set_of_heldAt (h : tasks[i]? = some task) (hsame : task'.heldAt key = task.heldAt key) :
    users key (tasks.set i task') = users key tasks := by
  obtain ⟨rest, hold, hnew⟩ := users_set key h task'
  rw [hnew, hold, hsame]

theorem heldAt_self : (Task.holding key address phase : Task Key Request Phase).heldAt key =
    some phase := if_pos rfl

theorem heldAt_ne (h : key' ≠ key) :
    (Task.holding key' address phase : Task Key Request Phase).heldAt key = none := if_neg h

theorem mem_users : phase ∈ users key tasks ↔ ∃ address, .holding key address phase ∈ tasks := by
  unfold users
  rw [Multiset.mem_coe, List.mem_filterMap]
  constructor
  · rintro ⟨task, htask, hheld⟩
    cases task with
    | holding key' address phase' =>
      unfold Task.heldAt at hheld
      dsimp only at hheld
      split at hheld
      · next hkey =>
        subst hkey
        cases hheld
        exact ⟨address, htask⟩
      · cases hheld
    | _ => cases hheld
  · rintro ⟨address, htask⟩
    exact ⟨_, htask, heldAt_self⟩

theorem users_join (h : tasks[i]? = some task) (hout : ∀ key, task.heldAt key = none) (key key' : Key)
    (address : Nat) (phase : Phase) :
    users key' (tasks.set i (.holding key address phase)) =
      if key = key' then phase ::ₘ users key' tasks else users key' tasks := by
  obtain ⟨rest, hold, hnew⟩ := users_set key' h (.holding key address phase)
  rw [hout] at hold
  by_cases hkey : key = key'
  · subst hkey
    rw [heldAt_self] at hnew
    rw [hnew, hold, if_pos rfl]
    simp
  · rw [heldAt_ne hkey] at hnew
    rw [hnew, hold, if_neg hkey]

theorem users_work (h : tasks[i]? = some (.holding key address phase)) (phase' : Phase) (key' : Key) :
    ∃ rest : Multiset Phase,
      users key' tasks = (if key = key' then phase ::ₘ rest else rest) ∧
      users key' (tasks.set i (.holding key address phase')) =
        if key = key' then phase' ::ₘ rest else rest := by
  obtain ⟨rest, hold, hnew⟩ := users_set key' h (.holding key address phase')
  refine ⟨rest, ?_⟩
  by_cases hkey : key = key'
  · subst hkey
    rw [heldAt_self] at hold hnew
    rw [hold, hnew, if_pos rfl, if_pos rfl]
    exact ⟨by simp, by simp⟩
  · rw [heldAt_ne hkey] at hold hnew
    rw [hold, hnew, if_neg hkey, if_neg hkey]
    exact ⟨by simp, by simp⟩

theorem users_leave (h : tasks[i]? = some (.holding key address phase)) (key' : Key) :
    users key' tasks = if key = key' then phase ::ₘ users key' (tasks.set i .finished)
      else users key' (tasks.set i .finished) := by
  obtain ⟨rest, hold, hnew⟩ := users_set key' h .finished
  have hrest : users key' (tasks.set i .finished) = rest := by
    rw [hnew]
    exact Multiset.zero_add rest
  rw [hrest, hold]
  by_cases hkey : key = key'
  · subst hkey
    rw [heldAt_self, if_pos rfl]
    simp
  · rw [heldAt_ne hkey, if_neg hkey]
    simp

end

/-! ## The invariant -/

/-- All the references to a key's cells are to the one in the map, which counts them. -/
structure Sound (s : State Key Env Cell Request Phase) : Prop where
  bound : ∀ key address, s.store.entries key = some address → address < s.store.cells.length
  inj : ∀ key key' address, s.store.entries key = some address →
    s.store.entries key' = some address → key = key'
  held : ∀ key address phase, .holding key address phase ∈ s.tasks →
    s.store.entries key = some address
  strong : ∀ key address c, s.store.entries key = some address → s.store.cells[address]? = some c →
    c.strong = (users key s.tasks).card + 1
  judged : ∀ key address, .judging key address ∈ s.tasks →
    s.store.entries key = some address ∧ users key s.tasks = 0
  lock : ∀ key, s.tasks.countP (Task.judges key) = if s.store.locked key then 1 else 0

section

variable {key key' : Key} {address : Nat} {phase phase' : Phase} {request : Request} {value : Cell}
  {c : Counted Cell} {tasks : List (Task Key Request Phase)} {i : Nat}

theorem Sound.users_eq_zero (h : Sound ⟨s, tasks⟩) (hentry : s.entries key = none) :
    users key tasks = 0 := by
  rw [Multiset.eq_zero_iff_forall_notMem]
  intro phase hphase
  obtain ⟨address, hmem⟩ := mem_users.1 hphase
  have hheld := h.held key address phase hmem
  rw [hentry] at hheld
  cases hheld

theorem Sound.not_judging (h : Sound ⟨s, tasks⟩) (hfree : s.locked key = false) (address : Nat) :
    .judging key address ∉ tasks := by
  intro hmem
  have hcount := h.lock key
  rw [show (⟨s, tasks⟩ : Pooled _ _).store.locked key = false from hfree] at hcount
  have hpos : 0 < tasks.countP (Task.judges key) :=
    List.countP_pos_iff.mpr ⟨_, hmem, decide_eq_true rfl⟩
  have hzero : tasks.countP (Task.judges key) = 0 := hcount
  omega

theorem countP_judges_set (h : tasks[i]? = some task) (hold : task.judges key = false)
    (hnew : task'.judges key = false) :
    (tasks.set i task').countP (Task.judges key) = tasks.countP (Task.judges key) := by
  have hcount := countP_set_add (Task.judges key) h task'
  rw [hold, hnew] at hcount
  simpa using hcount

theorem Sound.held_set (h : Sound ⟨s, tasks⟩)
    (hnew : ∀ key address phase, task' = .holding key address phase →
      s.entries key = some address) (key : Key) (address : Nat) (phase : Phase)
    (hmem : .holding key address phase ∈ tasks.set i task') : s.entries key = some address := by
  rcases List.mem_or_eq_of_mem_set hmem with hmem | heq
  · exact h.held key address phase hmem
  · exact hnew key address phase heq.symm

theorem Sound.bound_modify (h : Sound ⟨s, tasks⟩) (f : Counted Cell → Counted Cell) (key' : Key)
    (address' : Nat) (hentry' : s.entries key' = some address') :
    address' < (s.cells.modify address f).length := by
  rw [List.length_modify]
  exact h.bound key' address' hentry'

theorem Sound.lock_set (h : Sound ⟨s, tasks⟩) (hp : tasks[i]? = some task)
    (hold : ∀ key, task.judges key = false) (hnew : ∀ key, task'.judges key = false) (key : Key) :
    (tasks.set i task').countP (Task.judges key) = if s.locked key then 1 else 0 := by
  rw [countP_judges_set hp (hold key) (hnew key)]
  exact h.lock key

theorem Sound.quiet (h : Sound ⟨s, tasks⟩) (hp : tasks[i]? = some task)
    (hold : ∀ key, task.heldAt key = none ∧ task.judges key = false)
    (hnew : ∀ key, task'.heldAt key = none ∧ task'.judges key = false) :
    Sound ⟨s, tasks.set i task'⟩ := by
  have husers : ∀ key, users key (tasks.set i task') = users key tasks := fun key =>
    users_set_of_heldAt hp ((hnew key).1.trans (hold key).1.symm)
  refine ⟨h.bound, h.inj, h.held_set fun key address phase heq => ?_, ?_, ?_,
    h.lock_set hp (fun key => (hold key).2) fun key => (hnew key).2⟩
  · have hnone := (hnew key).1
    rw [heq, heldAt_self] at hnone
    cases hnone
  · intro key address c hentry hcell
    rw [show users key _ = _ from husers key]
    exact h.strong key address c hentry hcell
  · intro key address hmem
    rw [show users key _ = _ from husers key]
    rcases List.mem_or_eq_of_mem_set hmem with hmem | rfl
    · exact h.judged key address hmem
    · have hnone : decide (key = key) = false := (hnew key).2
      simp at hnone

theorem getElem?_modify_other (h : Sound ⟨s, tasks⟩) (hkey : key ≠ key') {address' : Nat}
    (hentry : s.entries key = some address) (hentry' : s.entries key' = some address')
    (f : Counted Cell → Counted Cell) :
    (s.cells.modify address f)[address']? = s.cells[address']? := by
  rw [List.getElem?_modify]
  have hne : address ≠ address' := by
    rintro rfl
    exact hkey (h.inj key key' address hentry hentry')
  simp [hne]

theorem Sound.cloned (h : Sound ⟨s, tasks⟩) (hp : tasks[i]? = some task)
    (hout : ∀ key, task.heldAt key = none ∧ task.judges key = false)
    (hfree : s.locked key = false) (hentry : s.entries key = some address) (phase : Phase) :
    Sound ⟨s.clone address, tasks.set i (.holding key address phase)⟩ := by
  have husers := users_join hp (fun key => (hout key).1) key
  refine ⟨h.bound_modify _, h.inj, h.held_set fun key' address' phase' heq => ?_, ?_, ?_,
    h.lock_set hp (fun key => (hout key).2) fun _ => rfl⟩
  · cases heq
    exact hentry
  · intro key' address' c hentry' hcell
    change (s.cells.modify address _)[address']? = some c at hcell
    show c.strong = (users key' (tasks.set i _)).card + 1
    rw [husers]
    by_cases hkey : key = key'
    · subst hkey
      obtain rfl : address = address' := Option.some.inj (hentry.symm.trans hentry')
      rw [List.getElem?_modify_eq] at hcell
      obtain ⟨c', hc', rfl⟩ := Option.map_eq_some_iff.mp hcell
      have hstrong := h.strong key address c' hentry hc'
      rw [if_pos rfl, Multiset.card_cons]
      show c'.strong + 1 = _
      rw [hstrong]
    · rw [getElem?_modify_other h hkey hentry hentry'] at hcell
      rw [if_neg hkey]
      exact h.strong key' address' c hentry' hcell
  · intro key' address' hmem
    rcases List.mem_or_eq_of_mem_set hmem with hmem | heq
    · obtain ⟨hentry', hnone⟩ := h.judged key' address' hmem
      refine ⟨hentry', ?_⟩
      show users key' (tasks.set i _) = 0
      have hkey : key ≠ key' := by
        rintro rfl
        exact h.not_judging hfree address' hmem
      rw [husers, if_neg hkey]
      exact hnone
    · cases heq

theorem Sound.made (h : Sound ⟨s, tasks⟩) (hp : tasks[i]? = some task)
    (hout : ∀ key, task.heldAt key = none ∧ task.judges key = false)
    (hfree : s.locked key = false) (hentry : s.entries key = none) (value : Cell) (phase : Phase) :
    Sound ⟨s.insert key value, tasks.set i (.holding key s.cells.length phase)⟩ := by
  have husers := users_join hp (fun key => (hout key).1) key
  have hold : ∀ key' address', s.entries key' = some address' →
      key' ≠ key ∧ address' < s.cells.length := by
    intro key' address' hentry'
    refine ⟨?_, h.bound key' address' hentry'⟩
    rintro rfl
    rw [hentry] at hentry'
    cases hentry'
  have hcases : ∀ {key' address'}, (s.insert key value).entries key' = some address' →
      (key' = key ∧ address' = s.cells.length) ∨ s.entries key' = some address' := by
    intro key' address' hentry'
    change Function.update s.entries key _ key' = _ at hentry'
    by_cases hkey : key' = key
    · subst hkey
      rw [Function.update_self] at hentry'
      exact .inl ⟨rfl, (Option.some.inj hentry').symm⟩
    · rw [Function.update_of_ne hkey] at hentry'
      exact .inr hentry'
  have hkept : ∀ {key' address'}, s.entries key' = some address' →
      (s.insert key value).entries key' = some address' := fun {key' address'} hentry' =>
    (Function.update_of_ne (hold key' address' hentry').1 _ _).trans hentry'
  refine ⟨?_, ?_, ?_, ?_, ?_, h.lock_set hp (fun key => (hout key).2) fun _ => rfl⟩
  · intro key' address' hentry'
    show address' < (s.cells ++ [_]).length
    rw [List.length_append, List.length_singleton]
    rcases hcases hentry' with ⟨-, rfl⟩ | hentry'
    · omega
    · have := (hold key' address' hentry').2
      omega
  · intro key' key'' address' hentry' hentry''
    rcases hcases hentry' with ⟨hkey', hlast⟩ | hbefore
    · rcases hcases hentry'' with ⟨hkey'', -⟩ | hbefore'
      · exact hkey'.trans hkey''.symm
      · have := (hold key'' _ hbefore').2
        omega
    · rcases hcases hentry'' with ⟨-, hlast⟩ | hbefore'
      · have := (hold key' _ hbefore).2
        omega
      · exact h.inj key' key'' address' hbefore hbefore'
  · intro key' address' phase' hmem
    rcases List.mem_or_eq_of_mem_set hmem with hmem | heq
    · exact hkept (h.held key' address' phase' hmem)
    · cases heq
      exact Function.update_self _ _ _
  · intro key' address' c hentry' hcell
    change (s.cells ++ [_])[address']? = some c at hcell
    show c.strong = (users key' (tasks.set i _)).card + 1
    rw [husers]
    rcases hcases hentry' with ⟨rfl, rfl⟩ | hentry'
    · rw [List.getElem?_concat_length] at hcell
      obtain rfl := Option.some.inj hcell
      have hnone : users key' tasks = 0 := h.users_eq_zero hentry
      rw [if_pos rfl, hnone]
      rfl
    · obtain ⟨hkey, hlt⟩ := hold key' address' hentry'
      rw [List.getElem?_append_left hlt] at hcell
      rw [if_neg (Ne.symm hkey)]
      exact h.strong key' address' c hentry' hcell
  · intro key' address' hmem
    rcases List.mem_or_eq_of_mem_set hmem with hmem | heq
    · obtain ⟨hentry', hnone⟩ := h.judged key' address' hmem
      refine ⟨hkept hentry', ?_⟩
      show users key' (tasks.set i _) = 0
      rw [husers, if_neg (Ne.symm (hold key' address' hentry').1)]
      exact hnone
    · cases heq

theorem Sound.worked (h : Sound ⟨s, tasks⟩) (hp : tasks[i]? = some (.holding key address phase))
    (value : Cell) (phase' : Phase) :
    Sound ⟨s.write address value, tasks.set i (.holding key address phase')⟩ := by
  have hcard : ∀ key', (users key' (tasks.set i (.holding key address phase'))).card =
      (users key' tasks).card := by
    intro key'
    obtain ⟨rest, hold, hnew⟩ := users_work hp phase' key'
    rw [hold, hnew]
    split
    · rw [Multiset.card_cons, Multiset.card_cons]
    · rfl
  refine ⟨h.bound_modify _, h.inj, h.held_set fun key' address' phase'' heq => ?_, ?_, ?_,
    h.lock_set hp (fun _ => rfl) fun _ => rfl⟩
  · cases heq
    exact h.held key address phase (List.mem_of_getElem? hp)
  · intro key' address' c hentry' hcell
    change (s.cells.modify address _)[address']? = some c at hcell
    show c.strong = (users key' (tasks.set i _)).card + 1
    rw [hcard, List.getElem?_modify] at *
    obtain ⟨c', hc', rfl⟩ := Option.map_eq_some_iff.mp hcell
    have hstrong := h.strong key' address' c' hentry' hc'
    split
    · exact hstrong
    · exact hstrong
  · intro key' address' hmem
    show _ ∧ users key' (tasks.set i _) = 0
    rw [← Multiset.card_eq_zero, hcard, Multiset.card_eq_zero]
    rcases List.mem_or_eq_of_mem_set hmem with hmem | heq
    · exact h.judged key' address' hmem
    · cases heq

theorem Sound.dropped (h : Sound ⟨s, tasks⟩) (hp : tasks[i]? = some (.holding key address phase)) :
    Sound ⟨s.release address, tasks.set i .finished⟩ := by
  have husers := users_leave hp
  have hentry := h.held key address phase (List.mem_of_getElem? hp)
  refine ⟨h.bound_modify _, h.inj, h.held_set nofun, ?_, ?_,
    h.lock_set hp (fun _ => rfl) fun _ => rfl⟩
  · intro key' address' c hentry' hcell
    change (s.cells.modify address _)[address']? = some c at hcell
    show c.strong = (users key' (tasks.set i _)).card + 1
    have hold := husers key'
    by_cases hkey : key = key'
    · subst hkey
      obtain rfl : address = address' := Option.some.inj (hentry.symm.trans hentry')
      rw [List.getElem?_modify_eq] at hcell
      obtain ⟨c', hc', rfl⟩ := Option.map_eq_some_iff.mp hcell
      have hstrong := h.strong key address c' hentry hc'
      rw [if_pos rfl] at hold
      rw [show users key (⟨s, tasks⟩ : Pooled _ _).tasks = _ from hold, Multiset.card_cons] at hstrong
      show c'.strong - 1 = _
      omega
    · rw [getElem?_modify_other h hkey hentry hentry'] at hcell
      rw [if_neg hkey] at hold
      rw [← hold]
      exact h.strong key' address' c hentry' hcell
  · intro key' address' hmem
    rcases List.mem_or_eq_of_mem_set hmem with hmem | heq
    · obtain ⟨hentry', hnone⟩ := h.judged key' address' hmem
      refine ⟨hentry', ?_⟩
      show users key' (tasks.set i _) = 0
      have hold := husers key'
      rw [show users key' tasks = 0 from hnone] at hold
      by_cases hkey : key = key'
      · rw [if_pos hkey] at hold
        exact absurd hold.symm (Multiset.cons_ne_zero)
      · rw [if_neg hkey] at hold
        exact hold.symm
    · cases heq

theorem Sound.counted (h : Sound ⟨s, tasks⟩) (hp : tasks[i]? = some (.counting key))
    (hfree : s.locked key = false) (hentry : s.entries key = some address)
    (hcell : s.cells[address]? = some c) (halone : c.strong = 1) :
    Sound ⟨s.lock key true, tasks.set i (.judging key address)⟩ := by
  have husers : ∀ key', users key' (tasks.set i (.judging key address)) = users key' tasks :=
    fun key' => users_set_of_heldAt hp rfl
  refine ⟨h.bound, h.inj, h.held_set nofun, ?_, ?_, ?_⟩
  · intro key' address' c' hentry' hcell'
    rw [show users key' _ = _ from husers key']
    exact h.strong key' address' c' hentry' hcell'
  · intro key' address' hmem
    rw [show users key' _ = _ from husers key']
    rcases List.mem_or_eq_of_mem_set hmem with hmem | heq
    · exact h.judged key' address' hmem
    · cases heq
      refine ⟨hentry, ?_⟩
      have hstrong : c.strong = (users key tasks).card + 1 := h.strong key address c hentry hcell
      exact Multiset.card_eq_zero.mp (by omega)
  · intro key'
    have hlock := h.lock key'
    have hcount := countP_set_add (Task.judges key') hp (.judging key address)
    show (tasks.set i _).countP _ = if Function.update s.locked key true key' then 1 else 0
    change tasks.countP _ = if s.locked key' then 1 else 0 at hlock
    by_cases hkey : key = key'
    · subst hkey
      rw [Function.update_self]
      rw [hfree] at hlock
      simp only [Task.judges, decide_true, Bool.false_eq_true, if_true, if_false] at hcount hlock ⊢
      omega
    · rw [Function.update_of_ne (Ne.symm hkey)]
      simp only [Task.judges, hkey, decide_false, Bool.false_eq_true, if_false] at hcount
      rw [← hlock]
      exact hcount

theorem Sound.lock_unlocked (h : Sound ⟨s, tasks⟩) (hp : tasks[i]? = some (.judging key address))
    (key' : Key) :
    (tasks.set i .finished).countP (Task.judges key') =
      if Function.update s.locked key false key' then 1 else 0 := by
  have hlock := h.lock key'
  have hcount := countP_set_add (Task.judges key') hp .finished
  change tasks.countP _ = if s.locked key' then 1 else 0 at hlock
  by_cases hkey : key = key'
  · subst hkey
    rw [Function.update_self]
    simp only [Task.judges, decide_true, Bool.false_eq_true, if_true, if_false] at hcount ⊢
    split at hlock
    · omega
    · omega
  · rw [Function.update_of_ne (Ne.symm hkey)]
    simp only [Task.judges, hkey, decide_false, Bool.false_eq_true, if_false] at hcount
    rw [← hlock]
    exact hcount

theorem Sound.kept (h : Sound ⟨s, tasks⟩) (hp : tasks[i]? = some (.judging key address)) :
    Sound ⟨s.lock key false, tasks.set i .finished⟩ := by
  have husers : ∀ key', users key' (tasks.set i .finished) = users key' tasks :=
    fun key' => users_set_of_heldAt hp rfl
  refine ⟨h.bound, h.inj, h.held_set nofun, ?_, ?_, h.lock_unlocked hp⟩
  · intro key' address' c' hentry' hcell'
    rw [show users key' _ = _ from husers key']
    exact h.strong key' address' c' hentry' hcell'
  · intro key' address' hmem
    rw [show users key' _ = _ from husers key']
    rcases List.mem_or_eq_of_mem_set hmem with hmem | heq
    · exact h.judged key' address' hmem
    · cases heq

theorem Sound.swept (h : Sound ⟨s, tasks⟩) (hp : tasks[i]? = some (.judging key address)) :
    Sound ⟨(s.remove key address).lock key false, tasks.set i .finished⟩ := by
  have husers : ∀ key', users key' (tasks.set i .finished) = users key' tasks :=
    fun key' => users_set_of_heldAt hp rfl
  obtain ⟨hentry, hnone⟩ := h.judged key address (List.mem_of_getElem? hp)
  have hcases : ∀ {key' address'}, ((s.remove key address).lock key false).entries key' =
      some address' → key ≠ key' ∧ s.entries key' = some address' := by
    intro key' address' hentry'
    change Function.update s.entries key none key' = _ at hentry'
    by_cases hkey : key' = key
    · subst hkey
      rw [Function.update_self] at hentry'
      cases hentry'
    · rw [Function.update_of_ne hkey] at hentry'
      exact ⟨Ne.symm hkey, hentry'⟩
  refine ⟨?_, ?_, ?_, ?_, ?_, h.lock_unlocked hp⟩
  · intro key' address' hentry'
    show address' < (s.cells.modify address _).length
    rw [List.length_modify]
    exact h.bound key' address' (hcases hentry').2
  · exact fun key' key'' address' hentry' hentry'' =>
      h.inj key' key'' address' (hcases hentry').2 (hcases hentry'').2
  · intro key' address' phase' hmem
    rcases List.mem_or_eq_of_mem_set hmem with hbefore | heq
    · show Function.update s.entries key none key' = _
      rw [Function.update_of_ne ?_]
      · exact h.held key' address' phase' hbefore
      · rintro rfl
        have hphase : phase' ∈ users key' tasks := mem_users.2 ⟨address', hbefore⟩
        rw [show users key' tasks = 0 from hnone] at hphase
        exact Multiset.notMem_zero _ hphase
    · cases heq
  · intro key' address' c' hentry' hcell'
    obtain ⟨hkey, hentry'⟩ := hcases hentry'
    change (s.cells.modify address _)[address']? = some c' at hcell'
    rw [getElem?_modify_other h hkey hentry hentry'] at hcell'
    rw [show users key' _ = _ from husers key']
    exact h.strong key' address' c' hentry' hcell'
  · intro key' address' hmem
    rw [show users key' _ = _ from husers key']
    have hkey : key' ≠ key := by
      rintro rfl
      -- the sweep that is at an entry is the only one there
      have hother := h.lock_unlocked hp key'
      rw [Function.update_self] at hother
      have hpos : 0 < (tasks.set i .finished).countP (Task.judges key') :=
        List.countP_pos_iff.mpr ⟨.judging key' address', hmem, decide_eq_true rfl⟩
      simp only [Bool.false_eq_true, if_false] at hother
      omega
    rcases List.mem_or_eq_of_mem_set hmem with hbefore | heq
    · obtain ⟨hentry', hnone'⟩ := h.judged key' address' hbefore
      refine ⟨?_, hnone'⟩
      show Function.update s.entries key none key' = _
      rw [Function.update_of_ne hkey]
      exact hentry'
    · cases heq

theorem outside_first (prog : CellProgram Env Cell Request Phase Choice Outer)
    (visit : Visit Key Request) (key : Key) :
    ((program prog).first visit : Task Key Request Phase).heldAt key = none ∧
      ((program prog).first visit : Task Key Request Phase).judges key = false := by
  cases visit with
  | look key' request =>
    show ((if prog.asks then _ else _ : Task Key Request Phase).heldAt key = none) ∧ _
    unfold program
    dsimp only
    split
    · exact ⟨rfl, rfl⟩
    · exact ⟨rfl, rfl⟩
  | sweep key' => exact ⟨rfl, rfl⟩

theorem users_begun (hout : ∀ key, task.heldAt key = none) (key : Key) :
    users key (tasks ++ [task]) = users key tasks := by
  unfold users
  rw [List.filterMap_append]
  simp [hout]

theorem Sound.begun (h : Sound ⟨s, tasks⟩)
    (hout : ∀ key, task.heldAt key = none ∧ task.judges key = false) :
    Sound ⟨s, tasks ++ [task]⟩ := by
  have husers : ∀ key, users key (tasks ++ [task]) = users key tasks :=
    users_begun fun key => (hout key).1
  refine ⟨h.bound, h.inj, ?_, ?_, ?_, ?_⟩
  · intro key address phase hmem
    rcases List.mem_append.mp hmem with hmem | hmem
    · exact h.held key address phase hmem
    · have hnone := (hout key).1
      rw [← List.mem_singleton.mp hmem, heldAt_self] at hnone
      cases hnone
  · intro key address c hentry hcell
    rw [show users key _ = _ from husers key]
    exact h.strong key address c hentry hcell
  · intro key address hmem
    rw [show users key _ = _ from husers key]
    rcases List.mem_append.mp hmem with hmem | hmem
    · exact h.judged key address hmem
    · have hnone : task.judges key = false := (hout key).2
      rw [← List.mem_singleton.mp hmem] at hnone
      simp [Task.judges] at hnone
  · intro key
    rw [show (tasks ++ [task]).countP (Task.judges key) = tasks.countP (Task.judges key) by
      rw [List.countP_append, List.countP_singleton, (hout key).2]
      rfl]
    exact h.lock key

theorem Sound.init (env : Env) : Sound (State.init env : State Key Env Cell Request Phase) :=
  ⟨nofun, nofun, nofun, nofun, nofun, fun _ => rfl⟩

theorem outside_looks (looks : task = .asking key request ∨ task = .entering key request)
    (key' : Key) : task.heldAt key' = (none : Option Phase) ∧ task.judges key' = false := by
  rcases looks with rfl | rfl
  · exact ⟨rfl, rfl⟩
  · exact ⟨rfl, rfl⟩

theorem Sound.moved (h : Sound ⟨s, tasks⟩) (hp : tasks[i]? = some task)
    (hmoved : Moved prog s task choice s' task') : Sound ⟨s', tasks.set i task'⟩ := by
  cases hmoved with
  | missed key request => exact h.quiet hp (fun _ => ⟨rfl, rfl⟩) fun _ => ⟨rfl, rfl⟩
  | cloned looks free entry => exact h.cloned hp (outside_looks looks) free entry _
  | made free vacant => exact h.made hp (fun _ => ⟨rfl, rfl⟩) free vacant _ _
  | worked cell does => exact h.worked hp _ _
  | dropped done => exact h.dropped hp
  | passed key => exact h.quiet hp (fun _ => ⟨rfl, rfl⟩) fun _ => ⟨rfl, rfl⟩
  | counted free entry cell alone => exact h.counted hp free entry cell alone
  | kept key address => exact h.kept hp
  | swept cell idle => exact h.swept hp

theorem Sound.step {s t : State Key Env Cell Request Phase}
    {e : Event Key Request Choice Outer} (h : Sound s)
    (hstep : (program prog).step s e = some t) : Sound t := by
  cases Program.stepped hstep with
  | begin visit => exact h.begun (outside_first prog visit)
  | outer o => exact ⟨h.bound, h.inj, h.held, h.strong, h.judged, h.lock⟩
  | go hp hnext => exact h.moved hp (SharedMap.moved hnext)

end

end

end SharedMap

end Async

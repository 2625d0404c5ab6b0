import Uptimepage.Async.SharedMap

/-!
# One key of a map of shared cells

What the cell of one key and those who use it go through is what a single cell goes through that
is made when it is first looked up, and taken out when it is idle and nobody uses it
(`Sound.shown`).
-/

namespace Async

namespace SharedMap

variable {Key Env Cell Request Phase Choice Outer : Type}

def Store.value (s : Store Key Env Cell) (key : Key) : Option Cell :=
  (s.entries key).bind fun address => s.cells[address]?.map (·.value)

section

variable {s : Store Key Env Cell} {key : Key} {address : Nat}

theorem value_modify {f : Counted Cell → Counted Cell} (hf : ∀ c, (f c).value = c.value)
    (key : Key) : ({ s with cells := s.cells.modify address f } : Store Key Env Cell).value key =
      s.value key := by
  show (s.entries key).bind (fun a => (s.cells.modify address f)[a]?.map (·.value)) = _
  congr 1
  funext a
  rw [List.getElem?_modify]
  cases s.cells[a]? with
  | none => rfl
  | some c =>
    show some (if address = a then f c else c).value = _
    split
    · rw [hf]
      rfl
    · rfl

theorem value_clone : (s.clone address).value key = s.value key :=
  value_modify (f := fun c => { c with strong := c.strong + 1 }) (fun _ => rfl) key

theorem value_release : (s.release address).value key = s.value key :=
  value_modify (f := fun c => { c with strong := c.strong - 1 }) (fun _ => rfl) key

theorem value_of_entry (hentry : s.entries key = some address) :
    s.value key = s.cells[address]?.map (·.value) := by
  unfold Store.value
  rw [hentry]
  rfl

theorem value_eq_none (hentry : s.entries key = none) : s.value key = none := by
  unfold Store.value
  rw [hentry]
  rfl

end

variable [DecidableEq Key] {prog : CellProgram Env Cell Request Phase Choice Outer}
  {s s' : Store Key Env Cell} {task task' : Task Key Request Phase} {choice : Option Choice}

/-- What the user of the key does in a step. -/
def workAt (key : Key) (s : State Key Env Cell Request Phase) :
    Event Key Request Choice Outer → Option (Phase × Choice)
  | .go i (some choice) => s.tasks[i]?.bind fun task => (task.heldAt key).map fun p => (p, choice)
  | _ => none

variable (prog) in
/-- What a step makes of one cell and its users, with what one of them did. -/
inductive Shown (env : Env) : Option (Phase × Choice) → Option Cell → Multiset Phase →
    Option Cell → Multiset Phase → Prop
  | still (v : Option Cell) (ps : Multiset Phase) : Shown env none v ps v ps
  | joined (request : Request) (v : Cell) (ps : Multiset Phase) :
    Shown env none (some v) ps (some v) (prog.first request ::ₘ ps)
  | made (request : Request) :
    Shown env none none 0 (some (prog.fresh env)) (prog.first request ::ₘ 0)
  | worked {v v' : Cell} {p p' : Phase} {choice : Choice} (ps : Multiset Phase)
    (does : prog.next env v p choice = some (v', p')) :
    Shown env (some (p, choice)) (some v) (p ::ₘ ps) (some v') (p' ::ₘ ps)
  | left {p : Phase} (v : Cell) (ps : Multiset Phase) (done : prog.done p = true) :
    Shown env none (some v) (p ::ₘ ps) (some v) ps
  | swept {v : Cell} (idle : prog.idle env v = true) : Shown env none (some v) 0 none 0

section

variable {key key' : Key} {address : Nat} {phase phase' : Phase} {request : Request} {value : Cell}
  {c : Counted Cell} {tasks : List (Task Key Request Phase)} {i : Nat}

theorem Sound.exists_value (h : Sound ⟨s, tasks⟩) (hmem : .holding key address phase ∈ tasks) :
    ∃ c, s.cells[address]? = some c ∧ s.value key = some c.value := by
  have hentry := h.held key address phase hmem
  have hlt := h.bound key address hentry
  refine ⟨_, List.getElem?_eq_getElem hlt, ?_⟩
  rw [value_of_entry hentry, List.getElem?_eq_getElem hlt]
  rfl

theorem value_write (h : Sound ⟨s, tasks⟩) (hmem : .holding key address phase ∈ tasks)
    (value : Cell) (key' : Key) :
    (s.write address value).value key' = if key = key' then some value else s.value key' := by
  have hentry := h.held key address phase hmem
  obtain ⟨c, hcell, -⟩ := h.exists_value hmem
  by_cases hkey : key = key'
  · subst hkey
    rw [if_pos rfl, value_of_entry (s := s.write address value) hentry]
    show (s.cells.modify address _)[address]?.map _ = _
    rw [List.getElem?_modify_eq, hcell]
    rfl
  · rw [if_neg hkey]
    cases hentry' : s.entries key' with
    | none => rw [value_eq_none hentry', value_eq_none (s := s.write address value) hentry']
    | some address' =>
      rw [value_of_entry hentry', value_of_entry (s := s.write address value) hentry']
      show (s.cells.modify address _)[address']?.map _ = _
      rw [getElem?_modify_other h hkey hentry hentry']

theorem value_insert (h : Sound ⟨s, tasks⟩) (key : Key) (value : Cell) (key' : Key) :
    (s.insert key value).value key' = if key = key' then some value else s.value key' := by
  show (Function.update s.entries key (some s.cells.length) key').bind
    (fun a => (s.cells ++ [_])[a]?.map (·.value)) = _
  by_cases hkey : key = key'
  · subst hkey
    rw [Function.update_self, if_pos rfl, Option.bind_some, List.getElem?_concat_length]
    rfl
  · rw [Function.update_of_ne (Ne.symm hkey), if_neg hkey]
    cases hentry' : s.entries key' with
    | none => exact (value_eq_none hentry').symm
    | some address' =>
      rw [Option.bind_some, List.getElem?_append_left (h.bound key' address' hentry'),
        value_of_entry hentry']

theorem value_remove (key address : _) (key' : Key) :
    ((s.remove key address).lock key false).value key' =
      if key = key' then none else s.value key' := by
  by_cases hkey : key = key'
  · subst hkey
    rw [if_pos rfl]
    exact value_eq_none (Function.update_self _ _ _)
  · have hrelease : (s.release address).value key' = s.value key' := value_release
    rw [if_neg hkey, ← hrelease]
    show (Function.update s.entries key none key').bind _ = ((s.release address).entries key').bind _
    rw [Function.update_of_ne (Ne.symm hkey)]
    rfl

theorem Shown.join (env : Env) (hp : tasks[i]? = some task) (hout : ∀ key, task.heldAt key = none)
    {v v' : Option Cell} (key address : _) (request : Request)
    (hv : (key = key' → (∃ u, v = some u ∧ v' = v) ∨
      (v = none ∧ users key' tasks = 0 ∧ v' = some (prog.fresh env))))
    (hother : key ≠ key' → v' = v) :
    Shown prog env none v (users key' tasks) v'
      (users key' (tasks.set i (.holding key address (prog.first request)))) := by
  rw [users_join hp hout]
  by_cases hkey : key = key'
  · rw [if_pos hkey]
    rcases hv hkey with ⟨u, rfl, rfl⟩ | ⟨rfl, hnone, rfl⟩
    · exact .joined request u _
    · rw [hnone]
      exact .made request
  · rw [if_neg hkey, hother hkey]
    exact .still v _

theorem Sound.shown_moved (h : Sound ⟨s, tasks⟩) (hp : tasks[i]? = some task)
    (hmoved : Moved prog s task choice s' task') (key : Key) :
    Shown prog s.env (choice.bind fun choice => (task.heldAt key).map fun p => (p, choice))
      (s.value key) (users key tasks) (s'.value key) (users key (tasks.set i task')) := by
  cases hmoved with
  | missed key' request =>
    have husers : users key (tasks.set i (.entering key' request)) = users key tasks := users_set_of_heldAt hp rfl
    rw [husers]
    exact .still _ _
  | @cloned _ key' request address looks free entry =>
    have hvalue : (s.clone address).value key = s.value key := value_clone
    rw [hvalue]
    refine .join s.env hp (fun key => (outside_looks looks key).1) key' address request ?_
      fun _ => rfl
    rintro rfl
    have hlt := h.bound key' address entry
    refine .inl ⟨(s.cells.get ⟨address, hlt⟩).value, ?_, rfl⟩
    rw [value_of_entry entry, List.getElem?_eq_getElem hlt]
    rfl
  | @made key' request free vacant =>
    rw [value_insert h]
    refine .join s.env hp (fun _ => rfl) key' _ request ?_ fun hkey => if_neg hkey
    rintro rfl
    exact .inr ⟨value_eq_none vacant, h.users_eq_zero vacant, if_pos rfl⟩
  | @worked key' address phase phase' choice c value cell does =>
    have hmem := List.mem_of_getElem? hp
    rw [value_write h hmem]
    obtain ⟨rest, hold, hnew⟩ := users_work hp phase' key
    rw [hold, hnew]
    by_cases hkey : key' = key
    · subst hkey
      obtain ⟨c', hc', hvalue⟩ := h.exists_value hmem
      obtain rfl : c = c' := Option.some.inj (cell.symm.trans hc')
      rw [hvalue, if_pos rfl, if_pos rfl, if_pos rfl]
      simp only [Option.bind_some, heldAt_self, Option.map_some]
      exact .worked rest does
    · rw [if_neg hkey, if_neg hkey, if_neg hkey]
      simp only [Option.bind_some, heldAt_ne hkey, Option.map_none]
      exact .still _ _
  | @dropped key' address phase done =>
    have hmem := List.mem_of_getElem? hp
    rw [value_release, users_leave hp key]
    by_cases hkey : key' = key
    · subst hkey
      obtain ⟨c, -, hvalue⟩ := h.exists_value hmem
      rw [hvalue, if_pos rfl]
      exact .left _ _ done
    · rw [if_neg hkey]
      exact .still _ _
  | passed key' =>
    have husers : users key (tasks.set i .finished) = users key tasks := users_set_of_heldAt hp rfl
    rw [husers]
    exact .still _ _
  | @counted key' address c free entry cell alone =>
    have husers : users key (tasks.set i (.judging key' address)) = users key tasks :=
      users_set_of_heldAt hp rfl
    rw [husers]
    exact .still _ _
  | kept key' address =>
    have husers : users key (tasks.set i .finished) = users key tasks := users_set_of_heldAt hp rfl
    rw [husers]
    exact .still _ _
  | @swept key' address c cell idle =>
    obtain ⟨hentry, hnone⟩ := h.judged key' address (List.mem_of_getElem? hp)
    have husers : users key (tasks.set i .finished) = users key tasks := users_set_of_heldAt hp rfl
    rw [husers, value_remove]
    by_cases hkey : key' = key
    · subst hkey
      rw [if_pos rfl, show users key' tasks = 0 from hnone, value_of_entry hentry]
      change s.cells[address]? = some c at cell
      rw [cell]
      exact .swept idle
    · rw [if_neg hkey]
      exact .still _ _

theorem Sound.shown {s t : State Key Env Cell Request Phase}
    {e : Event Key Request Choice Outer} (h : Sound s)
    (hstep : (program prog).step s e = some t) (key : Key) :
    Shown prog s.store.env (workAt key s e) (s.store.value key) (users key s.tasks)
      (t.store.value key) (users key t.tasks) := by
  cases Program.stepped hstep with
  | begin visit =>
    rw [users_begun fun key => (outside_first prog visit key).1]
    exact .still _ _
  | outer o => exact .still _ _
  | @go i choice task task' store hp hnext =>
    have hshown := h.shown_moved hp (SharedMap.moved hnext) key
    cases choice with
    | none => exact hshown
    | some choice =>
      unfold workAt
      dsimp only
      rw [hp]
      exact hshown

theorem Sound.unused_of_removed {s t : State Key Env Cell Request Phase}
    {e : Event Key Request Choice Outer} (h : Sound s) (hstep : (program prog).step s e = some t)
    {key : Key} {address : Nat} (hentry : s.store.entries key = some address)
    (hgone : t.store.entries key ≠ some address) (key' : Key) (phase : Phase) :
    .holding key' address phase ∉ s.tasks := by
  intro hmem
  obtain rfl : key' = key := h.inj key' key address (h.held key' address phase hmem) hentry
  have husers : users key' s.tasks ≠ 0 := by
    intro hnone
    have hphase : phase ∈ users key' s.tasks := mem_users.2 ⟨address, hmem⟩
    rw [hnone] at hphase
    exact Multiset.notMem_zero _ hphase
  cases Program.stepped hstep with
  | begin visit => exact hgone hentry
  | outer o => exact hgone hentry
  | @go i choice task task' store hp hnext =>
    cases SharedMap.moved hnext with
    | @made key'' request free vacant =>
      refine hgone ((Function.update_of_ne ?_ _ _).trans hentry)
      rintro rfl
      rw [hentry] at vacant
      cases vacant
    | @swept key'' address' c cell idle =>
      obtain ⟨-, hnone⟩ := h.judged key'' address' (List.mem_of_getElem? hp)
      refine hgone ((Function.update_of_ne ?_ _ _).trans hentry)
      rintro rfl
      exact husers hnone
    | _ => exact hgone hentry

theorem env_step {s t : State Key Env Cell Request Phase} {e : Event Key Request Choice Outer}
    (hstep : (program prog).step s e = some t) : t.store.env = s.store.env ∨
      ∃ o, t = { s with store := { s.store with env := prog.outer s.store.env o } } := by
  cases Program.stepped hstep with
  | begin visit => exact .inl rfl
  | outer o => exact .inr ⟨o, rfl⟩
  | go hp hnext =>
    left
    cases SharedMap.moved hnext with
    | _ => rfl

variable {ok : State Key Env Cell Request Phase → Event Key Request Choice Outer → Prop}

theorem Sound.run {s t : State Key Env Cell Request Phase} (h : Sound s)
    (hrun : Run (program prog).step ok s t) : Sound t :=
  hrun.invariant h fun _ _ _ hu _ hstep => hu.step hstep

theorem keeps_each {I : Env → Option Cell → Multiset Phase → Prop}
    (htick : ∀ env o v ps, I env v ps → I (prog.outer env o) v ps)
    (hshown : ∀ env act v ps v' ps', I env v ps → Shown prog env act v ps v' ps' → I env v' ps')
    {s t : State Key Env Cell Request Phase} (hs : Sound s)
    (h : ∀ key, I s.store.env (s.store.value key) (users key s.tasks))
    (hrun : Run (program prog).step ok s t) (key : Key) :
    I t.store.env (t.store.value key) (users key t.tasks) := by
  have hkeep : Sound t ∧ ∀ key, I t.store.env (t.store.value key) (users key t.tasks) := by
    refine hrun.invariant (I := fun u => Sound u ∧
      ∀ key, I u.store.env (u.store.value key) (users key u.tasks)) ⟨hs, h⟩ ?_
    rintro u e v ⟨hu, hI⟩ - hstep
    refine ⟨hu.step hstep, fun key => ?_⟩
    rcases env_step hstep with henv | ⟨o, rfl⟩
    · rw [henv]
      exact hshown _ _ _ _ _ _ (hI key) (hu.shown hstep key)
    · exact htick _ o _ _ (hI key)
  exact hkeep.2 key

end

end SharedMap

end Async

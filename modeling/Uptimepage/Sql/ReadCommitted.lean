import Uptimepage.Async.Run
import Uptimepage.Async.Slots

/-!
# Concurrent transactions at READ COMMITTED

A session runs one transaction after another, a statement at a time.  A statement reads what
is committed at that moment together with its own transaction's writes, takes the locks it
needs, which no other session may hold, and puts its writes behind those of its transaction.
A commit applies these to the committed database; both ends release its locks.
-/

namespace Sql

open Async

/-- What a session does next. -/
inductive Move (Key Write Phase : Type)
  | run (keys : List Key) (writes : List Write) (next : Phase)
  | commit (next : Phase)
  | rollback (next : Phase)

def Move.map {Key Write Phase Phase' : Type} (f : Phase → Phase') :
    Move Key Write Phase → Move Key Write Phase'
  | run keys writes next => .run keys writes (f next)
  | commit next => .commit (f next)
  | rollback next => .rollback (f next)

/-- Where it leads. -/
def Move.dest {Key Write Phase : Type} : Move Key Write Phase → Phase
  | run _ _ next | commit next | rollback next => next

structure Code (Db Key Write Phase Request Outer : Type) where
  apply : Db → Write → Db
  /-- `none` when the session is through. -/
  next : Db → Phase → Option (Move Key Write Phase)
  first : Request → Phase
  /-- Where a session ends that was broken off. -/
  failed : Phase
  /-- What happens to the database by itself. -/
  outer : Db → Outer → Db

structure Session (Key Write Phase : Type) where
  phase : Phase
  held : List Key
  pending : List Write

structure State (Db Key Write Phase : Type) where
  db : Db
  sessions : List (Session Key Write Phase)

inductive Event (Request Outer : Type)
  | begin (request : Request)
  | go (i : Nat)
  | abort (i : Nat)
  | outer (o : Outer)

section

variable {Db Key Write Phase Request Outer : Type}

namespace State

def put (s : State Db Key Write Phase) (i : Nat) (x : Session Key Write Phase) :
    State Db Key Write Phase :=
  { s with sessions := s.sessions.set i x }

@[simp] theorem length_put (s : State Db Key Write Phase) (i : Nat)
    (x : Session Key Write Phase) : (s.put i x).sessions.length = s.sessions.length :=
  List.length_set

/-- No session but the one in slot `i` holds the key. -/
def free [DecidableEq Key] (s : State Db Key Write Phase) (i : Nat) (k : Key) : Bool :=
  (List.range s.sessions.length).all fun j =>
    j == i || !(s.sessions[j]?.any fun x => x.held.contains k)

end State

namespace Code

variable (code : Code Db Key Write Phase Request Outer)

/-- What a transaction with these writes sees. -/
def view (db : Db) (pending : List Write) : Db := pending.foldl code.apply db

def nextOf (s : State Db Key Write Phase) (x : Session Key Write Phase) :
    Option (Move Key Write Phase) :=
  code.next (code.view s.db x.pending) x.phase

def move [DecidableEq Key] (s : State Db Key Write Phase) (i : Nat)
    (x : Session Key Write Phase) : Move Key Write Phase → Option (State Db Key Write Phase)
  | .run keys writes next =>
    if keys.all (s.free i) then some (s.put i ⟨next, keys ++ x.held, x.pending ++ writes⟩)
    else none
  | .commit next => some ({ s with db := code.view s.db x.pending }.put i ⟨next, [], []⟩)
  | .rollback next => some (s.put i ⟨next, [], []⟩)

def step [DecidableEq Key] (s : State Db Key Write Phase) :
    Event Request Outer → Option (State Db Key Write Phase)
  | .begin request => some { s with sessions := s.sessions ++ [⟨code.first request, [], []⟩] }
  | .go i => s.sessions[i]?.bind fun x => (code.nextOf s x).bind (code.move s i x)
  | .abort i => s.sessions[i]?.bind fun x =>
    (code.nextOf s x).map fun _ => s.put i ⟨code.failed, [], []⟩
  | .outer o => some { s with db := code.outer s.db o }

inductive Stepped (s : State Db Key Write Phase) :
    Event Request Outer → State Db Key Write Phase → Prop
  | begin (request : Request) :
    Stepped s (.begin request) { s with sessions := s.sessions ++ [⟨code.first request, [], []⟩] }
  | run {i : Nat} {x : Session Key Write Phase} {keys : List Key} {writes : List Write}
      {next : Phase} (hx : s.sessions[i]? = some x)
      (hnext : code.nextOf s x = some (.run keys writes next))
      (hfree : ∀ (j : Nat) (y : Session Key Write Phase), s.sessions[j]? = some y → j ≠ i →
        ∀ k ∈ keys, k ∉ y.held) :
    Stepped s (.go i) (s.put i ⟨next, keys ++ x.held, x.pending ++ writes⟩)
  | commit {i : Nat} {x : Session Key Write Phase} {next : Phase} (hx : s.sessions[i]? = some x)
      (hnext : code.nextOf s x = some (.commit next)) :
    Stepped s (.go i) ({ s with db := code.view s.db x.pending }.put i ⟨next, [], []⟩)
  | rollback {i : Nat} {x : Session Key Write Phase} {next : Phase} (hx : s.sessions[i]? = some x)
      (hnext : code.nextOf s x = some (.rollback next)) :
    Stepped s (.go i) (s.put i ⟨next, [], []⟩)
  | abort {i : Nat} {x : Session Key Write Phase} {m : Move Key Write Phase}
      (hx : s.sessions[i]? = some x) (hnext : code.nextOf s x = some m) :
    Stepped s (.abort i) (s.put i ⟨code.failed, [], []⟩)
  | outer (o : Outer) : Stepped s (.outer o) { s with db := code.outer s.db o }

end Code

variable {i j : Nat} {k : Key}

theorem State.free_iff [DecidableEq Key] {s : State Db Key Write Phase} :
    s.free i k = true ↔ ∀ (j : Nat) (y : Session Key Write Phase), s.sessions[j]? = some y →
      j ≠ i → k ∉ y.held := by
  unfold State.free
  simp only [List.all_eq_true, List.mem_range, Bool.or_eq_true, beq_iff_eq, Bool.not_eq_true']
  constructor
  · intro h j y hj hne hk
    rcases h j (List.getElem?_eq_some_iff.mp hj).1 with heq | hfree
    · exact hne heq
    · rw [hj, Option.any_some] at hfree
      simp [hk] at hfree
  · intro h j hj
    by_cases hji : j = i
    · exact .inl hji
    · right
      cases hy : s.sessions[j]? with
      | none => rfl
      | some y => simpa using h j y hy hji

variable {code : Code Db Key Write Phase Request Outer} {s s' : State Db Key Write Phase}

variable {e : Event Request Outer} {P : Db → Prop} {db : Db}

theorem Code.stepped [DecidableEq Key] (h : code.step s e = some s') : code.Stepped s e s' := by
  cases e with
  | begin request =>
    cases h
    exact .begin request
  | go i =>
    obtain ⟨x, hx, h⟩ := Option.bind_eq_some_iff.mp h
    obtain ⟨m, hnext, h⟩ := Option.bind_eq_some_iff.mp h
    cases m with
    | run keys writes next =>
      simp only [Code.move] at h
      split at h
      · next hfree =>
        cases h
        refine .run hx hnext ?_
        intro j y hj hne k hk
        exact State.free_iff.1 (List.all_eq_true.mp hfree k hk) j y hj hne
      · cases h
    | commit next =>
      cases h
      exact .commit hx hnext
    | rollback next =>
      cases h
      exact .rollback hx hnext
  | abort i =>
    obtain ⟨x, hx, h⟩ := Option.bind_eq_some_iff.mp h
    obtain ⟨m, hnext, rfl⟩ := Option.map_eq_some_iff.mp h
    exact .abort hx hnext
  | outer o =>
    cases h
    exact .outer o

@[simp] theorem Code.view_nil (db : Db) : code.view db [] = db := rfl

theorem Code.view_append (db : Db) (ws ws' : List Write) :
    code.view db (ws ++ ws') = code.view (code.view db ws) ws' := List.foldl_append

theorem Code.view_cons (db : Db) (w : Write) (ws : List Write) :
    code.view db (w :: ws) = code.view (code.apply db w) ws := rfl

theorem Code.view_kept {ws : List Write} (h : ∀ db, ∀ w ∈ ws, P db → P (code.apply db w))
    (hdb : P db) : P (code.view db ws) := by
  induction ws generalizing db with
  | nil => exact hdb
  | cons w ws ih =>
    exact ih (fun db w' hw' => h db w' (List.mem_cons_of_mem _ hw'))
      (h db w List.mem_cons_self hdb)

/-! ## Locks -/

/-- No two sessions hold the same key. -/
def Exclusive (s : State Db Key Write Phase) : Prop :=
  ∀ (i j : Nat) (x y : Session Key Write Phase) (k : Key), s.sessions[i]? = some x →
    s.sessions[j]? = some y → k ∈ x.held → k ∈ y.held → i = j

variable {x y : Session Key Write Phase}

theorem forall_put {P : Session Key Write Phase → Prop} (hx : P x)
    (hrest : ∀ (j : Nat) (y : Session Key Write Phase), s.sessions[j]? = some y → P y) (j : Nat)
    (y : Session Key Write Phase) (hj : (s.put i x).sessions[j]? = some y) : P y := by
  rcases getElem?_set_cases hj with ⟨-, rfl⟩ | ⟨-, hj⟩
  · exact hx
  · exact hrest j y hj

theorem Exclusive.put (h : Exclusive s)
    (hx : ∀ (j : Nat) (y : Session Key Write Phase), s.sessions[j]? = some y → j ≠ i →
      ∀ k ∈ x.held, k ∉ y.held) : Exclusive (s.put i x) := by
  intro j l y z k hj hl hky hkz
  rcases getElem?_set_cases hj with ⟨hji, hy⟩ | ⟨hji, hj⟩ <;>
    rcases getElem?_set_cases hl with ⟨hli, hz⟩ | ⟨hli, hl⟩
  · exact hji.trans hli.symm
  · exact absurd hkz (hx l z hl hli k (hy ▸ hky))
  · exact absurd hky (hx j y hj hji k (hz ▸ hkz))
  · exact h j l y z k hj hl hky hkz

theorem Exclusive.released (h : Exclusive s) (i : Nat) (p : Phase) :
    Exclusive (s.put i ⟨p, [], []⟩) := h.put fun _ _ _ _ _ hk => absurd hk List.not_mem_nil

theorem Exclusive.step [DecidableEq Key] (h : Exclusive s) (heq : code.step s e = some s') :
    Exclusive s' := by
  cases Code.stepped heq with
  | begin request =>
    intro j l y z k hj hl hky hkz
    rcases getElem?_snoc_cases hj with hj | ⟨-, rfl⟩
    · rcases getElem?_snoc_cases hl with hl | ⟨-, rfl⟩
      · exact h j l y z k hj hl hky hkz
      · exact absurd hkz List.not_mem_nil
    · exact absurd hky List.not_mem_nil
  | run hx hnext hfree =>
    refine h.put ?_
    intro j y hj hne k hk hky
    rcases List.mem_append.mp hk with hk | hk
    · exact hfree j y hj hne k hk hky
    · exact hne (h j _ y _ k hj hx hky hk)
  | @commit i x next hx hnext =>
    have hdb : Exclusive { s with db := code.view s.db x.pending } := h
    exact hdb.released i next
  | rollback hx hnext => exact h.released _ _
  | abort hx hnext => exact h.released _ _
  | outer o => exact h

/-! ## Annotations -/

/-- `written p` is what the transaction of a session at `p` has written, and `locks p` are keys
that it holds: where a move from `p` leads agrees with what the move does. -/
def Move.Follows (written : Phase → List Write) (locks : Phase → List Key) (p : Phase) :
    Move Key Write Phase → Prop
  | .run keys writes q =>
    written q = written p ++ writes ∧ ∀ k ∈ locks q, k ∈ keys ∨ k ∈ locks p
  | .commit q | .rollback q => written q = [] ∧ locks q = []

/-- Every move follows the annotations, and a write stays within the locks: `touches w` is of the
keys of its rows. -/
structure Annotated (next : Db → Phase → Option (Move Key Write Phase))
    (written : Phase → List Write) (locks : Phase → List Key) (touches : Write → Key → Prop) :
    Prop where
  follows : ∀ db p, ∀ m ∈ next db p, m.Follows written locks p
  covered : ∀ p, ∀ w ∈ written p, ∀ k, touches w k → k ∈ locks p

/-- Nothing is written or locked where a session starts or is broken off. -/
structure Code.Starts (code : Code Db Key Write Phase Request Outer)
    (written : Phase → List Write) (locks : Phase → List Key) : Prop where
  first : ∀ request, written (code.first request) = [] ∧ locks (code.first request) = []
  failed : written code.failed = [] ∧ locks code.failed = []

structure Traced (written : Phase → List Write) (locks : Phase → List Key)
    (s : State Db Key Write Phase) : Prop where
  exclusive : Exclusive s
  pending : ∀ (i : Nat) (x : Session Key Write Phase), s.sessions[i]? = some x →
    x.pending = written x.phase
  held : ∀ (i : Nat) (x : Session Key Write Phase), s.sessions[i]? = some x →
    ∀ k ∈ locks x.phase, k ∈ x.held

variable {written : Phase → List Write} {locks : Phase → List Key} {touches : Write → Key → Prop}

theorem Traced.put (h : Traced written locks s) (hexclusive : Exclusive (s.put i x))
    (hpending : x.pending = written x.phase) (hheld : ∀ k ∈ locks x.phase, k ∈ x.held) :
    Traced written locks (s.put i x) :=
  ⟨hexclusive, forall_put hpending h.pending, forall_put hheld h.held⟩

theorem Annotated.traced [DecidableEq Key] (ha : Annotated code.next written locks touches)
    (hstarts : code.Starts written locks) (h : Traced written locks s)
    (heq : code.step s e = some s') : Traced written locks s' := by
  have hexclusive := h.exclusive.step heq
  have hended : ∀ {p : Phase}, written p = [] ∧ locks p = [] →
      ([] : List Write) = written p ∧ ∀ k ∈ locks p, k ∈ ([] : List Key) := by
    rintro p ⟨hwritten, hlocks⟩
    rw [hwritten, hlocks]
    exact ⟨rfl, fun _ hk => hk⟩
  cases Code.stepped heq with
  | begin request =>
    refine ⟨hexclusive, ?_, ?_⟩
    · intro j y hj
      rcases getElem?_snoc_cases hj with hj | ⟨-, rfl⟩
      · exact h.pending j y hj
      · exact (hended (hstarts.first request)).1
    · intro j y hj
      rcases getElem?_snoc_cases hj with hj | ⟨-, rfl⟩
      · exact h.held j y hj
      · exact (hended (hstarts.first request)).2
  | run hx hnext hfree =>
    obtain ⟨hwritten, hlocks⟩ := ha.follows _ _ _ hnext
    refine h.put hexclusive ?_ ?_
    · rw [hwritten, h.pending _ _ hx]
    · intro k hk
      rcases hlocks k hk with hk | hk
      · exact List.mem_append_left _ hk
      · exact List.mem_append_right _ (h.held _ _ hx k hk)
  | @commit i x next hx hnext =>
    have hdb : Traced written locks { s with db := code.view s.db x.pending } :=
      ⟨h.exclusive, h.pending, h.held⟩
    exact hdb.put hexclusive (hended (ha.follows _ _ _ hnext)).1 (hended (ha.follows _ _ _ hnext)).2
  | rollback hx hnext =>
    exact h.put hexclusive (hended (ha.follows _ _ _ hnext)).1 (hended (ha.follows _ _ _ hnext)).2
  | abort hx hnext => exact h.put hexclusive (hended hstarts.failed).1 (hended hstarts.failed).2
  | outer o => exact ⟨hexclusive, h.pending, h.held⟩

theorem Traced.same (h : Traced written locks s) (hx : s.sessions[i]? = some x)
    (hy : s.sessions[j]? = some y) (hkx : k ∈ locks x.phase) (hky : k ∈ locks y.phase) : i = j :=
  h.exclusive i j x y k hx hy (h.held i x hx k hkx) (h.held j y hy k hky)

theorem Annotated.stays (ha : Annotated code.next written locks touches)
    (h : Traced written locks s) (hP : ∀ db w, ¬touches w k → P db → P (code.apply db w))
    (hx : s.sessions[i]? = some x) (hy : s.sessions[j]? = some y) (hne : i ≠ j)
    (hk : k ∈ locks y.phase) (hdb : P s.db) : P (code.view s.db x.pending) := by
  refine code.view_kept ?_ hdb
  intro db w hw hdb
  refine hP db w ?_ hdb
  intro hkw
  rw [h.pending i x hx] at hw
  exact hne (h.same hx hy (ha.covered _ _ hw k hkw) hk)

/-! ## A transaction by itself -/

theorem Annotated.alone [DecidableEq Key] (ha : Annotated code.next written locks touches)
    (sees : Phase → Prop) (hsees : ∀ p keys writes q, sees p →
      code.next (code.view db (written p)) p = some (.run keys writes q) → sees q)
    (hthrough : ∀ db p q, code.next db p = some (.commit q) ∨ code.next db p = some (.rollback q) →
      ∀ db', code.next db' q = none) {p₀ : Phase} (hwritten : written p₀ = []) (hsees₀ : sees p₀)
    (hrun : Run code.step (fun _ e => e = .go 0) ⟨db, [⟨p₀, [], []⟩]⟩ s) :
    s.db = db ∨ ∃ p q, sees p ∧ code.next (code.view db (written p)) p = some (.commit q) ∧
      s.db = code.view db (written p) := by
  let ended (s : State Db Key Write Phase) : Prop :=
    s.db = db ∨ ∃ p q, sees p ∧ code.next (code.view db (written p)) p = some (.commit q) ∧
      s.db = code.view db (written p)
  let ongoing (s : State Db Key Write Phase) : Prop :=
    s.db = db ∧ ∃ x, s.sessions = [x] ∧ x.pending = written x.phase ∧ sees x.phase
  let through (s : State Db Key Write Phase) : Prop :=
    ended s ∧ ∃ x, s.sessions = [x] ∧ ∀ db', code.next db' x.phase = none
  have hstart : ongoing ⟨db, [⟨p₀, [], []⟩]⟩ := ⟨rfl, _, rfl, hwritten.symm, hsees₀⟩
  have hinv : ongoing s ∨ through s := by
    refine hrun.invariant (I := fun s => ongoing s ∨ through s) (.inl hstart) ?_
    rintro ⟨db₁, sessions⟩ e v hu rfl heq
    have hone : ∀ {x y z : Session Key Write Phase}, [x][0]? = some y → [x].set 0 z = [z] ∧ x = y :=
      fun h => ⟨rfl, Option.some.inj h⟩
    rcases hu with ⟨rfl, x, hsessions, hpending, hx⟩ | ⟨-, x, hsessions, hx⟩
    · obtain rfl : sessions = [x] := hsessions
      cases Code.stepped heq with
      | run hy hnext hfree =>
        obtain ⟨hset, rfl⟩ := hone (z := _) hy
        unfold Code.nextOf at hnext
        rw [hpending] at hnext
        refine .inl ⟨rfl, _, hset, ?_, hsees _ _ _ _ hx hnext⟩
        rw [hpending]
        exact (ha.follows _ _ _ hnext).1.symm
      | commit hy hnext =>
        obtain ⟨hset, rfl⟩ := hone (z := _) hy
        unfold Code.nextOf at hnext
        rw [hpending] at hnext
        refine .inr ⟨.inr ⟨_, _, hx, hnext, ?_⟩, _, hset, hthrough _ _ _ (.inl hnext)⟩
        show code.view db₁ x.pending = _
        rw [hpending]
      | rollback hy hnext =>
        obtain ⟨hset, rfl⟩ := hone (z := _) hy
        exact .inr ⟨.inl rfl, _, hset, hthrough _ _ _ (.inr hnext)⟩
    · obtain rfl : sessions = [x] := hsessions
      cases Code.stepped heq with
      | run hy hnext | commit hy hnext | rollback hy hnext =>
        obtain ⟨-, rfl⟩ := hone (z := x) hy
        rw [Code.nextOf, hx] at hnext
        cases hnext
  rcases hinv with ⟨hdb, -⟩ | ⟨hended, -⟩
  · exact .inl hdb
  · exact hended

/-! ## Requests of several kinds -/

theorem Annotated.follows_map {Phase' : Type} {f : Phase → Phase'}
    {next : Db → Phase → Option (Move Key Write Phase)} {written' : Phase' → List Write}
    {locks' : Phase' → List Key} (ha : Annotated next written locks touches)
    (hwritten : ∀ p, written' (f p) = written p) (hlocks : ∀ p, locks' (f p) = locks p)
    {p : Phase} {m : Move Key Write Phase'} (hm : m ∈ (next db p).map (Move.map f)) :
    m.Follows written' locks' (f p) := by
  obtain ⟨m₀, hnext, rfl⟩ := Option.map_eq_some_iff.mp hm
  have hfollows := ha.follows db p m₀ hnext
  cases m₀ <;> simpa only [Move.Follows, Move.map, hwritten, hlocks] using hfollows

end

end Sql

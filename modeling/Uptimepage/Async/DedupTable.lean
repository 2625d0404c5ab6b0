import Mathlib.Data.List.Nodup

/-!
# Tables that drop a repeated block

A table remembers the last blocks written to it and drops a block identical to one of
them.  Blocks are compared by their rows.  Each row also carries the number of the item
it was made from, which the table does not see: that number is what "stored once" is
about.
-/

structure DedupTable (Row : Type) where
  rows : List (Nat × Row)
  recent : List (List Row)
deriving DecidableEq

/-- What became of one insert: `unacked` was applied and reported as an error, `refused`
was not applied. -/
inductive InsertOutcome
  | acked
  | unacked
  | refused
deriving DecidableEq

namespace DedupTable

variable {Row : Type} [DecidableEq Row]

def empty : DedupTable Row where
  rows := []
  recent := []

/-- Insert into a table whose window holds `window` blocks, newest first. -/
def insert (window : Nat) (t : DedupTable Row) (block : List (Nat × Row)) : DedupTable Row :=
  if block.map Prod.snd ∈ t.recent then t
  else
    { rows := t.rows ++ block, recent := (block.map Prod.snd :: t.recent).take window }

def items (t : DedupTable Row) : List Nat := t.rows.map Prod.fst

/-- No item is stored twice. -/
def Once (t : DedupTable Row) : Prop := t.items.Nodup

/-- The items that joined the table since it was `old`. -/
def since (old t : DedupTable Row) : List Nat := t.items.drop old.items.length

/-- Insert after insert, until one is acknowledged; `false` when none was. -/
def send (window : Nat) (block : List (Nat × Row)) :
    DedupTable Row → List InsertOutcome → DedupTable Row × Bool
  | t, [] => (t, false)
  | t, .acked :: _ => (t.insert window block, true)
  | t, .unacked :: rest => send window block (t.insert window block) rest
  | t, .refused :: rest => send window block t rest

/-- Some insert was applied. -/
def lands (outcomes : List InsertOutcome) : Bool := outcomes.any (· != .refused)

/-- Some insert was acknowledged. -/
def succeeds (outcomes : List InsertOutcome) : Bool := outcomes.any (· == .acked)

/-- The block, if it lands, is one the table remembers or has no item in the table yet. -/
def Resendable (t : DedupTable Row) (block : List (Nat × Row)) (outcomes : List InsertOutcome) :
    Prop :=
  lands outcomes = true → block.map Prod.snd ∈ t.recent ∨ ∀ n ∈ block.map Prod.fst, n ∉ t.items

instance (t : DedupTable Row) (block : List (Nat × Row)) (outcomes : List InsertOutcome) :
    Decidable (t.Resendable block outcomes) :=
  inferInstanceAs (Decidable (_ → _))

variable {window : Nat} {t : DedupTable Row} {block : List (Nat × Row)}

omit [DecidableEq Row] in
theorem resendable_iff {outcomes : List InsertOutcome} :
    t.Resendable block outcomes ↔ (lands outcomes = true →
      (∃ n ∈ block.map Prod.fst, n ∈ t.items) → block.map Prod.snd ∈ t.recent) := by
  refine imp_congr_right fun _ => ?_
  constructor
  · rintro (hrecent | hnew) ⟨n, hn, hstored⟩
    · exact hrecent
    · exact absurd hstored (hnew n hn)
  · intro hsame
    by_cases hshared : ∃ n ∈ block.map Prod.fst, n ∈ t.items
    · exact .inl (hsame hshared)
    · exact .inr fun n hn hstored => hshared ⟨n, hn, hstored⟩

theorem insert_remembered (h : block.map Prod.snd ∈ t.recent) : t.insert window block = t := by
  rw [insert, if_pos h]

theorem items_insert (h : block.map Prod.snd ∉ t.recent) :
    (t.insert window block).items = t.items ++ block.map Prod.fst := by
  rw [insert, if_neg h, items, items, List.map_append]

theorem items_prefix_insert : t.items <+: (t.insert window block).items := by
  by_cases hrec : block.map Prod.snd ∈ t.recent
  · exact ⟨[], by rw [insert_remembered hrec, List.append_nil]⟩
  · rw [items_insert hrec]
    exact List.prefix_append _ _

omit [DecidableEq Row] in
theorem items_eq_append_since {old : DedupTable Row} (h : old.items <+: t.items) :
    t.items = old.items ++ old.since t := by
  obtain ⟨new, hnew⟩ := h
  rw [since, ← hnew, List.drop_left]

theorem insert_insert (hw : 0 < window) :
    (t.insert window block).insert window block = t.insert window block := by
  apply insert_remembered
  by_cases hrec : block.map Prod.snd ∈ t.recent
  · rwa [insert_remembered hrec]
  · rw [insert, if_neg hrec]
    obtain ⟨n, rfl⟩ := Nat.exists_eq_succ_of_ne_zero (Nat.ne_of_gt hw)
    rw [List.take_succ_cons]
    exact List.mem_cons_self

theorem send_eq (hw : 0 < window) (outcomes : List InsertOutcome) :
    t.send window block outcomes =
      (if lands outcomes then t.insert window block else t, succeeds outcomes) := by
  induction outcomes generalizing t with
  | nil => rfl
  | cons o rest ih =>
    cases o with
    | acked => rfl
    | unacked =>
      rw [send, ih, insert_insert hw, ite_self]
      rfl
    | refused =>
      rw [send, ih]
      rfl

theorem items_prefix_send (hw : 0 < window) (t : DedupTable Row) (block : List (Nat × Row))
    (outcomes : List InsertOutcome) :
    t.items <+: (t.send window block outcomes).1.items ∧
      ∀ n ∈ t.since (t.send window block outcomes).1, n ∈ block.map Prod.fst := by
  have hnone : ∀ n ∈ t.since t, n ∈ block.map Prod.fst := by simp [since]
  rw [send_eq hw]
  split
  · refine ⟨items_prefix_insert, ?_⟩
    by_cases hrec : block.map Prod.snd ∈ t.recent
    · rwa [insert_remembered hrec]
    · rw [since, items_insert hrec, List.drop_left]
      exact fun n hn => hn
  · exact ⟨List.prefix_rfl, hnone⟩

theorem insert_once_iff (ht : t.Once) (hblock : (block.map Prod.fst).Nodup) :
    (t.insert window block).Once ↔
      block.map Prod.snd ∈ t.recent ∨ ∀ n ∈ block.map Prod.fst, n ∉ t.items := by
  by_cases hrec : block.map Prod.snd ∈ t.recent
  · rw [insert_remembered hrec]
    exact iff_of_true ht (.inl hrec)
  · rw [Once, items_insert hrec, List.nodup_append']
    constructor
    · rintro ⟨-, -, hdisj⟩
      exact .inr fun n hn hmem => hdisj hmem hn
    · rintro (h | h)
      · exact absurd h hrec
      · exact ⟨ht, hblock, fun n hmem hn => h n hn hmem⟩

theorem send_once_iff (hw : 0 < window) (ht : t.Once) (hblock : (block.map Prod.fst).Nodup)
    (outcomes : List InsertOutcome) :
    (t.send window block outcomes).1.Once ↔ t.Resendable block outcomes := by
  rw [send_eq hw, Resendable]
  cases hlands : lands outcomes with
  | false => simpa using ht
  | true => simpa using insert_once_iff ht hblock

end DedupTable

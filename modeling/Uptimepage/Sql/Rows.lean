import Uptimepage.Store.Table

/-!
# Tables with a primary key

`Rows key` is a table in which no two rows have the same `key`.  An `UPDATE` is written with
a function that leaves the key alone, so every operation keeps the keys distinct.
-/

namespace Sql

structure Rows {α κ : Type} (key : α → κ) where
  rows : List α
  nodup : (rows.map key).Nodup

namespace Rows

variable {α κ : Type} {key : α → κ}

def empty : Rows key := ⟨[], List.nodup_nil⟩

def single (r : α) : Rows key := ⟨[r], List.nodup_singleton (key r)⟩

section

variable [DecidableEq κ]

/-- `SELECT … WHERE key = k`. -/
def get? (t : Rows key) (k : κ) : Option α := t.rows.find? fun r => key r = k

/-- `INSERT … ON CONFLICT DO NOTHING`. -/
def insert (t : Rows key) (r : α) : Rows key :=
  if h : key r ∈ t.rows.map key then t
  else
    ⟨t.rows ++ [r], by
      rw [List.map_append, List.nodup_append']
      refine ⟨t.nodup, List.nodup_singleton _, ?_⟩
      intro k hk hr
      rw [List.map_singleton, List.mem_singleton] at hr
      exact h (hr ▸ hk)⟩

end

/-- `UPDATE … SET f WHERE p`. -/
def update (t : Rows key) (p : α → Bool) (f : α → α) (hf : ∀ r, key (f r) = key r) : Rows key :=
  ⟨Table.update p f t.rows, by
    rw [Table.map_update hf]
    exact t.nodup⟩

/-- `DELETE … WHERE p`. -/
def delete (t : Rows key) (p : α → Bool) : Rows key :=
  ⟨t.rows.filter fun r => !p r, t.nodup.sublist (List.filter_sublist.map key)⟩

variable {t : Rows key} {r r' : α} {p : α → Bool} {f : α → α}

theorem ext {t t' : Rows key} (h : t.rows = t'.rows) : t = t' := by
  cases t
  cases t'
  congr

theorem eq_of_key (hr : r ∈ t.rows) (hr' : r' ∈ t.rows) (h : key r = key r') : r = r' :=
  List.inj_on_of_nodup_map t.nodup hr hr' h

theorem mem_delete : r ∈ (t.delete p).rows ↔ r ∈ t.rows ∧ p r = false := by
  unfold delete
  rw [List.mem_filter, Bool.not_eq_true']

theorem mem_update {hf : ∀ r, key (f r) = key r} (h : r ∈ (t.update p f hf).rows) :
    r ∈ t.rows ∨ ∃ r₀ ∈ t.rows, p r₀ = true ∧ r = f r₀ := Table.mem_update h

theorem mem_update_of_pos (hf : ∀ r, key (f r) = key r) (h : r ∈ t.rows) (hp : p r = true) :
    f r ∈ (t.update p f hf).rows := by
  refine List.mem_map.mpr ⟨r, h, ?_⟩
  rw [if_pos hp]

theorem mem_update_of_neg (hf : ∀ r, key (f r) = key r) (h : r ∈ t.rows) (hp : p r = false) :
    r ∈ (t.update p f hf).rows := by
  refine List.mem_map.mpr ⟨r, h, ?_⟩
  rw [if_neg (by rw [hp]; exact Bool.false_ne_true)]

section

variable [DecidableEq κ] {k : κ}

theorem mem_update_one (hf : ∀ r, key (f r) = key r) (hr : r ∈ t.rows) (hp : p r = true)
    (hone : ∀ r', p r' = true → key r' = key r) :
    r' ∈ (t.update p f hf).rows ↔ r' = f r ∨ (r' ∈ t.rows ∧ key r' ≠ key r) := by
  have hself : f r ∈ (t.update p f hf).rows := mem_update_of_pos hf hr hp
  constructor
  · intro h
    by_cases hkey : key r' = key r
    · exact .inl (eq_of_key h hself (hkey.trans (hf r).symm))
    · rcases mem_update h with hold | ⟨r₀, -, hp₀, rfl⟩
      · exact .inr ⟨hold, hkey⟩
      · exact absurd ((hf r₀).trans (hone r₀ hp₀)) hkey
  · rintro (rfl | ⟨hold, hne⟩)
    · exact hself
    · exact mem_update_of_neg hf hold (Bool.eq_false_iff.mpr fun hp' => hne (hone r' hp'))

theorem get?_eq_some : t.get? k = some r ↔ r ∈ t.rows ∧ key r = k := by
  constructor
  · intro h
    unfold get? at h
    have hk := List.find?_some h
    exact ⟨List.mem_of_find?_eq_some h, of_decide_eq_true hk⟩
  · rintro ⟨hr, hk⟩
    cases h : t.get? k with
    | none =>
      unfold get? at h
      rw [List.find?_eq_none] at h
      exact absurd (decide_eq_true hk) (h r hr)
    | some r' =>
      unfold get? at h
      have hkey := List.find?_some h
      have hk' := of_decide_eq_true hkey
      rw [eq_of_key (List.mem_of_find?_eq_some h) hr (hk'.trans hk.symm)]

theorem get?_eq_none : t.get? k = none ↔ ∀ r ∈ t.rows, key r ≠ k := by
  unfold get?
  rw [List.find?_eq_none]
  simp only [decide_eq_true_eq, ne_eq]

theorem get?_congr {t' : Rows key} (h : ∀ r, key r = k → (r ∈ t'.rows ↔ r ∈ t.rows)) :
    t'.get? k = t.get? k := by
  apply Option.ext
  intro r
  rw [get?_eq_some, get?_eq_some]
  constructor
  · rintro ⟨hr, hk⟩
    exact ⟨(h r hk).mp hr, hk⟩
  · rintro ⟨hr, hk⟩
    exact ⟨(h r hk).mpr hr, hk⟩

theorem mem_insert (h : r' ∈ (t.insert r).rows) : r' ∈ t.rows ∨ r' = r := by
  unfold insert at h
  split at h
  · exact .inl h
  · simpa using h

theorem mem_insert_of_mem (h : r' ∈ t.rows) : r' ∈ (t.insert r).rows := by
  unfold insert
  split
  · exact h
  · exact List.mem_append_left _ h

theorem mem_insert_self (h : t.get? (key r) = none) : r ∈ (t.insert r).rows := by
  rw [get?_eq_none] at h
  unfold insert
  split
  · next hmem =>
    obtain ⟨r', hr', hkey⟩ := List.mem_map.mp hmem
    exact absurd hkey (h r' hr')
  · exact List.mem_append_right _ (List.mem_singleton.mpr rfl)

theorem get?_insert_of_some (h : t.get? k = some r') : (t.insert r).get? k = some r' := by
  obtain ⟨hmem, hk⟩ := get?_eq_some.1 h
  exact get?_eq_some.2 ⟨mem_insert_of_mem hmem, hk⟩

theorem get?_insert_ne (h : key r ≠ k) : (t.insert r).get? k = t.get? k := by
  apply get?_congr
  intro r' hk
  constructor
  · intro hr'
    rcases mem_insert hr' with hr' | rfl
    · exact hr'
    · exact absurd hk h
  · exact mem_insert_of_mem

theorem get?_update (hf : ∀ r, key (f r) = key r) :
    (t.update p f hf).get? k = (t.get? k).map fun r => if p r then f r else r :=
  Table.find?_update (fun r => by rw [hf]) t.rows

theorem get?_update_of (hf : ∀ r, key (f r) = key r) (h : ∀ r, key r = k → p r = false) :
    (t.update p f hf).get? k = t.get? k := by
  rw [get?_update]
  cases heq : t.get? k with
  | none => rfl
  | some r =>
    rw [Option.map_some, h r (get?_eq_some.1 heq).2, if_neg Bool.false_ne_true]

theorem get?_delete_of (h : ∀ r ∈ t.rows, key r = k → p r = false) :
    (t.delete p).get? k = t.get? k := by
  apply get?_congr
  intro r hk
  rw [mem_delete]
  exact ⟨And.left, fun hr => ⟨hr, h r hr hk⟩⟩

end

end Rows

end Sql

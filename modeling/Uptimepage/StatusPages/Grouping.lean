import Mathlib.Data.List.Sort
import Mathlib.Data.Prod.Lex
import Mathlib.Data.String.Basic
import Mathlib.Order.WithBot
import Uptimepage.StatusPages.View

/-!
# The groups of a status page

The aggregator sorts the components by group, order and name, cuts the list where the group
changes, and moves the ungrouped ones to the end.  `grouping_faithful` says that nothing is lost:
the list is sorted, so one cut is one group.
-/

namespace Uptimepage.PublicStatus

structure ComponentRow where
  group : Option String
  sortOrder : Int
  component : PublicComponent

/-- The order of `Option<String>`: no group comes first. -/
def groupKey : Option String → WithBot String
  | none => ⊥
  | some name => name

def ComponentRow.place (r : ComponentRow) : Lex (Int × String) :=
  toLex (r.sortOrder, r.component.name)

def ComponentRow.key (r : ComponentRow) : Lex (WithBot String × Lex (Int × String)) :=
  toLex (groupKey r.group, r.place)

/-- The groups that are done, and the one under way. -/
structure Grouping where
  groups : List PublicComponentGroup
  current : Option String
  items : List PublicComponent

def Grouping.start : Grouping := ⟨[], none, []⟩

def Grouping.push (acc : Grouping) (r : ComponentRow) : Grouping :=
  let acc :=
    if r.group ≠ acc.current then
      if !acc.items.isEmpty || acc.current.isSome then
        ⟨acc.groups ++ [⟨acc.current, acc.items⟩], r.group, []⟩
      else { acc with current := r.group }
    else acc
  { acc with items := acc.items ++ [r.component] }

def Grouping.finish (acc : Grouping) : List PublicComponentGroup :=
  if acc.items.isEmpty then acc.groups else acc.groups ++ [⟨acc.current, acc.items⟩]

def ungroupedLast (groups : List PublicComponentGroup) : List PublicComponentGroup :=
  match groups.findIdx? (·.name.isNone) with
  | none => groups
  | some i => groups.eraseIdx i ++ groups[i]?.toList

def sortRows (rows : List ComponentRow) : List ComponentRow :=
  rows.insertionSort fun a b => a.key ≤ b.key

def buildGroups (rows : List ComponentRow) : List PublicComponentGroup :=
  ungroupedLast ((sortRows rows).foldl Grouping.push .start).finish

/-- A group's components, each under the group's name. -/
def PublicComponentGroup.named (g : PublicComponentGroup) : List (Option String × PublicComponent) :=
  g.components.map fun c => (g.name, c)

def ComponentRow.named (r : ComponentRow) : Option String × PublicComponent := (r.group, r.component)

/-- The groups so far, the one under way among them. -/
def Grouping.all (acc : Grouping) : List PublicComponentGroup :=
  acc.groups ++ [⟨acc.current, acc.items⟩]

/-- After the rows `done`, if any: they are grouped in order, by strictly greater names. -/
structure Groups (done : List ComponentRow) (acc : Grouping) : Prop where
  same : acc.all.flatMap PublicComponentGroup.named = done.map ComponentRow.named
  filled : ∀ g ∈ acc.all, g.components ≠ []
  ascending : (acc.all.map fun g => groupKey g.name).Pairwise (· < ·)

section

variable {rows done l : List ComponentRow} {r : ComponentRow} {acc : Grouping}
  {groups : List PublicComponentGroup} {g : PublicComponentGroup}

theorem groupKey_inj {a b : Option String} (h : groupKey a = groupKey b) : a = b := by
  cases a <;> cases b <;> simp_all [groupKey]

theorem groups_start (r : ComponentRow) : Groups [r] (Grouping.start.push r) := by
  have hpush : (Grouping.start.push r).all = [⟨r.group, [r.component]⟩] := by
    unfold Grouping.push Grouping.start Grouping.all
    cases r.group <;> rfl
  refine ⟨?_, ?_, ?_⟩
  · rw [hpush]
    rfl
  · rw [hpush]
    simp
  · rw [hpush]
    simp

theorem Groups.push (h : Groups done acc) (hlast : groupKey acc.current ≤ groupKey r.group) :
    Groups (done ++ [r]) (acc.push r) := by
  have hitems : acc.items ≠ [] := h.filled ⟨acc.current, acc.items⟩ (by simp [Grouping.all])
  by_cases hsame : r.group = acc.current
  · have hpush : acc.push r = { acc with items := acc.items ++ [r.component] } := by
      unfold Grouping.push
      rw [if_neg (not_not.mpr hsame)]
    refine ⟨?_, ?_, ?_⟩
    · have hold := h.same
      rw [hpush]
      simp only [Grouping.all, List.flatMap_append, List.flatMap_singleton,
        PublicComponentGroup.named, List.map_append, List.map_singleton] at hold ⊢
      rw [← List.append_assoc, hold, ComponentRow.named, hsame]
    · rw [hpush]
      intro g hg
      rcases List.mem_append.mp hg with hg | hg
      · exact h.filled g (List.mem_append_left _ hg)
      · rw [List.mem_singleton.mp hg]
        simp
    · rw [hpush]
      simpa [Grouping.all] using h.ascending
  · have hpush : acc.push r = ⟨acc.all, r.group, [r.component]⟩ := by
      unfold Grouping.push
      rw [if_pos hsame, if_pos (by simp [hitems])]
      rfl
    have hless : groupKey acc.current < groupKey r.group :=
      lt_of_le_of_ne hlast fun heq => hsame (groupKey_inj heq).symm
    refine ⟨?_, ?_, ?_⟩
    · rw [hpush, Grouping.all, List.flatMap_append, h.same, List.map_append]
      rfl
    · rw [hpush]
      intro g hg
      rcases List.mem_append.mp hg with hg | hg
      · exact h.filled g hg
      · rw [List.mem_singleton.mp hg]
        simp
    · rw [hpush, Grouping.all, List.map_append, List.map_singleton, List.pairwise_append]
      refine ⟨h.ascending, List.pairwise_singleton _ _, ?_⟩
      intro k hk k' hk'
      rw [List.mem_singleton.mp hk']
      -- the names so far are at most the last one
      rw [Grouping.all, List.map_append, List.map_singleton] at hk
      have hasc := h.ascending
      rw [Grouping.all, List.map_append, List.map_singleton, List.pairwise_append] at hasc
      rcases List.mem_append.mp hk with hk | hk
      · exact lt_trans (hasc.2.2 k hk _ (List.mem_singleton.mpr rfl)) hless
      · rw [List.mem_singleton.mp hk]
        exact hless

theorem current_push (acc : Grouping) (r : ComponentRow) : (acc.push r).current = r.group := by
  unfold Grouping.push
  by_cases hsame : r.group = acc.current
  · rw [if_neg (not_not.mpr hsame)]
    exact hsame.symm
  · rw [if_pos hsame]
    split <;> rfl

theorem groupKey_le {a b : ComponentRow} (h : a.key ≤ b.key) : groupKey a.group ≤ groupKey b.group := by
  rcases Prod.Lex.le_iff.mp h with hlt | ⟨heq, -⟩
  · exact le_of_lt hlt
  · exact le_of_eq heq

theorem place_le {a b : ComponentRow} (h : a.key ≤ b.key) (hgroup : a.group = b.group) :
    a.place ≤ b.place := by
  rcases Prod.Lex.le_iff.mp h with hlt | ⟨-, hle⟩
  · exact absurd (congrArg groupKey hgroup) (ne_of_lt hlt)
  · exact hle

theorem Groups.foldl (h : Groups (done ++ [r]) acc) (hr : acc.current = r.group)
    (hsorted : (r :: l).Pairwise fun a b => a.key ≤ b.key) :
    Groups (done ++ r :: l) (l.foldl Grouping.push acc) := by
  induction l generalizing done r acc with
  | nil => exact h
  | cons s l ih =>
    obtain ⟨hfirst, hrest⟩ := List.pairwise_cons.mp hsorted
    have hle : groupKey acc.current ≤ groupKey s.group := by
      rw [hr]
      exact groupKey_le (hfirst s List.mem_cons_self)
    have hnext := ih (h.push hle) (current_push acc s) hrest
    rwa [List.append_assoc] at hnext

theorem groups_sorted (hsorted : l.Pairwise fun a b => a.key ≤ b.key) :
    (l.foldl Grouping.push .start).finish.flatMap PublicComponentGroup.named =
        l.map ComponentRow.named ∧
      ((l.foldl Grouping.push .start).finish.map PublicComponentGroup.name).Nodup := by
  cases l with
  | nil => exact ⟨rfl, List.nodup_nil⟩
  | cons r l =>
    have hstart : Groups ([] ++ [r]) (Grouping.push .start r) := groups_start r
    have h : Groups (r :: l) ((r :: l).foldl Grouping.push .start) :=
      hstart.foldl (current_push _ r) hsorted
    have hitems := h.filled ⟨_, _⟩ (List.mem_append_right _ (List.mem_singleton.mpr rfl))
    have hfinish : ((r :: l).foldl Grouping.push .start).finish =
        ((r :: l).foldl Grouping.push .start).all := by
      unfold Grouping.finish
      rw [if_neg (by simpa using hitems)]
      rfl
    rw [hfinish]
    refine ⟨h.same, ?_⟩
    have hnodup := h.ascending.imp fun hlt => ne_of_lt hlt
    rw [List.Nodup, List.pairwise_map]
    rw [List.pairwise_map] at hnodup
    exact hnodup.imp fun hne heq => hne (congrArg groupKey heq)

theorem filter_named (hnodup : (groups.map PublicComponentGroup.name).Nodup) (hg : g ∈ groups) :
    (groups.flatMap PublicComponentGroup.named).filter (fun x => x.1 = g.name) = g.named := by
  have hother : ∀ k : PublicComponentGroup, k.name ≠ g.name →
      k.named.filter (fun x => x.1 = g.name) = [] := by
    intro k hne
    rw [List.filter_eq_nil_iff]
    intro x hx
    obtain ⟨c, -, rfl⟩ := List.mem_map.mp hx
    simpa using hne
  induction groups with
  | nil => cases hg
  | cons k groups ih =>
    rw [List.map_cons, List.nodup_cons] at hnodup
    rw [List.flatMap_cons, List.filter_append]
    rcases List.mem_cons.mp hg with rfl | hg
    · have hrest : (groups.flatMap PublicComponentGroup.named).filter (fun x => x.1 = g.name) =
          [] := by
        rw [List.filter_eq_nil_iff]
        intro x hx
        obtain ⟨k, hk, hxk⟩ := List.mem_flatMap.mp hx
        obtain ⟨c, -, rfl⟩ := List.mem_map.mp hxk
        have hne : k.name ≠ g.name := fun heq => hnodup.1 (heq ▸ List.mem_map_of_mem hk)
        simpa using hne
      have hown : g.named.filter (fun x => x.1 = g.name) = g.named := by
        rw [List.filter_eq_self]
        intro x hx
        obtain ⟨c, -, rfl⟩ := List.mem_map.mp hx
        simp
      rw [hrest, hown, List.append_nil]
    · rw [hother k fun heq => hnodup.1 (heq ▸ List.mem_map_of_mem hg), List.nil_append]
      exact ih hnodup.2 hg

theorem ungroupedLast_perm (groups : List PublicComponentGroup) :
    (ungroupedLast groups).Perm groups := by
  unfold ungroupedLast
  split
  · exact List.Perm.refl _
  · next i hi =>
    obtain ⟨hlt, -⟩ := List.findIdx?_eq_some_iff_getElem.mp hi
    rw [List.getElem?_eq_getElem hlt]
    have hperm : (groups[i] :: groups.eraseIdx i).Perm groups := List.getElem_cons_eraseIdx_perm hlt
    exact (List.perm_append_singleton _ _).trans hperm

theorem ungroupedLast_last (hnodup : (groups.map PublicComponentGroup.name).Nodup)
    {pre post : List PublicComponentGroup} (hsplit : ungroupedLast groups = pre ++ g :: post)
    (hg : g.name = none) : post = [] := by
  have hmoved := ((ungroupedLast_perm groups).map PublicComponentGroup.name).nodup_iff.mpr hnodup
  obtain ⟨front, last, hend, hlast⟩ : ∃ front last, ungroupedLast groups = front ++ [last] ∧
      last.name = none := by
    have hmem : g ∈ groups :=
      (ungroupedLast_perm groups).mem_iff.mp (hsplit ▸ List.mem_append_right _ List.mem_cons_self)
    unfold ungroupedLast
    split
    · next hnone =>
      have := List.findIdx?_eq_none_iff.mp hnone g hmem
      simp [hg] at this
    · next i hi =>
      obtain ⟨hlt, hname, -⟩ := List.findIdx?_eq_some_iff_getElem.mp hi
      rw [List.getElem?_eq_getElem hlt]
      exact ⟨_, _, rfl, by simpa using hname⟩
  rcases List.eq_nil_or_concat' post with rfl | ⟨mid, x, rfl⟩
  · rfl
  · -- two groups without a name
    exfalso
    have hsame : pre ++ g :: (mid ++ [x]) = front ++ [last] := hsplit.symm.trans hend
    rw [← List.cons_append, ← List.append_assoc] at hsame
    obtain rfl : x = last := (List.cons.inj (List.append_inj' hsame rfl).2).1
    rw [hsplit, List.map_append, List.map_cons, List.map_append, List.nodup_append'] at hmoved
    refine (List.nodup_cons.mp hmoved.2.1).1 ?_
    rw [hg, ← hlast]
    exact List.mem_append_right _ (List.mem_singleton.mpr rfl)

end

/-- **Grouping loses nothing.**  Every component is in its group, once; each group's name stands
once, and what has no group comes last; a group's components are in order. -/
theorem grouping_faithful (rows : List ComponentRow) :
    ((buildGroups rows).flatMap PublicComponentGroup.named).Perm (rows.map ComponentRow.named) ∧
      ((buildGroups rows).map PublicComponentGroup.name).Nodup ∧
      (∀ pre g post, buildGroups rows = pre ++ g :: post → g.name = none → post = []) ∧
      ∀ g ∈ buildGroups rows, ∃ own : List ComponentRow,
        own.Perm (rows.filter fun r => r.group = g.name) ∧
          own.Pairwise (fun a b => a.place ≤ b.place) ∧
          g.components = own.map ComponentRow.component := by
  have hperm : (sortRows rows).Perm rows := List.perm_insertionSort _ _
  have hsorted : (sortRows rows).Pairwise fun a b => a.key ≤ b.key :=
    List.pairwise_insertionSort _ _
  obtain ⟨hsame, hnodup⟩ := groups_sorted hsorted
  have hmoved := ungroupedLast_perm ((sortRows rows).foldl Grouping.push .start).finish
  refine ⟨?_, (hmoved.map _).nodup_iff.mpr hnodup,
    fun pre g post => ungroupedLast_last hnodup, ?_⟩
  · have hall := hmoved.flatMap_right PublicComponentGroup.named
    rw [hsame] at hall
    exact hall.trans (hperm.map _)
  · intro g hg
    have hin := hmoved.mem_iff.mp hg
    have hown := filter_named hnodup hin
    rw [hsame, List.filter_map] at hown
    refine ⟨(sortRows rows).filter fun r => r.group = g.name, hperm.filter _, ?_, ?_⟩
    · refine List.Pairwise.imp_of_mem ?_ (hsorted.filter _)
      intro a b ha hb hle
      have hga := of_decide_eq_true (List.mem_filter.mp ha).2
      have hgb := of_decide_eq_true (List.mem_filter.mp hb).2
      exact place_le hle (hga.trans hgb.symm)
    · have hsnd := congrArg (List.map Prod.snd) hown
      simp only [PublicComponentGroup.named, List.map_map] at hsnd
      have hid : g.components.map (Prod.snd ∘ fun c => (g.name, c)) = g.components :=
        List.map_id' _
      rw [← hid, ← hsnd]
      rfl

end Uptimepage.PublicStatus

import Mathlib.Data.List.Perm.Basic
import Uptimepage.Domain.OnCall

/-!
# The order of the rows

`resolve_on_call` sorts what it is given.  Rows that come in another order give the same responders
as long as no two of them tie (`on_call_order_independent`); what it gives is read off the rows
themselves: who covers the instant, or else whose slot it is in the layer that outranks the others.
It panics where a date of that layer is not in the calendar (`returns_resolveOnCall_iff`).
-/

namespace Uptimepage.OnCall

open Chrono

/-- The layer is not below the other in the stack. -/
def outranks (a b : OnCallLayer) : Prop :=
  b.layerOrder < a.layerOrder ∨ b.layerOrder = a.layerOrder ∧ a.createdAt ≤ b.createdAt

def covers (o : OnCallOverride) (at_ : Time) : Prop := o.startsAt ≤ at_ ∧ at_ < o.endsAt

instance (o : OnCallOverride) (at_ : Time) : Decidable (covers o at_) :=
  inferInstanceAs (Decidable (_ ∧ _))

/-- What no two rows have in common. -/
def rank (l : OnCallLayer) : Int × Time := (l.layerOrder, l.createdAt)

/-- The layer's participants in another order. -/
def Shuffled (l l' : OnCallLayer) : Prop :=
  l' = { l with participants := l'.participants } ∧ l.participants.Perm l'.participants

/-- The same responders, in whatever order, or the same panic. -/
def SameResponders : Except Panic (List UserId) → Except Panic (List UserId) → Prop
  | .ok users, .ok users' => ∀ user, user ∈ users ↔ user ∈ users'
  | .error p, .error p' => p = p'
  | _, _ => False

/-- The local dates that the layer's rotation goes by are in the calendar. -/
def Dated (l : OnCallLayer) (tz : Zone) (at_ : Time) : Prop :=
  l.rotationType = .custom ∨
    InCalendar (tz.toLocal l.handoffAt) ∧ InCalendar (tz.toLocal at_) ∧
      (tz.toLocal at_ / day < tz.toLocal l.handoffAt / day ∨
        Returns (tz.localToUtc (tz.toLocal at_ / day * day + tz.toLocal l.handoffAt % day)))

/-- The layers in another order, each with its participants in another order. -/
def Reordered (layers layers' : List OnCallLayer) : Prop :=
  ∃ mid, layers.Perm mid ∧ List.Forall₂ Shuffled mid layers'

section

variable {tz : Zone} {layers layers' : List OnCallLayer} {overrides overrides' : List OnCallOverride}
  {at_ : Time} {user : UserId} {l l' : OnCallLayer}

instance : DecidableRel outranks := fun _ _ => inferInstanceAs (Decidable (_ ∨ _))

instance : Std.Total outranks where
  total a b := by
    rcases Int.lt_trichotomy a.layerOrder b.layerOrder with hlt | heq | hlt
    · exact .inr (.inl hlt)
    · rcases Int.le_total a.createdAt b.createdAt with hle | hle
      · exact .inl (.inr ⟨heq.symm, hle⟩)
      · exact .inr (.inr ⟨heq, hle⟩)
    · exact .inl (.inl hlt)

instance : IsTrans OnCallLayer outranks where
  trans a b c := by
    rintro (hab | ⟨hab, hle⟩) (hbc | ⟨hbc, hle'⟩)
    · exact .inl (Int.lt_trans hbc hab)
    · exact .inl (hbc ▸ hab)
    · exact .inl (hab ▸ hbc)
    · exact .inr ⟨hbc.trans hab, Int.le_trans hle hle'⟩

theorem rank_eq (h : outranks l l') (h' : outranks l' l) : rank l = rank l' := by
  rcases h with h | ⟨heq, hle⟩
  · rcases h' with h' | ⟨heq, -⟩ <;> omega
  · rcases h' with h' | ⟨-, hle'⟩
    · omega
    · exact Prod.ext heq.symm (Int.le_antisymm hle hle')

/-! ## Overrides -/

theorem mem_foldl_pushUser_iff {os : List OnCallOverride} {out : List UserId} :
    user ∈ os.foldl pushUser out ↔ user ∈ out ∨ ∃ o ∈ os, o.userId = user := by
  refine ⟨mem_foldl_pushUser, ?_⟩
  induction os generalizing out with
  | nil =>
    rintro (h | ⟨o, ho, -⟩)
    · exact h
    · cases ho
  | cons o os ih =>
    intro h
    apply ih
    rcases h with hout | ⟨o', ho', rfl⟩
    · left
      unfold pushUser
      split
      · exact hout
      · exact List.mem_append_left _ hout
    · rcases List.mem_cons.mp ho' with rfl | ho'
      · left
        unfold pushUser
        split
        · next hcontains => simpa using hcontains
        · exact List.mem_append_right _ (List.mem_singleton_self _)
      · exact .inr ⟨o', ho', rfl⟩

theorem mem_covering {o : OnCallOverride} :
    o ∈ overrides.filter (fun o => decide (o.startsAt ≤ at_) && decide (at_ < o.endsAt)) ↔
      o ∈ overrides ∧ covers o at_ := by
  rw [List.mem_filter, Bool.and_eq_true, decide_eq_true_eq, decide_eq_true_eq]
  rfl

theorem resolveOnCall_covered (tz : Zone) (layers : List OnCallLayer)
    (h : ∃ o ∈ overrides, covers o at_) :
    ∃ users, resolveOnCall tz layers overrides at_ = .ok users ∧
      ∀ user, user ∈ users ↔ ∃ o ∈ overrides, covers o at_ ∧ o.userId = user := by
  obtain ⟨o, ho, hcovers⟩ := h
  have hne : (overrides.filter fun o =>
      decide (o.startsAt ≤ at_) && decide (at_ < o.endsAt)).isEmpty = false :=
    List.isEmpty_eq_false_iff_exists_mem.mpr ⟨o, mem_covering.mpr ⟨ho, hcovers⟩⟩
  unfold resolveOnCall
  dsimp only
  rw [hne, Bool.not_false, if_pos rfl]
  refine ⟨_, rfl, fun user => ?_⟩
  rw [mem_foldl_pushUser_iff]
  simp only [List.not_mem_nil, false_or, List.mem_insertionSort, mem_covering, and_assoc]

/-! ## Dates -/

theorem checked_eq_ok_iff {naive found : Int} :
    checked naive = .ok found ↔ InCalendar naive ∧ naive = found := by
  unfold checked
  split
  · next hin => exact ⟨fun h => ⟨hin, Except.ok.inj h⟩, fun h => congrArg _ h.2⟩
  · next hout => exact ⟨nofun, fun h => absurd h.1 hout⟩

theorem returns_rotationIndex_iff : Returns (rotationIndex l tz at_) ↔ Dated l tz at_ := by
  have hdaily : Returns (rotationIndex { l with rotationType := .daily } tz at_) ↔
      InCalendar (tz.toLocal l.handoffAt) ∧ InCalendar (tz.toLocal at_) ∧
        (tz.toLocal at_ / day < tz.toLocal l.handoffAt / day ∨
          Returns (tz.localToUtc (tz.toLocal at_ / day * day + tz.toLocal l.handoffAt % day))) := by
    simp only [rotationIndex, returns_bind_iff, checked_eq_ok_iff, and_assoc,
      exists_eq_left', exists_and_left]
    refine and_congr_right fun _ => and_congr_right fun _ => ?_
    split
    · next hlt => exact ⟨fun _ => .inl hlt, fun _ => returns_ok _⟩
    · next hge =>
      rw [returns_bind_iff, or_iff_right hge]
      exact ⟨fun ⟨utc, h, _⟩ => ⟨utc, h⟩, fun ⟨utc, h⟩ => ⟨utc, h, returns_ok _⟩⟩
  unfold Dated
  cases htype : l.rotationType with
  | custom =>
    unfold rotationIndex
    rw [htype]
    exact ⟨fun _ => .inl rfl, fun _ => returns_ok _⟩
  | daily | weekly =>
    rw [← hdaily]
    unfold rotationIndex
    rw [htype]
    exact ⟨.inr, fun h => h.resolve_left nofun⟩

/-! ## Layers -/

theorem layerOnCall_active (tz : Zone) (at_ : Time) (h : l.participants ≠ []) :
    (∃ user, layerOnCall l tz at_ = .ok (some user)) ∨
      ∃ p, rotationIndex l tz at_ = .error p ∧ layerOnCall l tz at_ = .error p := by
  unfold layerOnCall
  rw [if_neg (by rwa [List.isEmpty_iff])]
  dsimp only
  cases hidx : rotationIndex l tz at_ with
  | error p => exact .inr ⟨p, rfl, rfl⟩
  | ok idx =>
    left
    have hlen : (l.participants.insertionSort fun p q => p.position ≤ q.position).length =
        l.participants.length := List.length_insertionSort _ _
    have hpos : 0 < l.participants.length := List.length_pos_iff.mpr h
    have hslot : (idx % ((l.participants.insertionSort fun p q =>
        p.position ≤ q.position).length : Int)).toNat <
          (l.participants.insertionSort fun p q => p.position ≤ q.position).length := by
      have hnonneg := Int.emod_nonneg idx
        (b := (l.participants.insertionSort fun p q => p.position ≤ q.position).length) (by omega)
      have hlt := Int.emod_lt_of_pos idx
        (b := (l.participants.insertionSort fun p q => p.position ≤ q.position).length) (by omega)
      omega
    exact ⟨_, congrArg (fun p? => Except.ok (Option.map OnCallParticipant.userId p?))
      (List.getElem?_eq_getElem hslot)⟩

def active (layers : List OnCallLayer) : List OnCallLayer :=
  layers.filter fun l => !l.participants.isEmpty

theorem mem_active : l ∈ active layers ↔ l ∈ layers ∧ l.participants ≠ [] := by
  unfold active
  rw [List.mem_filter, Bool.not_eq_true', List.isEmpty_eq_false_iff]

theorem resolveOnCall_uncovered (h : ¬∃ o ∈ overrides, covers o at_) :
    resolveOnCall tz layers overrides at_ =
      firstOnCall tz at_ ((active layers).insertionSort outranks) := by
  have hempty : (overrides.filter fun o =>
      decide (o.startsAt ≤ at_) && decide (at_ < o.endsAt)).isEmpty = true := by
    rw [List.isEmpty_iff, List.eq_nil_iff_forall_not_mem]
    intro o ho
    exact h ⟨o, mem_covering.mp ho⟩
  unfold resolveOnCall
  dsimp only
  rw [hempty, Bool.not_true, if_neg Bool.false_ne_true]
  rfl

theorem resolveOnCall_inactive (tz : Zone) (h : ¬∃ o ∈ overrides, covers o at_)
    (hactive : active layers = []) : resolveOnCall tz layers overrides at_ = .ok [] := by
  rw [resolveOnCall_uncovered h, hactive]
  rfl

theorem exists_top (hactive : active layers ≠ []) :
    ∃ top ∈ active layers, ∀ l ∈ active layers, outranks top l := by
  have hsorted := List.pairwise_insertionSort outranks (active layers)
  have hmem : ∀ l, l ∈ (active layers).insertionSort outranks ↔ l ∈ active layers :=
    fun l => List.mem_insertionSort _
  cases hranked : (active layers).insertionSort outranks with
  | nil =>
    refine absurd ?_ hactive
    rw [List.eq_nil_iff_forall_not_mem]
    intro l hl
    have hl' := (hmem l).mpr hl
    rw [hranked] at hl'
    cases hl'
  | cons top rest =>
    rw [hranked] at hsorted hmem
    refine ⟨top, (hmem top).mp List.mem_cons_self, fun l hl => ?_⟩
    rcases List.mem_cons.mp ((hmem l).mpr hl) with rfl | hrest
    · exact (total_of outranks l l).elim id id
    · exact List.rel_of_pairwise_cons hsorted hrest

theorem resolveOnCall_top (h : ¬∃ o ∈ overrides, covers o at_) (hkeys : (layers.map rank).Nodup)
    (htop : l ∈ active layers) (hall : ∀ m ∈ active layers, outranks l m) :
    resolveOnCall tz layers overrides at_ = (layerOnCall l tz at_).map Option.toList := by
  rw [resolveOnCall_uncovered h]
  have hsorted := List.pairwise_insertionSort outranks (active layers)
  have hmem : ∀ m, m ∈ (active layers).insertionSort outranks ↔ m ∈ active layers :=
    fun m => List.mem_insertionSort _
  cases hranked : (active layers).insertionSort outranks with
  | nil =>
    have hl := (hmem l).mpr htop
    rw [hranked] at hl
    cases hl
  | cons first rest =>
    rw [hranked] at hsorted hmem
    have hfirst := (hmem first).mp List.mem_cons_self
    obtain rfl : l = first := by
      rcases List.mem_cons.mp ((hmem l).mpr htop) with rfl | hrest
      · rfl
      · have hrank := rank_eq (hall first hfirst) (List.rel_of_pairwise_cons hsorted hrest)
        exact List.inj_on_of_nodup_map hkeys (mem_active.mp htop).1 (mem_active.mp hfirst).1 hrank
    unfold firstOnCall
    rcases layerOnCall_active tz at_ (mem_active.mp htop).2 with ⟨user, huser⟩ | ⟨p, -, hp⟩
    · rw [huser]
      rfl
    · rw [hp]
      rfl

theorem returns_resolveOnCall_iff (hkeys : (layers.map rank).Nodup) :
    Returns (resolveOnCall tz layers overrides at_) ↔
      (∃ o ∈ overrides, covers o at_) ∨
        ∀ top ∈ active layers, (∀ l ∈ active layers, outranks top l) → Dated top tz at_ := by
  by_cases hcovered : ∃ o ∈ overrides, covers o at_
  · obtain ⟨users, heq, -⟩ := resolveOnCall_covered tz layers hcovered
    exact ⟨fun _ => .inl hcovered, fun _ => ⟨users, heq⟩⟩
  rw [or_iff_right hcovered]
  constructor
  · rintro ⟨users, heq⟩ top htop hall
    rw [resolveOnCall_top hcovered hkeys htop hall] at heq
    rw [← returns_rotationIndex_iff]
    rcases layerOnCall_active tz at_ (mem_active.mp htop).2 with ⟨user, huser⟩ | ⟨p, -, hp⟩
    · unfold layerOnCall at huser
      split at huser
      · cases huser
      · obtain ⟨idx, hidx, -⟩ := bind_eq_ok_iff.1 huser
        exact ⟨idx, hidx⟩
    · rw [hp] at heq
      cases heq
  · intro hdated
    by_cases hactive : active layers = []
    · exact ⟨[], resolveOnCall_inactive tz hcovered hactive⟩
    obtain ⟨top, htop, hall⟩ := exists_top hactive
    rw [resolveOnCall_top hcovered hkeys htop hall]
    rcases layerOnCall_active tz at_ (mem_active.mp htop).2 with ⟨user, huser⟩ | ⟨p, hp, -⟩
    · rw [huser]
      exact ⟨_, rfl⟩
    · obtain ⟨idx, hidx⟩ := returns_rotationIndex_iff.2 (hdated top htop hall)
      rw [hp] at hidx
      cases hidx

theorem resolveOnCall_ne_nil_iff {users : List UserId} (hkeys : (layers.map rank).Nodup)
    (h : resolveOnCall tz layers overrides at_ = .ok users) :
    users ≠ [] ↔ (∃ o ∈ overrides, covers o at_) ∨ ∃ l ∈ layers, l.participants ≠ [] := by
  by_cases hcovered : ∃ o ∈ overrides, covers o at_
  · obtain ⟨users', heq, hmem⟩ := resolveOnCall_covered tz layers hcovered
    obtain rfl := Except.ok.inj (h.symm.trans heq)
    obtain ⟨o, ho, hcovers⟩ := hcovered
    exact ⟨fun _ => .inl ⟨o, ho, hcovers⟩,
      fun _ => List.ne_nil_of_mem ((hmem o.userId).mpr ⟨o, ho, hcovers, rfl⟩)⟩
  rw [or_iff_right hcovered]
  constructor
  · intro hne
    by_contra hnone
    have hnil : active layers = [] := by
      rw [List.eq_nil_iff_forall_not_mem]
      exact fun l hl => hnone ⟨l, mem_active.mp hl⟩
    exact hne (Except.ok.inj (h.symm.trans (resolveOnCall_inactive tz hcovered hnil)))
  · rintro ⟨l, hl, hne⟩
    obtain ⟨top, htop, hall⟩ := exists_top (List.ne_nil_of_mem (mem_active.mpr ⟨hl, hne⟩))
    rw [resolveOnCall_top hcovered hkeys htop hall] at h
    rcases layerOnCall_active tz at_ (mem_active.mp htop).2 with ⟨user, huser⟩ | ⟨p, -, hp⟩
    · rw [huser] at h
      cases h
      exact List.cons_ne_nil _ _
    · rw [hp] at h
      cases h

/-! ## Other orders -/

theorem rotationIndex_shuffled (h : Shuffled l l') (tz : Zone) (at_ : Time) :
    rotationIndex l' tz at_ = rotationIndex l tz at_ := by
  rw [h.1]
  rfl

theorem layerOnCall_shuffled (h : Shuffled l l')
    (hpositions : (l.participants.map OnCallParticipant.position).Nodup) (tz : Zone) (at_ : Time) :
    layerOnCall l' tz at_ = layerOnCall l tz at_ := by
  have hsort : (l'.participants.insertionSort fun p q => p.position ≤ q.position) =
      l.participants.insertionSort fun p q => p.position ≤ q.position := by
    refine List.Perm.eq_of_pairwise ?_
      (List.pairwise_insertionSort (fun p q : OnCallParticipant => p.position ≤ q.position) _)
      (List.pairwise_insertionSort _ _)
      ((List.perm_insertionSort _ _).trans (h.2.symm.trans (List.perm_insertionSort _ _).symm))
    intro p q hp hq hpq hqp
    rw [List.mem_insertionSort] at hp hq
    exact List.inj_on_of_nodup_map hpositions (h.2.symm.mem_iff.mp hp) hq (Int.le_antisymm hpq hqp)
  have hempty : l'.participants.isEmpty = l.participants.isEmpty := by
    rw [Bool.eq_iff_iff, List.isEmpty_iff, List.isEmpty_iff]
    exact ⟨fun hnil => List.Perm.eq_nil (hnil ▸ h.2), fun hnil => List.Perm.eq_nil (hnil ▸ h.2.symm)⟩
  unfold layerOnCall
  rw [hsort, hempty, rotationIndex_shuffled h]

theorem Shuffled.symm (h : Shuffled l l') : Shuffled l' l := by
  refine ⟨?_, h.2.symm⟩
  conv_rhs => rw [h.1]

theorem Reordered.symm (h : Reordered layers layers') : Reordered layers' layers := by
  obtain ⟨mid, hperm, hshuffled⟩ := h
  obtain ⟨mid', hshuffled', hperm'⟩ := List.perm_comp_forall₂ hperm hshuffled
  exact ⟨mid', hperm'.symm, (hshuffled'.imp fun _ _ => Shuffled.symm).flip⟩

theorem exists_shuffled {mid : List OnCallLayer} (h : List.Forall₂ Shuffled mid layers')
    (hl : l ∈ mid) : ∃ l' ∈ layers', Shuffled l l' := by
  induction h with
  | nil => cases hl
  | @cons x x' _ _ hhead _ ih =>
    rcases List.mem_cons.mp hl with rfl | hl
    · exact ⟨x', List.mem_cons_self, hhead⟩
    · obtain ⟨l', hl', hshuffled⟩ := ih hl
      exact ⟨l', List.mem_cons_of_mem _ hl', hshuffled⟩

theorem Reordered.exists_of_mem (h : Reordered layers layers') (hl : l ∈ layers) :
    ∃ l' ∈ layers', Shuffled l l' := by
  obtain ⟨mid, hperm, hshuffled⟩ := h
  exact exists_shuffled hshuffled (hperm.mem_iff.mp hl)

theorem rank_shuffled (h : Shuffled l l') : rank l' = rank l := by
  rw [h.1]
  rfl

theorem Reordered.ranks (h : Reordered layers layers') :
    (layers'.map rank).Perm (layers.map rank) := by
  obtain ⟨mid, hperm, hshuffled⟩ := h
  have hsame : layers'.map rank = mid.map rank := by
    clear hperm
    induction hshuffled with
    | nil => rfl
    | cons hhead _ ih => rw [List.map_cons, List.map_cons, rank_shuffled hhead, ih]
  rw [hsame]
  exact (hperm.map rank).symm

theorem outranks_shuffled {m m' : OnCallLayer} (h : Shuffled l l') (h' : Shuffled m m')
    (hout : outranks l m) : outranks l' m' := by
  rw [h.1, h'.1]
  exact hout

theorem mem_active_shuffled (h : Shuffled l l') : l'.participants ≠ [] ↔ l.participants ≠ [] := by
  rw [not_iff_not]
  exact ⟨fun hnil => List.Perm.eq_nil (hnil ▸ h.2), fun hnil => List.Perm.eq_nil (hnil ▸ h.2.symm)⟩

theorem top_reordered (h : Reordered layers layers') (htop : l ∈ active layers)
    (hall : ∀ m ∈ active layers, outranks l m) :
    ∃ l', Shuffled l l' ∧ l' ∈ active layers' ∧ ∀ m ∈ active layers', outranks l' m := by
  obtain ⟨hmem, hne⟩ := mem_active.mp htop
  obtain ⟨l', hl', hshuffled⟩ := h.exists_of_mem hmem
  refine ⟨l', hshuffled, mem_active.mpr ⟨hl', (mem_active_shuffled hshuffled).mpr hne⟩,
    fun m' hm' => ?_⟩
  obtain ⟨hmem', hne'⟩ := mem_active.mp hm'
  obtain ⟨m, hm, hm'⟩ := h.symm.exists_of_mem hmem'
  exact outranks_shuffled hshuffled hm'.symm
    (hall m (mem_active.mpr ⟨hm, (mem_active_shuffled hm').mpr hne'⟩))

theorem resolveOnCall_reordered (h : Reordered layers layers') (hkeys : (layers.map rank).Nodup)
    (hpositions : ∀ l ∈ layers, (l.participants.map OnCallParticipant.position).Nodup)
    (hcovered : ¬∃ o ∈ overrides, covers o at_) (hcovered' : ¬∃ o ∈ overrides', covers o at_) :
    resolveOnCall tz layers overrides at_ = resolveOnCall tz layers' overrides' at_ := by
  by_cases hactive : active layers = []
  · have hactive' : active layers' = [] := by
      by_contra hne
      obtain ⟨top, htop, hall⟩ := exists_top hne
      obtain ⟨l, -, hl, -⟩ := top_reordered h.symm htop hall
      rw [hactive] at hl
      cases hl
    rw [resolveOnCall_inactive tz hcovered hactive, resolveOnCall_inactive tz hcovered' hactive']
  · obtain ⟨top, htop, hall⟩ := exists_top hactive
    obtain ⟨top', hshuffled, htop', hall'⟩ := top_reordered h htop hall
    rw [resolveOnCall_top hcovered hkeys htop hall,
      resolveOnCall_top hcovered' (h.ranks.nodup_iff.mpr hkeys) htop' hall',
      layerOnCall_shuffled hshuffled (hpositions top (mem_active.mp htop).1)]

theorem SameResponders.rfl' (r : Except Panic (List UserId)) : SameResponders r r := by
  cases r with
  | ok users => exact fun _ => Iff.rfl
  | error p => exact rfl

end

/-- **Who is on call does not depend on the order of the rows**: layers, their participants and
overrides in any other order give the same responders, where no two layers have the same order and
creation time and no two participants of one layer the same position.  Who covers the instant, from
the start of an override up to its end, is on call and nobody else is; otherwise the layer that
outranks the others decides.  It returns unless that layer's dates are not in the calendar; then
somebody is on call exactly if an override covers the instant or some layer has a participant. -/
theorem on_call_order_independent (tz : Zone) (layers layers' : List OnCallLayer)
    (overrides overrides' : List OnCallOverride) (at_ : Time)
    (hlayers : Reordered layers layers') (hoverrides : overrides.Perm overrides')
    (hkeys : (layers.map rank).Nodup)
    (hpositions : ∀ l ∈ layers, (l.participants.map OnCallParticipant.position).Nodup) :
    SameResponders (resolveOnCall tz layers overrides at_)
      (resolveOnCall tz layers' overrides' at_) ∧
    ((∃ o ∈ overrides, covers o at_) → ∃ users, resolveOnCall tz layers overrides at_ = .ok users ∧
      ∀ user, user ∈ users ↔ ∃ o ∈ overrides, covers o at_ ∧ o.userId = user) ∧
    ((¬∃ o ∈ overrides, covers o at_) → ∀ top ∈ layers, top.participants ≠ [] →
      (∀ l ∈ layers, l.participants ≠ [] → outranks top l) →
        resolveOnCall tz layers overrides at_ = (layerOnCall top tz at_).map Option.toList) ∧
    (Returns (resolveOnCall tz layers overrides at_) ↔ (∃ o ∈ overrides, covers o at_) ∨
      ∀ top ∈ layers, top.participants ≠ [] →
        (∀ l ∈ layers, l.participants ≠ [] → outranks top l) → Dated top tz at_) ∧
    ∀ users, resolveOnCall tz layers overrides at_ = .ok users →
      (users ≠ [] ↔ (∃ o ∈ overrides, covers o at_) ∨ ∃ l ∈ layers, l.participants ≠ []) := by
  refine ⟨?_, fun h => resolveOnCall_covered tz layers h, fun h top htop hne hall => ?_, ?_,
    fun users h => resolveOnCall_ne_nil_iff hkeys h⟩
  · by_cases h : ∃ o ∈ overrides, covers o at_
    · have h' : ∃ o ∈ overrides', covers o at_ := by
        simpa only [hoverrides.mem_iff] using h
      obtain ⟨users, heq, hmem⟩ := resolveOnCall_covered tz layers h
      obtain ⟨users', heq', hmem'⟩ := resolveOnCall_covered tz layers' h'
      rw [heq, heq']
      intro user
      rw [hmem, hmem']
      simp only [hoverrides.mem_iff]
    · have h' : ¬∃ o ∈ overrides', covers o at_ := by
        simpa only [hoverrides.mem_iff] using h
      rw [resolveOnCall_reordered hlayers hkeys hpositions h h']
      exact .rfl' _
  · exact resolveOnCall_top h hkeys (mem_active.mpr ⟨htop, hne⟩)
      fun l hl => hall l (mem_active.mp hl).1 (mem_active.mp hl).2
  · rw [returns_resolveOnCall_iff hkeys]
    simp only [mem_active, and_imp]

namespace One

def utc : Zone := ⟨id, .single, fun _ => 0⟩

def layer (order : Int) (participants : List OnCallParticipant) : OnCallLayer where
  id := order.toNat
  rotationType := .custom
  rotationLengthSecs := 60
  handoffAt := 0
  layerOrder := order
  createdAt := 0
  participants := participants

def layers : List OnCallLayer := [layer 1 [⟨1, 0⟩], layer 2 [⟨2, 0⟩, ⟨3, 1⟩]]

def layers' : List OnCallLayer := [layer 2 [⟨3, 1⟩, ⟨2, 0⟩], layer 1 [⟨1, 0⟩]]

/-- Both cover the first minute. -/
def overrides : List OnCallOverride := [⟨1, 7, 0, seconds 61⟩, ⟨2, 8, seconds 30, seconds 90⟩]

def tokyo : Zone :=
  ⟨(· + seconds 32400), fun naive => .single (naive - seconds 32400), fun _ => 32400⟩

/-- Its first handoff is in the last second of the calendar. -/
def lastHandoff : OnCallLayer :=
  { layer 1 [⟨1, 0⟩] with rotationType := .daily, handoffAt := (maxDay + 1) * day - seconds 1 }

end One

/-- Two layers, two participants and two overrides, each pair the other way round. -/
theorem on_call_order_independent_reversed :
    SameResponders (resolveOnCall One.utc One.layers One.overrides (seconds 60))
      (resolveOnCall One.utc One.layers' One.overrides.reverse (seconds 60)) ∧
    (∃ users, resolveOnCall One.utc One.layers One.overrides (seconds 60) = .ok users ∧
      7 ∈ users ∧ 8 ∈ users) ∧
    resolveOnCall One.utc One.layers One.overrides (seconds 300) = .ok [3] := by
  have hall := fun at_ => on_call_order_independent One.utc One.layers One.layers' One.overrides
    One.overrides.reverse at_
    ⟨One.layers.reverse, (List.reverse_perm _).symm,
      .cons ⟨rfl, List.Perm.swap _ _ _⟩ (.cons ⟨rfl, .refl _⟩ .nil)⟩
    (List.reverse_perm _).symm (by decide) (by decide)
  refine ⟨(hall _).1, ?_, ?_⟩
  · obtain ⟨users, heq, hmem⟩ := (hall (seconds 60)).2.1 ⟨_, List.mem_cons_self, by decide⟩
    exact ⟨users, heq, (hmem 7).mpr ⟨_, List.mem_cons_self, by decide, rfl⟩,
      (hmem 8).mpr ⟨_, List.mem_cons_of_mem _ List.mem_cons_self, by decide, rfl⟩⟩
  · rw [(hall (seconds 300)).2.2.1 (by decide) (One.layer 2 [⟨2, 0⟩, ⟨3, 1⟩])
      (List.mem_cons_of_mem _ List.mem_cons_self) (by decide) (by decide)]
    rfl

/-- A daily layer in Tokyo whose handoff is in the last second of the calendar. -/
theorem handoff_past_the_calendar :
    ¬ ∀ (tz : Zone) (layers : List OnCallLayer) (overrides : List OnCallOverride) (at_ : Time),
      (layers.map rank).Nodup →
      (∀ l ∈ layers, (l.participants.map OnCallParticipant.position).Nodup) →
      ∃ users, resolveOnCall tz layers overrides at_ = .ok users ∧
        (users ≠ [] ↔ (∃ o ∈ overrides, covers o at_) ∨ ∃ l ∈ layers, l.participants ≠ []) := by
  intro hclaim
  obtain ⟨users, h, -⟩ := hclaim One.tokyo [One.lastHandoff] [] 0 (by decide) (by decide)
  revert h
  rw [show resolveOnCall One.tokyo [One.lastHandoff] [] 0 = .error .dateTimeOverflow by rfl]
  nofun

end Uptimepage.OnCall

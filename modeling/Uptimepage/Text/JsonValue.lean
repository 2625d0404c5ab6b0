import Mathlib.Data.String.Basic

/-!
# JSON values

Values with the fields of an object sorted by name, as a map keeps them.  `object` builds one
from fields in any order, and reading a field back is looking it up in the list
(`get?_object`); `assign` overwrites a field that is there.
-/

namespace Json

inductive Value
  | null
  | bool (b : Bool)
  | num (n : Nat)
  | str (s : String)
  | arr (items : List Value)
  | obj (fields : List (String × Value))

abbrev Fields := List (String × Value)

/-- Insertion into a map: a field of that name is replaced. -/
def putField {β : Type} (name : String) (value : β) : List (String × β) → List (String × β)
  | [] => [(name, value)]
  | f :: fields =>
    if name < f.1 then (name, value) :: f :: fields
    else if name = f.1 then (name, value) :: fields
    else f :: putField name value fields

def mapOf {β : Type} (fields : List (String × β)) : List (String × β) :=
  fields.foldr (fun f m => putField f.1 f.2 m) []

def object (fields : Fields) : Value := .obj (mapOf fields)

/-- Overwrites the field of that name, if there is one. -/
def assignField (name : String) (value : Value) : Fields → Fields
  | [] => []
  | f :: fields => if name = f.1 then (name, value) :: fields else f :: assignField name value fields

namespace Value

def get? (v : Value) (name : String) : Option Value :=
  match v with
  | obj fields => fields.lookup name
  | _ => none

def assign (v : Value) (name : String) (value : Value) : Value :=
  match v with
  | obj fields => obj (assignField name value fields)
  | v => v

def asStr? : Value → Option String
  | str s => some s
  | _ => none

def isNull : Value → Bool
  | null => true
  | _ => false

def names : Value → List String
  | obj fields => fields.map Prod.fst
  | _ => []

end Value

section Maps

variable {β : Type} {name name' : String} {value : β} {fields : List (String × β)}
  {f : String × β}

theorem lookup_cons_ite :
    List.lookup name (f :: fields) = if name = f.1 then some f.2 else fields.lookup name := by
  rw [List.lookup_cons]
  by_cases h : name = f.1
  · rw [if_pos h, h, beq_self_eq_true]
  · rw [if_neg h, beq_false_of_ne h]

theorem lookup_putField :
    (putField name value fields).lookup name' =
      if name' = name then some value else fields.lookup name' := by
  induction fields with
  | nil => exact lookup_cons_ite
  | cons f fields ih =>
    unfold putField
    split
    · exact lookup_cons_ite
    · split
      · next heq =>
        rw [lookup_cons_ite, lookup_cons_ite, ← heq]
        split
        · rfl
        · rfl
      · next hne =>
        rw [lookup_cons_ite, lookup_cons_ite, ih]
        by_cases h : name' = f.1
        · rw [if_pos h, if_pos h, if_neg fun hname => hne (hname.symm.trans h)]
        · rw [if_neg h, if_neg h]

theorem lookup_mapOf : (mapOf fields).lookup name = fields.lookup name := by
  induction fields with
  | nil => rfl
  | cons f fields ih =>
    show (putField f.1 f.2 (mapOf fields)).lookup name = _
    rw [lookup_putField, lookup_cons_ite, ih]

theorem mem_putField (h : f ∈ putField name value fields) : f = (name, value) ∨ f ∈ fields := by
  induction fields with
  | nil => exact Or.inl (List.mem_singleton.mp h)
  | cons g fields ih =>
    unfold putField at h
    split at h
    · exact List.mem_cons.mp h
    · split at h
      · exact (List.mem_cons.mp h).imp id (List.mem_cons_of_mem _)
      · rcases List.mem_cons.mp h with rfl | hmem
        · exact Or.inr List.mem_cons_self
        · exact (ih hmem).imp id (List.mem_cons_of_mem _)

theorem pairwise_putField (h : fields.Pairwise fun f g => f.1 < g.1) :
    (putField name value fields).Pairwise fun f g => f.1 < g.1 := by
  induction fields with
  | nil => exact List.pairwise_singleton _ _
  | cons g fields ih =>
    obtain ⟨hg, hfields⟩ := List.pairwise_cons.mp h
    unfold putField
    split
    · next hlt =>
      refine List.pairwise_cons.mpr ⟨fun f hf => ?_, h⟩
      rcases List.mem_cons.mp hf with rfl | hmem
      · exact hlt
      · exact lt_trans hlt (hg f hmem)
    · next hnlt =>
      split
      · next heq =>
        subst heq
        exact List.pairwise_cons.mpr ⟨hg, hfields⟩
      · next hne =>
        refine List.pairwise_cons.mpr ⟨fun f hf => ?_, ih hfields⟩
        rcases mem_putField hf with rfl | hmem
        · exact lt_of_le_of_ne (not_lt.mp hnlt) fun heq => hne heq.symm
        · exact hg f hmem

theorem pairwise_mapOf : (mapOf fields).Pairwise fun f g => f.1 < g.1 := by
  induction fields with
  | nil => exact List.Pairwise.nil
  | cons f fields ih => exact pairwise_putField ih

theorem lookup_eq_none_of_lt (h : ∀ f ∈ fields, name < f.1) : fields.lookup name = none := by
  induction fields with
  | nil => rfl
  | cons f fields ih =>
    obtain ⟨hf, hfields⟩ := List.forall_mem_cons.mp h
    rw [lookup_cons_ite, if_neg (ne_of_lt hf), ih hfields]

theorem eq_of_lookup {fields' : List (String × β)} (h : fields.Pairwise fun f g => f.1 < g.1)
    (h' : fields'.Pairwise fun f g => f.1 < g.1)
    (heq : ∀ name, fields.lookup name = fields'.lookup name) : fields = fields' := by
  induction fields generalizing fields' with
  | nil =>
    cases fields' with
    | nil => rfl
    | cons g fields' =>
      have := heq g.1
      rw [lookup_cons_ite, if_pos rfl] at this
      cases this
  | cons f fields ih =>
    obtain ⟨hf, hfields⟩ := List.pairwise_cons.mp h
    cases fields' with
    | nil =>
      have := heq f.1
      rw [lookup_cons_ite, if_pos rfl] at this
      cases this
    | cons g fields' =>
      obtain ⟨hg, hfields'⟩ := List.pairwise_cons.mp h'
      -- the first names agree, for the lesser of them is in both maps
      have hname : f.1 = g.1 := by
        rcases lt_trichotomy f.1 g.1 with hlt | heq' | hgt
        · have := heq f.1
          rw [lookup_cons_ite, if_pos rfl, lookup_cons_ite, if_neg (ne_of_lt hlt),
            lookup_eq_none_of_lt fun e he => lt_trans hlt (hg e he)] at this
          cases this
        · exact heq'
        · have := heq g.1
          rw [lookup_cons_ite, if_neg (ne_of_lt hgt), lookup_cons_ite, if_pos rfl,
            lookup_eq_none_of_lt fun e he => lt_trans hgt (hf e he)] at this
          cases this
      have hvalue := heq f.1
      rw [lookup_cons_ite, if_pos rfl, lookup_cons_ite, if_pos hname] at hvalue
      rw [Prod.ext hname (Option.some.inj hvalue), ih hfields hfields' fun name => ?_]
      by_cases hfirst : name = f.1
      · rw [hfirst, lookup_eq_none_of_lt hf, hname, lookup_eq_none_of_lt hg]
      · have := heq name
        rwa [lookup_cons_ite, if_neg hfirst, lookup_cons_ite,
          if_neg fun hg => hfirst (hg.trans hname.symm)] at this

theorem mapOf_of_pairwise (h : fields.Pairwise fun f g => f.1 < g.1) : mapOf fields = fields :=
  eq_of_lookup pairwise_mapOf h fun _ => lookup_mapOf

end Maps

section

variable {name name' : String} {value : Value} {fields : Fields}

@[simp] theorem get?_object : (object fields).get? name = fields.lookup name := lookup_mapOf

/-! ## Overwriting a field -/

theorem lookup_assignField :
    (assignField name value fields).lookup name' =
      if name' = name then (fields.lookup name).map fun _ => value else fields.lookup name' := by
  induction fields with
  | nil => simp [assignField]
  | cons f fields ih =>
    unfold assignField
    split
    · next heq =>
      rw [lookup_cons_ite, lookup_cons_ite, lookup_cons_ite, ← heq, if_pos rfl]
      split
      · rfl
      · rfl
    · next hne =>
      rw [lookup_cons_ite, lookup_cons_ite, lookup_cons_ite, ih, if_neg hne]
      by_cases h : name' = f.1
      · rw [if_pos h, if_pos h, if_neg fun hname => hne (hname.symm.trans h)]
      · rw [if_neg h, if_neg h]

theorem get?_assign (v : Value) :
    (v.assign name value).get? name' =
      if name' = name then (v.get? name).map fun _ => value else v.get? name' := by
  cases v with
  | obj fields => exact lookup_assignField
  | _ => simp [Value.assign, Value.get?]

theorem names_assign (v : Value) : (v.assign name value).names = v.names := by
  cases v with
  | obj fields =>
    show (assignField name value fields).map Prod.fst = fields.map Prod.fst
    induction fields with
    | nil => rfl
    | cons f fields ih =>
      unfold assignField
      split
      · next heq => rw [List.map_cons, List.map_cons, heq]
      · rw [List.map_cons, List.map_cons, ih]
  | _ => rfl

variable {old value' v : Value}

theorem assignField_assignField (h : fields.lookup name = some old) :
    assignField name old (assignField name value fields) = fields := by
  induction fields with
  | nil => rfl
  | cons f fields ih =>
    rw [lookup_cons_ite] at h
    by_cases hname : name = f.1
    · rw [if_pos hname] at h
      rw [assignField, if_pos hname, assignField, if_pos rfl, hname, ← Option.some.inj h]
    · rw [if_neg hname] at h
      rw [assignField, if_neg hname, assignField, if_neg hname, ih h]

theorem assignField_self (h : fields.lookup name = some old) :
    assignField name old fields = fields := by
  induction fields with
  | nil => rfl
  | cons f fields ih =>
    rw [lookup_cons_ite] at h
    by_cases hname : name = f.1
    · rw [if_pos hname] at h
      rw [assignField, if_pos hname, hname, ← Option.some.inj h]
    · rw [if_neg hname] at h
      rw [assignField, if_neg hname, ih h]

theorem assignField_comm (h : name ≠ name') :
    assignField name value (assignField name' value' fields) =
      assignField name' value' (assignField name value fields) := by
  induction fields with
  | nil => rfl
  | cons f fields ih =>
    by_cases hname : name = f.1
    · have hname' : name' ≠ f.1 := fun heq => h (hname.trans heq.symm)
      rw [assignField, if_neg hname', assignField, if_pos hname, assignField, if_pos hname,
        assignField, if_neg (Ne.symm h)]
    · by_cases hname' : name' = f.1
      · rw [assignField, if_pos hname', assignField, if_neg h, assignField, if_neg hname,
          assignField, if_pos hname']
      · rw [assignField, if_neg hname', assignField, if_neg hname, assignField, if_neg hname,
          assignField, if_neg hname', ih]

theorem assign_self (h : v.get? name = some old) : v.assign name old = v := by
  cases v with
  | obj fields => exact congrArg Value.obj (assignField_self h)
  | _ => rfl

theorem assign_comm (h : name ≠ name') :
    (v.assign name value).assign name' value' = (v.assign name' value').assign name value := by
  cases v with
  | obj fields => exact congrArg Value.obj (assignField_comm h.symm)
  | _ => rfl

theorem assignField_again :
    assignField name value' (assignField name value fields) = assignField name value' fields := by
  induction fields with
  | nil => rfl
  | cons f fields ih =>
    by_cases hname : name = f.1
    · rw [assignField, if_pos hname, assignField, if_pos rfl, assignField, if_pos hname]
    · rw [assignField, if_neg hname, assignField, if_neg hname, assignField, if_neg hname, ih]

theorem assign_again : (v.assign name value).assign name value' = v.assign name value' := by
  cases v with
  | obj fields => exact congrArg Value.obj assignField_again
  | _ => rfl

theorem assign_assign (h : v.get? name = some old) : (v.assign name value).assign name old = v := by
  cases v with
  | obj fields => exact congrArg Value.obj (assignField_assignField h)
  | _ => rfl

/-- An object as a map keeps it. -/
def Value.IsMap (v : Value) : Prop :=
  ∃ fields, v = .obj fields ∧ fields.Pairwise fun f g => f.1 < g.1

theorem isMap_object : (object fields).IsMap := ⟨_, rfl, pairwise_mapOf⟩

theorem Value.IsMap.assign (h : v.IsMap) : (v.assign name value).IsMap := by
  obtain ⟨fields, rfl, hsorted⟩ := h
  refine ⟨_, rfl, ?_⟩
  have hnames : (assignField name value fields).map Prod.fst = fields.map Prod.fst :=
    names_assign (.obj fields)
  have hsorted' : (fields.map Prod.fst).Pairwise (· < ·) := List.pairwise_map.mpr hsorted
  rw [← hnames] at hsorted'
  exact List.pairwise_map.mp hsorted'

theorem Value.IsMap.ext {v' : Value} (h : v.IsMap) (h' : v'.IsMap)
    (heq : ∀ name, v.get? name = v'.get? name) : v = v' := by
  obtain ⟨fields, rfl, hsorted⟩ := h
  obtain ⟨fields', rfl, hsorted'⟩ := h'
  exact congrArg Value.obj (eq_of_lookup hsorted hsorted' heq)

end

end Json

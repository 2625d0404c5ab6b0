import Mathlib.Computability.RegularExpressions

/-!
# Searching a text for a regular expression

`search r text`: some stretch of the text is matched by `r`.  Words and classes of characters
are the regular expressions one writes down.
-/

namespace RegularExpression

variable {α : Type}

def word : List α → RegularExpression α
  | [] => 1
  | c :: w => char c * word w

/-- A character of the class. -/
def anyOf : List α → RegularExpression α
  | [] => 0
  | c :: cs => char c + anyOf cs

variable [DecidableEq α]

variable {x cs : List α}

theorem word_rmatch_iff {w : List α} : (word w).rmatch x = true ↔ x = w := by
  induction w generalizing x with
  | nil => exact one_rmatch_iff x
  | cons c w ih =>
    unfold word
    rw [mul_rmatch_iff]
    constructor
    · rintro ⟨t, u, rfl, ht, hu⟩
      rw [(char_rmatch_iff c t).mp ht, ih.mp hu]
      rfl
    · rintro rfl
      exact ⟨[c], w, rfl, (char_rmatch_iff c [c]).mpr rfl, ih.mpr rfl⟩

theorem anyOf_rmatch_iff : (anyOf cs).rmatch x = true ↔ ∃ c ∈ cs, x = [c] := by
  induction cs with
  | nil => simp [anyOf]
  | cons c cs ih =>
    unfold anyOf
    rw [add_rmatch_iff, char_rmatch_iff, ih]
    simp

theorem star_anyOf_rmatch_iff : (star (anyOf cs)).rmatch x = true ↔ ∀ c ∈ x, c ∈ cs := by
  rw [star_rmatch_iff]
  constructor
  · rintro ⟨S, rfl, hS⟩ c hc
    obtain ⟨t, ht, hct⟩ := List.mem_flatten.mp hc
    obtain ⟨c', hc', rfl⟩ := anyOf_rmatch_iff.1 (hS t ht).2
    obtain rfl : c = c' := List.mem_singleton.mp hct
    exact hc'
  · intro h
    refine ⟨x.map fun c => [c], ?_, ?_⟩
    · induction x with
      | nil => rfl
      | cons c x ih => simpa using ih fun c hc => h c (List.mem_cons_of_mem _ hc)
    · intro t ht
      obtain ⟨c, hc, rfl⟩ := List.mem_map.mp ht
      exact ⟨List.cons_ne_nil c [], anyOf_rmatch_iff.2 ⟨c, h c hc, rfl⟩⟩

/-- By its form, nothing is matched. -/
def isDead : RegularExpression α → Bool
  | zero => true
  | comp P Q => P.isDead || Q.isDead
  | plus P Q => P.isDead && Q.isDead
  | epsilon | char _ | star _ => false

variable {r : RegularExpression α}

theorem rmatch_of_isDead (h : r.isDead = true) (x : List α) : r.rmatch x = false := by
  rw [Bool.eq_false_iff]
  induction r generalizing x with
  | zero => simp
  | epsilon | char | star => cases h
  | comp P Q ihP ihQ =>
    intro hx
    obtain ⟨t, u, -, ht, hu⟩ := (mul_rmatch_iff P Q x).mp hx
    rcases (Bool.or_eq_true _ _).mp h with h | h
    · exact ihP h t ht
    · exact ihQ h u hu
  | plus P Q ihP ihQ =>
    intro hx
    obtain ⟨hP, hQ⟩ := Bool.and_eq_true_iff.mp h
    rcases (add_rmatch_iff P Q x).mp hx with hx | hx
    · exact ihP hP x hx
    · exact ihQ hQ x hx

def startsWith (r : RegularExpression α) : List α → Bool
  | [] => r.matchEpsilon
  | c :: t => r.matchEpsilon || !(r.deriv c).isDead && (r.deriv c).startsWith t

theorem startsWith_iff {t : List α} : r.startsWith t = true ↔ ∃ m, m <+: t ∧ r.rmatch m = true := by
  induction t generalizing r with
  | nil =>
    constructor
    · exact fun h => ⟨[], List.prefix_rfl, h⟩
    · rintro ⟨m, hm, h⟩
      obtain rfl := List.prefix_nil.mp hm
      exact h
  | cons c t ih =>
    rw [startsWith, Bool.or_eq_true, Bool.and_eq_true, Bool.not_eq_true', ih]
    constructor
    · rintro (h | ⟨-, m, hm, h⟩)
      · exact ⟨[], List.nil_prefix, h⟩
      · exact ⟨c :: m, List.cons_prefix_cons.mpr ⟨rfl, hm⟩, h⟩
    · rintro ⟨m, hm, h⟩
      cases m with
      | nil => exact .inl h
      | cons d m =>
        obtain ⟨rfl, hm'⟩ := List.cons_prefix_cons.mp hm
        refine .inr ⟨?_, m, hm', h⟩
        rw [Bool.eq_false_iff]
        intro hdead
        rw [rmatch, rmatch_of_isDead hdead] at h
        cases h

def search (r : RegularExpression α) (text : List α) : Bool := text.tails.any r.startsWith

theorem search_iff {text : List α} :
    r.search text = true ↔ ∃ m, m <:+: text ∧ r.rmatch m = true := by
  simp only [search, List.any_eq_true, List.mem_tails, startsWith_iff]
  constructor
  · rintro ⟨t, hsuf, m, hpre, hm⟩
    exact ⟨m, List.infix_iff_prefix_suffix.mpr ⟨t, hpre, hsuf⟩, hm⟩
  · rintro ⟨m, hinfix, hm⟩
    obtain ⟨t, hpre, hsuf⟩ := List.infix_iff_prefix_suffix.mp hinfix
    exact ⟨t, hsuf, m, hpre, hm⟩

end RegularExpression

import Mathlib

/-!
# Cutting a text at a byte offset

A text is a list of characters and an offset counts bytes of its UTF-8 encoding.  Only
the offsets between two characters cut it (`sliceTo?_eq_some_iff`).
-/

namespace Text

def byteLen (s : List Char) : Nat := (s.map Char.utf8Size).sum

@[simp] theorem byteLen_nil : byteLen [] = 0 := rfl

@[simp] theorem byteLen_cons (c : Char) (s : List Char) :
    byteLen (c :: s) = c.utf8Size + byteLen s := by
  simp [byteLen]

/-- The first `n` bytes, when they are whole characters of the text. -/
def sliceTo? : List Char → Nat → Option (List Char)
  | _, 0 => some []
  | [], _ + 1 => none
  | c :: rest, n + 1 =>
    if c.utf8Size ≤ n + 1 then (sliceTo? rest (n + 1 - c.utf8Size)).map (c :: ·) else none

def isCharBoundary (s : List Char) (n : Nat) : Bool := (sliceTo? s n).isSome

theorem sliceTo?_eq_some_iff {s p : List Char} {n : Nat} :
    sliceTo? s n = some p ↔ p <+: s ∧ byteLen p = n := by
  induction s generalizing n p with
  | nil =>
    cases n with
    | zero =>
      simp only [sliceTo?, Option.some.injEq, List.prefix_nil]
      constructor
      · rintro rfl
        exact ⟨rfl, rfl⟩
      · rintro ⟨rfl, -⟩
        rfl
    | succ n =>
      simp only [sliceTo?, List.prefix_nil]
      constructor
      · intro h
        cases h
      · rintro ⟨rfl, h⟩
        cases h
  | cons c s ih =>
    have hc := c.utf8Size_pos
    cases n with
    | zero =>
      simp only [sliceTo?, Option.some.injEq]
      constructor
      · rintro rfl
        exact ⟨List.nil_prefix, rfl⟩
      · rintro ⟨hp, h⟩
        cases p with
        | nil => rfl
        | cons d p =>
          have hd := d.utf8Size_pos
          rw [byteLen_cons] at h
          omega
    | succ n =>
      unfold sliceTo?
      constructor
      · intro h
        split at h
        · next hle =>
          obtain ⟨q, hq, rfl⟩ := Option.map_eq_some_iff.mp h
          obtain ⟨hpre, hlen⟩ := ih.mp hq
          refine ⟨List.cons_prefix_cons.mpr ⟨rfl, hpre⟩, ?_⟩
          rw [byteLen_cons]
          omega
        · cases h
      · rintro ⟨hp, h⟩
        cases p with
        | nil => cases h
        | cons d p =>
          obtain ⟨rfl, hpre⟩ := List.cons_prefix_cons.mp hp
          rw [byteLen_cons] at h
          rw [if_pos (by omega), ih.mpr ⟨hpre, by omega⟩]
          rfl

end Text

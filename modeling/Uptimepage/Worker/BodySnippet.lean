import Uptimepage.Text.Utf8

/-!
# The body snippet

`snapshot_body` of `worker/http_check.rs`: the first bytes of a probe's body, as text.  The loop
backs up over continuation bytes and leaves the first byte of their character.
-/

namespace Uptimepage.Worker

open Text

/-- Body snippet cap for the verbose test-check response. -/
def PROBE_BODY_SNIPPET_BYTES : Nat := 1024

/-- Back from `end` over continuation bytes. -/
def backUp (decoded : List UInt8) : Nat → Nat
  | 0 => 0
  | end_ + 1 => if isContinuation (decoded.getD end_ 0) then backUp decoded end_ else end_ + 1

def snapshotBody (decoded : List UInt8) : List Char :=
  let end_ := backUp decoded (min decoded.length PROBE_BODY_SNIPPET_BYTES)
  fromUtf8Lossy (decoded.take end_)

/-- The longest beginning of the text in `limit` bytes. -/
structure IsClip (limit : Nat) (s p : List Char) : Prop where
  isPrefix : p <+: s
  fits : byteLen p ≤ limit
  longest : ∀ q, q <+: s → byteLen q ≤ limit → byteLen q ≤ byteLen p

/-- The cut falls behind a character of one byte, or behind a U+FFFD. -/
def CutsClean (body : List Char) : Prop :=
  body = [] ∨ ∃ p c, p ++ [c] <+: body ∧
    byteLen (p ++ [c]) = min (byteLen body) PROBE_BODY_SNIPPET_BYTES ∧
    (c.utf8Size = 1 ∨ c = replacement)

section

variable {s p q t body : List Char} {c d : Char} {n limit : Nat}

theorem byteLen_append (s t : List Char) : byteLen (s ++ t) = byteLen s + byteLen t := by
  simp [byteLen]

theorem byteLen_le_of_prefixed (h : p <+: s) : byteLen p ≤ byteLen s := by
  obtain ⟨t, rfl⟩ := h
  rw [byteLen_append]
  omega

theorem eq_nil_of_byteLen (h : byteLen s = 0) : s = [] := by
  cases s with
  | nil => rfl
  | cons c s =>
    have hc := c.utf8Size_pos
    rw [byteLen_cons] at h
    omega

theorem prefix_unique (hp : p <+: s) (hq : q <+: s) (h : byteLen p = byteLen q) : p = q := by
  rcases List.prefix_or_prefix_of_prefix hp hq with ⟨t, rfl⟩ | ⟨t, rfl⟩
  all_goals
    rw [byteLen_append] at h
    rw [eq_nil_of_byteLen (s := t) (by omega), List.append_nil]

theorem IsClip.unique (hp : IsClip limit s p) (hq : IsClip limit s q) : p = q :=
  prefix_unique hp.isPrefix hq.isPrefix
    (Nat.le_antisymm (hq.longest p hp.isPrefix hp.fits) (hp.longest q hq.isPrefix hq.fits))

theorem isClip_self (h : byteLen s ≤ limit) : IsClip limit s s :=
  ⟨List.prefix_rfl, h, fun _ hq _ => byteLen_le_of_prefixed hq⟩

theorem exists_char (hn : 0 < n) (h : n ≤ byteLen s) : ∃ p c t, s = p ++ c :: t ∧
    byteLen p < n ∧ n ≤ byteLen p + c.utf8Size := by
  induction s generalizing n with
  | nil =>
    rw [byteLen_nil] at h
    omega
  | cons c s ih =>
    rw [byteLen_cons] at h
    by_cases hfirst : n ≤ c.utf8Size
    · exact ⟨[], c, s, rfl, hn, by rw [byteLen_nil]; omega⟩
    · obtain ⟨p, d, t, rfl, hlow, hhigh⟩ := ih (n := n - c.utf8Size) (by omega) (by omega)
      exact ⟨c :: p, d, t, rfl, by rw [byteLen_cons]; omega, by rw [byteLen_cons]; omega⟩

theorem backUp_char {lead : UInt8} {pre rest post : List UInt8} (hlead : isContinuation lead = false)
    (hrest : ∀ b ∈ rest, isContinuation b = true) {k : Nat} (hk : k ≤ rest.length) :
    backUp (pre ++ lead :: (rest ++ post)) (pre.length + 1 + k) = pre.length + 1 := by
  induction k with
  | zero =>
    have hget : (pre ++ lead :: (rest ++ post)).getD pre.length 0 = lead := by
      simp [List.getD_eq_getElem?_getD]
    rw [Nat.add_zero, backUp, hget, hlead]
    rfl
  | succ k ih =>
    have hget : (pre ++ lead :: (rest ++ post)).getD (pre.length + 1 + k) 0 = rest[k] := by
      have hidx : pre.length + 1 + k - pre.length = k + 1 := by omega
      rw [List.getD_eq_getElem?_getD, List.getElem?_append_right (by omega), hidx,
        List.getElem?_cons_succ, List.getElem?_append_left hk, List.getElem?_eq_getElem hk,
        Option.getD_some]
    rw [← Nat.add_assoc, backUp, hget, hrest _ (List.getElem_mem hk), if_pos rfl]
    exact ih (by omega)

theorem snapshotBody_eq (hlow : byteLen p < min (byteLen (p ++ c :: t)) PROBE_BODY_SNIPPET_BYTES)
    (hhigh : min (byteLen (p ++ c :: t)) PROBE_BODY_SNIPPET_BYTES ≤ byteLen p + c.utf8Size) :
    snapshotBody (encode (p ++ c :: t)) = p ++ [if c.utf8Size = 1 then c else replacement] := by
  obtain ⟨lead, rest, hbytes, hlead, hrest, hascii, hlong⟩ := utf8EncodeChar_cases c
  have hsize : c.utf8Size = rest.length + 1 := by
    rw [← String.length_utf8EncodeChar, hbytes, List.length_cons]
  have hencode : encode (p ++ c :: t) = encode p ++ lead :: (rest ++ encode t) := by
    rw [encode_append, encode_cons, hbytes, List.cons_append]
  obtain ⟨k, hk⟩ : ∃ k, min (byteLen (p ++ c :: t)) PROBE_BODY_SNIPPET_BYTES =
      (encode p).length + 1 + k := ⟨_, (Nat.add_sub_cancel' (by rw [length_encode]; omega)).symm⟩
  have hkrest : k ≤ rest.length := by
    rw [length_encode] at hk
    omega
  have htake : (encode p ++ lead :: (rest ++ encode t)).take ((encode p).length + 1) =
      encode p ++ [lead] := by
    rw [List.take_length_add_append, List.take_succ_cons, List.take_zero]
  unfold snapshotBody
  dsimp only
  rw [length_encode, hk, hencode, backUp_char hlead hrest hkrest, htake]
  split
  · next hone =>
    have hnil : rest = [] := List.eq_nil_of_length_eq_zero (by omega)
    have hwhole : encode p ++ [lead] = encode (p ++ [c]) := by
      rw [encode_append, encode_cons, hbytes, hnil, encode_nil, List.append_nil]
    rw [hwhole, lossy_encode]
  · next hmore =>
    have hne : rest ≠ [] := fun hnil => hmore (by rw [hsize, hnil]; rfl)
    exact lossy_cut p (hlong hne)

theorem isClip_cut (hlow : byteLen p < min (byteLen (p ++ c :: t)) limit)
    (hhigh : min (byteLen (p ++ c :: t)) limit ≤ byteLen p + c.utf8Size) :
    IsClip limit (p ++ c :: t)
      (if min (byteLen (p ++ c :: t)) limit = byteLen p + c.utf8Size then p ++ [c] else p) := by
  have hsum : byteLen (p ++ c :: t) = byteLen p + (c.utf8Size + byteLen t) := by
    rw [byteLen_append, byteLen_cons]
  have hone : byteLen (p ++ [c]) = byteLen p + c.utf8Size := by
    rw [byteLen_append, byteLen_cons, byteLen_nil, Nat.add_zero]
  split
  · next hcut =>
    refine ⟨⟨t, by rw [List.append_assoc]; rfl⟩, by omega, ?_⟩
    intro q hq hfits
    have := byteLen_le_of_prefixed hq
    omega
  · next hcut =>
    refine ⟨List.prefix_append p _, by omega, ?_⟩
    intro q hq hfits
    by_contra hlonger
    -- a longer beginning holds the whole character, which does not fit
    have hpq : p <+: q := by
      rcases List.prefix_or_prefix_of_prefix (List.prefix_append p (c :: t)) hq with h | h
      · exact h
      · exact absurd (byteLen_le_of_prefixed h) hlonger
    obtain ⟨r, rfl⟩ := hpq
    cases r with
    | nil => exact hlonger (by rw [List.append_nil])
    | cons d r =>
      obtain ⟨rfl, -⟩ := List.cons_prefix_cons.mp ((List.prefix_append_right_inj p).mp hq)
      rw [byteLen_append, byteLen_cons] at hfits
      omega

end

/-- **The body snippet is a clean prefix** exactly where the cut is clean. -/
theorem snapshotBody_clip_iff (body : List Char) :
    IsClip PROBE_BODY_SNIPPET_BYTES body (snapshotBody (encode body)) ↔ CutsClean body := by
  rcases Nat.eq_zero_or_pos (byteLen body) with hempty | hpos
  · obtain rfl := eq_nil_of_byteLen hempty
    exact iff_of_true (isClip_self (Nat.zero_le _)) (.inl rfl)
  obtain ⟨p, c, t, rfl, hlow, hhigh⟩ := exists_char
    (n := min (byteLen body) PROBE_BODY_SNIPPET_BYTES) (lt_min hpos (by decide))
    (Nat.min_le_left _ _)
  have hone : byteLen (p ++ [c]) = byteLen p + c.utf8Size := by
    rw [byteLen_append, byteLen_cons, byteLen_nil, Nat.add_zero]
  have hprefix : p ++ [c] <+: p ++ c :: t := ⟨t, by rw [List.append_assoc]; rfl⟩
  rw [snapshotBody_eq hlow hhigh]
  constructor
  · intro hclip
    have heq := hclip.unique (isClip_cut hlow hhigh)
    by_cases hcut : min (byteLen (p ++ c :: t)) PROBE_BODY_SNIPPET_BYTES = byteLen p + c.utf8Size
    · rw [if_pos hcut] at heq
      refine .inr ⟨p, c, hprefix, hone.trans hcut.symm, ?_⟩
      by_cases hascii : c.utf8Size = 1
      · exact .inl hascii
      · rw [if_neg hascii] at heq
        exact .inr (List.cons.inj (List.append_cancel_left heq)).1.symm
    · rw [if_neg hcut] at heq
      exact absurd (List.append_right_eq_self.mp heq) (List.cons_ne_nil _ _)
  · rintro (hnil | ⟨p', c', hp', hlen, hc'⟩)
    · exact absurd (List.append_eq_nil_iff.mp hnil).2 (List.cons_ne_nil _ _)
    · have hcut : min (byteLen (p ++ c :: t)) PROBE_BODY_SNIPPET_BYTES =
          byteLen p + c.utf8Size := by
        by_contra hcut
        rcases List.prefix_or_prefix_of_prefix hp' hprefix with hin | hin
        · rcases List.prefix_concat_iff.mp hin with heq | hshort
          · rw [heq, hone] at hlen
            exact hcut hlen.symm
          · have := byteLen_le_of_prefixed hshort
            omega
        · have := byteLen_le_of_prefixed hin
          omega
      have hsame := prefix_unique hp' hprefix (hlen.trans (hcut.trans hone.symm))
      obtain rfl : c' = c := (List.cons.inj (List.append_inj' hsame rfl).2).1
      have hchar : (if c'.utf8Size = 1 then c' else replacement) = c' := by
        rcases hc' with hascii | rfl
        · rw [if_pos hascii]
        · exact ite_self _
      have hclip := isClip_cut hlow hhigh
      rw [if_pos hcut] at hclip
      rwa [hchar]

/-- A body that ends with an accent loses its last character to U+FFFD. -/
theorem short_body_garbled :
    snapshotBody (encode ['\u00e9']) = [replacement] ∧
      ¬ IsClip PROBE_BODY_SNIPPET_BYTES ['\u00e9'] (snapshotBody (encode ['\u00e9'])) := by
  have hgarbled : snapshotBody (encode ['\u00e9']) = [replacement] := by decide +kernel
  refine ⟨hgarbled, fun h => ?_⟩
  have hwhole := h.unique (isClip_self (by decide))
  rw [hgarbled] at hwhole
  exact absurd hwhole (by decide)

end Uptimepage.Worker

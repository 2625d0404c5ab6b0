import Uptimepage.Targets.Validate
import Uptimepage.Text.Delimited
import Uptimepage.Worker.BodySnippet

/-!
# Text for a transport

`text.rs`: one line out of a value, and a value cut to what the transport takes.  A cut ends in an
ellipsis of three bytes, and keeps to a cap of bytes if the cap has room for it.
-/

namespace Uptimepage.Notifier

open Text Worker

/-- What is split: no character of it is a control. -/
def flattened (input : String) : String :=
  String.ofList (input.toList.map fun c => if isControl c then ' ' else c)

def singleLine (input : String) : String := " ".intercalate (splitWhitespace (flattened input))

/-- The loop of `truncate_bytes` over the characters from `i` on: where the last that fits ends. -/
def lastFit (budget : Nat) (i : Nat) : List Char → Nat
  | [] => i
  | c :: rest => if i + c.utf8Size > budget then i else lastFit budget (i + c.utf8Size) rest

/-- `none` where `s[..end]` panics. -/
def truncateBytes (s : List Char) (maxBytes : Nat) : Option (List Char) :=
  if byteLen s ≤ maxBytes then some s
  else (sliceTo? s (lastFit (maxBytes - '…'.utf8Size) 0 s)).map (· ++ ['…'])

/-! ## Cuts -/

theorem lastFit_clip {budget i : Nat} (hi : i ≤ budget) (s : List Char) :
    ∃ p, IsClip (budget - i) s p ∧ lastFit budget i s = i + byteLen p := by
  induction s generalizing i with
  | nil => exact ⟨[], isClip_self (Nat.zero_le _), rfl⟩
  | cons c rest ih =>
    unfold lastFit
    by_cases hover : i + c.utf8Size > budget
    · rw [if_pos hover]
      refine ⟨[], ⟨List.nil_prefix, Nat.zero_le _, fun q hq hfits => ?_⟩, rfl⟩
      cases q with
      | nil => exact Nat.le_refl _
      | cons d q =>
        obtain ⟨rfl, -⟩ := List.cons_prefix_cons.mp hq
        rw [byteLen_cons] at hfits
        omega
    · rw [if_neg hover]
      obtain ⟨p, hp, hend⟩ := ih (i := i + c.utf8Size) (by omega)
      have hfits := hp.fits
      refine ⟨c :: p, ⟨List.cons_prefix_cons.mpr ⟨rfl, hp.isPrefix⟩, ?_, fun q hq hq' => ?_⟩, ?_⟩
      · rw [byteLen_cons]
        omega
      · cases q with
        | nil => exact Nat.zero_le _
        | cons d q =>
          obtain ⟨rfl, hrest⟩ := List.cons_prefix_cons.mp hq
          rw [byteLen_cons] at hq'
          have hle := hp.longest q hrest (by omega)
          rw [byteLen_cons, byteLen_cons]
          omega
      · rw [hend, byteLen_cons]
        omega

theorem truncateBytes_of_over {s : List Char} {max : Nat} (h : max < byteLen s) :
    ∃ p, IsClip (max - 3) s p ∧ truncateBytes s max = some (p ++ ['…']) := by
  obtain ⟨p, hp, hend⟩ := lastFit_clip (Nat.zero_le (max - 3)) s
  refine ⟨p, hp, ?_⟩
  unfold truncateBytes
  rw [if_neg (by omega), show '…'.utf8Size = 3 from rfl, hend, Nat.zero_add,
    sliceTo?_eq_some_iff.mpr ⟨hp.isPrefix, rfl⟩]
  rfl

/-- **A text is cut between two characters, and to the cap if there is room for the ellipsis.**  What
fits is left alone; of what does not, the longest beginning is kept that leaves the ellipsis its
three bytes. -/
theorem truncateBytes_capped (s : List Char) (max : Nat) :
    ∃ t, truncateBytes s max = some t ∧
      (byteLen s ≤ max → t = s) ∧
      (max < byteLen s → ∃ p, IsClip (max - 3) s p ∧ t = p ++ ['…']) ∧
      (byteLen t ≤ max ↔ byteLen s ≤ max ∨ 3 ≤ max) ∧
      (3 ≤ max → truncateBytes t max = some t) := by
  rcases Nat.lt_or_ge max (byteLen s) with hover | hfits
  · obtain ⟨p, hp, ht⟩ := truncateBytes_of_over hover
    have hsize : byteLen (p ++ ['…']) = byteLen p + 3 := byteLen_append p ['…']
    have hle := hp.fits
    refine ⟨_, ht, fun h => by omega, fun _ => ⟨p, hp, rfl⟩, by omega, fun hroom => ?_⟩
    exact if_pos (by omega)
  · exact ⟨s, if_pos hfits, fun _ => rfl, fun h => by omega, by omega, fun _ => if_pos hfits⟩

/-! ## Lines -/

theorem splitOnP_spec (p : Char → Bool) (s : List Char) :
    (∀ w ∈ s.splitOnP p, ∀ c ∈ w, c ∈ s ∧ p c = false) ∧
      (s.splitOnP p).flatten = s.filter (!p ·) := by
  induction s with
  | nil => simp
  | cons c s ih =>
    rw [List.splitOnP_cons_eq_if_modifyHead]
    cases hwords : s.splitOnP p with
    | nil => exact absurd hwords (List.splitOnP_ne_nil _ _)
    | cons w words =>
      rw [hwords] at ih
      obtain ⟨hmem, hflat⟩ := ih
      by_cases hc : p c = true
      · rw [if_pos hc, List.filter_cons_of_neg (by simp [hc]), List.flatten_cons, List.nil_append]
        refine ⟨fun w' hw' d hd => ?_, hflat⟩
        rcases List.mem_cons.mp hw' with rfl | hw'
        · cases hd
        · exact ⟨List.mem_cons_of_mem c (hmem w' hw' d hd).1, (hmem w' hw' d hd).2⟩
      · rw [if_neg hc, List.modifyHead_cons, List.filter_cons_of_pos (by simp [hc]),
          List.flatten_cons, List.cons_append, ← List.flatten_cons, hflat]
        refine ⟨fun w' hw' d hd => ?_, rfl⟩
        have hold : ∀ w' ∈ w :: words, d ∈ w' → d ∈ c :: s ∧ p d = false := fun w' hw' hd =>
          ⟨List.mem_cons_of_mem c (hmem w' hw' d hd).1, (hmem w' hw' d hd).2⟩
        rcases List.mem_cons.mp hw' with rfl | hw'
        · rcases List.mem_cons.mp hd with rfl | hd
          · exact ⟨List.mem_cons_self, Bool.eq_false_iff.mpr hc⟩
          · exact hold w List.mem_cons_self hd
        · exact hold w' (List.mem_cons_of_mem w hw') hd

theorem splitWhitespace_words (s : String) :
    (∀ w ∈ splitWhitespace s, w ≠ "" ∧ ∀ c ∈ w.toList, c ∈ s.toList ∧ isWhitespace c = false) ∧
      (splitWhitespace s).flatMap String.toList = s.toList.filter (!isWhitespace ·) := by
  obtain ⟨hmem, hflat⟩ := splitOnP_spec isWhitespace s.toList
  constructor
  · intro w hw
    obtain ⟨cs, hcs, rfl⟩ := List.mem_map.mp hw
    obtain ⟨hcs, hne⟩ := List.mem_filter.mp hcs
    rw [String.toList_ofList]
    refine ⟨fun heq => ?_, hmem cs hcs⟩
    rw [String.ofList_eq_empty_iff] at heq
    simp [heq] at hne
  · rw [← hflat, splitWhitespace, List.flatMap_map, ← List.flatten_filter_not_isEmpty]
    simp [List.flatMap]

theorem mem_flattened {s : String} {c : Char} (hc : c ∈ (flattened s).toList)
    (hword : isWhitespace c = false) : c ∈ s.toList ∧ isControl c = false := by
  rw [flattened, String.toList_ofList] at hc
  obtain ⟨d, hd, rfl⟩ := List.mem_map.mp hc
  by_cases hcontrol : isControl d = true
  · rw [if_pos hcontrol] at hword
    cases hword
  · rw [if_neg hcontrol]
    exact ⟨hd, Bool.eq_false_iff.mpr hcontrol⟩

theorem flattened_eq_self {s : String} (h : ∀ c ∈ s.toList, isControl c = false) :
    flattened s = s := by
  have hmap : (s.toList.map fun c => if isControl c then ' ' else c) = s.toList.map id :=
    List.map_congr_left fun c hc => if_neg (by simp [h c hc])
  rw [flattened, hmap, List.map_id, String.ofList_toList]

/-- **One line, whatever comes in**: words without white space and control characters, one blank
between two of them, and every other character in its place.  Doing it twice is doing it once. -/
theorem singleLine_words (s : String) :
    ∃ words : List String, singleLine s = " ".intercalate words ∧
      (∀ w ∈ words, w ≠ "" ∧ ∀ c ∈ w.toList, isWhitespace c = false ∧ isControl c = false) ∧
      words.flatMap String.toList =
        s.toList.filter (fun c => !isWhitespace c && !isControl c) ∧
      singleLine (singleLine s) = singleLine s := by
  obtain ⟨hwords, hkept⟩ := splitWhitespace_words (flattened s)
  have hclean : ∀ w ∈ splitWhitespace (flattened s),
      w ≠ "" ∧ ∀ c ∈ w.toList, isWhitespace c = false ∧ isControl c = false := fun w hw =>
    ⟨(hwords w hw).1, fun c hc =>
      ⟨((hwords w hw).2 c hc).2, (mem_flattened ((hwords w hw).2 c hc).1 ((hwords w hw).2 c hc).2).2⟩⟩
  have hcontrol : ∀ c ∈ (singleLine s).toList, isControl c = false := by
    intro c hc
    rw [singleLine, String.toList_intercalate] at hc
    rcases Delimited.mem_of_mem_join hc with rfl | ⟨cs, hcs, hc⟩
    · decide
    · obtain ⟨w, hw, rfl⟩ := List.mem_map.mp hcs
      exact ((hclean w hw).2 c hc).2
  refine ⟨_, rfl, hclean, ?_, ?_⟩
  · rw [hkept, flattened, String.toList_ofList]
    generalize s.toList = cs
    induction cs with
    | nil => rfl
    | cons c cs ih =>
      rw [List.map_cons, List.filter_cons, List.filter_cons, ih]
      cases hc : isControl c <;> simp [show isWhitespace ' ' = true from rfl]
  · have hsame := flattened_eq_self hcontrol
    unfold singleLine at hsame ⊢
    rw [hsame, splitWhitespace_intercalate fun w hw =>
      ⟨(hclean w hw).1, fun c hc => ((hclean w hw).2 c hc).1⟩]

end Uptimepage.Notifier

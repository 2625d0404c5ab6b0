import Mathlib.Data.String.Basic

/-!
# Text

The operations of `str` that the source uses: trimming, and splitting at white space.
-/

namespace Uptimepage

/-- `char::is_whitespace`, the Unicode `White_Space` property. -/
def isWhitespace (c : Char) : Bool :=
  let n := c.toNat
  decide (9 ≤ n && n ≤ 13) || n == 32 || n == 0x85 || n == 0xA0 || n == 0x1680 ||
    decide (0x2000 ≤ n && n ≤ 0x200A) || n == 0x2028 || n == 0x2029 || n == 0x202F ||
    n == 0x205F || n == 0x3000

/-- `char::is_control`. -/
def isControl (c : Char) : Bool :=
  let n := c.toNat
  n ≤ 0x1F || (0x7F ≤ n && n ≤ 0x9F)

def trim (s : String) : String :=
  String.ofList
    (((s.toList.dropWhile isWhitespace).reverse.dropWhile isWhitespace).reverse)

def toAsciiLowercase (s : String) : String := String.ofList (s.toList.map Char.toLower)

def trimEndSlashes (s : String) : String :=
  String.ofList ((s.toList.reverse.dropWhile fun c => c == '/').reverse)

def splitWhitespace (s : String) : List String :=
  ((s.toList.splitOnP isWhitespace).filter (!·.isEmpty)).map String.ofList

theorem trim_split (s : String) :
    ∃ before after, s.toList = before ++ (trim s).toList ++ after ∧
      (∀ c ∈ before, isWhitespace c = true) ∧ ∀ c ∈ after, isWhitespace c = true := by
  let rest := s.toList.dropWhile isWhitespace
  refine ⟨s.toList.takeWhile isWhitespace, (rest.reverse.takeWhile isWhitespace).reverse, ?_, ?_, ?_⟩
  · have hrest : (rest.reverse.dropWhile isWhitespace).reverse ++
        (rest.reverse.takeWhile isWhitespace).reverse = rest := by
      rw [← List.reverse_append, List.takeWhile_append_dropWhile, List.reverse_reverse]
    unfold trim
    rw [String.toList_ofList, List.append_assoc, hrest, List.takeWhile_append_dropWhile]
  · intro c hc
    exact List.all_eq_true.mp List.all_takeWhile c hc
  · intro c hc
    exact List.all_eq_true.mp List.all_takeWhile c (List.mem_reverse.mp hc)

theorem toAsciiLowercase_eq_self {s : String} (h : ∀ c ∈ s.toList, c.isUpper = false) :
    toAsciiLowercase s = s := by
  have hmap : s.toList.map Char.toLower = s.toList.map id := by
    apply List.map_congr_left
    intro c hc
    have hupper := h c hc
    unfold Char.isUpper at hupper
    unfold Char.toLower
    rw [dif_neg (of_decide_eq_false hupper)]
    rfl
  unfold toAsciiLowercase
  rw [hmap, List.map_id, String.ofList_toList]

theorem isUpper_toLower (c : Char) : c.toLower.isUpper = false := by
  unfold Char.toLower Char.isUpper
  split
  · next h =>
    rw [decide_eq_false_iff_not]
    rintro ⟨-, hle⟩
    have hA := UInt32.le_iff_toNat_le.mp h.1
    have hZ := UInt32.le_iff_toNat_le.mp h.2
    have hsum := UInt32.le_iff_toNat_le.mp hle
    simp at hA hZ hsum
    omega
  · next h => exact decide_eq_false h

theorem toAsciiLowercase_idem (s : String) :
    toAsciiLowercase (toAsciiLowercase s) = toAsciiLowercase s := by
  apply toAsciiLowercase_eq_self
  intro c hc
  unfold toAsciiLowercase at hc
  rw [String.toList_ofList] at hc
  obtain ⟨c', -, rfl⟩ := List.mem_map.mp hc
  exact isUpper_toLower c'

theorem splitOnP_intercalate {words : List (List Char)}
    (h : ∀ w ∈ words, w ≠ [] ∧ ∀ c ∈ w, isWhitespace c = false) :
    (([' '].intercalate words).splitOnP isWhitespace).filter (!·.isEmpty) = words := by
  induction words with
  | nil => rfl
  | cons w rest ih =>
    obtain ⟨⟨hne, hw⟩, hrest⟩ := List.forall_mem_cons.mp h
    cases rest with
    | nil =>
      rw [List.intercalate_singleton, List.splitOnP_eq_singleton hw]
      simp [hne]
    | cons w' rest =>
      rw [List.intercalate_cons_cons, List.append_assoc, List.singleton_append,
        List.splitOnP_append_cons_of_forall_mem hw ' ' (by decide), List.filter_cons_of_pos,
        ih hrest]
      simpa using hne

theorem splitWhitespace_intercalate {words : List String}
    (h : ∀ w ∈ words, w ≠ "" ∧ ∀ c ∈ w.toList, isWhitespace c = false) :
    splitWhitespace (" ".intercalate words) = words := by
  unfold splitWhitespace
  have hwords : ∀ w ∈ words.map String.toList, w ≠ [] ∧ ∀ c ∈ w, isWhitespace c = false := by
    intro w hw
    obtain ⟨str, hstr, rfl⟩ := List.mem_map.mp hw
    exact ⟨fun heq => (h str hstr).1 (String.toList_eq_nil_iff.mp heq), (h str hstr).2⟩
  rw [String.toList_intercalate, show " ".toList = [' '] from rfl, splitOnP_intercalate hwords]
  simp [Function.comp_def]

end Uptimepage

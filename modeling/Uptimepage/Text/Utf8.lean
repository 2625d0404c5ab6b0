import Uptimepage.Text.Slice

/-!
# UTF-8, decoded with losses

`fromUtf8Lossy` replaces each maximal part of a character by one U+FFFD.  A text cut behind the
first byte of a character loses that character alone (`lossy_cut`).
-/

namespace Text

def replacement : Char := '\uFFFD'

def encode (s : List Char) : List UInt8 := s.flatMap String.utf8EncodeChar

def isContinuation (b : UInt8) : Bool := b &&& 0xc0 == 0x80

/-- May the byte be the second of a character that begins with `first`? -/
def secondFits (first second : UInt8) : Bool :=
  if first == 0xe0 then 0xa0 ≤ second && second ≤ 0xbf
  else if first == 0xed then 0x80 ≤ second && second ≤ 0x9f
  else if first == 0xf0 then 0x90 ≤ second && second ≤ 0xbf
  else if first == 0xf4 then 0x80 ≤ second && second ≤ 0x8f
  else isContinuation second

/-- How many bytes at the front are part of a character, or one.  Past the end stands 0. -/
def invalidLen (bytes : List UInt8) : Nat :=
  let first := bytes.getD 0 0
  let width3 := 0xe0 ≤ first && first ≤ 0xef
  let width4 := 0xf0 ≤ first && first ≤ 0xf4
  if (width3 || width4) && secondFits first (bytes.getD 1 0) then
    if width4 && isContinuation (bytes.getD 2 0) then 3 else 2
  else 1

def lossyFrom : Nat → List UInt8 → List Char
  | 0, _ => []
  | _ + 1, [] => []
  | fuel + 1, bytes =>
    match bytes.toByteArray.utf8DecodeChar? 0 with
    | some c => c :: lossyFrom fuel (bytes.drop c.utf8Size)
    | none => replacement :: lossyFrom fuel (bytes.drop (invalidLen bytes))

/-- `String::from_utf8_lossy`.  Every turn takes a byte at least. -/
def fromUtf8Lossy (bytes : List UInt8) : List Char := lossyFrom bytes.length bytes

section

variable {c : Char} {s : List Char} {bytes : List UInt8}

@[simp] theorem encode_nil : encode [] = [] := rfl

@[simp] theorem encode_cons (c : Char) (s : List Char) :
    encode (c :: s) = String.utf8EncodeChar c ++ encode s := rfl

theorem encode_append (s t : List Char) : encode (s ++ t) = encode s ++ encode t :=
  List.flatMap_append

theorem length_encode (s : List Char) : (encode s).length = byteLen s := by
  induction s with
  | nil => rfl
  | cons c s ih => rw [encode_cons, List.length_append, String.length_utf8EncodeChar, ih, byteLen_cons]

theorem continuation_ofNat : ∀ n < 64, isContinuation (UInt8.ofNat (n + 0x80)) = true := by decide

theorem lead2_ofNat : ∀ n < 32, isContinuation (UInt8.ofNat (n + 0xc0)) = false ∧
    0xc0 ≤ UInt8.ofNat (n + 0xc0) := by decide

theorem lead3_ofNat : ∀ n < 16, isContinuation (UInt8.ofNat (n + 0xe0)) = false ∧
    0xc0 ≤ UInt8.ofNat (n + 0xe0) := by decide

theorem lead4_ofNat : ∀ n < 8, isContinuation (UInt8.ofNat (n + 0xf0)) = false ∧
    0xc0 ≤ UInt8.ofNat (n + 0xf0) := by decide

theorem ascii_ofNat : ∀ n < 128, isContinuation (UInt8.ofNat n) = false ∧
    UInt8.ofNat n < 0x80 := by decide

theorem utf8EncodeChar_cases (c : Char) : ∃ lead rest, String.utf8EncodeChar c = lead :: rest ∧
    isContinuation lead = false ∧ (∀ b ∈ rest, isContinuation b = true) ∧
    (rest = [] → lead < 0x80) ∧ (rest ≠ [] → 0xc0 ≤ lead) := by
  unfold String.utf8EncodeChar
  dsimp only
  have hlow : ∀ n : Nat, isContinuation (UInt8.ofNat (n % 0x40 + 0x80)) = true := fun n =>
    continuation_ofNat _ (Nat.mod_lt _ (by decide))
  split
  · next h =>
    obtain ⟨hcont, hsmall⟩ := ascii_ofNat c.val.toNat (by omega)
    exact ⟨_, _, rfl, hcont, nofun, fun _ => hsmall, fun h => absurd rfl h⟩
  · split
    · obtain ⟨hcont, hlead⟩ := lead2_ofNat (c.val.toNat / 64 % 0x20) (Nat.mod_lt _ (by decide))
      refine ⟨_, _, rfl, hcont, ?_, nofun, fun _ => hlead⟩
      simp only [List.mem_cons, List.not_mem_nil, or_false, forall_eq]
      exact hlow _
    · split
      · obtain ⟨hcont, hlead⟩ := lead3_ofNat (c.val.toNat / 4096 % 0x10) (Nat.mod_lt _ (by decide))
        refine ⟨_, _, rfl, hcont, ?_, nofun, fun _ => hlead⟩
        simp only [List.mem_cons, List.not_mem_nil, or_false, forall_eq_or_imp, forall_eq]
        exact ⟨hlow _, hlow _⟩
      · obtain ⟨hcont, hlead⟩ := lead4_ofNat (c.val.toNat / 262144 % 0x08)
          (Nat.mod_lt _ (by decide))
        refine ⟨_, _, rfl, hcont, ?_, nofun, fun _ => hlead⟩
        simp only [List.mem_cons, List.not_mem_nil, or_false, forall_eq_or_imp, forall_eq]
        exact ⟨hlow _, hlow _, hlow _⟩

theorem decode_char (c : Char) (bytes : List UInt8) :
    (String.utf8EncodeChar c ++ bytes).toByteArray.utf8DecodeChar? 0 = some c := by
  rw [List.toByteArray_append]
  exact ByteArray.utf8DecodeChar?_utf8EncodeChar_append

theorem decode_lead {lead : UInt8} (h : 0xc0 ≤ lead) :
    [lead].toByteArray.utf8DecodeChar? 0 = none := by
  cases hdecode : [lead].toByteArray.utf8DecodeChar? 0 with
  | none => rfl
  | some d =>
    obtain ⟨l, hl⟩ := ByteArray.exists_of_utf8DecodeChar?_eq_some hdecode
    obtain ⟨first, rest, hd, -, -, hascii, -⟩ := utf8EncodeChar_cases d
    have hlist : [lead] = String.utf8EncodeChar d ++ l.data.toList := by
      simpa using congrArg (fun b => b.data.toList) hl
    rw [hd, List.cons_append] at hlist
    obtain ⟨rfl, hnil⟩ := List.cons.inj hlist
    have hrest : rest = [] := (List.append_eq_nil_iff.mp hnil.symm).1
    have hle := UInt8.le_iff_toNat_le.mp h
    have hlt := UInt8.lt_iff_toNat_lt.mp (hascii hrest)
    have hconst : (0xc0 : UInt8).toNat = 192 ∧ (0x80 : UInt8).toNat = 128 := by decide
    omega

theorem invalidLen_singleton (b : UInt8) : invalidLen [b] = 1 := by
  have hnone : secondFits b 0 = false := by
    unfold secondFits
    repeat' split
    all_goals decide
  show (if _ && secondFits b 0 then _ else 1) = 1
  rw [hnone, Bool.and_false]
  rfl

theorem lossyFrom_char (fuel : Nat) (c : Char) (bytes : List UInt8) :
    lossyFrom (fuel + 1) (String.utf8EncodeChar c ++ bytes) = c :: lossyFrom fuel bytes := by
  have hdecode := decode_char c bytes
  have hdrop : (String.utf8EncodeChar c ++ bytes).drop c.utf8Size = bytes := by
    rw [← String.length_utf8EncodeChar, List.drop_left]
  obtain ⟨lead, rest, hbytes, -⟩ := utf8EncodeChar_cases c
  rw [hbytes, List.cons_append] at hdecode hdrop ⊢
  rw [lossyFrom, hdecode]
  · dsimp only
    rw [hdrop]
  · exact List.cons_ne_nil _ _

theorem lossyFrom_encode (fuel : Nat) (s : List Char) (bytes : List UInt8) :
    lossyFrom (s.length + fuel) (encode s ++ bytes) = s ++ lossyFrom fuel bytes := by
  induction s with
  | nil => rw [List.length_nil, Nat.zero_add, encode_nil, List.nil_append, List.nil_append]
  | cons c s ih =>
    rw [encode_cons, List.append_assoc, List.length_cons, Nat.add_right_comm, lossyFrom_char, ih,
      List.cons_append]

theorem length_le_byteLen (s : List Char) : s.length ≤ byteLen s := by
  induction s with
  | nil => exact Nat.le_refl 0
  | cons c s ih =>
    have hc := c.utf8Size_pos
    rw [List.length_cons, byteLen_cons]
    omega

theorem lossy_encode (s : List Char) : fromUtf8Lossy (encode s) = s := by
  have hfuel : (encode s).length = s.length + (byteLen s - s.length) := by
    have := length_le_byteLen s
    rw [length_encode]
    omega
  have hrest := lossyFrom_encode (byteLen s - s.length) s []
  rw [List.append_nil] at hrest
  rw [fromUtf8Lossy, hfuel, hrest]
  cases byteLen s - s.length <;> exact List.append_nil s

theorem lossy_cut (s : List Char) {lead : UInt8} (h : 0xc0 ≤ lead) :
    fromUtf8Lossy (encode s ++ [lead]) = s ++ [replacement] := by
  have hfuel : (encode s ++ [lead]).length = s.length + (byteLen s - s.length + 1) := by
    have := length_le_byteLen s
    rw [List.length_append, length_encode, List.length_singleton]
    omega
  rw [fromUtf8Lossy, hfuel, lossyFrom_encode, lossyFrom, decode_lead h]
  · dsimp only
    rw [invalidLen_singleton]
    cases byteLen s - s.length <;> rfl
  · exact List.cons_ne_nil _ _

end

end Text

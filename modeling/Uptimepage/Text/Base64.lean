import Mathlib.Tactic.Common

/-!
# Base64 with the URL-safe alphabet

Without padding, and strict: a text of one character too many, or with bits behind the last
byte, is refused.  `decode_encode` reads back what is written, and no character of it lies
outside the alphabet (`mem_encode`).
-/

namespace Base64

def alphabet : List Char :=
  "ABCDEFGHIJKLMNOPQRSTUVWXYZabcdefghijklmnopqrstuvwxyz0123456789-_".toList

def digit (n : Nat) : Char := alphabet.getD n 'A'

def value? (c : Char) : Option Nat :=
  if 'A' ≤ c ∧ c ≤ 'Z' then some (c.toNat - 65)
  else if 'a' ≤ c ∧ c ≤ 'z' then some (c.toNat - 71)
  else if '0' ≤ c ∧ c ≤ '9' then some (c.toNat + 4)
  else if c = '-' then some 62
  else if c = '_' then some 63
  else none

def encode : List UInt8 → List Char
  | a :: b :: c :: rest =>
    let n := a.toNat * 65536 + b.toNat * 256 + c.toNat
    digit (n / 262144) :: digit (n / 4096 % 64) :: digit (n / 64 % 64) :: digit (n % 64) ::
      encode rest
  | [a, b] =>
    let n := a.toNat * 1024 + b.toNat * 4
    [digit (n / 4096), digit (n / 64 % 64), digit (n % 64)]
  | [a] =>
    let n := a.toNat * 16
    [digit (n / 64), digit (n % 64)]
  | [] => []

def decode : List Char → Option (List UInt8)
  | w :: x :: y :: z :: rest =>
    match value? w, value? x, value? y, value? z, decode rest with
    | some w, some x, some y, some z, some bytes =>
      let n := w * 262144 + x * 4096 + y * 64 + z
      some (UInt8.ofNat (n / 65536) :: UInt8.ofNat (n / 256 % 256) :: UInt8.ofNat (n % 256) ::
        bytes)
    | _, _, _, _, _ => none
  | [w, x, y] =>
    match value? w, value? x, value? y with
    | some w, some x, some y =>
      let n := w * 4096 + x * 64 + y
      if n % 4 = 0 then some [UInt8.ofNat (n / 1024), UInt8.ofNat (n / 4 % 256)] else none
    | _, _, _ => none
  | [w, x] =>
    match value? w, value? x with
    | some w, some x =>
      let n := w * 64 + x
      if n % 16 = 0 then some [UInt8.ofNat (n / 16)] else none
    | _, _ => none
  | [_] => none
  | [] => some []

theorem alphabet_eq : alphabet =
    ['A', 'B', 'C', 'D', 'E', 'F', 'G', 'H', 'I', 'J', 'K', 'L', 'M', 'N', 'O', 'P', 'Q', 'R', 'S',
     'T', 'U', 'V', 'W', 'X', 'Y', 'Z', 'a', 'b', 'c', 'd', 'e', 'f', 'g', 'h', 'i', 'j', 'k', 'l',
     'm', 'n', 'o', 'p', 'q', 'r', 's', 't', 'u', 'v', 'w', 'x', 'y', 'z', '0', '1', '2', '3', '4',
     '5', '6', '7', '8', '9', '-', '_'] :=
  String.toList_ofList

theorem alphabet_values : alphabet.map value? = (List.range 64).map some := by
  rw [alphabet_eq]
  decide +kernel

theorem alphabet_length : alphabet.length = 64 := by
  rw [← List.length_map value?, alphabet_values, List.length_map, List.length_range]

theorem alphabet_digit {n : Nat} (h : n < 64) : alphabet[n]? = some (digit n) := by
  have hn : n < alphabet.length := alphabet_length ▸ h
  rw [digit, List.getD_eq_getElem?_getD, List.getElem?_eq_getElem hn, Option.getD_some]

theorem value?_digit (n : Nat) (h : n < 64) : value? (digit n) = some n := by
  have hvalue : (alphabet.map value?)[n]? = some (some n) := by
    rw [alphabet_values, List.getElem?_map, List.getElem?_range h, Option.map_some]
  rwa [List.getElem?_map, alphabet_digit h, Option.map_some, Option.some_inj] at hvalue

theorem digit_mem (n : Nat) (h : n < 64) : digit n ∈ alphabet :=
  List.mem_of_getElem? (alphabet_digit h)

theorem four_digits (n : Nat) :
    n / 262144 * 262144 + n / 4096 % 64 * 4096 + n / 64 % 64 * 64 + n % 64 = n := by omega

theorem three_digits (n : Nat) : n / 4096 * 4096 + n / 64 % 64 * 64 + n % 64 = n := by omega

variable {a b i j k : Nat} {w x y : Char} {bytes : List UInt8}

theorem three_bytes {c : Nat} (hb : b < 256) (hc : c < 256) :
    (a * 65536 + b * 256 + c) / 65536 = a ∧ (a * 65536 + b * 256 + c) / 256 % 256 = b ∧
      (a * 65536 + b * 256 + c) % 256 = c := by omega

theorem two_bytes (hb : b < 256) :
    (a * 1024 + b * 4) % 4 = 0 ∧ (a * 1024 + b * 4) / 1024 = a ∧
      (a * 1024 + b * 4) / 4 % 256 = b := by omega

theorem decode_four {z : Char} {rest : List Char} {l : Nat} (hw : value? w = some i)
    (hx : value? x = some j) (hy : value? y = some k) (hz : value? z = some l)
    (hrest : decode rest = some bytes) :
    decode (w :: x :: y :: z :: rest) =
      some (UInt8.ofNat ((i * 262144 + j * 4096 + k * 64 + l) / 65536) ::
        UInt8.ofNat ((i * 262144 + j * 4096 + k * 64 + l) / 256 % 256) ::
        UInt8.ofNat ((i * 262144 + j * 4096 + k * 64 + l) % 256) :: bytes) := by
  rw [decode, hw, hx, hy, hz, hrest]

theorem decode_three (hw : value? w = some i) (hx : value? x = some j) (hy : value? y = some k)
    (h : (i * 4096 + j * 64 + k) % 4 = 0) :
    decode [w, x, y] = some [UInt8.ofNat ((i * 4096 + j * 64 + k) / 1024),
      UInt8.ofNat ((i * 4096 + j * 64 + k) / 4 % 256)] := by
  rw [decode, hw, hx, hy]
  exact if_pos h

theorem decode_two (hw : value? w = some i) (hx : value? x = some j) (h : (i * 64 + j) % 16 = 0) :
    decode [w, x] = some [UInt8.ofNat ((i * 64 + j) / 16)] := by
  rw [decode, hw, hx]
  exact if_pos h

theorem decode_encode (bytes : List UInt8) : decode (encode bytes) = some bytes := by
  induction bytes using encode.induct with
  | case1 a b c rest ih =>
    have ha := a.toNat_lt
    have hb := b.toNat_lt
    have hc := c.toNat_lt
    rw [encode]
    rw [decode_four (value?_digit _ (by omega)) (value?_digit _ (by omega))
      (value?_digit _ (by omega)) (value?_digit _ (by omega)) ih]
    obtain ⟨hfirst, hsecond, hthird⟩ := @three_bytes a.toNat b.toNat c.toNat hb hc
    rw [four_digits, hfirst, hsecond, hthird, UInt8.ofNat_toNat, UInt8.ofNat_toNat,
      UInt8.ofNat_toNat]
  | case2 a b =>
    have ha := a.toNat_lt
    have hb := b.toNat_lt
    obtain ⟨htail, hfirst, hsecond⟩ := @two_bytes a.toNat b.toNat hb
    rw [encode, decode_three (value?_digit _ (by omega)) (value?_digit _ (by omega))
      (value?_digit _ (by omega)) (by rw [three_digits, htail])]
    rw [three_digits, hfirst, hsecond, UInt8.ofNat_toNat, UInt8.ofNat_toNat]
  | case3 a =>
    have ha := a.toNat_lt
    have hsum : a.toNat * 16 / 64 * 64 + a.toNat * 16 % 64 = a.toNat * 16 := by omega
    have hfirst : a.toNat * 16 / 16 = a.toNat := by omega
    rw [encode, decode_two (value?_digit _ (by omega)) (value?_digit _ (by omega)) (by omega)]
    rw [hsum, hfirst, UInt8.ofNat_toNat]
  | case4 => rfl

example : encode [102, 111, 111, 98] = ['Z', 'm', '9', 'v', 'Y', 'g'] := by decide +kernel

theorem mem_encode {d : Char} (h : d ∈ encode bytes) : d ∈ alphabet := by
  induction bytes using encode.induct with
  | case1 a b c rest ih =>
    have ha := a.toNat_lt
    have hb := b.toNat_lt
    have hc := c.toNat_lt
    simp only [encode, List.mem_cons] at h
    rcases h with rfl | rfl | rfl | rfl | hrest
    · exact digit_mem _ (by omega)
    · exact digit_mem _ (by omega)
    · exact digit_mem _ (by omega)
    · exact digit_mem _ (by omega)
    · exact ih hrest
  | case2 a b =>
    have ha := a.toNat_lt
    have hb := b.toNat_lt
    simp only [encode, List.mem_cons, List.not_mem_nil, or_false] at h
    rcases h with rfl | rfl | rfl
    · exact digit_mem _ (by omega)
    · exact digit_mem _ (by omega)
    · exact digit_mem _ (by omega)
  | case3 a =>
    have ha := a.toNat_lt
    simp only [encode, List.mem_cons, List.not_mem_nil, or_false] at h
    rcases h with rfl | rfl
    · exact digit_mem _ (by omega)
    · exact digit_mem _ (by omega)
  | case4 => cases h

end Base64

import Mathlib.Data.List.Infix

/-!
# The text of a JSON value

How `jsonb` prints a value: combinators over texts, and what they contain.  A character that needs
no escape is printed as it is, so a stretch of such characters in a string is a stretch of the
text (`infix_str`).  Fields are printed in the order they are given.
-/

namespace Json

def hexDigit (n : Nat) : Char := Nat.digitChar n

def escapeChar (c : Char) : List Char :=
  if c = '"' then ['\\', '"']
  else if c = '\\' then ['\\', '\\']
  else if c.toNat = 8 then ['\\', 'b']
  else if c.toNat = 9 then ['\\', 't']
  else if c.toNat = 10 then ['\\', 'n']
  else if c.toNat = 12 then ['\\', 'f']
  else if c.toNat = 13 then ['\\', 'r']
  else if c.toNat < 32 then ['\\', 'u', '0', '0', hexDigit (c.toNat / 16), hexDigit (c.toNat % 16)]
  else [c]

def escape (s : List Char) : List Char := s.flatMap escapeChar

def str (s : String) : List Char := '"' :: escape s.toList ++ ['"']

def num (n : Nat) : List Char := Nat.toDigits 10 n

def bool (b : Bool) : List Char := (if b then "true" else "false").toList

def null : List Char := "null".toList

def opt {α : Type} (f : α → List Char) : Option α → List Char
  | some a => f a
  | none => null

/-- Texts with `, ` between. -/
def commas (items : List (List Char)) : List Char := [',', ' '].intercalate items

def arr (items : List (List Char)) : List Char := '[' :: commas items ++ [']']

def field (name : String) (value : List Char) : List Char := str name ++ ':' :: ' ' :: value

def obj (fields : List (String × List Char)) : List Char :=
  '{' :: commas (fields.map fun f => field f.1 f.2) ++ ['}']

/-- Printed as it is. -/
def Plain (c : Char) : Prop := c ≠ '"' ∧ c ≠ '\\' ∧ 32 ≤ c.toNat

theorem escapeChar_plain {c : Char} (h : Plain c) : escapeChar c = [c] := by
  obtain ⟨hquote, hslash, hprintable⟩ := h
  unfold escapeChar
  rw [if_neg hquote, if_neg hslash, if_neg (by omega), if_neg (by omega), if_neg (by omega),
    if_neg (by omega), if_neg (by omega), if_neg (by omega)]

theorem escape_plain {s : List Char} (h : ∀ c ∈ s, Plain c) : escape s = s := by
  induction s with
  | nil => rfl
  | cons c s ih =>
    show escapeChar c ++ escape s = c :: s
    rw [escapeChar_plain (h c List.mem_cons_self),
      ih fun c hc => h c (List.mem_cons_of_mem _ hc)]
    rfl

theorem escape_append (s t : List Char) : escape (s ++ t) = escape s ++ escape t :=
  List.flatMap_append

variable {w item : List Char} {items : List (List Char)}

theorem infix_str {s : String} (hw : ∀ c ∈ w, Plain c) (h : w <:+: s.toList) : w <:+: str s := by
  obtain ⟨pre, post, hs⟩ := h
  refine ⟨'"' :: escape pre, escape post ++ ['"'], ?_⟩
  unfold str
  rw [← hs, escape_append, escape_append, escape_plain hw]
  simp

theorem infix_commas (h : item ∈ items) : item <:+: commas items := by
  unfold commas
  induction items with
  | nil => cases h
  | cons x rest ih =>
    cases rest with
    | nil =>
      obtain rfl : item = x := List.mem_singleton.mp h
      rw [List.intercalate_singleton]
    | cons y rest =>
      rw [List.intercalate_cons_cons]
      rcases List.mem_cons.mp h with rfl | h
      · rw [List.append_assoc]
        exact (List.prefix_append item _).isInfix
      · exact (ih h).trans (List.suffix_append _ _).isInfix

theorem infix_arr (hw : w <:+: item) (h : item ∈ items) : w <:+: arr items :=
  (hw.trans (infix_commas h)).trans ⟨['['], [']'], rfl⟩

theorem infix_obj {fields : List (String × List Char)} (name : String) {value : List Char}
    (hw : w <:+: value) (h : (name, value) ∈ fields) : w <:+: obj fields := by
  have hfield : w <:+: field name value :=
    hw.trans ((List.suffix_cons ' ' value).trans
      ((List.suffix_cons ':' _).trans (List.suffix_append (str name) _))).isInfix
  refine (hfield.trans (infix_commas ?_)).trans ⟨['{'], ['}'], rfl⟩
  exact List.mem_map.mpr ⟨_, h, rfl⟩

end Json

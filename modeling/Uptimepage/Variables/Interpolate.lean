import Mathlib
import Uptimepage.Domain.Text
import Uptimepage.Text.Replace

/-!
# Interpolation

`worker/interpolate.rs` and `validate_var_key` of `domain/variable.rs`.  A template is scanned
once, from left to right; a `{{ … }}` is looked up under what is between its braces, trimmed.
The path of a URL comes with its braces percent-encoded, so these are decoded first.
-/

namespace Uptimepage.Variables

open Text

/-! ## Keys -/

inductive VarKeyError
  | empty
  | tooLong
  | leadingNonAlpha
  | invalidChar
deriving DecidableEq

def maxVarKeyLen : Nat := 63

def isAsciiLowercase (c : Char) : Bool := decide (97 ≤ c.toNat) && decide (c.toNat ≤ 122)

def isAsciiDigit (c : Char) : Bool := decide (48 ≤ c.toNat) && decide (c.toNat ≤ 57)

def isKeyChar (c : Char) : Bool := isAsciiLowercase c || isAsciiDigit c || c == '_'

def validateVarKey (key : String) : Except VarKeyError Unit :=
  match key.toList with
  | [] => .error .empty
  | first :: rest =>
    if maxVarKeyLen < ((first :: rest).map Char.utf8Size).sum then .error .tooLong
    else if !isAsciiLowercase first then .error .leadingNonAlpha
    else if !(first :: rest).all isKeyChar then .error .invalidChar
    else .ok ()

def validKey (key : String) : Bool :=
  match validateVarKey key with
  | .ok _ => true
  | .error _ => false

theorem validKey_chars {key : String} (h : validKey key = true) :
    (∃ first rest, key.toList = first :: rest ∧ isAsciiLowercase first = true) ∧
      ∀ c ∈ key.toList, isKeyChar c = true := by
  unfold validKey validateVarKey at h
  cases hkey : key.toList with
  | nil =>
    rw [hkey] at h
    cases h
  | cons first rest =>
    rw [hkey] at h
    simp only at h
    split at h
    · next heq =>
      split at heq
      · cases heq
      · split at heq
        · cases heq
        · next hfirst =>
          split at heq
          · cases heq
          · next hall =>
            simp only [Bool.not_eq_true', Bool.not_eq_false] at hfirst hall
            exact ⟨⟨first, rest, rfl, hfirst⟩, List.all_eq_true.mp hall⟩
    · cases h

/-! ## Templates -/

inductive FieldKind
  | url
  | headerValue
  | body
  | assertion
  | stepValue
deriving DecidableEq

def FieldKind.allowsSecret : FieldKind → Bool
  | .headerValue | .body | .stepValue => true
  | .url | .assertion => false

inductive ResolveError
  | unknown (key : String)
  | secretNotAllowed (key : String) (field : FieldKind)
  | malformedToken
  | invalidUrl
deriving DecidableEq

structure ResolvedVar where
  value : String
  isSecret : Bool
deriving DecidableEq

abbrev VarMap := String → Option ResolvedVar

/-- What is before the first `}}`. -/
def findClose : List Char → Option (List Char)
  | [] => none
  | c :: rest =>
    if c = '}' ∧ rest.head? = some '}' then some [] else (findClose rest).map (c :: ·)

inductive Piece
  | text (c : Char)
  /-- What is between the braces. -/
  | token (content : List Char)
deriving DecidableEq

/-- The template from here on; `skip` characters of it belong to the token before. -/
def scan : Nat → List Char → List Piece
  | _, [] => []
  | skip + 1, _ :: rest => scan skip rest
  | 0, c :: rest =>
    if c = '{' ∧ rest.head? = some '{' then
      match findClose rest.tail with
      | none => (c :: rest).map .text
      | some content => .token content :: scan (content.length + 3) rest
    else .text c :: scan 0 rest

def Piece.key (content : List Char) : String := trim (String.ofList content)

def Piece.fill (vars : VarMap) (field : FieldKind) : Piece → Except ResolveError (List Char)
  | .text c => .ok [c]
  | .token content =>
    let key := Piece.key content
    if !validKey key then .error .malformedToken
    else
      match vars key with
      | none => .error (.unknown key)
      | some var =>
        if var.isSecret && !field.allowsSecret then .error (.secretNotAllowed key field)
        else .ok var.value.toList

/-- The pieces one after the other, up to the first that fails. -/
def fillAll (vars : VarMap) (field : FieldKind) : List Piece → Except ResolveError (List Char)
  | [] => .ok []
  | p :: ps => do
    let out ← p.fill vars field
    let rest ← fillAll vars field ps
    return out ++ rest

def resolve (template : String) (vars : VarMap) (field : FieldKind) :
    Except ResolveError String :=
  (fillAll vars field (scan 0 template.toList)).map String.ofList

/-- The keys looked up if every lookup succeeds: those of the tokens before a malformed one. -/
def pieceKeys : List Piece → List String
  | [] => []
  | .text _ :: ps => pieceKeys ps
  | .token content :: ps =>
    if validKey (Piece.key content) then Piece.key content :: pieceKeys ps else []

def keys (template : String) : List String := pieceKeys (scan 0 template.toList)

theorem fill_token {vars : VarMap} {field : FieldKind} {content : List Char}
    (h : validKey (Piece.key content) = false) :
    (Piece.token content).fill vars field = .error .malformedToken := by
  simp [Piece.fill, h]

theorem fillAll_congr {vars vars' : VarMap} (field : FieldKind) {ps : List Piece}
    (h : ∀ k ∈ pieceKeys ps, vars k = vars' k) :
    fillAll vars field ps = fillAll vars' field ps := by
  induction ps with
  | nil => rfl
  | cons p ps ih =>
    cases p with
    | text c =>
      unfold fillAll
      rw [ih h]
      rfl
    | token content =>
      by_cases hvalid : validKey (Piece.key content) = true
      · rw [pieceKeys, if_pos hvalid] at h
        have hfill : (Piece.token content).fill vars field =
            (Piece.token content).fill vars' field := by
          simp only [Piece.fill, h _ List.mem_cons_self]
        unfold fillAll
        rw [hfill, ih fun k hk => h k (List.mem_cons_of_mem _ hk)]
      · unfold fillAll
        rw [fill_token (Bool.eq_false_iff.mpr hvalid), fill_token (Bool.eq_false_iff.mpr hvalid)]
        rfl

theorem resolve_congr {template : String} {vars vars' : VarMap} (field : FieldKind)
    (h : ∀ k ∈ keys template, vars k = vars' k) :
    resolve template vars field = resolve template vars' field :=
  congrArg (Except.map String.ofList) (fillAll_congr field h)

/-! ## Where a token stands -/

def opens : List Char := ['{', '{']

def closes : List Char := ['}', '}']

theorem findClose_some {t content : List Char} (h : findClose t = some content) :
    ∃ post, t = content ++ closes ++ post := by
  induction t generalizing content with
  | nil => cases h
  | cons c rest ih =>
    unfold findClose at h
    split at h
    · next hclose =>
      cases h
      obtain ⟨rfl, hhead⟩ := hclose
      obtain ⟨rest', rfl⟩ := List.head?_eq_some_iff.mp hhead
      exact ⟨rest', rfl⟩
    · obtain ⟨content', hcontent, rfl⟩ := Option.map_eq_some_iff.mp h
      obtain ⟨post, rfl⟩ := ih hcontent
      exact ⟨post, rfl⟩

theorem mem_scan {skip : Nat} {t content : List Char} (h : .token content ∈ scan skip t)
    (hskip : (t.take skip).getLast? ≠ some '{') :
    ∃ pre post, t = pre ++ (opens ++ content ++ closes ++ post) ∧ skip ≤ pre.length ∧
      pre.getLast? ≠ some '{' := by
  induction t generalizing skip with
  | nil => cases skip <;> cases h
  | cons c rest ih =>
    have hcons : ∀ {pre : List Char}, (pre ≠ [] ∨ c ≠ '{') → pre.getLast? ≠ some '{' →
        (c :: pre).getLast? ≠ some '{' := by
      intro pre hpre hlast
      cases pre with
      | nil =>
        rcases hpre with hpre | hc
        · exact absurd rfl hpre
        · simpa using hc
      | cons d pre => exact hlast
    cases skip with
    | succ skip =>
      have hrest : (rest.take skip).getLast? ≠ some '{' := by
        intro hlast
        apply hskip
        rw [List.take_succ_cons, List.getLast?_cons, hlast]
        rfl
      obtain ⟨pre, post, heq, hle, hlast⟩ := ih h hrest
      refine ⟨c :: pre, post, by rw [heq]; rfl, Nat.succ_le_succ hle, hcons ?_ hlast⟩
      cases pre with
      | cons => exact .inl (List.cons_ne_nil _ _)
      | nil =>
        right
        obtain rfl : skip = 0 := Nat.le_zero.mp hle
        simpa using hskip
    | zero =>
      unfold scan at h
      split at h
      · next hopen =>
        obtain ⟨rfl, hhead⟩ := hopen
        obtain ⟨rest', rfl⟩ := List.head?_eq_some_iff.mp hhead
        split at h
        · obtain ⟨d, -, hd⟩ := List.mem_map.mp h
          cases hd
        · next content' hclose =>
          obtain ⟨post, hpost⟩ := findClose_some hclose
          rw [List.tail_cons] at hpost
          subst hpost
          rcases List.mem_cons.mp h with hc | h
          · cases hc
            exact ⟨[], post, by simp [opens], Nat.zero_le _, by simp⟩
          · have htake : (('{' :: (content' ++ closes ++ post)).take (content'.length + 3)) =
                '{' :: content' ++ closes := by
              rw [List.take_succ_cons, List.take_append_of_le_length (by simp [closes]),
                List.take_of_length_le (by simp [closes])]
              rfl
            obtain ⟨pre, post', heq, hle, hlast⟩ := ih h (by rw [htake]; simp [closes, List.getLast?_cons])
            refine ⟨'{' :: pre, post', by rw [heq]; rfl, Nat.zero_le _, hcons ?_ hlast⟩
            left
            rintro rfl
            simp at hle
      · next hopen =>
        rcases List.mem_cons.mp h with hc | h
        · cases hc
        · obtain ⟨pre, post, heq, -, hlast⟩ := ih h (by simp)
          refine ⟨c :: pre, post, by rw [heq]; rfl, Nat.zero_le _, hcons ?_ hlast⟩
          by_cases hc : c = '{'
          · left
            rintro rfl
            exact hopen ⟨hc, by rw [heq]; rfl⟩
          · exact .inr hc

theorem mem_pieceKeys {ps : List Piece} {k : String} (h : k ∈ pieceKeys ps) :
    validKey k = true ∧ ∃ content, .token content ∈ ps ∧ Piece.key content = k := by
  induction ps with
  | nil => cases h
  | cons p ps ih =>
    have hrest : k ∈ pieceKeys ps → validKey k = true ∧
        ∃ content, .token content ∈ p :: ps ∧ Piece.key content = k := by
      intro hk
      obtain ⟨hvalid, content, hmem, hkey⟩ := ih hk
      exact ⟨hvalid, content, List.mem_cons_of_mem _ hmem, hkey⟩
    cases p with
    | text c => exact hrest h
    | token content =>
      unfold pieceKeys at h
      split at h
      · next hvalid =>
        rcases List.mem_cons.mp h with rfl | h
        · exact ⟨hvalid, content, List.mem_cons_self, rfl⟩
        · exact hrest h
      · cases h

theorem isKeyChar_ne {c : Char} (h : isKeyChar c = true) : c ≠ '{' ∧ c ≠ '}' := by
  constructor
  · rintro rfl
    revert h
    decide
  · rintro rfl
    revert h
    decide

theorem isWhitespace_ne {c : Char} (h : isWhitespace c = true) : c ≠ '{' ∧ c ≠ '}' := by
  constructor
  · rintro rfl
    revert h
    decide
  · rintro rfl
    revert h
    decide

/-- One way to write a token: its two pairs of braces, and what is between these and the key. -/
structure Spelling where
  opening : List Char
  closing : List Char
  before : List Char
  after : List Char

namespace Spelling

def content (w : Spelling) (key : String) : List Char := w.before ++ key.toList ++ w.after

def write (w : Spelling) (key : String) : List Char := w.opening ++ w.content key ++ w.closing

/-- There is only white space around the key. -/
def Trimmed (w : Spelling) : Prop :=
  (∀ c ∈ w.before, isWhitespace c = true) ∧ ∀ c ∈ w.after, isWhitespace c = true

theorem content_ne {w : Spelling} {key : String} (h : w.Trimmed) (hkey : validKey key = true)
    {c : Char} (hc : c ∈ w.content key) : c ≠ '{' ∧ c ≠ '}' := by
  rcases List.mem_append.mp hc with hc | hc
  · rcases List.mem_append.mp hc with hc | hc
    · exact isWhitespace_ne (h.1 c hc)
    · exact isKeyChar_ne ((validKey_chars hkey).2 c hc)
  · exact isWhitespace_ne (h.2 c hc)

theorem content_ne_nil (w : Spelling) {key : String} (hkey : validKey key = true) :
    w.content key ≠ [] := by
  obtain ⟨⟨first, rest, hchars, -⟩, -⟩ := validKey_chars hkey
  simp [content, hchars]

end Spelling

theorem keys_split {template key : String} (h : key ∈ keys template) :
    validKey key = true ∧ ∃ w : Spelling, w.opening = opens ∧ w.closing = closes ∧ w.Trimmed ∧
      ∃ pre post, template.toList = pre ++ (w.write key ++ post) ∧ pre.getLast? ≠ some '{' := by
  obtain ⟨hvalid, content, hmem, rfl⟩ := mem_pieceKeys h
  obtain ⟨pre, post, heq, -, hlast⟩ := mem_scan hmem (by simp)
  obtain ⟨before, after, hsplit, hbefore, hafter⟩ := trim_split (String.ofList content)
  rw [String.toList_ofList] at hsplit
  refine ⟨hvalid, ⟨opens, closes, before, after⟩, rfl, rfl, ⟨hbefore, hafter⟩, pre, post, ?_, hlast⟩
  rw [heq]
  conv_lhs => rw [hsplit]
  rfl

theorem mem_keys {template key : String} (h : key ∈ keys template) :
    validKey key = true ∧ ∃ w : Spelling, w.opening = opens ∧ w.closing = closes ∧ w.Trimmed ∧
      w.write key <:+: template.toList := by
  obtain ⟨hvalid, w, hopening, hclosing, htrimmed, pre, post, heq, -⟩ := keys_split h
  refine ⟨hvalid, w, hopening, hclosing, htrimmed, pre, post, ?_⟩
  rw [heq, List.append_assoc]

/-! ## URLs -/

def encodedOpens : List Char := "%7B%7B".toList

def encodedCloses : List Char := "%7D%7D".toList

def decodeBraceTokens (s : String) : String :=
  if contains encodedOpens s.toList || contains encodedCloses s.toList then
    String.ofList (replace encodedCloses closes (replace encodedOpens opens s.toList))
  else s

theorem replaced_decode (s : String) :
    ∃ t, Replaced encodedOpens opens s.toList t ∧
      Replaced encodedCloses closes t (decodeBraceTokens s).toList := by
  unfold decodeBraceTokens
  split
  · refine ⟨replace encodedOpens opens s.toList, replaced_replace (by decide) _ _, ?_⟩
    rw [String.toList_ofList]
    exact replaced_replace (by decide) _ _
  · exact ⟨s.toList, .refl _ _ _, .refl _ _ _⟩

theorem closing_split {s v : List Char} (h : Replaced encodedCloses closes s (closes ++ v)) :
    ∃ closing ∈ [closes, encodedCloses, '}' :: encodedCloses], ∃ s', s = closing ++ s' := by
  rcases h.pair with ⟨s', rfl, -⟩ | ⟨s', rfl, -⟩ | ⟨s', v', rfl, -, -⟩
  · exact ⟨closes, by simp, s', rfl⟩
  · exact ⟨encodedCloses, by simp, s', rfl⟩
  · exact ⟨'}' :: encodedCloses, by simp, s', rfl⟩

theorem opening_split {s v : List Char} (h : Replaced encodedOpens opens s (opens ++ v))
    (hv : v.head? ≠ some '{') :
    ∃ opening ∈ [opens, encodedOpens], ∃ s', s = opening ++ s' ∧
      Replaced encodedOpens opens s' v := by
  rcases h.pair with ⟨s', rfl, h'⟩ | ⟨s', rfl, h'⟩ | ⟨s', v', -, rfl, -⟩
  · exact ⟨opens, by simp, s', rfl, h'⟩
  · exact ⟨encodedOpens, by simp, s', rfl, h'⟩
  · exact absurd rfl hv

theorem mem_urlKeys {url key : String} (h : key ∈ keys (decodeBraceTokens url)) :
    validKey key = true ∧ ∃ w : Spelling, w.opening ∈ [opens, encodedOpens] ∧
      w.closing ∈ [closes, encodedCloses, '}' :: encodedCloses] ∧ w.Trimmed ∧
      w.write key <:+: url.toList := by
  obtain ⟨hvalid, w, hopening, hclosing, htrimmed, pre, post, heq, hlast⟩ := keys_split h
  refine ⟨hvalid, ?_⟩
  obtain ⟨t, hdecodeOpens, hdecodeCloses⟩ := replaced_decode url
  have hne : ∀ c ∈ w.content key, c ≠ '{' ∧ c ≠ '}' := fun c hc => w.content_ne htrimmed hvalid hc
  rw [heq, Spelling.write, hopening, hclosing] at hdecodeCloses
  -- The closing pair: nothing of what is before it can be part of one.
  rcases hdecodeCloses.cut with ⟨t₁, t₂, rfl, hpre, hcloses⟩ | ⟨b₁, b₂, hb, -, hb₂, -, hv⟩
  · have hstretch : ∀ c ∈ opens ++ w.content key, c ∉ closes := by
      intro c hc hmem
      obtain rfl : c = '}' := by simpa [closes] using hmem
      rcases List.mem_append.mp hc with hc | hc
      · simp [opens] at hc
      · exact (hne _ hc).2 rfl
    rw [List.append_assoc] at hcloses
    obtain ⟨t₃, rfl, hclosed⟩ := Replaced.copied (by simp [closes]) hstretch hcloses
    obtain ⟨closing, hclosing', t₄, rfl⟩ := closing_split hclosed
    have hlast' : t₁.getLast? ≠ some '{' := fun h =>
      hlast (hpre.getLast? (by decide) (by decide) h)
    -- The opening pair: a brace before it, or after it, would make it another one.
    rw [List.append_assoc] at hdecodeOpens
    rcases hdecodeOpens.cut with ⟨s₁, s₂, hs, -, hopens⟩ | ⟨b₁, b₂, hb, hb₁, -, hu, -⟩
    · have hhead : ∀ c ∈ w.content key ++ closing, c ∉ opens := by
        intro c hc hmem
        obtain rfl : c = '{' := by simpa [opens] using hmem
        rcases List.mem_append.mp hc with hc | hc
        · exact (hne _ hc).1 rfl
        · revert hc hclosing'
          simp only [List.mem_cons, List.not_mem_nil, or_false]
          rintro (rfl | rfl | rfl) <;> decide
      have hafter : (w.content key ++ (closing ++ t₄)).head? ≠ some '{' := by
        obtain ⟨c, rest, hcontent⟩ := List.exists_cons_of_ne_nil (w.content_ne_nil hvalid)
        rw [hcontent, List.cons_append, List.head?_cons]
        intro hc
        exact (hne c (by rw [hcontent]; exact List.mem_cons_self)).1 (Option.some.inj hc)
      obtain ⟨opening, hopening', s₃, rfl, hopened⟩ := opening_split hopens hafter
      rw [← List.append_assoc] at hopened
      obtain ⟨s₄, rfl, -⟩ := Replaced.copied (by simp [opens]) hhead hopened
      refine ⟨⟨opening, closing, w.before, w.after⟩, hopening', hclosing', htrimmed, s₁, s₄, ?_⟩
      rw [hs]
      simp [Spelling.write, Spelling.content]
    · exfalso
      obtain ⟨u, rfl⟩ := hu
      obtain ⟨b, hb'⟩ : ∃ b, b₁.getLast? = some b := ⟨_, List.getLast?_eq_some_getLast hb₁⟩
      have hmem : b ∈ opens := hb ▸ List.mem_append_left _ (List.mem_of_getLast? hb')
      obtain rfl : b = '{' := by simpa [opens] using hmem
      exact hlast' (by rw [List.getLast?_append, hb']; rfl)
  · exfalso
    obtain ⟨b, rest, rfl⟩ := List.exists_cons_of_ne_nil hb₂
    have hmem : b ∈ closes := hb ▸ List.mem_append_right _ List.mem_cons_self
    obtain rfl : b = '}' := by simpa [closes] using hmem
    obtain ⟨u, hu⟩ := hv
    exact absurd (List.cons.inj hu).1 (by decide)

end Uptimepage.Variables

import Mathlib.Tactic
/-!
# Text

What the standard library does with text, over lists of characters: trimming,
numbers printed with a least width and read back within a range, and text cut
at a separator.

* `trim_normal`: trimming and lowering the case leaves text that both leave alone.
* `parseInt_eq_some_iff`: what a number that is read is written as.
* `parseInt_padded`: a padded number reads back.
* `splitOnce_append`, `splitAll_append`: text cut at its first separator.
-/
namespace Apoptosis.Core

/-- `char::is_whitespace`: the Unicode `White_Space` property. -/
def isWhitespace (c : Char) : Bool :=
  let n := c.toNat
  (9 ≤ n && n ≤ 13) || n = 0x20 || n = 0x85 || n = 0xA0 || n = 0x1680 ||
    (0x2000 ≤ n && n ≤ 0x200A) || n = 0x2028 || n = 0x2029 || n = 0x202F || n = 0x205F || n = 0x3000

/-- `str::trim`. -/
def trim (text : List Char) : List Char :=
  (((text.dropWhile isWhitespace).reverse).dropWhile isWhitespace).reverse

/-- `{n:0width}` of a natural. -/
def padded (width n : Nat) : List Char :=
  List.replicate (width - (Nat.toDigits 10 n).length) '0' ++ Nat.toDigits 10 n

/-- The sign and the digits of a number. -/
def signed : List Char → Bool × List Char
  | '-' :: rest => (true, rest)
  | '+' :: rest => (false, rest)
  | rest => (false, rest)

/-- `FromStr` of an integer type with this range. -/
def parseInt (lo hi : Int) (text : List Char) : Option Int :=
  let (negative, digits) := signed text
  if digits = [] || !digits.all Char.isDigit then none
  else
    let n : Int := Nat.ofDigitChars 10 digits 0
    let n := if negative then -n else n
    if lo ≤ n ∧ n ≤ hi then some n else none

/-- `FromStr` of an unsigned integer type up to `hi`: a minus sign is refused, also before zero. -/
def parseUnsigned (hi : Nat) (text : List Char) : Option Nat :=
  if text.head? = some '-' then none else (parseInt 0 hi text).map Int.toNat

/-- `str::split_once`. -/
def splitOnce (sep : Char) : List Char → Option (List Char × List Char)
  | [] => none
  | c :: text =>
    if c = sep then some ([], text)
    else (splitOnce sep text).map fun (before, after) => (c :: before, after)

/-- `str::split`, with a character to cut at. -/
def splitAll (sep : Char) : List Char → List (List Char)
  | [] => [[]]
  | c :: text =>
    if c = sep then [] :: splitAll sep text
    else
      match splitAll sep text with
      | [] => [[c]]
      | part :: parts => (c :: part) :: parts

/-- A line without the carriage return before its end. -/
def stripReturn (line : List Char) : List Char :=
  if line.getLast? = some '\r' then line.dropLast else line

/-- Lines without their ends; what follows the last end is a line unless it is empty. -/
def endLines : List (List Char) → List (List Char)
  | [] => []
  | [last] => if last = [] then [] else [last]
  | line :: rest => stripReturn line :: endLines rest

/-- `str::lines`. -/
def lines (text : List Char) : List (List Char) := endLines (splitAll '\n' text)

/-! ## Trimming -/

/-- Neither end of the text is white space. -/
def Trimmed (text : List Char) : Prop :=
  (∀ c ∈ text.head?, isWhitespace c = false) ∧ ∀ c ∈ text.getLast?, isWhitespace c = false

theorem dropWhile_of_head {p : Char → Bool} {text : List Char} (h : ∀ c ∈ text.head?, p c = false) :
    text.dropWhile p = text := by
  cases text with
  | nil => rfl
  | cons c text => rw [List.dropWhile_cons_of_neg (by simp [h c (by simp)])]

theorem Trimmed.trim_eq {text : List Char} (h : Trimmed text) : trim text = text := by
  rw [trim, dropWhile_of_head h.1, dropWhile_of_head, List.reverse_reverse]
  simpa using h.2

theorem head_dropWhile (p : Char → Bool) (text : List Char) :
    ∀ c ∈ (text.dropWhile p).head?, p c = false := by
  intro c hc
  have := List.head?_dropWhile_not p text
  rw [hc] at this
  simpa using this

theorem trimmed_trim (text : List Char) : Trimmed (trim text) := by
  have hsuffix : trim text <+: text.dropWhile isWhitespace := by
    rw [trim, ← List.reverse_suffix, List.reverse_reverse]
    exact List.dropWhile_suffix _
  constructor
  · intro c hc
    obtain ⟨rest, hrest⟩ := hsuffix
    apply head_dropWhile isWhitespace text c
    rw [← hrest, List.head?_append, hc]
    rfl
  · intro c hc
    rw [trim, List.getLast?_reverse] at hc
    exact head_dropWhile _ _ c hc

/-- An upper-case letter moves by 32, every other character stays. -/
theorem toLower_cases (c : Char) :
    (65 ≤ c.toNat ∧ c.toNat ≤ 90 ∧ c.toLower.toNat = c.toNat + 32) ∨
      (¬(65 ≤ c.toNat ∧ c.toNat ≤ 90) ∧ c.toLower = c) := by
  unfold Char.toLower
  split
  · rename_i h
    have hval : 65 ≤ c.toNat ∧ c.toNat ≤ 90 := by
      simpa [UInt32.le_iff_toNat_le] using h
    refine .inl ⟨hval.1, hval.2, ?_⟩
    have hsum : (c.val + 32).toNat = (c.val.toNat + 32) % 2 ^ 32 := UInt32.toNat_add c.val 32
    rw [Nat.mod_eq_of_lt (by have := hval.2; rw [Char.toNat] at this; omega)] at hsum
    exact hsum
  · rename_i h
    refine .inr ⟨fun hval => h ?_, rfl⟩
    simpa [UInt32.le_iff_toNat_le] using hval

theorem isWhitespace_toLower (c : Char) : isWhitespace c.toLower = isWhitespace c := by
  obtain ⟨hlo, hhi, hlower⟩ | ⟨-, hlower⟩ := toLower_cases c
  · have hno (d : Char) (hd : 65 ≤ d.toNat) (hd' : d.toNat ≤ 122) : isWhitespace d = false := by
      simp only [isWhitespace, Bool.or_eq_false_iff, Bool.and_eq_false_iff, decide_eq_false_iff_not]
      omega
    rw [hno c hlo (by omega), hno c.toLower (by omega) (by omega)]
  · rw [hlower]

theorem isWhitespace_of_isDigit {c : Char} (h : c.isDigit) : isWhitespace c = false := by
  have hval : 48 ≤ c.toNat ∧ c.toNat ≤ 57 := by
    simpa [Char.isDigit, UInt32.le_iff_toNat_le] using h
  simp only [isWhitespace, Bool.or_eq_false_iff, Bool.and_eq_false_iff, decide_eq_false_iff_not]
  omega

theorem toLower_toLower (c : Char) : c.toLower.toLower = c.toLower := by
  obtain ⟨hlo, hhi, hlower⟩ | ⟨-, hlower⟩ := toLower_cases c
  · obtain ⟨_, _, _⟩ | ⟨-, hsame⟩ := toLower_cases c.toLower
    · omega
    · exact hsame
  · rw [hlower, hlower]

/-- A text trimmed and put in lower case is left alone by both. -/
theorem trim_normal (text : List Char) :
    (trim ((trim text).map Char.toLower)).map Char.toLower = (trim text).map Char.toLower := by
  have h : Trimmed ((trim text).map Char.toLower) := by
    obtain ⟨hhead, hlast⟩ := trimmed_trim text
    simp only [Trimmed, List.head?_map, List.getLast?_map, Option.mem_map, forall_exists_index,
      and_imp, forall_apply_eq_imp_iff₂, isWhitespace_toLower]
    exact ⟨hhead, hlast⟩
  rw [h.trim_eq, List.map_map]
  exact List.map_congr_left fun c _ => toLower_toLower c

/-! ## Numbers -/

theorem isDigit_padded {width n : Nat} {c : Char} (h : c ∈ padded width n) : c.isDigit := by
  obtain h | h := List.mem_append.mp h
  · rw [List.eq_of_mem_replicate h]
    rfl
  · exact Nat.isDigit_of_mem_toDigits (by decide) (by decide) h

theorem padded_ne_nil (width n : Nat) : padded width n ≠ [] := by
  intro h
  exact Nat.toDigits_ne_nil (List.append_eq_nil_iff.mp h).2

theorem signed_of_isDigit {text : List Char} (h : ∀ c ∈ text, c.isDigit) :
    signed text = (false, text) := by
  unfold signed
  split
  · exact absurd (h _ (List.mem_cons_self ..)) (by decide)
  · exact absurd (h _ (List.mem_cons_self ..)) (by decide)
  · rfl

theorem ofDigitChars_padded (width n : Nat) : Nat.ofDigitChars 10 (padded width n) 0 = n := by
  rw [padded, Nat.ofDigitChars_append, Nat.ofDigitChars_replicate_zero, Nat.mul_zero,
    Nat.ofDigitChars_ten_toDigits]

theorem parseInt_padded {lo hi : Int} {n : Nat} (width : Nat) (hlo : lo ≤ n) (hhi : n ≤ hi) :
    parseInt lo hi (padded width n) = some n := by
  have hall : (padded width n).all Char.isDigit = true :=
    List.all_eq_true.mpr fun _ hc => isDigit_padded hc
  rw [parseInt, signed_of_isDigit fun c hc => isDigit_padded hc]
  simp only [hall, padded_ne_nil, ofDigitChars_padded]
  simp [hlo, hhi]

/-- A number that is read: its sign, its digits and its range. -/
theorem parseInt_eq_some_iff {lo hi n : Int} {text : List Char} :
    parseInt lo hi text = some n ↔
      (signed text).2 ≠ [] ∧ (∀ c ∈ (signed text).2, c.isDigit = true) ∧
        n = (if (signed text).1 then -(Nat.ofDigitChars 10 (signed text).2 0 : Int)
          else Nat.ofDigitChars 10 (signed text).2 0) ∧ lo ≤ n ∧ n ≤ hi := by
  simp only [parseInt]
  by_cases hdigits : (signed text).2 = [] ∨ ∃ c ∈ (signed text).2, c.isDigit = false
  · rw [if_pos (by simpa using hdigits)]
    refine iff_of_false (by simp) fun h => ?_
    obtain hnil | ⟨c, hc, hfalse⟩ := hdigits
    · exact h.1 hnil
    · simp [h.2.1 c hc] at hfalse
  · simp only [not_or, not_exists, not_and, Bool.not_eq_false] at hdigits
    rw [if_neg (by simpa using hdigits), and_iff_right hdigits.1, and_iff_right hdigits.2]
    generalize (if (signed text).1 then -(Nat.ofDigitChars 10 (signed text).2 0 : Int)
      else Nat.ofDigitChars 10 (signed text).2 0) = value
    constructor
    · intro h
      split at h
      · next hrange => exact ⟨(Option.some.inj h).symm, Option.some.inj h ▸ hrange⟩
      · cases h
    · rintro ⟨rfl, hrange⟩
      exact if_pos hrange

/-! ## Separators -/

theorem splitOnce_append {sep : Char} {before : List Char} (h : sep ∉ before) (after : List Char) :
    splitOnce sep (before ++ sep :: after) = some (before, after) := by
  induction before with
  | nil => simp [splitOnce]
  | cons c before ih =>
    rw [List.mem_cons, not_or] at h
    rw [List.cons_append, splitOnce, if_neg (Ne.symm h.1), ih h.2]
    rfl

theorem splitAll_of_notMem {sep : Char} {text : List Char} (h : sep ∉ text) :
    splitAll sep text = [text] := by
  induction text with
  | nil => rfl
  | cons c text ih =>
    rw [List.mem_cons, not_or] at h
    rw [splitAll, if_neg (Ne.symm h.1), ih h.2]

theorem splitAll_append {sep : Char} {before : List Char} (h : sep ∉ before) (after : List Char) :
    splitAll sep (before ++ sep :: after) = before :: splitAll sep after := by
  induction before with
  | nil => simp [splitAll]
  | cons c before ih =>
    rw [List.mem_cons, not_or] at h
    rw [List.cons_append, splitAll, if_neg (Ne.symm h.1), ih h.2]

end Apoptosis.Core

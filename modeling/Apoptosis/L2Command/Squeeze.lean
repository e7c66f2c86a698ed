import Apoptosis.L2Command.Argument
/-!
# The tokens of a text whose white space is squeezed

A command text that is cut at its white space and put together with single
spaces keeps its words, so quotes and backslashes stand where they stood. What
changes is white space that is part of a token: inside quotes, or after a
backslash. The white space in the tokens and their number never grow, so the
tokens stay only where there was nothing to squeeze.

* `scan_joinSpaces_of_kept`: where nothing is squeezed, the tokens stay.
* `scan_joinSpaces`: the squeezed text has its tokens, and they weigh no more.
* `tokens_kept_iff`: the tokens stay exactly where nothing is squeezed.
-/
namespace Apoptosis.L2.Commands

open Apoptosis.Core

/-- The text goes on with something that is not white space. -/
def follows (text : List Char) : Bool := text.head?.any (!isWhitespace ·)

/-- All white space that is part of a token is one space between other characters. -/
def kept (inQuotes escaped : Bool) : List Char → Bool
  | [] => true
  | c :: rest =>
    (!(isWhitespace c && (inQuotes || escaped)) || (c = ' ' && follows rest)) &&
      if escaped then kept inQuotes false rest
      else if c = '\\' then kept inQuotes true rest
      else if c = '"' then kept (!inQuotes) false rest
      else kept inQuotes false rest

/-! ## One word -/

/-- What a word is read as: whether it ends inside quotes, whether it ends with a backslash that
escapes what comes next, and what it adds to the token. -/
structure WordRead where
  inQuotes : Bool
  escaped : Bool
  added : List Char

/-- One more character, before what is read. -/
def WordRead.add (c : Char) (read : WordRead) : WordRead := { read with added := c :: read.added }

def readWord (inQuotes escaped : Bool) : List Char → WordRead
  | [] => ⟨inQuotes, escaped, []⟩
  | c :: word =>
    if escaped then (readWord inQuotes false word).add c
    else if c = '\\' then readWord inQuotes true word
    else if c = '"' then readWord (!inQuotes) false word
    else (readWord inQuotes false word).add c

section
variable {inQuotes escaped hasToken : Bool} {current word blank rest : List Char} {c : Char}

theorem scan_characters (hword : ∀ c ∈ word, isWhitespace c = false) (inQuotes escaped : Bool)
    (current rest : List Char) :
    scan inQuotes escaped true current (word ++ rest) =
      let read := readWord inQuotes escaped word
      scan read.inQuotes read.escaped true (current ++ read.added) rest := by
  induction word generalizing inQuotes escaped current with
  | nil => simp [readWord]
  | cons c word ih =>
    have hrest := fun d hd => hword d (.tail _ hd)
    simp only [List.cons_append, scan, readWord, hword c (.head _), Bool.false_and,
      Bool.false_eq_true, if_false]
    split
    · simp [ih hrest, WordRead.add]
    split
    · simp [ih hrest]
    split
    · simp [ih hrest]
    · simp [ih hrest, WordRead.add]

/-- A word of the text; it does not matter whether a token has begun. -/
theorem scan_word (hword : IsWord word) (inQuotes escaped hasToken : Bool)
    (current rest : List Char) :
    scan inQuotes escaped hasToken current (word ++ rest) =
      let read := readWord inQuotes escaped word
      scan read.inQuotes read.escaped true (current ++ read.added) rest := by
  have hbegun : scan inQuotes escaped hasToken current (word ++ rest) =
      scan inQuotes escaped true current (word ++ rest) := by
    obtain ⟨hne, hword⟩ := hword
    obtain ⟨c, word, rfl⟩ := List.exists_cons_of_ne_nil hne
    simp only [List.cons_append, scan, hword c (.head _), Bool.false_and, Bool.false_eq_true, if_false]
  rw [hbegun, scan_characters hword.2]

theorem scan_last_word (hword : IsWord word) (inQuotes escaped hasToken : Bool)
    (current : List Char) :
    scan inQuotes escaped hasToken current word =
      let read := readWord inQuotes escaped word
      scan read.inQuotes read.escaped true (current ++ read.added) [] := by
  have h := scan_word hword inQuotes escaped hasToken current []
  rwa [List.append_nil] at h

theorem kept_word (hword : ∀ c ∈ word, isWhitespace c = false) (inQuotes escaped : Bool)
    (rest : List Char) :
    kept inQuotes escaped (word ++ rest) =
      let read := readWord inQuotes escaped word
      kept read.inQuotes read.escaped rest := by
  induction word generalizing inQuotes escaped with
  | nil => rfl
  | cons c word ih =>
    have hrest := fun d hd => hword d (.tail _ hd)
    simp only [List.cons_append, kept, readWord, hword c (.head _), Bool.false_and, Bool.not_false,
      Bool.true_or, Bool.true_and, ih hrest]
    split
    · rfl
    split
    · rfl
    split <;> rfl

theorem added_readWord (hword : ∀ c ∈ word, isWhitespace c = false) (inQuotes escaped : Bool) :
    ∀ c ∈ (readWord inQuotes escaped word).added, isWhitespace c = false := by
  induction word generalizing inQuotes escaped with
  | nil => simp [readWord]
  | cons c word ih =>
    have hrest := fun d hd => hword d (.tail _ hd)
    have hadd (read : WordRead) (h : ∀ c ∈ read.added, isWhitespace c = false) :
        ∀ d ∈ (read.add c).added, isWhitespace d = false :=
      List.forall_mem_cons.mpr ⟨hword c (.head _), h⟩
    rw [readWord]
    split
    · exact hadd _ (ih hrest _ _)
    split
    · exact ih hrest _ _
    split
    · exact ih hrest _ _
    · exact hadd _ (ih hrest _ _)

/-! ## White space -/

theorem ne_of_isWhitespace (hc : isWhitespace c = true) : c ≠ '\\' ∧ c ≠ '"' := by
  constructor <;> rintro rfl <;> exact absurd hc (by decide)

/-- White space between tokens. -/
theorem scan_blank (hblank : ∀ c ∈ blank, isWhitespace c = true) (rest : List Char) :
    scan false false false [] (blank ++ rest) = scan false false false [] rest := by
  induction blank with
  | nil => rfl
  | cons c blank ih =>
    have hc := hblank c (.head _)
    obtain ⟨hb, hq⟩ := ne_of_isWhitespace hc
    rw [List.cons_append, scan]
    simp only [hb, hq, hc, Bool.false_eq_true, if_false, Bool.not_false, Bool.and_self, if_true]
    exact ih fun d hd => hblank d (.tail _ hd)

/-- White space inside quotes. -/
theorem scan_quoted (hblank : ∀ c ∈ blank, isWhitespace c = true) (current rest : List Char) :
    scan true false true current (blank ++ rest) = scan true false true (current ++ blank) rest := by
  induction blank generalizing current with
  | nil => simp
  | cons c blank ih =>
    obtain ⟨hb, hq⟩ := ne_of_isWhitespace (hblank c (.head _))
    rw [List.cons_append, scan]
    simp only [hb, hq, Bool.not_true, Bool.and_false, Bool.false_eq_true, if_false]
    rw [ih fun d hd => hblank d (.tail _ hd)]
    simp

theorem kept_blank (hblank : ∀ c ∈ blank, isWhitespace c = true) (rest : List Char) :
    kept false false (blank ++ rest) = kept false false rest := by
  induction blank with
  | nil => rfl
  | cons c blank ih =>
    obtain ⟨hb, hq⟩ := ne_of_isWhitespace (hblank c (.head _))
    rw [List.cons_append, kept]
    simp only [hb, hq, Bool.or_self, Bool.and_false, Bool.not_false, Bool.true_or, Bool.true_and,
      Bool.false_eq_true, if_false]
    exact ih fun d hd => hblank d (.tail _ hd)

theorem follows_append (hblank : ∀ c ∈ blank, isWhitespace c = true)
    (h : follows (blank ++ rest) = true) : blank = [] := by
  cases blank with
  | nil => rfl
  | cons c blank => simp [follows, hblank c (.head _)] at h

/-! ## White space between two words -/

/-- White space that is part of a token: inside quotes, or one character after a backslash. -/
theorem scan_part (hc : isWhitespace c = true) (hblank : ∀ c ∈ blank, isWhitespace c = true)
    (hpart : inQuotes = true ∨ escaped = true ∧ blank = []) (current rest : List Char) :
    scan inQuotes escaped true current (c :: (blank ++ rest)) =
      scan inQuotes false true (current ++ c :: blank) rest := by
  obtain ⟨hb, hq⟩ := ne_of_isWhitespace hc
  obtain rfl | ⟨rfl, rfl⟩ := hpart
  · rw [scan]
    simp only [hb, hq, Bool.not_true, Bool.and_false, Bool.false_eq_true, if_false, ite_self]
    rw [scan_quoted hblank, List.append_assoc, List.singleton_append]
  · rw [scan, if_pos rfl]
    rfl

/-- White space that ends a token. -/
theorem scan_gap (hc : isWhitespace c = true) (hblank : ∀ c ∈ blank, isWhitespace c = true)
    (current rest : List Char) :
    scan false false true current (c :: (blank ++ rest)) =
      (scan false false false [] rest).map (current :: ·) := by
  obtain ⟨hb, hq⟩ := ne_of_isWhitespace hc
  rw [scan]
  simp only [hb, hq, hc, Bool.false_eq_true, if_false, Bool.not_false, Bool.and_self, if_true]
  rw [scan_blank hblank]

/-- A character after a backslash, and the white space after it. -/
theorem scan_escaped_gap {d : Char} (hd : isWhitespace d = true)
    (hblank : ∀ c ∈ blank, isWhitespace c = true) (current rest : List Char) :
    scan false true true current (c :: (d :: blank ++ rest)) =
      (scan false false false [] rest).map ((current ++ [c]) :: ·) := by
  rw [scan, if_pos rfl]
  exact scan_gap hd hblank _ _

theorem kept_part (hc : isWhitespace c = true) (hpart : inQuotes = true ∨ escaped = true)
    (rest : List Char) :
    kept inQuotes escaped (c :: rest) =
      ((c = ' ' && follows rest) && kept inQuotes false rest) := by
  obtain ⟨hb, hq⟩ := ne_of_isWhitespace hc
  rw [kept]
  simp only [hc, hb, hq, Bool.true_and, if_false, ite_self]
  obtain rfl | rfl := hpart <;> simp

theorem kept_gap (hblank : ∀ c ∈ blank, isWhitespace c = true) (hc : isWhitespace c = true)
    (rest : List Char) :
    kept false false (c :: (blank ++ rest)) = kept false false rest :=
  @kept_blank (c :: blank) (List.forall_mem_cons.mpr ⟨hc, hblank⟩) rest

end

/-! ## What is kept -/

theorem follows_of_spaced {text : List Char} {words : List (List Char)} (h : Spaced text words) :
    follows text = true := by
  have hword {word rest : List Char} (h : IsWord word) : follows (word ++ rest) = true := by
    obtain ⟨c, word, rfl⟩ := List.exists_cons_of_ne_nil h.1
    simp [follows, h.2 c (.head _)]
  cases h with
  | last h _ => exact hword h
  | cons h _ _ _ => exact hword h

section
variable {text joined : List Char} {c : Char} {blank : List Char}

/-- White space between two words, where nothing is squeezed. -/
theorem scan_between_of_kept (hc : isWhitespace c = true)
    (hblank : ∀ c ∈ blank, isWhitespace c = true)
    (ih : ∀ inQuotes hasToken current, kept inQuotes false text = true →
      scan inQuotes false hasToken current joined = scan inQuotes false hasToken current text)
    {inQuotes escaped : Bool} (hkept : kept inQuotes escaped (c :: (blank ++ text)) = true)
    (current : List Char) :
    scan inQuotes escaped true current (' ' :: joined) =
      scan inQuotes escaped true current (c :: (blank ++ text)) := by
  by_cases hpart : inQuotes = true ∨ escaped = true
  · rw [kept_part hc hpart] at hkept
    simp only [Bool.and_eq_true, decide_eq_true_eq] at hkept
    obtain ⟨⟨rfl, hfollows⟩, hrest⟩ := hkept
    have hnil := follows_append hblank hfollows
    subst hnil
    have hpart' : inQuotes = true ∨ escaped = true ∧ ([] : List Char) = [] := by simpa using hpart
    have hright := scan_part hc hblank hpart' current text
    have hleft := scan_part hc hblank hpart' current joined
    rw [List.nil_append] at hleft hright hrest
    rw [List.nil_append, hleft, hright, ih _ _ _ hrest]
  · obtain ⟨rfl, rfl⟩ : inQuotes = false ∧ escaped = false := by simpa using hpart
    rw [kept_gap hblank hc] at hkept
    rw [scan_gap hc hblank, ← ih _ _ _ hkept]
    exact @scan_gap [] _ isWhitespace_space (by simp) current joined

/-- White space after the last word, where nothing is squeezed. -/
theorem scan_after_of_kept (hblank : ∀ c ∈ blank, isWhitespace c = true) {inQuotes escaped : Bool}
    (hkept : kept inQuotes escaped blank = true) (current : List Char) :
    scan inQuotes escaped true current [] = scan inQuotes escaped true current blank := by
  cases blank with
  | nil => rfl
  | cons c blank =>
    obtain ⟨hc, hblank⟩ := List.forall_mem_cons.mp hblank
    by_cases hpart : inQuotes = true ∨ escaped = true
    · rw [kept_part hc hpart] at hkept
      simp only [Bool.and_eq_true, decide_eq_true_eq] at hkept
      have hnil := @follows_append _ [] hblank (by simpa using hkept.1.2)
      simp [hnil, follows] at hkept
    · obtain ⟨rfl, rfl⟩ : inQuotes = false ∧ escaped = false := by simpa using hpart
      have hgap := scan_gap hc hblank current []
      rw [List.append_nil] at hgap
      rw [hgap]
      rfl

/-- Where nothing is squeezed the tokens stay. -/
theorem scan_joinSpaces_of_kept {words : List (List Char)} (h : Spaced text words) (inQuotes : Bool)
    (hasToken : Bool) (current : List Char) (hkept : kept inQuotes false text = true) :
    scan inQuotes false hasToken current (joinSpaces words) =
      scan inQuotes false hasToken current text := by
  induction h generalizing inQuotes hasToken current with
  | @last word blank hword hblank =>
    rw [kept_word hword.2] at hkept
    rw [joinSpaces, scan_last_word hword, scan_word hword]
    exact scan_after_of_kept hblank hkept _
  | @cons word c blank text next words hword hc hblank _ ih =>
    rw [kept_word hword.2] at hkept
    rw [joinSpaces_cons_cons, scan_word hword _ _ _ _ (' ' :: _), scan_word hword]
    exact scan_between_of_kept hc hblank ih hkept _

end

/-! ## The white space in the tokens -/

/-- One for a space, more for other white space. -/
def charWeight (c : Char) : Nat := if isWhitespace c then if c = ' ' then 1 else 2 else 0

def weight (token : List Char) : Nat := (token.map charWeight).sum

/-- The tokens and the white space in them. -/
def tokensWeight (tokens : List (List Char)) : Nat := (tokens.map fun token => 1 + weight token).sum

@[simp] theorem weight_append (a b : List Char) : weight (a ++ b) = weight a + weight b := by
  simp [weight]

@[simp] theorem weight_cons (c : Char) (a : List Char) : weight (c :: a) = charWeight c + weight a :=
  List.sum_cons

@[simp] theorem weight_nil : weight [] = 0 := rfl

@[simp] theorem tokensWeight_cons (token : List Char) (tokens : List (List Char)) :
    tokensWeight (token :: tokens) = 1 + weight token + tokensWeight tokens :=
  List.sum_cons

@[simp] theorem tokensWeight_nil : tokensWeight [] = 0 := rfl

theorem weight_word {word : List Char} (h : ∀ c ∈ word, isWhitespace c = false) : weight word = 0 := by
  induction word with
  | nil => rfl
  | cons c word ih =>
    rw [weight_cons, ih fun d hd => h d (.tail _ hd), charWeight, h c (.head _)]
    rfl

theorem one_le_charWeight {c : Char} (hc : isWhitespace c = true) : 1 ≤ charWeight c := by
  rw [charWeight, if_pos hc]
  split <;> omega

theorem eq_space_of_charWeight {c : Char} (hc : isWhitespace c = true) (h : charWeight c ≤ 1) :
    c = ' ' := by
  rw [charWeight, if_pos hc] at h
  split at h
  · assumption
  · omega

@[simp] theorem charWeight_space : charWeight ' ' = 1 := by decide

/-- The text and its squeezed form, read from the same state: what is read of the squeezed form
weighs no more, and as much only where nothing is squeezed. -/
def Weighs (inQuotes escaped hasToken hasToken' : Bool) (text joined : List Char) : Prop :=
  ∀ current current' tokens, scan inQuotes escaped hasToken current text = some tokens →
    ∃ tokens', scan inQuotes escaped hasToken' current' joined = some tokens' ∧
      tokensWeight tokens' + weight current ≤ tokensWeight tokens + weight current' ∧
      (tokensWeight tokens' + weight current = tokensWeight tokens + weight current' →
        kept inQuotes escaped text = true)

section
variable {text joined : List Char} {c : Char} {blank : List Char} {inQuotes escaped : Bool}

/-- White space between two words that ends a token. -/
theorem weighs_gap (hc : isWhitespace c = true) (hblank : ∀ c ∈ blank, isWhitespace c = true)
    (ih : Weighs false false false false text joined) :
    Weighs false false true true (c :: (blank ++ text)) (' ' :: joined) := by
  intro current current' tokens h
  rw [scan_gap hc hblank] at h
  obtain ⟨rest, hrest, rfl⟩ := Option.map_eq_some_iff.mp h
  obtain ⟨rest', hrest', hle, hkept⟩ := ih [] [] rest hrest
  refine ⟨current' :: rest', ?_, ?_, fun heq => ?_⟩
  · have hgap := @scan_gap [] _ isWhitespace_space (by simp) current' joined
    rw [List.nil_append, hrest'] at hgap
    exact hgap
  · simp only [tokensWeight_cons, weight_nil] at hle ⊢
    omega
  · rw [kept_gap hblank hc]
    apply hkept
    simp only [tokensWeight_cons, weight_nil] at heq ⊢
    omega

/-- White space between two words that is part of a token. -/
theorem weighs_part (hc : isWhitespace c = true) (hblank : ∀ c ∈ blank, isWhitespace c = true)
    (hpart : inQuotes = true ∨ escaped = true ∧ blank = []) (hfollows : follows text = true)
    (ih : Weighs inQuotes false true true text joined) :
    Weighs inQuotes escaped true true (c :: (blank ++ text)) (' ' :: joined) := by
  intro current current' tokens h
  rw [scan_part hc hblank hpart] at h
  obtain ⟨tokens', htokens', hle, hkept⟩ := ih _ (current' ++ [' ']) tokens h
  have hpart' : inQuotes = true ∨ escaped = true := hpart.imp_right And.left
  have hone := one_le_charWeight hc
  simp only [weight_append, weight_cons, weight_nil, charWeight_space] at hle hkept
  refine ⟨tokens', ?_, by omega, fun heq => ?_⟩
  · have hpart'' : inQuotes = true ∨ escaped = true ∧ ([] : List Char) = [] := by simpa using hpart'
    have hspace := scan_part isWhitespace_space (by simp) hpart'' current' joined
    rw [List.nil_append, htokens'] at hspace
    exact hspace
  · have hblank' : blank = [] := by
      cases blank with
      | nil => rfl
      | cons d blank =>
        have := one_le_charWeight (hblank d (.head _))
        simp only [weight_cons] at hle
        omega
    subst hblank'
    have hspace := eq_space_of_charWeight hc (by simp only [weight_nil] at hle; omega)
    rw [List.nil_append, kept_part hc hpart', hfollows, hspace]
    simp only [decide_true, Bool.and_self, Bool.true_and]
    apply hkept
    rw [hspace, charWeight_space]
    simp only [weight_nil]
    omega

/-- A character after a backslash, and white space after it that ends the token: squeezed, the token
goes on. -/
theorem weighs_escaped_gap {d : Char} (hc : isWhitespace c = true) (hd : isWhitespace d = true)
    (hblank : ∀ c ∈ blank, isWhitespace c = true)
    (ih : Weighs false false false true text joined) :
    Weighs false true true true (c :: (d :: blank ++ text)) (' ' :: joined) := by
  intro current current' tokens h
  rw [scan_escaped_gap hd hblank] at h
  obtain ⟨rest, hrest, rfl⟩ := Option.map_eq_some_iff.mp h
  obtain ⟨tokens', htokens', hle, -⟩ := ih [] (current' ++ [' ']) rest hrest
  have hone := one_le_charWeight hc
  simp only [tokensWeight_cons, weight_append, weight_cons, weight_nil, charWeight_space] at hle ⊢
  refine ⟨tokens', ?_, by omega, fun heq => absurd heq (by omega)⟩
  rw [scan, if_pos rfl]
  exact htokens'

/-- White space between two words. -/
theorem weighs_between (hc : isWhitespace c = true) (hblank : ∀ c ∈ blank, isWhitespace c = true)
    (hfollows : follows text = true)
    (ih : ∀ inQuotes hasToken hasToken', Weighs inQuotes false hasToken hasToken' text joined)
    (inQuotes escaped : Bool) :
    Weighs inQuotes escaped true true (c :: (blank ++ text)) (' ' :: joined) := by
  cases inQuotes with
  | true => exact weighs_part hc hblank (.inl rfl) hfollows (ih _ _ _)
  | false =>
    cases escaped with
    | false => exact weighs_gap hc hblank (ih _ _ _)
    | true =>
      cases blank with
      | nil => exact weighs_part hc (by simp) (.inr ⟨rfl, rfl⟩) hfollows (ih _ _ _)
      | cons d blank =>
        obtain ⟨hd, hblank⟩ := List.forall_mem_cons.mp hblank
        exact weighs_escaped_gap hc hd hblank (ih _ _ _)

/-- White space after the last word. -/
theorem weighs_after (hblank : ∀ c ∈ blank, isWhitespace c = true) (inQuotes escaped : Bool) :
    Weighs inQuotes escaped true true blank [] := by
  intro current current' tokens h
  have hbackslash : weight ['\\'] = 0 := by decide
  have hquotes : inQuotes = false := by
    cases inQuotes with
    | false => rfl
    | true =>
      cases blank with
      | nil => simp [scan] at h
      | cons c blank =>
        obtain ⟨hc, hblank⟩ := List.forall_mem_cons.mp hblank
        have hnone := @scan_part _ escaped _ _ hc hblank (.inl rfl) current []
        rw [List.append_nil, h] at hnone
        simp [scan] at hnone
  subst hquotes
  -- The text ends in the token that the last word is part of.
  refine ⟨[if escaped then current' ++ ['\\'] else current'], by simp [scan], ?_⟩
  cases blank with
  | nil =>
    obtain rfl : tokens = [if escaped then current ++ ['\\'] else current] := by
      simpa [scan] using h.symm
    refine ⟨?_, fun _ => rfl⟩
    cases escaped <;> simp [hbackslash] <;> omega
  | cons c blank =>
    obtain ⟨hc, hblank⟩ := List.forall_mem_cons.mp hblank
    cases escaped with
    | false =>
      have hgap := scan_gap hc hblank current []
      rw [List.append_nil, h] at hgap
      obtain rfl : tokens = [current] := by simpa [scan] using hgap
      refine ⟨by simp; omega, fun _ => ?_⟩
      have hkept := kept_gap hblank hc []
      rwa [List.append_nil] at hkept
    | true =>
      have htokens : tokens = [current ++ [c]] := by
        cases blank with
        | nil => simpa [scan] using h.symm
        | cons d blank =>
          obtain ⟨hd, hblank⟩ := List.forall_mem_cons.mp hblank
          have hgap := scan_escaped_gap (c := c) hd hblank current []
          rw [List.append_nil, h] at hgap
          simpa [scan] using hgap
      have hone := one_le_charWeight hc
      subst htokens
      simp only [if_true, tokensWeight_cons, tokensWeight_nil, weight_append, hbackslash,
        weight_cons, weight_nil]
      exact ⟨by omega, fun heq => absurd heq (by omega)⟩

/-- The squeezed text has its tokens, and they weigh no more. -/
theorem scan_joinSpaces {words : List (List Char)} (h : Spaced text words)
    (inQuotes hasToken hasToken' : Bool) :
    Weighs inQuotes false hasToken hasToken' text (joinSpaces words) := by
  have hword {word rest rest' : List Char} (hword : IsWord word) {inQuotes hasToken hasToken' : Bool}
      (ih : ∀ inQuotes escaped, Weighs inQuotes escaped true true rest rest') :
      Weighs inQuotes false hasToken hasToken' (word ++ rest) (word ++ rest') := by
    intro current current' tokens h
    rw [scan_word hword] at h
    obtain ⟨tokens', htokens', hle, hkept⟩ :=
      ih _ _ _ (current' ++ (readWord inQuotes false word).added) tokens h
    simp only [weight_append, weight_word (added_readWord hword.2 _ _), Nat.add_zero] at hle hkept
    refine ⟨tokens', ?_, hle, fun heq => ?_⟩
    · rw [scan_word hword]
      exact htokens'
    · rw [kept_word hword.2]
      exact hkept heq
  induction h generalizing inQuotes hasToken hasToken' with
  | @last word blank hw hblank =>
    have := @hword _ _ [] hw inQuotes hasToken hasToken' (weighs_after hblank)
    rwa [List.append_nil] at this
  | @cons word c blank text next words hw hc hblank htext ih =>
    exact hword hw (weighs_between hc hblank (follows_of_spaced htext) ih)

/-- A text whose white space is squeezed has the tokens it had exactly where nothing in the tokens
is squeezed. -/
theorem tokens_kept_iff {tokens : List (List Char)}
    (h : scan false false false [] text = some tokens) :
    scan false false false [] (joinSpaces (splitWhitespace text)) = some tokens ↔
      kept false false text = true := by
  obtain ⟨blank, rest, rfl, hblank, hwords⟩ := words_splitWhitespace text
  rw [scan_blank hblank] at h
  rw [kept_blank hblank]
  obtain ⟨rfl, hnil⟩ | hspaced := hwords
  · rw [hnil]
    exact iff_of_true h rfl
  constructor
  · intro hsame
    obtain ⟨tokens', htokens', -, hkept⟩ := scan_joinSpaces hspaced false false false [] [] tokens h
    obtain rfl := Option.some.inj (htokens'.symm.trans hsame)
    exact hkept rfl
  · intro hkept
    rw [scan_joinSpaces_of_kept hspaced false false [] hkept, h]

end

end Apoptosis.L2.Commands

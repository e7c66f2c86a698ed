import Apoptosis.Core.Text
/-!
# The words of a text

Text cut at white space, and words put together with single spaces.

* `splitWords_append`: a word, then what white space comes, then the rest.
* `splitWhitespace_joinSpaces`: words put together come apart again.
* `words_splitWhitespace`: a text is its words, with white space around them.
-/
namespace Apoptosis.Core

/-- `str::trim_start`. -/
def trimStart (text : List Char) : List Char := text.dropWhile isWhitespace

/-- `str::split_once`, at the first white space. -/
def splitOnceWhitespace : List Char → Option (List Char × List Char)
  | [] => none
  | c :: text =>
    if isWhitespace c then some ([], text)
    else (splitOnceWhitespace text).map fun (before, after) => (c :: before, after)

/-- What is left of a text, with the word that is being read. -/
def splitWords : List Char → List Char → List (List Char)
  | word, [] => if word = [] then [] else [word]
  | word, c :: text =>
    if isWhitespace c then
      if word = [] then splitWords [] text else word :: splitWords [] text
    else splitWords (word ++ [c]) text

/-- `str::split_whitespace`. -/
def splitWhitespace (text : List Char) : List (List Char) := splitWords [] text

/-- `join(" ")`. -/
def joinSpaces : List (List Char) → List Char
  | [] => []
  | [word] => word
  | word :: words => word ++ ' ' :: joinSpaces words

/-- Text without white space, and some of it. -/
def IsWord (word : List Char) : Prop := word ≠ [] ∧ ∀ c ∈ word, isWhitespace c = false

theorem joinSpaces_cons_cons (word next : List Char) (words : List (List Char)) :
    joinSpaces (word :: next :: words) = word ++ ' ' :: joinSpaces (next :: words) := rfl

theorem splitWords_word {word : List Char} (h : ∀ c ∈ word, isWhitespace c = false)
    (read rest : List Char) : splitWords read (word ++ rest) = splitWords (read ++ word) rest := by
  induction word generalizing read with
  | nil => simp
  | cons c word ih =>
    rw [List.cons_append, splitWords, h c (.head _)]
    simp only [Bool.false_eq_true, if_false]
    rw [ih (fun d hd => h d (.tail _ hd)), List.append_assoc, List.singleton_append]

/-- A word, white space after it, and the rest. -/
theorem splitWords_append {word : List Char} (hword : IsWord word) {c : Char}
    (hc : isWhitespace c = true) (rest : List Char) :
    splitWords [] (word ++ c :: rest) = word :: splitWords [] rest := by
  rw [splitWords_word hword.2, List.nil_append, splitWords, hc, if_pos rfl, if_neg hword.1]

theorem isWord_splitWords {read text : List Char} (hread : ∀ c ∈ read, isWhitespace c = false) :
    ∀ word ∈ splitWords read text, IsWord word := by
  induction text generalizing read with
  | nil =>
    intro word hword
    rw [splitWords] at hword
    split at hword
    · cases hword
    · next hne =>
      rw [List.mem_singleton.mp hword]
      exact ⟨hne, hread⟩
  | cons c text ih =>
    intro word hword
    rw [splitWords] at hword
    split at hword
    · split at hword
      · exact ih (by simp) word hword
      · next hne =>
        rcases List.mem_cons.mp hword with rfl | hword
        · exact ⟨hne, hread⟩
        · exact ih (by simp) word hword
    · next hc =>
      refine ih (fun d hd => ?_) word hword
      rcases List.mem_append.mp hd with hd | hd
      · exact hread d hd
      · rw [List.mem_singleton.mp hd]
        simpa using hc

theorem isWord_splitWhitespace {text word : List Char} (h : word ∈ splitWhitespace text) :
    IsWord word :=
  isWord_splitWords (by simp) word h

theorem isWhitespace_space : isWhitespace ' ' = true := by decide

theorem splitWhitespace_joinSpaces {words : List (List Char)} (h : ∀ word ∈ words, IsWord word) :
    splitWhitespace (joinSpaces words) = words := by
  induction words with
  | nil => rfl
  | cons word words ih =>
    have hword := h word (.head _)
    cases words with
    | nil =>
      rw [splitWhitespace, joinSpaces, ← List.append_nil word, splitWords_word hword.2]
      simp [splitWords, hword.1]
    | cons next words =>
      rw [splitWhitespace, joinSpaces_cons_cons, splitWords_append hword isWhitespace_space]
      exact congrArg _ (ih fun w hw => h w (.tail _ hw))

/-! ## A text as words and white space -/

/-- The text is these words, with white space after each and more than none between them. -/
inductive Spaced : List Char → List (List Char) → Prop
  | last {word blank : List Char} (hword : IsWord word)
      (hblank : ∀ c ∈ blank, isWhitespace c = true) : Spaced (word ++ blank) [word]
  | cons {word : List Char} {c : Char} {blank text next : List Char} {words : List (List Char)}
      (hword : IsWord word) (hc : isWhitespace c = true)
      (hblank : ∀ c ∈ blank, isWhitespace c = true) (htext : Spaced text (next :: words)) :
      Spaced (word ++ c :: (blank ++ text)) (word :: next :: words)

/-- White space, and the words after it. -/
def Words (text : List Char) (words : List (List Char)) : Prop :=
  ∃ blank rest, text = blank ++ rest ∧ (∀ c ∈ blank, isWhitespace c = true) ∧
    (rest = [] ∧ words = [] ∨ Spaced rest words)

theorem spaced_splitWords {word : List Char} (hword : ∀ c ∈ word, isWhitespace c = false)
    (text : List Char) :
    if word = [] then Words text (splitWords [] text)
    else Spaced (word ++ text) (splitWords word text) := by
  induction text generalizing word with
  | nil =>
    split
    · exact ⟨[], [], rfl, by simp, .inl ⟨rfl, rfl⟩⟩
    · next hne =>
      rw [splitWords, if_neg hne]
      exact .last ⟨hne, hword⟩ (by simp)
  | cons c text ih =>
    by_cases hc : isWhitespace c = true
    · have hrest : Words text (splitWords [] text) := by simpa using @ih [] (by simp)
      obtain ⟨blank, rest, rfl, hblank, hwords⟩ := hrest
      split
      · rw [splitWords, if_pos hc, if_pos rfl]
        exact ⟨c :: blank, rest, rfl, List.forall_mem_cons.mpr ⟨hc, hblank⟩, hwords⟩
      · next hne =>
        rw [splitWords, if_pos hc, if_neg hne]
        obtain ⟨rfl, hnil⟩ | hspaced := hwords
        · rw [hnil, List.append_nil]
          exact .last ⟨hne, hword⟩ (List.forall_mem_cons.mpr ⟨hc, hblank⟩)
        · cases hsplit : splitWords [] (blank ++ rest) with
          | nil =>
            rw [hsplit] at hspaced
            cases hspaced
          | cons next words =>
            rw [hsplit] at hspaced
            exact .cons ⟨hne, hword⟩ hc hblank hspaced
    · have hc' : isWhitespace c = false := by simpa using hc
      have hword' : ∀ d ∈ word ++ [c], isWhitespace d = false := by
        intro d hd
        rcases List.mem_append.mp hd with hd | hd
        · exact hword d hd
        · rwa [List.mem_singleton.mp hd]
      have hrest := ih hword'
      rw [if_neg (by simp), List.append_assoc, List.singleton_append] at hrest
      split
      · next hnil =>
        subst hnil
        rw [splitWords, if_neg hc]
        exact ⟨[], c :: text, rfl, by simp, .inr hrest⟩
      · rw [splitWords, if_neg hc]
        exact hrest

theorem words_splitWhitespace (text : List Char) : Words text (splitWhitespace text) := by
  have h := @spaced_splitWords [] (by simp) text
  rwa [if_pos rfl] at h

theorem length_joinSpaces_le {text : List Char} {words : List (List Char)} (h : Spaced text words) :
    (joinSpaces words).length ≤ text.length := by
  induction h with
  | last => simp [joinSpaces]
  | cons _ _ _ _ ih =>
    rw [joinSpaces_cons_cons]
    simp only [List.length_append, List.length_cons]
    omega

theorem length_joinSpaces_splitWhitespace_le (text : List Char) :
    (joinSpaces (splitWhitespace text)).length ≤ text.length := by
  obtain ⟨blank, rest, htext, -, hwords⟩ := words_splitWhitespace text
  obtain ⟨-, hnil⟩ | hspaced := hwords
  · rw [hnil]
    exact Nat.zero_le _
  · have := length_joinSpaces_le hspaced
    have := congrArg List.length htext
    rw [List.length_append] at this
    omega

end Apoptosis.Core

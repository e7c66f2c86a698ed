import Apoptosis.L2Command.Tree
/-!
# The dispatcher (`command/src/dispatch.rs`)

A command text is cut into tokens, the command is found by the first of them,
and the rest are shared out among the declared arguments. The three tokens of a
block position are put together and cut again, so the cut need not be the one
of the tokens.

* `finish_parsed_iff`: what is accepted, with the text of each part read as one.
* `finish_exact_iff`: when that is one token for each coordinate.
-/
namespace Apoptosis.L2.Commands

open Apoptosis.Core
open Apoptosis.L2.Command (PermissionLevel CommandSource)

/-- mirrors crates/command/src/dispatch.rs:38-50 (`ParsedCommand`) -/
structure ParsedCommand (F : Type) where
  name : String
  arguments : List (ArgumentValue F)
  source : CommandSource F
  rawArguments : List Char

/-- mirrors crates/command/src/dispatch.rs:86-110 (`CommandOutcome`) -/
inductive CommandOutcome (F : Type)
  | parsed (command : ParsedCommand F)
  | unknownCommand (name : List Char) (suggestions : List String)
  | permissionDenied (name : String) (required actual : PermissionLevel)
  | badArguments (error : ParseError)

variable {F : Type} [Float64 F]

/-- mirrors crates/command/src/dispatch.rs:235-273 (`Dispatcher::finish`, the loop), with the tokens
from the cursor on -/
def parseArguments :
    List (Argument F) → List (List Char) → Except ParseError (List (ArgumentValue F))
  | [], _ => .ok []
  | _ :: _, [] => .ok []
  | argument :: arguments, token :: tokens =>
    if argument.kind.isGreedy then
      match parseValue argument (joinSpaces (token :: tokens)) with
      | .error e => .error e
      | .ok value => (parseArguments arguments []).map (value :: ·)
    else if argument.kind.isBlockPos then
      if (token :: tokens).length < 3 then .error (.missingArgument argument.name)
      else
        match parseValue argument (joinSpaces ((token :: tokens).take 3)) with
        | .error e => .error e
        | .ok value => (parseArguments arguments ((token :: tokens).drop 3)).map (value :: ·)
    else
      match parseValue argument token with
      | .error e => .error e
      | .ok value => (parseArguments arguments tokens).map (value :: ·)

/-- mirrors crates/command/src/dispatch.rs:201-282 (`Dispatcher::finish`) -/
def finish (command : Command F) (rest : List (List Char)) (supplied : Nat)
    (source : CommandSource F) (input : List Char) : CommandOutcome F :=
  if !source.mayUse command.permission then
    .permissionDenied command.name command.permission source.permission
  else if !command.acceptsTokenCount supplied then
    .badArguments
      (if supplied < command.tokenBounds.1 then
        .missingArgument ((command.arguments[supplied]?).elim "argument" (·.name))
      else
        .invalid (command.arguments.getLast?.elim "argument" (·.name)) "no further arguments"
          (truncate (joinSpaces rest) 32))
  else
    match parseArguments command.arguments rest with
    | .error e => .badArguments e
    | .ok values => .parsed ⟨command.name, values, source, (splitRoot input).2⟩

/-- mirrors crates/command/src/dispatch.rs:162-194 (`Dispatcher::parse`) -/
def CommandTree.parse (tree : CommandTree F) (input : List Char) (source : CommandSource F) :
    CommandOutcome F :=
  match tokenize input with
  | .error e => .badArguments e
  | .ok [] => .badArguments .empty
  | .ok (root :: rest) =>
    match tree.get root with
    | some command => finish command rest rest.length source input
    | none =>
      match tree.get (splitRoot root).1 with
      | some command => finish command rest rest.length source input
      | none => .unknownCommand root ((tree.matching root).map (·.name))

/-! ## The declared grammar -/

/-- How many tokens an argument may have. -/
def Takes (argument : Argument F) (tokens : List (List Char)) : Prop :=
  if argument.kind.isGreedy then tokens ≠ [] else tokens.length = Command.tokensFor argument

/-- The tokens shared out among the first of the declared arguments, all required ones with them. -/
structure IsSplit (arguments : List (Argument F)) (tokens : List (List Char))
    (parts : List (Argument F × List (List Char))) : Prop where
  declared : parts.map Prod.fst <+: arguments
  required : ∀ argument ∈ arguments.drop parts.length, argument.optional
  covers : (parts.map Prod.snd).flatten = tokens
  takes : ∀ part ∈ parts, Takes part.1 part.2

/-- What the code makes of a part: its tokens are put together first. -/
def Reads (part : Argument F × List (List Char)) (value : ArgumentValue F) : Prop :=
  parseValue part.1 (joinSpaces part.2) = .ok value

/-- What the grammar makes of a part: a block position has a token for each coordinate. -/
def IsValue (part : Argument F × List (List Char)) (value : ArgumentValue F) : Prop :=
  if part.1.kind.isBlockPos then IsBlockPos part.2 value else Reads part value

/-- The values of the tokens, as the arguments are declared. -/
def Declares (arguments : List (Argument F)) (tokens : List (List Char))
    (values : List (ArgumentValue F)) : Prop :=
  ∃ parts, IsSplit arguments tokens parts ∧ List.Forall₂ IsValue parts values

section
variable {argument : Argument F} {arguments : List (Argument F)} {tokens rest : List (List Char)}
  {parts : List (Argument F × List (List Char))} {values : List (ArgumentValue F)}

/-- The tokens an argument has of those that are left. -/
def takeCount (argument : Argument F) (rest : List (List Char)) : Nat :=
  if argument.kind.isGreedy then rest.length else Command.tokensFor argument

theorem Except.map_eq_ok {ε α β : Type} {f : α → β} {e : Except ε α} {b : β} :
    e.map f = .ok b ↔ ∃ a, e = .ok a ∧ f a = b := by
  cases e <;> simp [Except.map]

/-- One argument and its tokens, whatever its kind. -/
theorem parseArguments_cons_iff (hrest : rest ≠ []) :
    parseArguments (argument :: arguments) rest = .ok values ↔
      takeCount argument rest ≤ rest.length ∧
        ∃ value values', values = value :: values' ∧
          Reads (argument, rest.take (takeCount argument rest)) value ∧
          parseArguments arguments (rest.drop (takeCount argument rest)) = .ok values' := by
  have hmatch (text : List Char) (left : List (List Char)) :
      (match parseValue argument text with
        | .error e => Except.error e
        | .ok value => (parseArguments arguments left).map (value :: ·)) = .ok values ↔
        ∃ value values', values = value :: values' ∧ parseValue argument text = .ok value ∧
          parseArguments arguments left = .ok values' := by
    cases hvalue : parseValue argument text with
    | error e => simp
    | ok value =>
      simp only [Except.map_eq_ok]
      constructor
      · rintro ⟨values', hvalues', rfl⟩
        exact ⟨value, values', rfl, rfl, hvalues'⟩
      · rintro ⟨value', values', rfl, hv, hvalues'⟩
        cases hv
        exact ⟨values', hvalues', rfl⟩
  obtain ⟨token, tokens, rfl⟩ := List.exists_cons_of_ne_nil hrest
  rw [parseArguments]
  by_cases hg : argument.kind.isGreedy
  · simp only [takeCount, hg, if_true, Reads, List.take_length, List.drop_length, le_refl, true_and]
    exact hmatch _ _
  · by_cases hb : argument.kind.isBlockPos
    · simp only [takeCount, hg, hb, Bool.false_eq_true, if_false, if_true, Command.tokensFor, Reads]
      by_cases hlen : (token :: tokens).length < 3
      · rw [if_pos hlen]
        exact iff_of_false (by simp) fun h => absurd h.1 (by omega)
      · rw [if_neg hlen, hmatch, and_iff_right (by omega)]
    · simp only [takeCount, hg, hb, Bool.false_eq_true, if_false, Command.tokensFor, Reads]
      rw [hmatch, and_iff_right (by simp)]
      simp [joinSpaces]

omit [Float64 F] in
theorem takes_take (hrest : rest ≠ []) (h : takeCount argument rest ≤ rest.length) :
    Takes argument (rest.take (takeCount argument rest)) := by
  rw [Takes]
  split
  · next hg => simpa [takeCount, hg] using hrest
  · next hg =>
    rw [List.length_take, Nat.min_eq_left h]
    simp [takeCount, hg]

/-! ## What the loop does with the tokens -/

omit [Float64 F] in
theorem nil_of_greedy (hlast : (argument :: arguments).Pairwise fun a _ => a.kind.isGreedy = false)
    (hg : argument.kind.isGreedy) : arguments = [] := by
  cases arguments with
  | nil => rfl
  | cons b _ => exact absurd hg (by simp [(List.pairwise_cons.mp hlast).1 b (.head _)])

/-- What the loop accepts is shared out, where there are not too many tokens. -/
theorem parts_of_parseArguments
    (hlast : arguments.Pairwise fun a _ => a.kind.isGreedy = false)
    (hmax : (∀ a ∈ arguments, a.kind.isGreedy = false) → rest.length ≤ Command.tokensForAll arguments)
    (h : parseArguments arguments rest = .ok values) :
    ∃ parts : List (Argument F × List (List Char)), parts.map Prod.fst <+: arguments ∧
      (parts.map Prod.snd).flatten = rest ∧ (∀ part ∈ parts, Takes part.1 part.2) ∧
      List.Forall₂ Reads parts values := by
  induction arguments generalizing rest values with
  | nil =>
    have hnil : rest = [] := by simpa using hmax (by simp)
    subst hnil
    cases h
    exact ⟨[], List.nil_prefix, rfl, by simp, .nil⟩
  | cons argument arguments ih =>
    by_cases hrest : rest = []
    · subst hrest
      cases h
      exact ⟨[], List.nil_prefix, rfl, by simp, .nil⟩
    obtain ⟨hcount, value, values', rfl, hvalue, hvalues'⟩ := (parseArguments_cons_iff hrest).mp h
    have hleft : (∀ a ∈ arguments, a.kind.isGreedy = false) →
        (rest.drop (takeCount argument rest)).length ≤ Command.tokensForAll arguments := by
      intro hnone
      rw [List.length_drop]
      by_cases hg : argument.kind.isGreedy
      · simp [takeCount, hg]
      · have := hmax (List.forall_mem_cons.mpr ⟨by simpa using hg, hnone⟩)
        rw [Command.tokensForAll_cons] at this
        simp only [takeCount, hg, Bool.false_eq_true, if_false]
        omega
    obtain ⟨parts, hpre, hcovers, htakes, hreads⟩ := ih (List.pairwise_cons.mp hlast).2 hleft hvalues'
    refine ⟨(argument, rest.take (takeCount argument rest)) :: parts,
      List.cons_prefix_cons.mpr ⟨rfl, hpre⟩, ?_,
      List.forall_mem_cons.mpr ⟨takes_take hrest hcount, htakes⟩, .cons hvalue hreads⟩
    rw [List.map_cons, List.flatten_cons, hcovers, List.take_append_drop]

/-- Tokens that are shared out are read part by part. -/
theorem parseArguments_of_parts
    (hlast : arguments.Pairwise fun a _ => a.kind.isGreedy = false)
    (hpre : parts.map Prod.fst <+: arguments) (hcovers : (parts.map Prod.snd).flatten = rest)
    (htakes : ∀ part ∈ parts, Takes part.1 part.2) (hreads : List.Forall₂ Reads parts values) :
    parseArguments arguments rest = .ok values := by
  induction arguments generalizing rest values parts with
  | nil =>
    rw [List.prefix_nil, List.map_eq_nil_iff] at hpre
    subst hpre
    cases hreads
    rfl
  | cons argument arguments ih =>
    cases hreads with
    | nil =>
      subst hcovers
      rfl
    | @cons part value parts values hvalue hreads =>
      obtain ⟨argument', part⟩ := part
      obtain ⟨rfl, hpre'⟩ := List.cons_prefix_cons.mp hpre
      obtain ⟨htake, htakes⟩ := List.forall_mem_cons.mp htakes
      rw [List.map_cons, List.flatten_cons] at hcovers
      have hpart : part ≠ [] := by
        rintro rfl
        simp only [Takes, List.length_nil] at htake
        split at htake
        · exact htake rfl
        · have := Command.tokensFor_pos argument'
          omega
      have hcount : takeCount argument' rest = part.length := by
        rw [takeCount]
        simp only [Takes] at htake
        split at htake
        · next hg =>
          have harguments := nil_of_greedy hlast hg
          subst harguments
          rw [List.prefix_nil, List.map_eq_nil_iff] at hpre'
          subst hpre'
          simpa [hg] using (congrArg List.length hcovers).symm
        · next hg => rw [if_neg hg, htake]
      have hrest : rest ≠ [] := by
        rw [← hcovers]
        simp [hpart]
      rw [parseArguments_cons_iff hrest, hcount]
      refine ⟨?_, value, values, rfl, ?_, ?_⟩
      · rw [← hcovers]
        simp
      · rw [← hcovers, List.take_left]
        exact hvalue
      · rw [← hcovers, List.drop_left]
        exact ih (List.pairwise_cons.mp hlast).2 hpre' rfl htakes hreads

/-! ## The counts -/

omit [Float64 F] in
theorem tokensFor_le (htakes : ∀ part ∈ parts, Takes part.1 part.2) :
    Command.tokensForAll (parts.map Prod.fst) ≤ (parts.map Prod.snd).flatten.length := by
  induction parts with
  | nil => simp
  | cons part parts ih =>
    obtain ⟨htake, htakes⟩ := List.forall_mem_cons.mp htakes
    have := ih htakes
    have hone : Command.tokensFor part.1 ≤ part.2.length := by
      simp only [Takes] at htake
      split at htake
      · next hg =>
        have hb : part.1.kind.isBlockPos = false := by
          cases hk : part.1.kind <;> simp_all [ArgumentKind.isGreedy, ArgumentKind.isBlockPos]
        have := List.length_pos_of_ne_nil htake
        simp only [Command.tokensFor, hb, Bool.false_eq_true, if_false]
        omega
      · omega
    simp only [List.map_cons, Command.tokensForAll_cons, List.flatten_cons, List.length_append]
    omega

omit [Float64 F] in
theorem tokensFor_eq (htakes : ∀ part ∈ parts, Takes part.1 part.2)
    (hnone : ∀ part ∈ parts, part.1.kind.isGreedy = false) :
    (parts.map Prod.snd).flatten.length = Command.tokensForAll (parts.map Prod.fst) := by
  induction parts with
  | nil => simp
  | cons part parts ih =>
    obtain ⟨htake, htakes⟩ := List.forall_mem_cons.mp htakes
    obtain ⟨hhead, hnone⟩ := List.forall_mem_cons.mp hnone
    simp only [Takes, hhead, Bool.false_eq_true, if_false] at htake
    simp only [List.map_cons, Command.tokensForAll_cons, List.flatten_cons, List.length_append,
      ih htakes hnone, htake]

omit [Float64 F] in
theorem tokensForAll_append (as bs : List (Argument F)) :
    Command.tokensForAll (as ++ bs) = Command.tokensForAll as + Command.tokensForAll bs := by
  simp [Command.tokensForAll]

omit [Float64 F] in
theorem tokensForAll_take_le {m n : Nat} (h : m ≤ n) (arguments : List (Argument F)) :
    Command.tokensForAll (arguments.take m) ≤ Command.tokensForAll (arguments.take n) := by
  rw [show n = m + (n - m) by omega, List.take_add, tokensForAll_append]
  omega

omit [Float64 F] in
theorem take_of_isPrefix (h : parts.map Prod.fst <+: arguments) :
    parts.map Prod.fst = arguments.take parts.length := by
  simpa using List.prefix_iff_eq_take.mp h

end

section
variable {command : Command F} {tokens : List (List Char)}
  {parts : List (Argument F × List (List Char))} {values : List (ArgumentValue F)}

/-- Enough tokens for the required arguments reach all of them. -/
theorem requiredCount_le_of_length (hvalid : command.validate = .ok ())
    (hpre : parts.map Prod.fst <+: command.arguments)
    (htakes : ∀ part ∈ parts, Takes part.1 part.2)
    (hmin : Command.tokensForAll (command.arguments.take command.requiredCount) ≤
      (parts.map Prod.snd).flatten.length) : command.requiredCount ≤ parts.length := by
  by_contra hlt
  have hcount : command.requiredCount ≤ command.arguments.length :=
    (List.takeWhile_prefix _).length_le
  have hsplit : command.arguments.take command.requiredCount =
      parts.map Prod.fst ++ (command.arguments.drop parts.length).take
        (command.requiredCount - parts.length) := by
    rw [take_of_isPrefix hpre, ← List.take_add, show parts.length + (command.requiredCount - parts.length) =
      command.requiredCount by omega]
  -- A greedy part would be the last argument, but one more is required.
  have hnone : ∀ part ∈ parts, part.1.kind.isGreedy = false := by
    intro part hpart
    have hlast := Command.validate_greedy_last hvalid
    rw [← List.take_append_drop parts.length command.arguments, ← take_of_isPrefix hpre,
      List.pairwise_append] at hlast
    have hne : command.arguments.drop parts.length ≠ [] := by
      rw [Ne, List.drop_eq_nil_iff]
      omega
    obtain ⟨b, rest, hb⟩ := List.exists_cons_of_ne_nil hne
    exact hlast.2.2 part.1 (List.mem_map_of_mem hpart) b (by simp [hb])
  have hpos : 0 < Command.tokensForAll ((command.arguments.drop parts.length).take
      (command.requiredCount - parts.length)) := by
    obtain ⟨k, hk⟩ : ∃ k, command.requiredCount - parts.length = k + 1 :=
      ⟨command.requiredCount - parts.length - 1, by omega⟩
    rw [List.drop_eq_getElem_cons (by omega), hk, List.take_succ_cons, Command.tokensForAll_cons]
    have hnext : parts.length < command.arguments.length := by omega
    have := Command.tokensFor_pos command.arguments[parts.length]
    omega
  rw [hsplit, tokensForAll_append, tokensFor_eq htakes hnone] at hmin
  omega

theorem requiredCount_le_of_required (hvalid : command.validate = .ok ())
    (hrequired : ∀ argument ∈ command.arguments.drop parts.length, argument.optional) :
    command.requiredCount ≤ parts.length := by
  by_contra hlt
  have hcount : command.requiredCount ≤ command.arguments.length :=
    (List.takeWhile_prefix _).length_le
  have hlen : parts.length < command.arguments.length := by omega
  have hopt := hrequired _ (List.mem_drop_iff_getElem.mpr ⟨0, by omega, rfl⟩)
  have hreq := (Command.required_take hvalid).1 command.arguments[parts.length]
    (List.mem_take_iff_getElem.mpr ⟨parts.length, by omega, rfl⟩)
  simp [hreq] at hopt

theorem acceptsTokenCount_iff (hvalid : command.validate = .ok ()) {supplied : Nat} :
    command.acceptsTokenCount supplied ↔
      Command.tokensForAll (command.arguments.take command.requiredCount) ≤ supplied ∧
        ((∀ a ∈ command.arguments, a.kind.isGreedy = false) →
          supplied ≤ Command.tokensForAll command.arguments) := by
  rw [Command.acceptsTokenCount, Command.tokenBounds_eq hvalid]
  by_cases hany : command.arguments.any (·.kind.isGreedy)
  · have hsome : ¬∀ a ∈ command.arguments, a.kind.isGreedy = false := by
      obtain ⟨a, ha, hg⟩ := List.any_eq_true.mp hany
      intro hnone
      simp [hnone a ha] at hg
    simp [hany, hsome]
  · have hnone : ∀ a ∈ command.arguments, a.kind.isGreedy = false := by simpa using hany
    rw [if_neg hany, Option.all_some, Bool.and_eq_true, decide_eq_true_eq, decide_eq_true_eq,
      forall_prop_of_true hnone]

theorem acceptsTokenCount_of_split (hvalid : command.validate = .ok ())
    (hsplit : IsSplit command.arguments tokens parts) : command.acceptsTokenCount tokens.length := by
  have hcount := requiredCount_le_of_required hvalid hsplit.required
  rw [acceptsTokenCount_iff hvalid, ← hsplit.covers]
  constructor
  · calc Command.tokensForAll (command.arguments.take command.requiredCount)
        ≤ Command.tokensForAll (command.arguments.take parts.length) := tokensForAll_take_le hcount _
      _ = Command.tokensForAll (parts.map Prod.fst) := by rw [take_of_isPrefix hsplit.declared]
      _ ≤ (parts.map Prod.snd).flatten.length := tokensFor_le hsplit.takes
  · intro hnone
    have hparts : ∀ part ∈ parts, part.1.kind.isGreedy = false := fun part hpart =>
      hnone _ (hsplit.declared.subset (List.mem_map_of_mem hpart))
    calc (parts.map Prod.snd).flatten.length
        = Command.tokensForAll (parts.map Prod.fst) := tokensFor_eq hsplit.takes hparts
      _ = Command.tokensForAll (command.arguments.take parts.length) := by
        rw [take_of_isPrefix hsplit.declared]
      _ ≤ Command.tokensForAll (command.arguments.take (parts.length + command.arguments.length)) :=
        tokensForAll_take_le (by omega) _
      _ = Command.tokensForAll command.arguments := by rw [List.take_of_length_le (by omega)]

theorem split_of_parseArguments (hvalid : command.validate = .ok ())
    (hcount : command.acceptsTokenCount tokens.length)
    (h : parseArguments command.arguments tokens = .ok values) :
    ∃ parts, IsSplit command.arguments tokens parts ∧ List.Forall₂ Reads parts values := by
  obtain ⟨hmin, hmax⟩ := (acceptsTokenCount_iff hvalid).mp hcount
  obtain ⟨parts, hpre, hcovers, htakes, hreads⟩ :=
    parts_of_parseArguments (Command.validate_greedy_last hvalid) hmax h
  have hle := requiredCount_le_of_length hvalid hpre htakes (by rwa [hcovers])
  refine ⟨parts, ⟨hpre, fun argument hargument => ?_, hcovers, htakes⟩, hreads⟩
  refine (Command.required_take hvalid).2 argument (List.mem_of_mem_drop (i := parts.length - command.requiredCount) ?_)
  rwa [List.drop_drop, show command.requiredCount + (parts.length - command.requiredCount) =
    parts.length by omega]

variable {source : CommandSource F} {input : List Char}

/-- What is accepted: the tokens shared out, and the text of each part of its kind. -/
theorem finish_parsed_iff (hvalid : command.validate = .ok ())
    (huse : source.mayUse command.permission) (parsed : ParsedCommand F) :
    finish command tokens tokens.length source input = .parsed parsed ↔
      ∃ parts values, IsSplit command.arguments tokens parts ∧ List.Forall₂ Reads parts values ∧
        parsed = ⟨command.name, values, source, (splitRoot input).2⟩ := by
  rw [finish]
  simp only [huse, Bool.not_true, Bool.false_eq_true, if_false]
  constructor
  · intro h
    split at h
    · cases h
    next hcount =>
    split at h
    · cases h
    next values hvalues =>
    cases h
    obtain ⟨parts, hsplit, hreads⟩ := split_of_parseArguments hvalid (by simpa using hcount) hvalues
    exact ⟨parts, values, hsplit, hreads, rfl⟩
  · rintro ⟨parts, values, hsplit, hreads, rfl⟩
    rw [acceptsTokenCount_of_split hvalid hsplit, parseArguments_of_parts
      (Command.validate_greedy_last hvalid) hsplit.declared hsplit.covers hsplit.takes hreads]
    rfl

/-! ## One token for each coordinate -/

theorem reads_of_isValue {part : Argument F × List (List Char)} {value : ArgumentValue F}
    (h : IsValue part value) : Reads part value := by
  rw [IsValue] at h
  split at h
  · next hb =>
    have hparse (text : List Char) : parseValue part.1 text = parseBlockPos part.1 text := by
      rw [parseValue]
      cases hk : part.1.kind <;> simp_all [ArgumentKind.isBlockPos]
    rw [Reads, hparse, parseBlockPos_joinSpaces h.isWord]
    exact h
  · exact h

theorem isValue_of_reads {part : Argument F × List (List Char)} {value : ArgumentValue F}
    (hwords : part.1.kind.isBlockPos → ∀ token ∈ part.2, IsWord token) (h : Reads part value) :
    IsValue part value := by
  rw [IsValue]
  split
  · next hb =>
    have hparse (text : List Char) : parseValue part.1 text = parseBlockPos part.1 text := by
      rw [parseValue]
      cases hk : part.1.kind <;> simp_all [ArgumentKind.isBlockPos]
    rwa [Reads, hparse, parseBlockPos_joinSpaces (hwords hb)] at h
  · exact h

theorem isWord_of_isValue {part : Argument F × List (List Char)} {value : ArgumentValue F}
    (h : IsValue part value) (hb : part.1.kind.isBlockPos) : ∀ token ∈ part.2, IsWord token := by
  rw [IsValue, if_pos hb] at h
  exact h.isWord

omit [Float64 F] in
theorem part_ne_nil {part : Argument F × List (List Char)} (h : Takes part.1 part.2) :
    part.2 ≠ [] := by
  intro hnil
  simp only [Takes, hnil, List.length_nil] at h
  split at h
  · exact h rfl
  · have := Command.tokensFor_pos part.1
    omega

omit [Float64 F] in
/-- There is one way to share the tokens out. -/
theorem parts_unique {arguments : List (Argument F)} {parts parts' : List (Argument F × List (List Char))}
    (hlast : arguments.Pairwise fun a _ => a.kind.isGreedy = false)
    (hpre : parts.map Prod.fst <+: arguments) (hpre' : parts'.map Prod.fst <+: arguments)
    (hcovers : (parts.map Prod.snd).flatten = (parts'.map Prod.snd).flatten)
    (htakes : ∀ part ∈ parts, Takes part.1 part.2) (htakes' : ∀ part ∈ parts', Takes part.1 part.2) :
    parts = parts' := by
  induction arguments generalizing parts parts' with
  | nil =>
    rw [List.prefix_nil, List.map_eq_nil_iff] at hpre hpre'
    rw [hpre, hpre']
  | cons argument arguments ih =>
    cases parts with
    | nil =>
      cases parts' with
      | nil => rfl
      | cons part' parts' => exact absurd hcovers.symm (by simp [part_ne_nil (htakes' _ (.head _))])
    | cons part parts =>
      cases parts' with
      | nil => exact absurd hcovers (by simp [part_ne_nil (htakes _ (.head _))])
      | cons part' parts' =>
        obtain ⟨argument₁, tokens₁⟩ := part
        obtain ⟨argument₂, tokens₂⟩ := part'
        obtain ⟨h₁, hrest₁⟩ := List.cons_prefix_cons.mp hpre
        obtain ⟨h₂, hrest₂⟩ := List.cons_prefix_cons.mp hpre'
        dsimp only at h₁ h₂
        subst h₁
        cases h₂
        obtain ⟨htake₁, htakes₁⟩ := List.forall_mem_cons.mp htakes
        obtain ⟨htake₂, htakes₂⟩ := List.forall_mem_cons.mp htakes'
        simp only [List.map_cons, List.flatten_cons] at hcovers
        by_cases hg : argument₁.kind.isGreedy
        · have hnil := nil_of_greedy hlast hg
          subst hnil
          rw [List.prefix_nil, List.map_eq_nil_iff] at hrest₁ hrest₂
          subst hrest₁ hrest₂
          simpa using hcovers
        · simp only [Takes, hg, Bool.false_eq_true, if_false] at htake₁ htake₂
          obtain ⟨htokens, hcovers⟩ := List.append_inj hcovers (htake₁.trans htake₂.symm)
          rw [htokens, ih (List.pairwise_cons.mp hlast).2 hrest₁ hrest₂ hcovers htakes₁ htakes₂]

omit [Float64 F] in
theorem exists_value {R : Argument F × List (List Char) → ArgumentValue F → Prop}
    {part : Argument F × List (List Char)} (h : List.Forall₂ R parts values) (hpart : part ∈ parts) :
    ∃ value, R part value := by
  induction h with
  | nil => cases hpart
  | cons hvalue _ ih =>
    rcases List.mem_cons.mp hpart with rfl | hpart
    · exact ⟨_, hvalue⟩
    · exact ih hpart

omit [Float64 F] in
theorem exists_values {R : Argument F × List (List Char) → ArgumentValue F → Prop}
    (h : ∀ part ∈ parts, ∃ value, R part value) : ∃ values, List.Forall₂ R parts values := by
  induction parts with
  | nil => exact ⟨[], .nil⟩
  | cons part parts ih =>
    obtain ⟨⟨value, hvalue⟩, hrest⟩ := List.forall_mem_cons.mp h
    obtain ⟨values, hvalues⟩ := ih hrest
    exact ⟨value :: values, .cons hvalue hvalues⟩

/-- Accepted is what the grammar declares, with the values it declares, exactly when no block
position that is read from its three tokens together has a token that is not one word. -/
theorem finish_exact_iff (hvalid : command.validate = .ok ())
    (huse : source.mayUse command.permission) :
    (∀ parsed, finish command tokens tokens.length source input = .parsed parsed ↔
      ∃ values, Declares command.arguments tokens values ∧
        parsed = ⟨command.name, values, source, (splitRoot input).2⟩) ↔
      ∀ parts, IsSplit command.arguments tokens parts →
        (∀ part ∈ parts, ∃ value, parseValue part.1 (joinSpaces part.2) = .ok value) →
          ∀ part ∈ parts, part.1.kind.isBlockPos → ∀ token ∈ part.2, IsWord token := by
  constructor
  · intro h parts hsplit hreads
    obtain ⟨values, hvalues⟩ := exists_values hreads
    have hparsed := (@finish_parsed_iff _ _ _ _ _ input hvalid huse _).mpr ⟨parts, values, hsplit, hvalues, rfl⟩
    obtain ⟨values', ⟨parts', hsplit', hvalues'⟩, heq⟩ := (h _).mp hparsed
    rw [parts_unique (Command.validate_greedy_last hvalid) hsplit.declared hsplit'.declared
      (hsplit.covers.trans hsplit'.covers.symm) hsplit.takes hsplit'.takes]
    intro part hpart
    obtain ⟨value, hvalue⟩ := exists_value hvalues' hpart
    exact isWord_of_isValue hvalue
  · intro h parsed
    rw [finish_parsed_iff hvalid huse]
    constructor
    · rintro ⟨parts, values, hsplit, hreads, rfl⟩
      have hwords := h parts hsplit fun part hpart => exists_value hreads hpart
      refine ⟨values, ⟨parts, hsplit, ?_⟩, rfl⟩
      exact (List.forall₂_and_left _ _ |>.mpr ⟨hwords, hreads⟩).imp fun _ _ h => isValue_of_reads h.1 h.2
    · rintro ⟨values, ⟨parts, hsplit, hvalues⟩, rfl⟩
      exact ⟨parts, values, hsplit, hvalues.imp fun _ _ => reads_of_isValue, rfl⟩

end

/-! ## A quoted position -/

/-- For commands without floating point arguments. -/
instance : Float64 Unit := ⟨fun _ => none, fun _ => true, fun _ _ => false⟩

/-- mirrors crates/server/src/commands.rs:507-509 (`build_command_tree`, `setworldspawn`) -/
def setworldspawn : Command Unit := ⟨"setworldspawn", [⟨"pos", .blockPos, true⟩], .operator⟩

/-- mirrors crates/command/src/source.rs:185-196 (`CommandSource::console`) -/
def console : CommandSource Unit := ⟨.console, "Server".toList, .console, ⟨(), (), ()⟩, "minecraft:overworld"⟩

theorem setworldspawn_exact :
    (∀ parsed, finish setworldspawn ["1".toList, "~".toList, "-3".toList] 3 console [] = .parsed parsed ↔
      ∃ values, Declares setworldspawn.arguments ["1".toList, "~".toList, "-3".toList] values ∧
        parsed = ⟨setworldspawn.name, values, console, (splitRoot []).2⟩) ↔
      ∀ parts, IsSplit setworldspawn.arguments ["1".toList, "~".toList, "-3".toList] parts →
        (∀ part ∈ parts, ∃ value, parseValue part.1 (joinSpaces part.2) = .ok value) →
          ∀ part ∈ parts, part.1.kind.isBlockPos → ∀ token ∈ part.2, IsWord token :=
  @finish_exact_iff _ _ setworldspawn ["1".toList, "~".toList, "-3".toList] _ _
    (by rfl) (by rfl)

/-- A quoted text is three coordinates, and two empty tokens are nothing. -/
theorem quoted_position_accepted :
    tokenize "setworldspawn \"1 2 3\" \"\" \"\"".toList =
        .ok ["setworldspawn".toList, "1 2 3".toList, [], []] ∧
      setworldspawn.validate = .ok () ∧ console.mayUse setworldspawn.permission ∧
      ¬∀ parsed, finish setworldspawn ["1 2 3".toList, [], []] 3 console [] = .parsed parsed ↔
        ∃ values, Declares setworldspawn.arguments ["1 2 3".toList, [], []] values ∧
          parsed = ⟨setworldspawn.name, values, console, (splitRoot []).2⟩ := by
  refine ⟨by decide +kernel, by rfl, by rfl, fun h => ?_⟩
  have hparsed : finish setworldspawn ["1 2 3".toList, [], []] 3 console [] =
      .parsed ⟨"setworldspawn", [.blockPos ⟨⟨1, by decide⟩, false⟩ ⟨⟨2, by decide⟩, false⟩
        ⟨⟨3, by decide⟩, false⟩], console, []⟩ := by rfl
  obtain ⟨values, ⟨parts, hsplit, hvalues⟩, -⟩ := (h _).mp hparsed
  have hlen : parts.length ≤ 1 := by simpa [setworldspawn] using hsplit.declared.length_le
  cases hvalues with
  | nil => exact absurd hsplit.covers (by simp)
  | @cons part value parts values hvalue hvalues =>
    have hnil : parts = [] := List.eq_nil_of_length_eq_zero (by simpa using hlen)
    subst hnil
    have htokens : part.2 = ["1 2 3".toList, [], []] := by simpa using hsplit.covers
    have hargument : part.1 = ⟨"pos", .blockPos, true⟩ := by
      simpa [setworldspawn] using hsplit.declared
    have hword := isWord_of_isValue hvalue (by rw [hargument]; rfl) [] (by simp [htokens])
    exact hword.1 rfl

end Apoptosis.L2.Commands

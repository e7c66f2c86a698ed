import Apoptosis.L2Command.Argument
import Apoptosis.L2Command.Source
import Mathlib.Data.List.TakeWhile
/-!
# The commands there are (`command/src/tree.rs`)

A command with the arguments it declares, what makes a declaration valid, and
the tree of all commands in the order of their names.

* `validate_optional_last`, `validate_greedy_last`: what a valid declaration keeps.
* `tokenBounds_eq`: the least and the most tokens are those of the required and of
  all arguments.
-/
namespace Apoptosis.L2.Commands

open Apoptosis.Core
open Apoptosis.L2.Command (PermissionLevel CommandSource)

/-- mirrors crates/command/src/lib.rs:78 (`MAX_ARGUMENTS`) -/
def MAX_ARGUMENTS : Nat := 64

/-- mirrors crates/command/src/tree.rs:17-87 (`TreeError`) -/
inductive TreeError
  | emptyName
  | duplicateName (name : String)
  | tooManyArguments (command : String) (count limit : Nat)
  | optionalBeforeRequired (command optional required : String)
  | greedyNotLast (command argument : String)
  | emptyArgumentName (command : String)
  | duplicateArgument (command argument : String)
  | invertedRange (command argument : String)
  | invalidDoubleRange (command argument : String)
  deriving DecidableEq, Repr

/-- mirrors crates/command/src/tree.rs:94-103 (`Command`), without the description -/
structure Command (F : Type) where
  name : String
  arguments : List (Argument F)
  permission : PermissionLevel

variable {F : Type}

namespace Command

/-- mirrors crates/command/src/tree.rs:134-139 (`Command::required_count`) -/
def requiredCount (command : Command F) : Nat :=
  (command.arguments.takeWhile fun argument => !argument.optional).length

/-- mirrors crates/command/src/tree.rs:152-157 (`Command::tokens_for`) -/
def tokensFor (argument : Argument F) : Nat := if argument.kind.isBlockPos then 3 else 1

/-- mirrors crates/command/src/tree.rs:174-184 (`Command::token_bounds`, the loop) -/
def tokenBoundsFrom (required index min max : Nat) : List (Argument F) → Nat × Option Nat
  | [] => (min, some max)
  | argument :: arguments =>
    let min := if index < required then min + tokensFor argument else min
    if argument.kind.isGreedy then (min, none)
    else tokenBoundsFrom required (index + 1) min (max + tokensFor argument) arguments

/-- mirrors crates/command/src/tree.rs:171-186 (`Command::token_bounds`) -/
def tokenBounds (command : Command F) : Nat × Option Nat :=
  tokenBoundsFrom command.requiredCount 0 0 0 command.arguments

/-- mirrors crates/command/src/tree.rs:189-192 (`Command::accepts_token_count`) -/
def acceptsTokenCount (command : Command F) (supplied : Nat) : Bool :=
  command.tokenBounds.1 ≤ supplied && command.tokenBounds.2.all (supplied ≤ ·)

/-! ## Valid declarations -/

/-- mirrors crates/command/src/tree.rs:264-282 (`Command::validate`, the range of one argument) -/
def validateRange [Float64 F] (command : Command F) (argument : Argument F) : Except TreeError Unit :=
  match argument.kind with
  | .integer range | .long range =>
    if !range.isValid then .error (.invertedRange command.name argument.name) else .ok ()
  | .double min max =>
    if !Float64.isFinite min || !Float64.isFinite max || Float64.lt max min then
      .error (.invalidDoubleRange command.name argument.name)
    else .ok ()
  | _ => .ok ()

/-- mirrors crates/command/src/tree.rs:252-262 (`Command::validate`, the order of the optional
arguments), with the first optional argument there is up to this one -/
def validateOrder (command : Command F) (seenOptional : Option String) (argument : Argument F) :
    Except TreeError (Option String) :=
  match seenOptional with
  | some optional =>
    if !argument.optional then .error (.optionalBeforeRequired command.name optional argument.name)
    else .ok (some optional)
  | none => .ok (if argument.optional then some argument.name else none)

/-- mirrors crates/command/src/tree.rs:238-290 (`Command::validate`, the loop) -/
def validateFrom [Float64 F] (command : Command F) (index : Nat) (seenOptional : Option String)
    (seenNames : List String) : List (Argument F) → Except TreeError Unit
  | [] => .ok ()
  | argument :: arguments =>
    if argument.name = "" then .error (.emptyArgumentName command.name)
    else if argument.name ∈ seenNames then .error (.duplicateArgument command.name argument.name)
    else
      match validateOrder command seenOptional argument with
      | .error e => .error e
      | .ok seenOptional =>
        match validateRange command argument with
        | .error e => .error e
        | .ok () =>
          if argument.kind.isGreedy && index + 1 ≠ command.arguments.length then
            .error (.greedyNotLast command.name argument.name)
          else validateFrom command (index + 1) seenOptional (seenNames ++ [argument.name]) arguments

/-- mirrors crates/command/src/tree.rs:225-292 (`Command::validate`) -/
def validate [Float64 F] (command : Command F) : Except TreeError Unit :=
  if command.name = "" then .error .emptyName
  else if command.arguments.length > MAX_ARGUMENTS then
    .error (.tooManyArguments command.name command.arguments.length MAX_ARGUMENTS)
  else validateFrom command 0 none [] command.arguments

section
variable [Float64 F] {command : Command F} {arguments : List (Argument F)} {index : Nat}
  {seenOptional : Option String} {seenNames : List String}

/-- What one argument passes for the rest to be looked at. -/
theorem validateFrom_cons {argument : Argument F}
    (h : validateFrom command index seenOptional seenNames (argument :: arguments) = .ok ()) :
    (seenOptional.isSome → argument.optional) ∧
      (argument.kind.isGreedy → index + 1 = command.arguments.length) ∧
      ∃ seen : Option String, (seenOptional.isSome ∨ argument.optional → seen.isSome) ∧
        validateFrom command (index + 1) seen (seenNames ++ [argument.name]) arguments = .ok () := by
  rw [validateFrom] at h
  split at h
  · cases h
  split at h
  · cases h
  split at h
  · cases h
  next seen horder =>
  split at h
  · cases h
  split at h
  · cases h
  next hgreedy =>
  refine ⟨?_, ?_, seen, ?_, h⟩
  · intro hseen
    obtain ⟨name, rfl⟩ := Option.isSome_iff_exists.mp hseen
    by_contra hopt
    simp only [validateOrder, Bool.eq_false_iff.mpr hopt] at horder
    cases horder
  · intro hg
    by_contra hne
    exact hgreedy (by simpa [hg] using hne)
  · intro hsome
    cases seenOptional with
    | none =>
      obtain hn | hopt := hsome
      · cases hn
      · simp only [validateOrder, hopt, if_true, Except.ok.injEq] at horder
        rw [← horder]
        rfl
    | some name =>
      simp only [validateOrder] at horder
      split at horder
      · cases horder
      · cases horder
        rfl

theorem validateFrom_optional
    (h : validateFrom command index seenOptional seenNames arguments = .ok ()) :
    (seenOptional.isSome → ∀ a ∈ arguments, a.optional) ∧
      arguments.Pairwise fun a b => a.optional → b.optional := by
  induction arguments generalizing index seenOptional seenNames with
  | nil => simp
  | cons argument arguments ih =>
    obtain ⟨hopt, -, seen, hseen, hrest⟩ := validateFrom_cons h
    obtain ⟨hall, hpair⟩ := ih hrest
    refine ⟨fun hsome => ?_, List.pairwise_cons.mpr ⟨fun b hb ha => ?_, hpair⟩⟩
    · exact List.forall_mem_cons.mpr ⟨hopt hsome, hall (hseen (.inl hsome))⟩
    · exact hall (hseen (.inr ha)) b hb

theorem validateFrom_greedy
    (h : validateFrom command index seenOptional seenNames arguments = .ok ())
    (hlen : index + arguments.length = command.arguments.length) :
    arguments.Pairwise fun a _ => a.kind.isGreedy = false := by
  induction arguments generalizing index seenOptional seenNames with
  | nil => simp
  | cons argument arguments ih =>
    obtain ⟨-, hgreedy, seen, -, hrest⟩ := validateFrom_cons h
    rw [List.length_cons] at hlen
    refine List.pairwise_cons.mpr ⟨fun b hb => ?_, ih hrest (by omega)⟩
    by_contra hg
    have hlast := hgreedy (by simpa using hg)
    have := List.length_pos_of_mem hb
    omega

theorem validateFrom_of_validate (h : command.validate = .ok ()) :
    validateFrom command 0 none [] command.arguments = .ok () := by
  rw [validate] at h
  split at h
  · cases h
  split at h
  · cases h
  exact h

theorem validate_optional_last (h : command.validate = .ok ()) :
    command.arguments.Pairwise fun a b => a.optional → b.optional :=
  (validateFrom_optional (validateFrom_of_validate h)).2

theorem validate_greedy_last (h : command.validate = .ok ()) :
    command.arguments.Pairwise fun a _ => a.kind.isGreedy = false :=
  validateFrom_greedy (validateFrom_of_validate h) (Nat.zero_add _)

end

/-! ## How many tokens -/

/-- How many tokens these arguments take at least. -/
def tokensForAll (arguments : List (Argument F)) : Nat := (arguments.map tokensFor).sum

@[simp] theorem tokensForAll_nil : tokensForAll ([] : List (Argument F)) = 0 := rfl

@[simp] theorem tokensForAll_cons (argument : Argument F) (arguments : List (Argument F)) :
    tokensForAll (argument :: arguments) = tokensFor argument + tokensForAll arguments :=
  List.sum_cons

theorem tokensFor_pos (argument : Argument F) : 0 < tokensFor argument := by
  rw [tokensFor]
  split <;> omega

theorem tokenBoundsFrom_eq {arguments : List (Argument F)}
    (hgreedy : arguments.Pairwise fun a _ => a.kind.isGreedy = false) (required index min max : Nat) :
    tokenBoundsFrom required index min max arguments =
      (min + tokensForAll (arguments.take (required - index)),
        if arguments.any (·.kind.isGreedy) then none else some (max + tokensForAll arguments)) := by
  induction arguments generalizing index min max with
  | nil => simp [tokenBoundsFrom]
  | cons argument arguments ih =>
    obtain ⟨hhead, htail⟩ := List.pairwise_cons.mp hgreedy
    have hmin : (if index < required then min + tokensFor argument else min) +
        tokensForAll (arguments.take (required - (index + 1))) =
          min + tokensForAll ((argument :: arguments).take (required - index)) := by
      by_cases hlt : index < required
      · obtain ⟨k, hk⟩ : ∃ k, required - index = k + 1 := ⟨required - index - 1, by omega⟩
        rw [if_pos hlt, hk, List.take_succ_cons, tokensForAll_cons,
          show required - (index + 1) = k by omega]
        omega
      · rw [if_neg hlt, show required - index = 0 by omega, show required - (index + 1) = 0 by omega]
        rfl
    rw [tokenBoundsFrom]
    by_cases hg : argument.kind.isGreedy
    · have hnil : arguments = [] := by
        cases arguments with
        | nil => rfl
        | cons b _ => exact absurd hg (by simp [hhead b (.head _)])
      subst hnil
      rw [if_pos hg, ← hmin]
      simp [hg]
    · rw [if_neg hg, ih htail, hmin]
      simp [hg, Nat.add_assoc]

section
variable [Float64 F] {command : Command F}

/-- The least tokens are those of the required arguments, the most those of all. -/
theorem tokenBounds_eq (h : command.validate = .ok ()) :
    command.tokenBounds =
      (tokensForAll (command.arguments.take command.requiredCount),
        if command.arguments.any (·.kind.isGreedy) then none
        else some (tokensForAll command.arguments)) := by
  rw [tokenBounds, tokenBoundsFrom_eq (validate_greedy_last h)]
  simp

theorem required_take (h : command.validate = .ok ()) :
    (∀ a ∈ command.arguments.take command.requiredCount, a.optional = false) ∧
      ∀ a ∈ command.arguments.drop command.requiredCount, a.optional = true := by
  have hpair := validate_optional_last h
  have htake : command.arguments.take command.requiredCount =
      command.arguments.takeWhile fun a => !a.optional :=
    (List.prefix_iff_eq_take.mp (List.takeWhile_prefix _)).symm
  have hdrop : command.arguments.drop command.requiredCount =
      command.arguments.dropWhile fun a => !a.optional := by
    have happend : command.arguments.takeWhile (fun a => !a.optional) ++
        command.arguments.dropWhile (fun a => !a.optional) = command.arguments :=
      List.takeWhile_append_dropWhile
    exact (congrArg (List.drop _) happend.symm).trans List.drop_left
  rw [htake, hdrop]
  refine ⟨fun a ha => by simpa using List.mem_takeWhile_imp ha, ?_⟩
  have hsub : (command.arguments.dropWhile fun a => !a.optional).Pairwise
      fun a b => a.optional → b.optional := hpair.sublist (List.dropWhile_sublist _)
  cases hcase : command.arguments.dropWhile fun a => !a.optional with
  | nil => simp
  | cons a rest =>
    rw [hcase] at hsub
    have ha : a.optional := by
      have := List.head?_dropWhile_not (fun a : Argument F => !a.optional) command.arguments
      rw [hcase] at this
      simpa using this
    exact List.forall_mem_cons.mpr ⟨ha, fun b hb => (List.pairwise_cons.mp hsub).1 b hb ha⟩

end

end Command

/-! ## The tree -/

/-- mirrors crates/command/src/tree.rs:300-302 (`CommandTree`), with what every `insert` keeps -/
structure CommandTree (F : Type) [Float64 F] where
  commands : List (Command F)
  sorted : commands.Pairwise fun a b => a.name < b.name
  valid : ∀ command ∈ commands, command.validate = .ok ()

namespace CommandTree

variable [Float64 F]

/-- mirrors crates/command/src/tree.rs:307-311 (`CommandTree::new`) -/
def new : CommandTree F := ⟨[], .nil, by simp⟩

/-- mirrors crates/command/src/tree.rs:335-340 (`CommandTree::get`) -/
def get (tree : CommandTree F) (name : List Char) : Option (Command F) :=
  tree.commands.find? fun command => command.name.toList = name

/-- mirrors crates/command/src/tree.rs:367-372 (`CommandTree::matching`) -/
def matching (tree : CommandTree F) (text : List Char) : List (Command F) :=
  tree.commands.filter fun command => text.isPrefixOf command.name.toList

omit [Float64 F] in
/-- Where a name comes in the order: what is before it, and what is after it. -/
theorem sorted_insert {commands : List (Command F)} (hsorted : commands.Pairwise fun a b => a.name < b.name)
    {command : Command F} (hnew : ∀ c ∈ commands, c.name ≠ command.name) :
    (commands.takeWhile (fun c => c.name < command.name) ++
      command :: commands.dropWhile fun c => c.name < command.name).Pairwise
        fun a b => a.name < b.name := by
  induction commands with
  | nil => simp
  | cons c commands ih =>
    obtain ⟨hhead, htail⟩ := List.pairwise_cons.mp hsorted
    by_cases hlt : c.name < command.name
    · simp only [List.takeWhile_cons, List.dropWhile_cons, hlt, decide_true, if_true,
        List.cons_append]
      refine List.pairwise_cons.mpr ⟨fun d hd => ?_, ih htail fun d hd => hnew d (.tail _ hd)⟩
      rw [List.mem_append, List.mem_cons] at hd
      rcases hd with hd | rfl | hd
      · exact hhead d (List.takeWhile_subset _ hd)
      · exact hlt
      · exact hhead d (List.dropWhile_sublist _ |>.subset hd)
    · simp only [List.takeWhile_cons, List.dropWhile_cons, hlt, decide_false, Bool.false_eq_true,
        if_false, List.nil_append]
      have hgt : command.name < c.name := lt_of_le_of_ne (not_lt.mp hlt) (hnew c (.head _)).symm
      refine List.pairwise_cons.mpr ⟨fun d hd => ?_, hsorted⟩
      rcases List.mem_cons.mp hd with rfl | hd
      · exact hgt
      · exact hgt.trans (hhead d hd)

/-- mirrors crates/command/src/tree.rs:320-332 (`CommandTree::insert`) -/
def insert (tree : CommandTree F) (command : Command F) : Except TreeError (CommandTree F) :=
  match hvalid : command.validate with
  | .error e => .error e
  | .ok () =>
    match hget : tree.get command.name.toList with
    | some _ => .error (.duplicateName command.name)
    | none => .ok
      { commands := tree.commands.takeWhile (fun c => c.name < command.name) ++
          command :: tree.commands.dropWhile fun c => c.name < command.name
        sorted := sorted_insert tree.sorted fun c hc heq => by
          have := List.find?_eq_none.mp hget c hc
          simp [heq] at this
        valid := by
          intro c hc
          rw [List.mem_append, List.mem_cons] at hc
          rcases hc with hc | rfl | hc
          · exact tree.valid c (List.takeWhile_subset _ hc)
          · exact hvalid
          · exact tree.valid c (List.dropWhile_sublist _ |>.subset hc) }

end CommandTree

end Apoptosis.L2.Commands

import Apoptosis.L2Command.Dispatch
import Apoptosis.L2Command.Execute
import Apoptosis.L2Command.Squeeze
/-!
# What `run` hands on (`server/src/{commands,execute,functions}.rs`)

A chain is dispatched from its tokens, and its command goes back to the
dispatcher as text. On the way the text is cut at white space and put together
again, at the top level, in a function line and in a nested chain alike. What
a modifier does to the source needs the world, so it is the parameter `apply`.

* `inner_eq`: the text that reaches the dispatcher, however it is dispatched.
* `handed_on_iff`: when it has the tokens of the command that was written.
-/
namespace Apoptosis.L2.Commands

open Apoptosis.Core
open Apoptosis.L2.Command (PermissionLevel CommandSource)

/-- mirrors crates/server/src/execute.rs:65 (`MAX_DEPTH`) -/
def MAX_DEPTH : Nat := 16

variable {F S : Type} [Float64 F] [SelectorParse S]

/-- What a modifier makes of the source. -/
inductive Applied (F : Type)
  | next (source : CommandSource F)
  | failed (which : String)

/-- mirrors crates/server/src/execute.rs:71-84 (`Resolution`) -/
inductive Resolution (F : Type)
  | run (source : CommandSource F) (command : List Char)
  | conditionFailed (which : String)

section
variable (tree : CommandTree F) (apply : Modifier F S → CommandSource F → Except String (Applied F))

/-- mirrors crates/server/src/execute.rs:180-284 (`resolve_chain`), each modifier through `apply` -/
def resolveChain (run : List Char) :
    List (Modifier F S) → CommandSource F → Except String (Resolution F)
  | [], source => .ok (.run source run)
  | modifier :: modifiers, source =>
    match apply modifier source with
    | .error e => .error e
    | .ok (.failed which) => .ok (.conditionFailed which)
    | .ok (.next source) => resolveChain run modifiers source

variable (source : CommandSource F)

/-- mirrors crates/server/src/execute.rs:92-177 (`dispatch_execute`), with the nesting there is
still room for: the texts that are handed to the dispatcher, in order. -/
def dispatchExecute : Nat → List (List Char) → List (List Char)
  | 0, _ => []
  | room + 1, tokens =>
    match (parse tokens : Except ExecuteError (ExecuteChain F S)) with
    | .error _ => []
    | .ok chain =>
      match resolveChain apply chain.run chain.modifiers source with
      | .error _ => []
      | .ok (.conditionFailed _) => []
      | .ok (.run inner command) =>
        command ::
          match tree.parse command (inner.withPermission source.permission) with
          | .parsed parsed =>
            if parsed.name = "execute" then dispatchExecute room (splitWhitespace parsed.rawArguments)
            else []
          | _ => []

/-- mirrors crates/server/src/commands.rs:531-545 and 709-719 (`dispatch_command`, and `run_command`
of `execute`): the texts that are handed to the dispatcher, in order. -/
def dispatchCommand (command : List Char) : List (List Char) :=
  command ::
    match tree.parse command source with
    | .parsed parsed =>
      if parsed.name = "execute" then
        dispatchExecute tree apply source MAX_DEPTH (splitWhitespace parsed.rawArguments)
      else []
    | _ => []

/-- mirrors crates/server/src/functions.rs:246-283 (`run_function_inner`, one line), where it does
not call a function -/
def dispatchLine (line : List Char) : List (List Char) :=
  match splitWhitespace line with
  | [] => []
  | root :: tokens =>
    if root = "function".toList then []
    else if root = "execute".toList then dispatchExecute tree apply source MAX_DEPTH tokens
    else dispatchCommand tree apply source line

end

/-! ## The ways a command is handed on -/

/-- mirrors crates/server/src/commands.rs:375-378 (`build_command_tree`, `execute`) -/
def executeCommand : Command F := ⟨"execute", [⟨"command", .greedyString, false⟩], .all⟩

/-- A chain that comes to its `run`: its words before that, and the modifiers they are. -/
structure Outer (apply : Modifier F S → CommandSource F → Except String (Applied F))
    (source : CommandSource F) where
  words : List (List Char)
  modifiers : List (Modifier F S)
  parses : ∀ rest, rest ≠ [] →
    (parse (words ++ "run".toList :: rest) : Except ExecuteError (ExecuteChain F S)) =
      .ok ⟨modifiers, joinSpaces rest⟩
  inner : CommandSource F
  resolves : ∀ run, resolveChain apply run modifiers source = .ok (.run inner run)

/-- From where `execute run` is dispatched: nested, there is room for it. -/
inductive Way (apply : Modifier F S → CommandSource F → Except String (Applied F))
    (source : CommandSource F)
  | topLevel
  | functionLine
  | nested (outer : Outer apply source) (room : Nat)

/-- `execute run` and a command. -/
def executeRun (command : List Char) : List Char := "execute run ".toList ++ command

section
variable (tree : CommandTree F) {apply : Modifier F S → CommandSource F → Except String (Applied F)}
  {source : CommandSource F}

/-- The text that the dispatcher parses for the command. -/
def inner (command : List Char) : Way apply source → Option (List Char)
  | .topLevel => (dispatchCommand tree apply source (executeRun command))[1]?
  | .functionLine => (dispatchLine tree apply source (executeRun command))[0]?
  | .nested outer room =>
    (dispatchExecute tree apply source (room + 2)
      (outer.words ++ "run".toList :: splitWhitespace (executeRun command)))[1]?

/-- The text with `execute run` before it is not too long for the tokenizer, where it meets it. -/
def Way.Fits (command : List Char) : Way apply source → Prop
  | .topLevel => (executeRun command).length ≤ MAX_COMMAND_CHARS
  | .functionLine => True
  | .nested _ _ => (executeRun (joinSpaces (splitWhitespace command))).length ≤ MAX_COMMAND_CHARS

end

/-! ## The texts on the way -/

theorem tokenize_eq_ok_iff {text : List Char} {tokens : List (List Char)} :
    tokenize text = .ok tokens ↔
      text.length ≤ MAX_COMMAND_CHARS ∧ scan false false false [] text = some tokens ∧ tokens ≠ [] := by
  rw [tokenize]
  split
  · exact iff_of_false (by simp) fun h => by omega
  next hlen =>
  cases hscan : scan false false false [] text with
  | none => simp
  | some found =>
    cases found with
    | nil =>
      refine iff_of_false (by simp) fun h => h.2.2 ?_
      simpa using h.2.1.symm
    | cons token found =>
      simp only [Except.ok.injEq, Option.some.injEq]
      constructor
      · rintro rfl
        exact ⟨by omega, rfl, by simp⟩
      · exact fun h => h.2.1

/-- A text with tokens has words. -/
theorem splitWhitespace_ne_nil {text : List Char} {tokens : List (List Char)}
    (h : tokenize text = .ok tokens) : splitWhitespace text ≠ [] := by
  obtain ⟨-, hscan, hne⟩ := tokenize_eq_ok_iff.mp h
  intro hnil
  obtain ⟨blank, rest, rfl, hblank, hwords⟩ := words_splitWhitespace text
  obtain ⟨rfl, -⟩ | hspaced := hwords
  · rw [scan_blank hblank] at hscan
    exact hne (by simpa [scan] using hscan.symm)
  · rw [hnil] at hspaced
    cases hspaced

theorem isWord_of_all {word : List Char} (hne : word ≠ []) (h : word.all (!isWhitespace ·) = true) : IsWord word :=
  ⟨hne, fun c hc => by simpa using List.all_eq_true.mp h c hc⟩

theorem isWord_execute : IsWord "execute".toList := isWord_of_all (by decide) (by decide)

theorem isWord_run : IsWord "run".toList := isWord_of_all (by decide) (by decide)

theorem splitWhitespace_run (command : List Char) :
    splitWhitespace ("run ".toList ++ command) = "run".toList :: splitWhitespace command :=
  splitWords_append isWord_run isWhitespace_space command

theorem splitWhitespace_executeRun (command : List Char) :
    splitWhitespace (executeRun command) =
      "execute".toList :: "run".toList :: splitWhitespace command := by
  have h := splitWords_append isWord_execute isWhitespace_space ("run ".toList ++ command)
  exact h.trans (congrArg _ (splitWhitespace_run command))

theorem joinSpaces_executeRun {words : List (List Char)} (h : words ≠ []) :
    joinSpaces ("execute".toList :: "run".toList :: words) = executeRun (joinSpaces words) := by
  obtain ⟨word, words, rfl⟩ := List.exists_cons_of_ne_nil h
  rfl

theorem scan_executeRun (command : List Char) :
    scan false false false [] (executeRun command) =
      (scan false false false [] command).map (["execute".toList, "run".toList] ++ ·) := by
  change ((scan false false false [] command).map ("run".toList :: ·)).map
    ("execute".toList :: ·) = _
  rw [Option.map_map]
  rfl

theorem splitRoot_executeRun (command : List Char) :
    (splitRoot (executeRun command)).2 = "run ".toList ++ command := by
  rfl

section
variable {tree : CommandTree F} {apply : Modifier F S → CommandSource F → Except String (Applied F)}
  {source : CommandSource F} {command : List Char} {tokens : List (List Char)}

/-- The text of a chain that begins with `run`: the chain is found, and its text is kept. -/
theorem parse_executeRun (hexecute : tree.get "execute".toList = some executeCommand)
    (hscan : scan false false false [] command = some tokens) (source : CommandSource F) :
    if (executeRun command).length ≤ MAX_COMMAND_CHARS then
      ∃ parsed, tree.parse (executeRun command) source = .parsed parsed ∧ parsed.name = "execute" ∧
        parsed.rawArguments = "run ".toList ++ command
    else ∃ e, tree.parse (executeRun command) source = .badArguments e := by
  split
  · next hlen =>
    have htokens : tokenize (executeRun command) =
        .ok ("execute".toList :: "run".toList :: tokens) :=
      tokenize_eq_ok_iff.mpr ⟨hlen, by rw [scan_executeRun, hscan]; rfl, by simp⟩
    rw [CommandTree.parse, htokens]
    dsimp only
    rw [hexecute]
    have huse : source.mayUse (executeCommand : Command F).permission = true := by
      simp [executeCommand, CommandSource.mayUse, PermissionLevel.level]
    have hcount : (executeCommand : Command F).acceptsTokenCount ("run".toList :: tokens).length = true := by
      simp [Command.acceptsTokenCount, Command.tokenBounds, executeCommand, Command.requiredCount,
        Command.tokenBoundsFrom, ArgumentKind.isGreedy, Command.tokensFor, ArgumentKind.isBlockPos]
    have hne : joinSpaces ("run".toList :: tokens) ≠ [] := by
      cases tokens <;> simp [joinSpaces]
    have hvalues : parseArguments (executeCommand : Command F).arguments ("run".toList :: tokens) =
        .ok [.string (joinSpaces ("run".toList :: tokens))] := by
      simp only [executeCommand, parseArguments, ArgumentKind.isGreedy, if_true, parseValue, if_neg hne]
      rfl
    refine ⟨⟨"execute", [.string (joinSpaces ("run".toList :: tokens))], source,
      (splitRoot (executeRun command)).2⟩, ?_, rfl, splitRoot_executeRun command⟩
    change finish executeCommand ("run".toList :: tokens) ("run".toList :: tokens).length source
      (executeRun command) = _
    rw [finish, huse, hcount, hvalues]
    rfl
  · next hlen =>
    refine ⟨.tooLong (executeRun command).length MAX_COMMAND_CHARS, ?_⟩
    rw [CommandTree.parse, tokenize, if_pos (by omega)]

/-- A chain that is only `run`: its words go to the dispatcher, put together. -/
theorem dispatchExecute_run {words : List (List Char)} (h : words ≠ []) (room : Nat) :
    (dispatchExecute tree apply source (room + 1) ("run".toList :: words))[0]? =
      some (joinSpaces words) := by
  rw [dispatchExecute, parse_run h]
  rfl

/-- The text that reaches the dispatcher is the command with its white space squeezed, unless the
text with `execute run` before it is too long. -/
theorem inner_eq (hexecute : tree.get "execute".toList = some executeCommand)
    (htokens : tokenize command = .ok tokens) (way : Way apply source) :
    (way.Fits command → inner tree command way = some (joinSpaces (splitWhitespace command))) ∧
      (¬way.Fits command → inner tree command way = none) := by
  obtain ⟨-, hscan, -⟩ := tokenize_eq_ok_iff.mp htokens
  have hwords := splitWhitespace_ne_nil htokens
  have hrun (command : List Char) (hwords : splitWhitespace command ≠ []) (room : Nat) :
      (dispatchExecute tree apply source (room + 1) (splitWhitespace ("run ".toList ++ command)))[0]? =
        some (joinSpaces (splitWhitespace command)) := by
    rw [splitWhitespace_run]
    exact dispatchExecute_run hwords room
  cases way with
  | topLevel =>
    have hparse := parse_executeRun hexecute hscan source
    simp only [Way.Fits, inner, dispatchCommand, List.getElem?_cons_succ]
    split at hparse
    · next hlen =>
      obtain ⟨parsed, hparsed, hname, hraw⟩ := hparse
      rw [hparsed]
      dsimp only
      rw [if_pos hname, hraw]
      exact ⟨fun _ => hrun command hwords 15, fun h => absurd hlen h⟩
    · next hlen =>
      obtain ⟨e, he⟩ := hparse
      rw [he]
      exact ⟨fun h => absurd h hlen, fun _ => rfl⟩
  | functionLine =>
    refine ⟨fun _ => ?_, fun h => absurd trivial h⟩
    simp only [inner, dispatchLine, splitWhitespace_executeRun]
    rw [if_neg (by decide)]
    exact dispatchExecute_run hwords 15
  | nested outer room =>
    have hsqueezed : ∃ tokens', scan false false false []
        (joinSpaces (splitWhitespace command)) = some tokens' := by
      obtain ⟨blank, rest, hcommand, hblank, hwords'⟩ := words_splitWhitespace command
      obtain ⟨-, hnil⟩ | hspaced := hwords'
      · exact absurd hnil hwords
      · rw [hcommand, scan_blank hblank] at hscan
        obtain ⟨tokens', htokens', -⟩ := scan_joinSpaces hspaced false false false [] [] tokens hscan
        exact ⟨tokens', htokens'⟩
    obtain ⟨tokens', htokens'⟩ := hsqueezed
    have hparse := parse_executeRun hexecute htokens' (outer.inner.withPermission source.permission)
    have hcommand : joinSpaces (splitWhitespace (executeRun command)) =
        executeRun (joinSpaces (splitWhitespace command)) := by
      rw [splitWhitespace_executeRun, joinSpaces_executeRun hwords]
    have hne : splitWhitespace (executeRun command) ≠ [] := by simp [splitWhitespace_executeRun]
    have hagain : splitWhitespace (joinSpaces (splitWhitespace command)) = splitWhitespace command :=
      splitWhitespace_joinSpaces fun _ h => isWord_splitWhitespace h
    simp only [Way.Fits, inner, dispatchExecute, outer.parses _ hne, outer.resolves, hcommand,
      List.getElem?_cons_succ]
    split at hparse
    · next hlen =>
      obtain ⟨parsed, hparsed, hname, hraw⟩ := hparse
      rw [hparsed]
      dsimp only
      rw [if_pos hname, hraw]
      refine ⟨fun _ => ?_, fun h => absurd hlen h⟩
      have h := hrun (joinSpaces (splitWhitespace command)) (by rwa [hagain]) room
      rw [hagain] at h
      exact h
    · next hlen =>
      obtain ⟨e, he⟩ := hparse
      rw [he]
      exact ⟨fun h => absurd h hlen, fun _ => rfl⟩

/-- What is parsed, without the raw text. -/
def CommandOutcome.content : CommandOutcome F → CommandOutcome F
  | .parsed command => .parsed { command with rawArguments := [] }
  | outcome => outcome

/-- The same tokens are parsed to the same command and the same values. -/
theorem parse_content {a b : List Char} (h : tokenize a = tokenize b) (source : CommandSource F) :
    (tree.parse a source).content = (tree.parse b source).content := by
  have hfinish (command : Command F) (rest : List (List Char)) (supplied : Nat) :
      (finish command rest supplied source a).content =
        (finish command rest supplied source b).content := by
    simp only [finish]
    split
    · rfl
    split
    · rfl
    split <;> rfl
  simp only [CommandTree.parse, h]
  split
  · rfl
  · rfl
  · split
    · exact hfinish ..
    · split
      · exact hfinish ..
      · rfl

/-- The command that was written is parsed: its tokens, and so its name and its values. -/
def HandedOn (tree : CommandTree F) (command : List Char) (way : Way apply source) : Prop :=
  ∃ text, inner tree command way = some text ∧ tokenize text = tokenize command ∧
    ∀ source, (tree.parse text source).content = (tree.parse command source).content

/-- A command is handed on with its tokens exactly where its white space has nothing to squeeze
inside quotes and after a backslash, and where the longer text still fits. -/
theorem handed_on_iff (hexecute : tree.get "execute".toList = some executeCommand)
    (htokens : tokenize command = .ok tokens) (way : Way apply source) :
    HandedOn tree command way ↔ kept false false command = true ∧ way.Fits command := by
  obtain ⟨hlen, hscan, hne⟩ := tokenize_eq_ok_iff.mp htokens
  obtain ⟨hfits, hlong⟩ := inner_eq hexecute htokens way
  have hsame : tokenize (joinSpaces (splitWhitespace command)) = tokenize command ↔
      kept false false command = true := by
    have hle := length_joinSpaces_splitWhitespace_le command
    rw [← tokens_kept_iff hscan, htokens, tokenize_eq_ok_iff]
    exact ⟨fun h => h.2.1, fun h => ⟨by omega, h, hne⟩⟩
  by_cases hfit : way.Fits command
  · rw [HandedOn, hfits hfit, and_iff_left hfit, ← hsame]
    constructor
    · rintro ⟨text, htext, heq, -⟩
      rwa [Option.some.inj htext]
    · intro heq
      exact ⟨_, rfl, heq, parse_content heq⟩
  · rw [HandedOn, hlong hfit]
    exact iff_of_false (by simp) fun h => hfit h.2

end

/-! ## A message with two spaces -/

instance : SelectorParse Unit := ⟨fun _ => .error "no selectors"⟩

/-- mirrors crates/server/src/commands.rs:292 (`build_command_tree`, `say`) -/
def sayCommand : Command Unit := ⟨"say", [⟨"message", .greedyString, false⟩], .all⟩

/-- The commands of the example. -/
def sayTree : CommandTree Unit where
  commands := [executeCommand, sayCommand]
  sorted := by decide
  valid := by
    intro command h
    rcases List.mem_cons.mp h with rfl | h
    · rfl
    · rw [List.mem_singleton.mp h]
      rfl

/-- Every modifier leaves the source as it is. -/
def leave : Modifier Unit Unit → CommandSource Unit → Except String (Applied Unit) :=
  fun _ source => .ok (.next source)

theorem say_handed_on :
    HandedOn sayTree "say hello".toList (.topLevel : Way leave console) ↔
      kept false false "say hello".toList = true ∧
        (.topLevel : Way leave console).Fits "say hello".toList :=
  @handed_on_iff _ _ _ _ _ _ _ _ ["say".toList, "hello".toList] (by rfl) (by decide +kernel) .topLevel

/-- `say "a  b"` is dispatched with one space of the two. -/
theorem two_spaces_lost :
    tokenize "say \"a  b\"".toList = .ok ["say".toList, "a  b".toList] ∧
      ¬HandedOn sayTree "say \"a  b\"".toList (.topLevel : Way leave console) := by
  have htokens : tokenize "say \"a  b\"".toList = .ok ["say".toList, "a  b".toList] := by
    decide +kernel
  refine ⟨htokens, fun ⟨text, htext, heq, _⟩ => ?_⟩
  have hinner := (@inner_eq _ _ _ _ sayTree _ _ _ _ (by rfl) htokens (.topLevel : Way leave console)).1
    (by unfold Way.Fits; decide +kernel)
  obtain rfl := Option.some.inj (htext.symm.trans hinner)
  rw [htokens] at heq
  exact absurd heq (by decide +kernel)

end Apoptosis.L2.Commands

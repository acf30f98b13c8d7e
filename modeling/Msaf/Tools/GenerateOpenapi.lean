import Mathlib.Data.List.Basic

/-!
# The options of the OpenAPI bindings generator

The script that generates the AF's OpenAPI bindings reads its command line in three stages.
`getopt -o 'a:b:hM:' -l 'api:,branch:,help,model-deps:' -s sh` parses it and prints it back
normalised: each option by its name, each argument in single quotes (a quote inside written as
quote, backslash, quote, quote), then `--` and the arguments that are not options.
`eval set -- "$ARGS"` makes that text the positional parameters again, and a `while`/`case` loop
consumes them, two at a time for an option with an argument, up to `--`; a parameter left over
after it is an error.

**The law** (`scriptArgs_meaning`). For every command line the script ends as its options mean:
exit 1 when getopt rejects them; the help text when `-h` or `--help` was given; otherwise an error
naming the first argument that is not an option; otherwise `APIS`, `BRANCH` and `MODEL_DEPS`
hold the last value given to `-a`/`--api`, `-b`/`--branch` and `-M`/`--model-deps`, or their
defaults. It rests on the round trip of getopt's quoting through the shell's word splitting
(`shWords_getoptOutput`): every argument comes back as it was, whatever it holds (quotes, blanks,
newlines, a leading `-`), so no option's value is ever read as an option.

**What it does not establish.** getopt is not in the sources; it is modelled from GNU
`getopt_long`'s scan (permuting, unique prefixes of long names), by its exit status and output,
not its messages. The shell's parse is modelled on what getopt prints (bare words of letters,
digits and `-`, single quotes, backslash escapes) and answers `none` elsewhere. What the script
then does with the settings is not modelled. When getopt fails, the script calls `print_syntax`
before the shell has read its definition, so the shell reports that command as not found instead
of printing the syntax line; the exit status is 1 all the same.
-/

namespace Msaf.Tools

/-! ## The options and the settings -/

/-- The release branch of the 5G APIs used by default: `default_branch`. -/
def defaultBranch : String := "REL-17"

/-- The APIs bound by default: `default_apis`. -/
def defaultApis : String :=
  "TS26512_M1_ProvisioningSessions TS26512_M1_ContentHostingProvisioning " ++
  "TS26512_M1_ServerCertificatesProvisioning TS26512_M1_ContentProtocolsDiscovery " ++
  "TS26512_M1_ConsumptionReportingProvisioning TS26512_M1_PolicyTemplatesProvisioning " ++
  "TS26512_M1_MetricsReportingProvisioning M3_ContentHostingProvisioning " ++
  "M3_ServerCertificatesProvisioning TS26512_M5_ServiceAccessInformation " ++
  "TS26512_M5_ConsumptionReporting TS26512_M5_NetworkAssistance TS26512_M5_DynamicPolicies " ++
  "Maf_Management TS26512_M5_MetricsReporting"

/-- The variables the options set: `APIS`, `BRANCH` and `MODEL_DEPS`. -/
structure Settings where
  apis : String
  branch : String
  modelDeps : String
  deriving DecidableEq, Repr

/-- Their values before the loop: `APIS="$default_apis"`, `BRANCH="$default_branch"`,
`MODEL_DEPS=""`. -/
def Settings.defaults : Settings := ⟨defaultApis, defaultBranch, ""⟩

/-- The options the script declares to getopt. -/
inductive ScriptOption
  | api
  | branch
  | help
  | modelDeps
  deriving DecidableEq, Repr

def ScriptOption.all : List ScriptOption := [.api, .branch, .help, .modelDeps]

/-- Each option's letter in `a:b:hM:`. -/
def ScriptOption.short : ScriptOption → Char
  | .api => 'a'
  | .branch => 'b'
  | .help => 'h'
  | .modelDeps => 'M'

/-- Each option's name in `api:,branch:,help,model-deps:`. -/
def ScriptOption.long : ScriptOption → String
  | .api => "api"
  | .branch => "branch"
  | .help => "help"
  | .modelDeps => "model-deps"

/-- An option getopt found: whether it was given by its long name, and its argument where it
takes one. -/
inductive OptionUse
  | api (long : Bool) (value : String)
  | branch (long : Bool) (value : String)
  | help (long : Bool)
  | modelDeps (long : Bool) (value : String)
  deriving DecidableEq, Repr

/-- The option found as getopt builds it: `help` takes no argument, the others one. -/
def ScriptOption.use (o : ScriptOption) (long : Bool) : OptionUse ⊕ (String → OptionUse) :=
  match o with
  | .api => .inr (.api long)
  | .branch => .inr (.branch long)
  | .help => .inl (.help long)
  | .modelDeps => .inr (.modelDeps long)

/-- The name getopt prints for an option: `-` and its letter, or `--` and its long name, as it
was given. -/
def OptionUse.name : OptionUse → String
  | .api long _ => if long then "--api" else "-a"
  | .branch long _ => if long then "--branch" else "-b"
  | .help long => if long then "--help" else "-h"
  | .modelDeps long _ => if long then "--model-deps" else "-M"

def OptionUse.value : OptionUse → Option String
  | .api _ v | .branch _ v | .modelDeps _ v => some v
  | .help _ => none

def OptionUse.isHelp : OptionUse → Bool
  | .help _ => true
  | _ => false

/-- What an option sets. -/
def OptionUse.apply (s : Settings) : OptionUse → Settings
  | .api _ v => { s with apis := v }
  | .branch _ v => { s with branch := v }
  | .help _ => s
  | .modelDeps _ v => { s with modelDeps := v }

/-! ## getopt -/

def ScriptOption.ofShort (c : Char) : Option ScriptOption := ScriptOption.all.find? (·.short = c)

/-- The option a long name names: the one of that name, or else the only one whose name begins
with it. -/
def ScriptOption.ofLong (name : String) : Option ScriptOption :=
  match ScriptOption.all.find? (·.long = name) with
  | some o => some o
  | none =>
    match ScriptOption.all.filter (fun o => o.long.data.take name.length = name.data) with
    | [o] => some o
    | _ => none

/-- A cluster of short options after its `-`, with the argument that follows the cluster, if
any: the options in order, and whether the last one took that argument. An option with an
argument takes the rest of the cluster, or the next argument when the cluster ends with it.
`none` on an unknown letter or a missing argument. -/
def getoptShort (next : Option String) : List Char → Option (List OptionUse × Bool)
  | [] => some ([], false)
  | c :: cs =>
    (ScriptOption.ofShort c).bind fun o =>
      match o.use false with
      | .inl u => (getoptShort next cs).map fun r => (u :: r.1, r.2)
      | .inr mk =>
        if cs = [] then next.map fun v => ([mk v], true)
        else some ([mk (String.mk cs)], false)

/-- A long option after its `--`, with the argument that follows it, if any: the option, and
whether it took that argument. The name ends at the first `=`, and what follows is the argument.
`none` on an unknown or ambiguous name, an argument to `--help`, or a missing argument. -/
def getoptLong (next : Option String) (body : List Char) : Option (OptionUse × Bool) :=
  (ScriptOption.ofLong (String.mk (body.takeWhile (· ≠ '=')))).bind fun o =>
    match o.use true, body.dropWhile (· ≠ '=') with
    | .inl u, [] => some (u, false)
    | .inl _, _ :: _ => none
    | .inr mk, [] => next.map fun v => (mk v, true)
    | .inr mk, _ :: v => some (mk (String.mk v), false)

/-- What one argument is to getopt, given the argument after it. -/
inductive ArgScan
  /-- The end of the options, `--`. -/
  | endOfOptions
  /-- Options, and whether the last one took the next argument. -/
  | options (uses : List OptionUse) (taken : Bool)
  /-- An argument that is not an option: `-`, or a word that does not start with `-`. -/
  | operand
  deriving DecidableEq, Repr

def getoptArg (arg : String) (next : Option String) : Option ArgScan :=
  match arg.data with
  | ['-', '-'] => some .endOfOptions
  | '-' :: '-' :: body => (getoptLong next body).map fun r => .options [r.1] r.2
  | '-' :: c :: cs => (getoptShort next (c :: cs)).map fun r => .options r.1 r.2
  | _ => some .operand

/-- What `getopt -o 'a:b:hM:' -l 'api:,branch:,help,model-deps:'` makes of the script's
arguments, scanning as GNU `getopt_long` does when it permutes: the options in order and the
other arguments in order, or `none` when getopt reports an error (and exits with status 1). -/
def getoptParse : List String → Option (List OptionUse × List String)
  | [] => some ([], [])
  | arg :: rest =>
    match getoptArg arg rest.head?, rest with
    | none, _ => none
    | some .endOfOptions, rest => some ([], rest)
    | some .operand, rest => (getoptParse rest).map fun p => (p.1, arg :: p.2)
    | some (.options uses true), _ :: rest => (getoptParse rest).map fun p => (uses ++ p.1, p.2)
    | some (.options uses _), rest => (getoptParse rest).map fun p => (uses ++ p.1, p.2)

/-! ## getopt's output and the shell's reading of it -/

/-- The single quote. -/
def squote : Char := Char.ofNat 39

/-- The backslash. -/
def backslash : Char := Char.ofNat 92

/-- A character inside getopt's `sh` quoting: a quote closes the quotes, is written escaped, and
opens them again. -/
def shEscape (c : Char) : List Char :=
  if c = squote then [squote, backslash, squote, squote] else [c]

/-- An argument as getopt prints it for `sh`: in single quotes. -/
def shQuote (s : List Char) : List Char := squote :: s.flatMap shEscape ++ [squote]

/-- A word of getopt's output: an option's name or `--`, printed bare, or an argument, printed
quoted. -/
inductive OutWord
  | bare (s : String)
  | quoted (s : String)
  deriving DecidableEq, Repr

def OutWord.chars : OutWord → List Char
  | .bare s => s.data
  | .quoted s => shQuote s.data

def OutWord.text : OutWord → String
  | .bare s | .quoted s => s

/-- The words getopt prints: each option's name and its argument, `--`, then the arguments that
are not options. -/
def getoptWords (uses : List OptionUse) (rest : List String) : List OutWord :=
  uses.flatMap (fun u => .bare u.name :: u.value.toList.map .quoted) ++
    .bare "--" :: rest.map .quoted

/-- What getopt prints on success, as the command substitution `ARGS=...` keeps it (without the
final newline): each word after a blank. -/
def getoptOutput (uses : List OptionUse) (rest : List String) : List Char :=
  (getoptWords uses rest).flatMap fun w => ' ' :: w.chars

/-- The characters a bare word of getopt's output is made of. -/
def shPlain (c : Char) : Bool := c.isAlphanum || c == '-'

/-- Where the shell is in its reading: outside quotes, inside single quotes, or just after a
backslash outside quotes. -/
inductive LexMode
  | plain
  | quoted
  | escaped
  deriving DecidableEq, Repr

/-- The shell's reading of the text `eval` runs after `set --`, from the word being read (`cur`,
`none` between words): the words. Blanks end a word; quoted text is taken as it is; a backslash
outside quotes takes the next character as it is, and a backslash and a newline vanish. `none`
for what is outside the model: an unclosed quote, a final backslash, or a character outside
quotes that is neither a blank nor plain. -/
def shLex : List Char → LexMode → Option (List Char) → Option (List String)
  | [], .plain, cur => some (cur.toList.map String.mk)
  | [], .quoted, _ | [], .escaped, _ => none
  | c :: cs, .quoted, cur =>
    if c = squote then shLex cs .plain (some (cur.getD []))
    else shLex cs .quoted (some (cur.getD [] ++ [c]))
  | c :: cs, .escaped, cur =>
    if c = '\n' then shLex cs .plain cur else shLex cs .plain (some (cur.getD [] ++ [c]))
  | c :: cs, .plain, cur =>
    if c = ' ' ∨ c = '\t' then (shLex cs .plain none).map (cur.toList.map String.mk ++ ·)
    else if c = squote then shLex cs .quoted (some (cur.getD []))
    else if c = backslash then shLex cs .escaped cur
    else if shPlain c then shLex cs .plain (some (cur.getD [] ++ [c]))
    else none

/-- The positional parameters `eval set -- "$ARGS"` sets. -/
def shWords (text : List Char) : Option (List String) := shLex text .plain none

/-! ## The script -/

/-- How the script's handling of its command line ends. -/
inductive Outcome
  /-- getopt failed: exit 1. -/
  | getoptFailed
  /-- Help asked for with `-h` or `--help`: `print_help`, exit 0. -/
  | help
  /-- An argument the loop does not expect: `Error: Command line argument "arg" unexpected`,
  exit 1. -/
  | unexpected (arg : String)
  /-- An option with no argument left: `shift 2` with one parameter, which stops the shell. -/
  | shiftFailed
  /-- The generator runs with these settings. -/
  | generate (settings : Settings)
  deriving DecidableEq, Repr

/-- The `while true; do case "$1" in ... esac; done` loop over the positional parameters, then
the check `if [ $# -gt 0 ]` on what is left after `--`. -/
def optionLoop : List String → Settings → Outcome
  | [], _ => .unexpected ""
  | a :: rest, s =>
    if a = "-a" ∨ a = "--api" then
      match rest with
      | v :: rest' => optionLoop rest' { s with apis := v }
      | [] => .shiftFailed
    else if a = "-b" ∨ a = "--branch" then
      match rest with
      | v :: rest' => optionLoop rest' { s with branch := v }
      | [] => .shiftFailed
    else if a = "-h" ∨ a = "--help" then .help
    else if a = "-M" ∨ a = "--model-deps" then
      match rest with
      | v :: rest' => optionLoop rest' { s with modelDeps := v }
      | [] => .shiftFailed
    else if a = "--" then
      match rest with
      | [] => .generate s
      | x :: _ => .unexpected x
    else .unexpected a

/-- The script's handling of its command line: getopt, `eval set --` of its output, the loop. `none`
when the shell would read something the model does not cover. -/
def scriptArgs (argv : List String) : Option Outcome :=
  match getoptParse argv with
  | none => some .getoptFailed
  | some (uses, rest) => (shWords (getoptOutput uses rest)).map (optionLoop · Settings.defaults)

/-- What a parsed command line means: help if it asks for it; otherwise an error on the first
argument that is not an option; otherwise the settings with the last value of each option. -/
def optionsMeaning (uses : List OptionUse) (rest : List String) : Outcome :=
  if uses.any OptionUse.isHelp then .help
  else
    match rest with
    | x :: _ => .unexpected x
    | [] => .generate (uses.foldl OptionUse.apply Settings.defaults)

/-! ## The round trip of the quoting -/

/-- Inside quotes, the escaped characters are read back as they were, up to the closing quote. -/
theorem shLex_escaped (rest : List Char) :
    ∀ (s acc : List Char), shLex (s.flatMap shEscape ++ squote :: rest) .quoted (some acc) =
      shLex rest .plain (some (acc ++ s))
  | [], acc => by simp [shLex]
  | c :: s, acc => by
    by_cases hc : c = squote
    · subst hc
      have hb : backslash ≠ ' ' ∧ backslash ≠ '\t' ∧ backslash ≠ squote ∧ squote ≠ '\n' ∧
          squote ≠ ' ' ∧ squote ≠ '\t' := by decide
      rw [List.flatMap_cons, shEscape, if_pos rfl]
      simp only [List.cons_append, List.nil_append, shLex, hb, if_true, if_false, false_or,
        Option.getD_some, List.append_eq, shLex_escaped rest s]
      simp
    · simp only [List.flatMap_cons, shEscape, hc, if_false, List.cons_append, List.nil_append,
        shLex, Option.getD_some, shLex_escaped rest s]
      simp

/-- A quoted word is read back as it was. -/
theorem shLex_quote (s rest : List Char) (cur : Option (List Char)) :
    shLex (shQuote s ++ rest) .plain cur = shLex rest .plain (some (cur.getD [] ++ s)) := by
  have hq : squote ≠ ' ' ∧ squote ≠ '\t' := by decide
  simp [shQuote, shLex, hq, shLex_escaped]

theorem shPlain_ne {c : Char} (h : shPlain c = true) :
    c ≠ ' ' ∧ c ≠ '\t' ∧ c ≠ squote ∧ c ≠ backslash := by
  refine ⟨?_, ?_, ?_, ?_⟩ <;> rintro rfl <;> revert h <;> decide

/-- A plain character, read outside quotes, joins the word being read. -/
theorem shLex_plain_cons {c : Char} (h : shPlain c = true) (cs : List Char)
    (cur : Option (List Char)) :
    shLex (c :: cs) .plain cur = shLex cs .plain (some (cur.getD [] ++ [c])) := by
  obtain ⟨h₁, h₂, h₃, h₄⟩ := shPlain_ne h
  simp [shLex, h₁, h₂, h₃, h₄, h]

/-- A run of plain characters is read as it is. -/
theorem shLex_plain (rest : List Char) :
    ∀ (s acc : List Char), s.all shPlain = true →
      shLex (s ++ rest) .plain (some acc) = shLex rest .plain (some (acc ++ s))
  | [], acc, _ => by simp
  | c :: s, acc, h => by
    rw [List.all_cons, Bool.and_eq_true] at h
    rw [List.cons_append, shLex_plain_cons h.1, Option.getD_some, shLex_plain rest s _ h.2]
    simp

/-- Whether the shell reads a word of getopt's output as it is: a word printed bare is a
non-empty run of plain characters. -/
def OutWord.readable : OutWord → Bool
  | .bare s => !s.data.isEmpty && s.data.all shPlain
  | .quoted _ => true

/-- A word of getopt's output, read from between words, leaves its text as the word being read. -/
theorem OutWord.shLex_chars {w : OutWord} (hw : w.readable = true) (rest : List Char) :
    shLex (w.chars ++ rest) .plain none = shLex rest .plain (some w.text.data) := by
  cases w with
  | quoted s => simpa using shLex_quote s.data rest none
  | bare s =>
    obtain ⟨data⟩ := s
    cases data with
    | nil => simp [OutWord.readable] at hw
    | cons c cs =>
      simp only [OutWord.readable, List.all_cons, Bool.and_eq_true] at hw
      rw [OutWord.chars, OutWord.text, List.cons_append, shLex_plain_cons hw.2.1,
        Option.getD_none, shLex_plain rest cs _ hw.2.2]
      rfl

/-- A blank outside quotes ends the word being read. -/
theorem shLex_blank (cs : List Char) (cur : Option (List Char)) :
    shLex (' ' :: cs) .plain cur = (shLex cs .plain none).map (cur.toList.map String.mk ++ ·) := by
  simp [shLex]

/-- Words printed each after a blank are read back as they were. -/
theorem shLex_words : ∀ (ws : List OutWord) (cur : Option (List Char)),
    ws.all OutWord.readable = true →
    shLex (ws.flatMap fun w => ' ' :: w.chars) .plain cur =
      some (cur.toList.map String.mk ++ ws.map OutWord.text)
  | [], cur, _ => by simp [shLex]
  | w :: ws, cur, h => by
    rw [List.all_cons, Bool.and_eq_true] at h
    rw [List.flatMap_cons, List.cons_append, shLex_blank, OutWord.shLex_chars h.1,
      shLex_words ws _ h.2]
    simp

theorem OptionUse.name_readable (u : OptionUse) : (OutWord.bare u.name).readable = true := by
  cases u <;> simp only [OptionUse.name] <;> split <;> decide

theorem getoptWords_readable (uses : List OptionUse) (rest : List String) :
    (getoptWords uses rest).all OutWord.readable = true := by
  rw [List.all_eq_true]
  intro w hw
  simp only [getoptWords, List.mem_append, List.mem_flatMap, List.mem_cons, List.mem_map,
    Option.mem_toList] at hw
  rcases hw with ⟨u, -, rfl | ⟨v, -, rfl⟩⟩ | rfl | ⟨a, -, rfl⟩
  exacts [u.name_readable, rfl, by decide, rfl]

/-- getopt's `sh` output, read back by `eval set --`, is the options' names and arguments, `--`,
and the other arguments, each exactly as it was. -/
theorem shWords_getoptOutput (uses : List OptionUse) (rest : List String) :
    shWords (getoptOutput uses rest) =
      some (uses.flatMap (fun u => u.name :: u.value.toList) ++ "--" :: rest) := by
  rw [shWords, getoptOutput, shLex_words _ none (getoptWords_readable uses rest)]
  simp [getoptWords, OutWord.text, List.map_flatMap, Function.comp_def]

/-! ## The loop -/

/-- One pass of the loop over an option getopt printed: `--help` ends it, any other option sets
its variable and shifts past its argument. -/
theorem optionLoop_use (u : OptionUse) (rest : List String) (s : Settings) :
    optionLoop (u.name :: (u.value.toList ++ rest)) s =
      if u.isHelp then .help else optionLoop rest (u.apply s) := by
  rw [optionLoop.eq_def]
  cases u with
  | help long => cases long <;> simp [OptionUse.name, OptionUse.isHelp]
  | api long v | branch long v | modelDeps long v =>
    cases long <;> simp [OptionUse.name, OptionUse.value, OptionUse.isHelp, OptionUse.apply]

/-- The loop over what `eval set --` gives back takes each option with its argument, stops at the
first help, and after `--` accepts no argument. -/
theorem optionLoop_words (rest : List String) :
    ∀ (uses : List OptionUse) (s : Settings),
      optionLoop (uses.flatMap (fun u => u.name :: u.value.toList) ++ "--" :: rest) s =
        if uses.any OptionUse.isHelp then .help
        else
          match rest with
          | x :: _ => .unexpected x
          | [] => .generate (uses.foldl OptionUse.apply s)
  | [], s => by cases rest <;> simp [optionLoop]
  | u :: uses, s => by
    rw [List.flatMap_cons, List.append_assoc, List.cons_append, optionLoop_use, List.any_cons,
      List.foldl_cons]
    cases u.isHelp
    · simp only [Bool.false_eq_true, if_false, Bool.false_or, optionLoop_words rest uses]
    · rfl

/-- For every command line the script ends as its options mean: exit 1 when getopt rejects
them; help when `-h` or `--help` was given; otherwise an error naming the first argument that is
not an option; otherwise the generator runs with the last value given to each option, or its
default. Every value is taken as it was given, whatever characters it holds. -/
theorem scriptArgs_meaning (argv : List String) :
    scriptArgs argv = some (match getoptParse argv with
      | none => .getoptFailed
      | some (uses, rest) => optionsMeaning uses rest) := by
  unfold scriptArgs
  split
  · rfl
  · rw [shWords_getoptOutput, Option.map_some', optionLoop_words]
    rfl

/- A value that looks like an option stays a value, a long name may be shortened, and a value
may follow `=` or hold blanks. -/
example : scriptArgs ["-a", "-h", "--branch=REL-18", "--model", "x y"] =
    some (.generate ⟨"-h", "REL-18", "x y"⟩) := by decide

end Msaf.Tools

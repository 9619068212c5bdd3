import Formulary.Number.Conversion

/-!
# Command-line arguments

An argument that starts with two hyphens is an option; it is a flag, or takes the next argument or
the text behind an equals sign as its value. Options and other arguments may be mixed. Two hyphens
alone end the options, and a hyphen alone is no option. The arguments of a command are turned into
a request; there is none if they do not fit the command.

## Main results

* `split_end`: after two hyphens, everything is a plain argument.
-/

namespace Formulary.CommandLine

/-! ### Options -/

/-- The **options** of a command: its flags, and the options that take a value. -/
structure Options where
  flags : List String
  valued : List String

/-- An **argument** after the options were recognised. -/
inductive Argument where
  | plain (text : String)
  | flag (name : String)
  | value (name text : String)
  deriving DecidableEq, Repr

/-- Splits a text at its first equals sign. -/
def splitEquals (s : String) : Option (String × String) :=
  let cs := s.toList
  match cs.dropWhile (· != '=') with
  | [] => none
  | _ :: rest => some (String.ofList (cs.takeWhile (· != '=')), String.ofList rest)

/-- Whether an argument looks like an option. -/
def looksLikeOption (s : String) : Bool :=
  s.toList.head? == some '-' && s.toList.length > 1

/-- Recognises the options among the arguments. There is no result for an unknown option, for a
flag with a value, and for an option whose value is missing. -/
def Options.split (options : Options) : List String → Option (List Argument)
  | [] => some []
  | arg :: rest =>
    if arg = "--" then some (rest.map .plain)
    else if !looksLikeOption arg then (options.split rest).map (.plain arg :: ·)
    else
      match splitEquals arg with
      | some (name, value) =>
        if options.valued.contains name then (options.split rest).map (.value name value :: ·)
        else none
      | none =>
        if options.flags.contains arg then (options.split rest).map (.flag arg :: ·)
        else if options.valued.contains arg then
          match rest with
          | value :: rest => (options.split rest).map (.value arg value :: ·)
          | [] => none
        else none

/-- After two hyphens, everything is a plain argument. -/
theorem Options.split_end (options : Options) (rest : List String) :
    options.split ("--" :: rest) = some (rest.map .plain) := by
  unfold Options.split
  simp

/-- The plain arguments. -/
def plains (args : List Argument) : List String :=
  args.filterMap fun
    | .plain s => some s
    | _ => none

/-- The values of an option in order. -/
def values (name : String) (args : List Argument) : List String :=
  args.filterMap fun
    | .value n v => if n = name then some v else none
    | _ => none

/-- The last value of an option. -/
def lastValue (name : String) (args : List Argument) : Option String :=
  (values name args).getLast?

/-- Whether a flag is given. -/
def hasFlag (name : String) (args : List Argument) : Bool :=
  args.contains (.flag name)

/-- The choice between strict and safe arithmetic; the last one counts. -/
def strictChoice (args : List Argument) : Option Bool :=
  (args.filterMap fun
    | .flag "--strict" => some true
    | .flag "--safe" => some false
    | _ => none).getLast?

/-! ### Requests -/

/-- A **request** to the program. -/
inductive Request where
  /-- Shows the version. -/
  | version
  /-- Shows the tokens of a formula, in postorder if asked for. -/
  | tokens (formula : String) (postorder json : Bool)
  /-- Judges a formula. -/
  | check (formula : String) (declared : List String) (json : Bool)
  /-- Shows a formula with all its parentheses, or as a document. -/
  | render (formula : String) (json : Bool)
  /-- Evaluates a formula. -/
  | evaluate (formula : String) (assignments declared : List String) (strict : Option Bool)
      (config : Option String) (seed : Option Int)
  /-- Evaluates a formula on every row of a table. -/
  | table (formula file output : String) (strict : Option Bool) (config target : Option String)
  deriving DecidableEq, Repr

/-- The request to show tokens. -/
def Request.ofTokens (args : List String) : Option Request := do
  let args ← Options.split { flags := ["--postfix", "--json"], valued := [] } args
  match plains args with
  | [formula] => some (.tokens formula (hasFlag "--postfix" args) (hasFlag "--json" args))
  | _ => none

/-- The request to judge a formula. -/
def Request.ofCheck (args : List String) : Option Request := do
  let args ← Options.split { flags := ["--json"], valued := ["--declare"] } args
  match plains args with
  | [formula] => some (.check formula (values "--declare" args) (hasFlag "--json" args))
  | _ => none

/-- The request to show a formula. -/
def Request.ofRender (args : List String) : Option Request := do
  let args ← Options.split { flags := ["--json"], valued := [] } args
  match plains args with
  | [formula] => some (.render formula (hasFlag "--json" args))
  | _ => none

/-- The seed among the arguments; there is no result if it is no whole number. -/
def seedOf (args : List Argument) : Option (Option Int) :=
  match lastValue "--seed" args with
  | none => some none
  | some text =>
    match Number.parseWhole text with
    | .ok seed => some (some seed)
    | .error _ => none

/-- The request to evaluate a formula. -/
def Request.ofEvaluate (args : List String) : Option Request := do
  let args ← Options.split
    { flags := ["--strict", "--safe"], valued := ["--var", "--declare", "--config", "--seed"] } args
  let seed ← seedOf args
  match plains args with
  | [formula] =>
    some (.evaluate formula (values "--var" args) (values "--declare" args) (strictChoice args)
      (lastValue "--config" args) seed)
  | _ => none

/-- The request to evaluate a table. -/
def Request.ofTable (args : List String) : Option Request := do
  let args ← Options.split
    { flags := ["--strict", "--safe"], valued := ["--output", "--config", "--out"] } args
  match plains args with
  | [formula, file] =>
    some (.table formula file ((lastValue "--output" args).getD "result") (strictChoice args)
      (lastValue "--config" args) (lastValue "--out" args))
  | _ => none

/-- The request of a command and its arguments. -/
def Request.ofCommand : List String → Option Request
  | "tokens" :: args => ofTokens args
  | "check" :: args => ofCheck args
  | "render" :: args => ofRender args
  | "eval" :: args => ofEvaluate args
  | "table" :: args => ofTable args
  | _ => none

/-- Whether nothing behind the flags in front of a command is an option. -/
def endsOptions : List String → Bool
  | [] => true
  | arg :: _ => arg == "--" || !looksLikeOption arg

/-- The **request** of a command line. The flag for the version stands in front of a command, which
is then not looked at. -/
def Request.ofArguments (args : List String) : Option Request :=
  match args.dropWhile (· == "--version") with
  | rest =>
    if rest.length < args.length then
      if endsOptions rest then some .version else none
    else
      match rest with
      | "--" :: command => ofCommand command
      | command => ofCommand command

end Formulary.CommandLine

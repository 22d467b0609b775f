/-
This file is the command line, as a function from the arguments and the outside
world to what is written and the code that the command ends with. Options and the
name of a file may come in any order; the first file counts, and the last command
does. Two dashes end the options.
-/

import Offside.Session
import Offside.Settings.Manifest
import Offside.Text.Shown

namespace Offside

namespace CommandLine

/-! ### Arguments -/

/-- What the arguments ask for. -/
structure Options where
  /-- A program given as an argument. -/
  command : Option String := none
  file : Option String := none
  /-- List the tokens instead of running the program. -/
  dump : Bool := false
  verbosity : Nat := 0
deriving Repr, DecidableEq

/-- What is wrong with the arguments. -/
inductive UsageError where
  | noCommand
  | unknownFlag (argument : String)
  | nothingToRun
deriving Repr, DecidableEq

def UsageError.message : UsageError → String
  | .noCommand => "expected command argument"
  | .unknownFlag argument => "unknown flag " ++ argument
  | .nothingToRun => "expected a command or file path"

/-- What the arguments mean. -/
inductive Request where
  | help
  | run (options : Options)
  | refused (error : UsageError)

/-- The argument without its dashes, if it starts with one. -/
def undashed? (argument : String) : Option (List Char) :=
  match argument.toList with
  | '-' :: rest => some (rest.dropWhile (· == '-'))
  | _ => none

/-- The value after an equals sign, which stands on one line; without a sign it is empty. -/
def assigned? : List Char → Option String
  | [] => some ""
  | '=' :: value => if value.contains '\n' then none else some (String.ofList value)
  | _ => none

/-- The value of the option for a command, if the argument is that option. -/
def commandFlag? (argument : String) : Option String := do
  match ← undashed? argument with
  | 'c' :: 'o' :: 'm' :: 'm' :: 'a' :: 'n' :: 'd' :: rest => assigned? rest
  | 'c' :: rest => assigned? rest
  | _ => none

def isDumpFlag (argument : String) : Bool :=
  undashed? argument == some "dump-tokens".toList

def isHelpFlag (argument : String) : Bool :=
  undashed? argument == some ['h'] || undashed? argument == some "help".toList

/-- How much more the argument asks to log, if it is one of those options. -/
def verboseFlag? (argument : String) : Option Nat :=
  match argument.toList with
  | '-' :: 'v' :: rest => if rest.all (· == 'v') then some (rest.length + 1) else none
  | _ => if argument == "--verbose" then some 1 else none

/-- Takes a file unless there is something to run already. -/
def Options.withFile (options : Options) (file : Option String) : Options :=
  if options.command.isNone && options.file.isNone then { options with file } else options

/-- The request of options that are complete. -/
def Options.request (options : Options) : Request :=
  if options.command.isNone && options.file.isNone then .refused .nothingToRun else .run options

/-- Reads arguments. -/
def read (options : Options) : List String → Request
  | [] => options.request
  | argument :: rest =>
    if argument == "--" then (options.withFile rest.head?).request
    else match commandFlag? argument with
      | some value =>
        if value != "" then read { options with command := some value } rest
        else match rest with
          | value :: more => read { options with command := some value } more
          | [] => .refused .noCommand
      | none =>
        if isDumpFlag argument then read { options with dump := true } rest
        else match verboseFlag? argument with
          | some more => read { options with verbosity := options.verbosity + more } rest
          | none =>
            if isHelpFlag argument then .help
            else if argument.startsWith "-" then .refused (.unknownFlag argument)
            else read (options.withFile (some argument)) rest

/-! ### Running -/

/-- How a command ends. -/
structure Ending where
  output : String
  errors : String
  code : Nat
  /-- The command did not end: it waits for a line of input. -/
  isWaiting : Bool := false
deriving Repr, DecidableEq

/-- The text that explains the command. -/
def usage (program : String) : String :=
  "usage:\n" ++
  "  " ++ program ++ " [OPTIONS] FILE\n" ++
  "  " ++ program ++ " [OPTIONS] [-c|--command] COMMAND\n" ++
  "\n" ++
  "options:\n" ++
  "  -c, --command     Execute the provided command.\n" ++
  "  --dump-tokens     Dump the lexed tokens to stdout instead of executing.\n" ++
  "  -v, --verbose     Increase log verbosity. May be repeated.\n" ++
  "  -h, --help        Display this help text and exit.\n"

/-- The name of a program that was given as an argument. -/
def commandName : String := "<command>"

/-- One token on a line: its place, its kind and its text. -/
def tokenLine (token : Token) : String :=
  token.location.text ++ "\t" ++ token.kind.name ++ "\t" ++ Text.shown token.lexeme.literal ++ "\n"

/-- Lists the tokens of a source text up to the first error. -/
def dumpText (file text : String) : Ending :=
  let stream := Lexer.stream file text
  let output := String.join (stream.tokens.map tokenLine)
  match stream.fault? with
  | some error => ⟨output, error.message ++ "\n", 1, false⟩
  | none => ⟨output, "", 0, false⟩

/-- Lists the tokens of what is to be run. -/
def dump (files : Files) (options : Options) : Ending :=
  match options.command, options.file with
  | some text, _ => dumpText commandName text
  | none, some file =>
    match files.read file with
    | .ok text => dumpText file text
    | .error reason => ⟨"", reason ++ "\n", 1, false⟩
  | none, none => ⟨"", "", 0, false⟩

/-- Runs what is to be run. -/
def execute (world : World) (options : Options) : Ending :=
  let (outcome, world) := match options.command, options.file with
    | some text, _ => world.runSource commandName text
    | none, some file => world.runFile file
    | none, none => (⟨none, none⟩, world)
  match outcome.failure with
  | none => ⟨world.host.output, "", 0, false⟩
  | some .waiting => ⟨world.host.output, "", 0, true⟩
  | some failure =>
    let (report, world) := world.reportOf failure
    ⟨world.host.output, report, 1, false⟩

/-- Carries out a request with the settings of its project. -/
def perform (host : Host) (options : Options) : Ending :=
  let files := host.files
  let directory := match options.file with
    | some file => Path.directory files.working file
    | none => "."
  match Manifest.find files directory with
  | .error error => ⟨"", "error: " ++ error.message ++ "\n", 1, false⟩
  | .ok manifest =>
    if options.dump then dump files options
    else
      let directories := match manifest with
        | some manifest => manifest.searchDirectories files
        | none => []
      execute (.beginning host directories) options

/-- Runs the command with its arguments. -/
def run (program : String) (host : Host) (arguments : List String) : Ending :=
  match read {} arguments with
  | .help => ⟨usage program, "", 0, false⟩
  | .refused error => ⟨"", "error: " ++ error.message ++ "\n" ++ usage program, 1, false⟩
  | .run options => perform host options

end CommandLine

end Offside

import GraphBench.Dataset

/-!
The arguments of the command line: a command with options before and behind it. An option is `--name value`
or `--name=value`. The value of an option is checked when the next option or argument begins, or at the end.
-/

namespace GraphBench

/-- Why arguments are not carried out. The last four ask for more arguments or for a text. -/
inductive UsageError where
  | unknownArgument
  | repeatedOption
  | invalidValue
  | malformedValue
  | unexpectedValue
  | missingArgument
  | unknownCommand
  | missingCommand
  | nothingGiven
  | helpAsked
  | versionAsked
  deriving DecidableEq

namespace UsageError

def message : UsageError → String
  | .unknownArgument => "unknown argument"
  | .repeatedOption => "an option is given twice"
  | .invalidValue => "an option has no value, or one that is not among its possible values"
  | .malformedValue => "the value of an option is not a number in its range"
  | .unexpectedValue => "an option without a value is given one"
  | .missingArgument => "write-config needs a path"
  | .unknownCommand => "unknown command"
  | .missingCommand | .nothingGiven | .helpAsked =>
    "commands: load [--records N], run [--operations N], verify [--phase load|run], write-config PATH\n" ++
      "options: --config PATH, --dir PATH, --seed N, --test-parameter-count N, --products-per-order N, " ++
      "--node-byte-size N"
  | .versionAsked => "0.1.0"

/-- Whether a text was asked for, so that nothing is wrong with the arguments. -/
def isRequest (e : UsageError) : Bool :=
  e = .helpAsked || e = .versionAsked

end UsageError

inductive OptionValue where
  | text (value : String)
  | number (value : Nat)
  | phase (value : Phase)
  deriving DecidableEq

/-- What an option takes. A signed number may be written with a minus but must not be negative. -/
inductive OptionForm where
  | path
  | number (bound : Nat)
  | signedNumber (bound : Nat)
  | phase

namespace OptionForm

def readNumber (bound : Nat) (text : List Char) : Except UsageError OptionValue :=
  match Decimal.read bound text with
  | .ok n => .ok (.number n)
  | .error _ => .error .malformedValue

/-- Reads digits behind a minus, which must have the value zero. -/
def readNegative (text : List Char) : Except UsageError OptionValue :=
  match text with
  | [] => .error .malformedValue
  | cs =>
    match Decimal.readDigits 1 0 cs with
    | .ok n => .ok (.number n)
    | .error _ => .error .malformedValue

def read (form : OptionForm) (text : String) : Except UsageError OptionValue :=
  match form with
  | .path => if text = "" then .error .invalidValue else .ok (.text text)
  | .number bound => readNumber bound text.toList
  | .signedNumber bound =>
    match text.toList with
    | '-' :: cs => readNegative cs
    | cs => readNumber bound cs
  | .phase =>
    if text = "load" then .ok (.phase .load)
    else if text = "run" then .ok (.phase .run)
    else .error .invalidValue

end OptionForm

/-- The options and arguments that are understood at one level: in front of a command, or behind it. -/
structure Level where
  options : List (String × OptionForm)
  arguments : List (String × OptionForm)
  commands : List String
  hasVersion : Bool

/-- A name that was given and the value that it has, once there is one. -/
structure Pending where
  name : String
  form : OptionForm
  value : Option String

/-- The values given so far, the name that is not settled yet, the arguments that may still come, and
whether `--` has ended the options. -/
structure LevelState where
  given : List (String × OptionValue)
  pending : Option Pending
  arguments : List (String × OptionForm)
  trailing : Bool

namespace LevelState

def start (level : Level) : LevelState :=
  ⟨[], none, level.arguments, false⟩

def give (state : LevelState) (name : String) (form : OptionForm) (text : String) :
    Except UsageError LevelState :=
  if (state.given.lookup name).isSome then .error .repeatedOption
  else (form.read text).map fun value => { state with given := (name, value) :: state.given }

def settle (state : LevelState) : Except UsageError LevelState :=
  match state.pending with
  | none => .ok state
  | some ⟨_, _, none⟩ => .error .invalidValue
  | some ⟨name, form, some text⟩ => { state with pending := none }.give name form text

/-- Whether the last option still waits for its value. -/
def awaitsValue (state : LevelState) : Bool :=
  match state.pending with
  | some ⟨_, _, none⟩ => true
  | _ => false

end LevelState

/-- The parts of a text before and behind its first `=`. -/
def splitAtEquals (cs : List Char) : String × Option String :=
  match cs.dropWhile (· ≠ '=') with
  | [] => (String.ofList cs, none)
  | _ :: value => (String.ofList (cs.takeWhile (· ≠ '=')), some (String.ofList value))

namespace Level

def ask (state : LevelState) (asked : UsageError) : Except UsageError LevelState :=
  state.settle.bind fun _ => .error asked

/-- Reads an option, given without its dashes. -/
def readOption (level : Level) (state : LevelState) (text : List Char) : Except UsageError LevelState :=
  let (name, attached) := splitAtEquals text
  match level.options.lookup name, attached with
  | some form, some value => state.settle.bind fun state => state.give name form value
  | some form, none => state.settle.map fun state => { state with pending := some ⟨name, form, none⟩ }
  | none, attached =>
    if name = "help" ∨ (name = "version" ∧ level.hasVersion) then
      if attached.isSome then .error .unexpectedValue
      else ask state (if name = "help" then .helpAsked else .versionAsked)
    else .error .unknownArgument

/-- Reads options of one letter, given without their dash. -/
def readLetters (level : Level) (state : LevelState) (letter : Char) : Except UsageError LevelState :=
  if letter = 'h' then ask state .helpAsked
  else if letter = 'V' ∧ level.hasVersion then ask state .versionAsked
  else .error .unknownArgument

def readArgument (level : Level) (state : LevelState) (text : String) : Except UsageError LevelState :=
  match state.arguments with
  | (name, form) :: rest =>
    state.settle.map fun state =>
      { state with pending := some ⟨name, form, some text⟩, arguments := rest }
  | [] =>
    if level.commands = [] ∨ (state.trailing ∧ level.commands.contains text) then .error .unknownArgument
    else .error .unknownCommand

def readText (level : Level) (state : LevelState) (text : String) : Except UsageError LevelState :=
  if state.trailing then level.readArgument state text
  else
    match text.toList with
    | ['-', '-'] => .ok { state with trailing := true }
    | '-' :: '-' :: option => level.readOption state option
    | '-' :: letter :: _ => level.readLetters state letter
    | _ =>
      match state.pending with
      | some ⟨name, form, none⟩ => .ok { state with pending := some ⟨name, form, some text⟩ }
      | _ => level.readArgument state text

/-- Reads texts up to the first command, and gives the command and what is behind it. -/
def readAll (level : Level) (state : LevelState) :
    List String → Except UsageError (LevelState × Option (String × List String))
  | [] => .ok (state, none)
  | text :: rest =>
    if !state.trailing && !state.awaitsValue && level.commands.contains text then
      .ok (state, some (text, rest))
    else (level.readText state text).bind fun state => level.readAll state rest

end Level

inductive Command where
  | load (records : Nat)
  | run (operations : Nat)
  | verify (phase : Phase)
  | writeConfig (path : Path)
  deriving DecidableEq

/-- A command with the options that every command has. -/
structure Invocation where
  config : Option Path
  directory : Option Path
  seed : Option UInt64
  testParameterCount : Option UInt32
  productsPerOrder : Option UInt32
  nodeByteSize : Option UInt64
  command : Command

namespace Invocation

def sharedOptions : List (String × OptionForm) :=
  [("config", .path), ("dir", .path), ("seed", .number UInt64.size),
    ("test-parameter-count", .signedNumber UInt32.size), ("products-per-order", .signedNumber UInt32.size),
    ("node-byte-size", .number UInt64.size)]

def top : Level :=
  ⟨sharedOptions, [], ["load", "run", "verify", "write-config", "help"], true⟩

/-- What is understood behind a command. -/
def levelOf (command : String) : Level :=
  if command = "load" then ⟨("records", .number UInt64.size) :: sharedOptions, [], [], false⟩
  else if command = "run" then ⟨("operations", .number UInt64.size) :: sharedOptions, [], [], false⟩
  else if command = "verify" then ⟨("phase", .phase) :: sharedOptions, [], [], false⟩
  else ⟨sharedOptions, [("path", .path)], [], false⟩

/-- Help is given for one command at most. -/
def helpFor : List String → UsageError
  | [] => .helpAsked
  | [command] => if top.commands.contains command then .helpAsked else .unknownCommand
  | _ => .unknownCommand

def number? (given : List (String × OptionValue)) (name : String) : Option Nat :=
  match given.lookup name with
  | some (.number n) => some n
  | _ => none

def text? (given : List (String × OptionValue)) (name : String) : Option String :=
  match given.lookup name with
  | some (.text text) => some text
  | _ => none

def phase? (given : List (String × OptionValue)) (name : String) : Option Phase :=
  match given.lookup name with
  | some (.phase phase) => some phase
  | _ => none

/-- The command of a name with the values given for it. -/
def commandOf (name : String) (given : List (String × OptionValue)) : Except UsageError Command :=
  if name = "load" then .ok (.load ((number? given "records").getD 1000))
  else if name = "run" then .ok (.run ((number? given "operations").getD 1000))
  else if name = "verify" then .ok (.verify ((phase? given "phase").getD .load))
  else
    match text? given "path" with
    | some path => .ok (.writeConfig path)
    | none => .error .missingArgument

/-- Options behind the command count more than those in front of it. -/
def ofGiven (given : List (String × OptionValue)) (command : Command) : Invocation :=
  ⟨text? given "config", text? given "dir", (number? given "seed").map UInt64.ofNat,
    (number? given "test-parameter-count").map UInt32.ofNat,
    (number? given "products-per-order").map UInt32.ofNat,
    (number? given "node-byte-size").map UInt64.ofNat, command⟩

/-- Reads all arguments. What is behind the command is checked before what is pending in front of it. -/
def parse (arguments : List String) : Except UsageError Invocation := do
  let (outer, command) ← top.readAll (.start top) arguments
  match command with
  | none =>
    let outer ← outer.settle
    if outer.given.isEmpty then throw .nothingGiven else throw .missingCommand
  | some ("help", rest) => throw (helpFor rest)
  | some (name, rest) =>
    let level := levelOf name
    let (inner, _) ← level.readAll (.start level) rest
    let inner ← inner.settle
    let command ← commandOf name inner.given
    let outer ← outer.settle
    return ofGiven (inner.given ++ outer.given) command

end Invocation

end GraphBench

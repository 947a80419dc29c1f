/-!
Arguments are read from left to right. An option's value stands behind an equals sign, behind the
letter of a short option, or in the next argument unless that looks like an option.
-/

namespace Spreadsheet.CommandLine

inductive Setting where
  | edit
  | formula
  | settingsFile
  | maxDepth
deriving DecidableEq

inductive Flag where
  | ignoreSettings
  | readOnly
  | help
  | version
deriving DecidableEq

inductive OptionKind where
  | setting (setting : Setting)
  | flag (flag : Flag)
deriving DecidableEq

namespace OptionKind

def ofName? : String → Option OptionKind
  | "set" => some (.setting .edit)
  | "command" => some (.setting .formula)
  | "config" => some (.setting .settingsFile)
  | "max-depth" => some (.setting .maxDepth)
  | "no-config" => some (.flag .ignoreSettings)
  | "read-only" => some (.flag .readOnly)
  | "help" => some (.flag .help)
  | "version" => some (.flag .version)
  | _ => none

def ofLetter? : Char → Option OptionKind
  | 's' => some (.setting .edit)
  | 'c' => some (.setting .formula)
  | 'h' => some (.flag .help)
  | 'V' => some (.flag .version)
  | _ => none

end OptionKind

inductive Form where
  | plain
  | option (kind : OptionKind) (attached : Option String)
  | unknown
deriving DecidableEq

namespace Form

def ofLong (text : List Char) : Form :=
  match OptionKind.ofName? (String.ofList (text.takeWhile (· != '='))) with
  | none => .unknown
  | some kind =>
    match text.dropWhile (· != '=') with
    | [] => .option kind none
    | _ :: attached => .option kind (some (String.ofList attached))

/-- The option with a letter and what follows the letter. A letter without a value says all that
its argument can say. -/
def ofShort (letter : Char) (text : List Char) : Form :=
  match OptionKind.ofLetter? letter, text with
  | none, _ => .unknown
  | some (.flag flag), _ => .option (.flag flag) none
  | some kind, [] => .option kind none
  | some kind, '=' :: attached => .option kind (some (String.ofList attached))
  | some kind, attached => .option kind (some (String.ofList attached))

/-- Only a dash with something behind it makes an option. -/
def ofArgument (argument : String) : Form :=
  match argument.toList with
  | '-' :: '-' :: text => ofLong text
  | '-' :: letter :: text => ofShort letter text
  | _ => .plain

end Form

inductive ArgumentError where
  | unknown (argument : String)
  | missingValue (option : String)
  | needlessValue (option : String)
  | badValue (value : String)
  | surplusFile (path : String)
  | repeated
  | conflict
deriving DecidableEq

def ArgumentError.message : ArgumentError → String
  | .unknown argument => "unexpected argument '" ++ argument ++ "'"
  | .missingValue option => "a value is required for '" ++ option ++ "'"
  | .needlessValue option => "no value is allowed in '" ++ option ++ "'"
  | .badValue value => "invalid value '" ++ value ++ "'"
  | .surplusFile path => "unexpected second file '" ++ path ++ "'"
  | .repeated => "an option is used more than once"
  | .conflict => "'--config' cannot be used with '--no-config'"

inductive Interruption where
  | help
  | version
  | refusal (error : ArgumentError)
deriving DecidableEq

structure Arguments where
  file : Option String := none
  edits : List String := []
  formula : Option String := none
  settingsFile : Option String := none
  ignoresSettings : Bool := false
  isReadOnly : Bool := false
  maxDepth : Option Nat := none
deriving DecidableEq

/-- The number of a depth: decimal digits, perhaps after a plus sign, that fit in 64 bits. -/
def depth? (text : String) : Option Nat :=
  let digits :=
    match text.toList with
    | '+' :: digits => digits
    | digits => digits
  let number := Nat.ofDigitChars 10 digits 0
  if digits ≠ [] ∧ digits.all Char.isDigit ∧ number < UInt64.size then some number else none

namespace Arguments

/-- Names the sheet file. There is one at most, and its path is not empty. -/
def addFile (arguments : Arguments) (path : String) : Except Interruption Arguments :=
  if arguments.file.isSome then .error (.refusal (.surplusFile path))
  else if path.isEmpty then .error (.refusal (.badValue path))
  else .ok { arguments with file := some path }

def set (arguments : Arguments) (setting : Setting) (value : String) :
    Except Interruption Arguments :=
  match setting with
  | .edit => .ok { arguments with edits := arguments.edits ++ [value] }
  | .formula =>
    if arguments.formula.isSome then .error (.refusal .repeated)
    else .ok { arguments with formula := some value }
  | .settingsFile =>
    if arguments.settingsFile.isSome then .error (.refusal .repeated)
    else if value.isEmpty then .error (.refusal (.badValue value))
    else .ok { arguments with settingsFile := some value }
  | .maxDepth =>
    match arguments.maxDepth, depth? value with
    | some _, _ => .error (.refusal .repeated)
    | none, none => .error (.refusal (.badValue value))
    | none, some depth => .ok { arguments with maxDepth := some depth }

/-- Takes in an option without a value, which may come once. -/
def say (arguments : Arguments) : Flag → Except Interruption Arguments
  | .help => .error .help
  | .version => .error .version
  | .ignoreSettings =>
    if arguments.ignoresSettings then .error (.refusal .repeated)
    else .ok { arguments with ignoresSettings := true }
  | .readOnly =>
    if arguments.isReadOnly then .error (.refusal .repeated)
    else .ok { arguments with isReadOnly := true }

/-- Takes in arguments one after the other. After two dashes alone there are no more options. -/
def extend (arguments : Arguments) : List String → Except Interruption Arguments
  | [] => .ok arguments
  | argument :: rest =>
    if argument = "--" then rest.foldlM addFile arguments
    else
      match Form.ofArgument argument with
      | .unknown => .error (.refusal (.unknown argument))
      | .plain => do (← arguments.addFile argument).extend rest
      | .option (.flag flag) none => do (← arguments.say flag).extend rest
      | .option (.flag _) (some _) => .error (.refusal (.needlessValue argument))
      | .option (.setting setting) (some value) => do
        (← arguments.set setting value).extend rest
      | .option (.setting setting) none =>
        match rest with
        | [] => .error (.refusal (.missingValue argument))
        | value :: rest =>
          if Form.ofArgument value = .plain then do (← arguments.set setting value).extend rest
          else .error (.refusal (.missingValue argument))

/-- Reads all arguments. A settings file cannot be both given and ignored. -/
def read (arguments : List String) : Except Interruption Arguments := do
  let result ← extend {} arguments
  if result.ignoresSettings && result.settingsFile.isSome then
    throw (.refusal .conflict)
  return result

end Arguments

end Spreadsheet.CommandLine

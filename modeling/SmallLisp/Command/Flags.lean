import SmallLisp.Number.Radix
import SmallLisp.Settings
import SmallLisp.Text.Quoted

/-!
# Flags

The arguments of the command start with flags.  A flag has one or two dashes in front of its name.
Its value follows an equals sign in the same argument, or is the next argument; a flag that needs no
value takes one only after an equals sign.  Flags end at the first argument without a dash, at a
lone dash, or after the argument `--`.  A flag may stand several times, and the last value counts.
-/

namespace SmallLisp

/-- A flag of the command. -/
inductive Flag where
  /-- The file with the settings. -/
  | config
  /-- How deep calls and loads may nest. -/
  | maxDepth
  /-- Whether definitions, calls and loads are traced. -/
  | trace
deriving DecidableEq

namespace Flag

/-- The name of a flag, without dashes. -/
def name : Flag → String
  | config => "config"
  | maxDepth => "max-depth"
  | trace => "trace"

/-- The flag of a name. -/
def ofName? (s : String) : Option Flag :=
  [config, maxDepth, trace].find? (·.name == s)

/-- Whether a flag needs a value. -/
def takesValue : Flag → Bool
  | config | maxDepth => true
  | trace => false

end Flag

/-- Why arguments are refused. -/
inductive FlagError where
  /-- An argument starts like a flag and is none. -/
  | malformed (argument : String)
  /-- There is no flag of this name. -/
  | unknown (name : String)
  /-- A flag needs a value and stands last. -/
  | missingValue (flag : Flag)
  /-- A value is no number that fits. -/
  | number (value : String) (cause : Number.RadixError)
  /-- A value is no truth value. -/
  | truth (value : String)
  /-- The usage is asked for. -/
  | help
deriving DecidableEq

namespace FlagError

/-- How the command is used. -/
def usage : String :=
  "usage: lisp [flags] [file.lisp]\n" ++
  "  -config string\n" ++
  "    \tpath to a YAML config file (default ~/.lisp.yml)\n" ++
  "  -max-depth int\n" ++
  "    \tmaximum nesting of calls and loads, 0 disables the limit (default -1)\n" ++
  "  -trace\n" ++
  "    \tlog definitions, calls and loads to stderr\n"

/-- The cause of a refused number in words. -/
def numberReason : Number.RadixError → String
  | .malformed => "parse error"
  | .outOfRange => "value out of range"

/-- An error in words; none for a request. -/
def message? : FlagError → Option String
  | malformed argument => some ("bad flag syntax: " ++ argument)
  | unknown name => some ("flag provided but not defined: -" ++ name)
  | missingValue flag => some ("flag needs an argument: -" ++ flag.name)
  | number value cause =>
    some ("invalid value " ++ Text.quoted value ++ " for flag -" ++ Flag.maxDepth.name ++ ": " ++
      numberReason cause)
  | truth value =>
    some ("invalid boolean value " ++ Text.quoted value ++ " for -" ++ Flag.trace.name ++
      ": parse error")
  | help => none

/-- What is written about an error: the error, and how the command is used. -/
def report (e : FlagError) : String :=
  match e.message? with
  | some text => text ++ "\n" ++ usage
  | none => usage

end FlagError

/-! ## Values -/

/-- What the flags ask for. -/
structure Flags where
  /-- The file with the settings; the usual one if empty. -/
  config : String := ""
  /-- How deep calls and loads may nest, if asked for. -/
  maxDepth : Option Int := none
  /-- Whether to trace, if asked for. -/
  trace : Option Bool := none
deriving DecidableEq

/-- The truth value that a text spells. -/
def readTruthValue? (s : String) : Option Bool :=
  if ["1", "t", "T", "true", "TRUE", "True"].contains s then some true
  else if ["0", "f", "F", "false", "FALSE", "False"].contains s then some false
  else none

namespace Flags

/-- Flags with the value of one more. -/
def set (fs : Flags) (flag : Flag) (value : String) : Except FlagError Flags :=
  match flag with
  | .config => .ok { fs with config := value }
  | .maxDepth =>
    match Number.readSigned value.toList with
    | .ok n => .ok { fs with maxDepth := some n }
    | .error cause => .error (.number value cause)
  | .trace =>
    match readTruthValue? value with
    | some b => .ok { fs with trace := some b }
    | none => .error (.truth value)

/-- Settings with what the flags ask for. -/
def override (fs : Flags) (s : Settings) : Settings :=
  { s with
    trace := fs.trace.getD s.trace
    maxDepth := fs.maxDepth.getD s.maxDepth }

end Flags

/-! ## Arguments -/

/-- The form of an argument. -/
inductive Argument where
  /-- No flag; the flags end in front of it. -/
  | plain
  /-- The flags end after it. -/
  | ending
  /-- It starts like a flag and is none. -/
  | malformed
  /-- A flag, with the value after an equals sign. -/
  | flag (name : String) (value : Option String)
deriving DecidableEq

/-- The form of what follows the dashes of a flag. -/
def Argument.ofBody : List Char → Argument
  | [] => .malformed
  | c :: cs =>
    if c = '-' || c = '=' then .malformed
    else
      let name := String.ofList (c :: cs.takeWhile (· != '='))
      match cs.dropWhile (· != '=') with
      | [] => .flag name none
      | _ :: value => .flag name (some (String.ofList value))

/-- The form of an argument. -/
def Argument.ofString (s : String) : Argument :=
  match s.toList with
  | ['-', '-'] => .ending
  | '-' :: '-' :: body => ofBody body
  | '-' :: c :: body => ofBody (c :: body)
  | _ => .plain

/-- The error of a name that no flag has. -/
def FlagError.ofName (name : String) : FlagError :=
  if name = "help" || name = "h" then .help else .unknown name

/-- Reads the flags at the front of arguments, on top of earlier ones.  The answer has the arguments
after them. -/
def Flags.readOnto (fs : Flags) : List String → Except FlagError (Flags × List String)
  | [] => .ok (fs, [])
  | s :: rest =>
    match Argument.ofString s with
    | .plain => .ok (fs, s :: rest)
    | .ending => .ok (fs, rest)
    | .malformed => .error (.malformed s)
    | .flag name value =>
      match Flag.ofName? name, value with
      | none, _ => .error (.ofName name)
      | some flag, some v =>
        match fs.set flag v with
        | .ok fs => fs.readOnto rest
        | .error e => .error e
      | some flag, none =>
        if flag.takesValue then
          match rest with
          | [] => .error (.missingValue flag)
          | v :: rest =>
            match fs.set flag v with
            | .ok fs => fs.readOnto rest
            | .error e => .error e
        else
          match fs.set flag "true" with
          | .ok fs => fs.readOnto rest
          | .error e => .error e

/-- Reads the flags at the front of arguments.  The answer has the arguments after them. -/
def Flags.read (args : List String) : Except FlagError (Flags × List String) :=
  Flags.readOnto {} args

example :
    (Flags.read ["-trace", "--max-depth=0x5", "-", "-trace=0"]).toOption =
      some ({ maxDepth := some 5, trace := some true }, ["-", "-trace=0"]) := by
  decide +kernel

end SmallLisp

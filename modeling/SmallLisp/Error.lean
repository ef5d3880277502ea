import SmallLisp.Operator
import SmallLisp.Reader
import SmallLisp.Value.Text

/-!
# Errors

`Error` lists the causes for which a program can fail, each with what its message needs.  The
wording is in `Error.message` alone, and `Error.kind` groups the causes as a caller tells them
apart.  The message of a cause opens with the wording of its group.
-/

namespace SmallLisp

/-- The groups of causes. -/
inductive ErrorKind where
  | malformedParens
  | unterminatedString
  | invalidNumber
  | unexpectedEnd
  | unexpectedToken
  | trailingTokens
  | unboundSymbol
  | arity
  | type
  | invalidOperator
  | notCallable
  | malformed
  | defineKeyword
  | invalidExtension
  | moduleNotFound
  | divisionByZero
  | negativeExponent
  | recursionLimit
  | other
deriving DecidableEq, Inhabited

/-- The wording with which the messages of a group open. -/
def ErrorKind.heading : ErrorKind → String
  | malformedParens => "malformed parentheses"
  | unterminatedString => "unterminated string"
  | invalidNumber => "invalid number"
  | unexpectedEnd => "insufficient tokens"
  | unexpectedToken => "unexpected token"
  | trailingTokens => "unexpected tokens after the end of the program"
  | unboundSymbol => "unbound symbol"
  | arity => "invalid number of arguments"
  | type => "type error"
  | invalidOperator => "invalid operator"
  | notCallable => "not a lambda"
  | malformed => "malformed expression"
  | defineKeyword => "cannot define a keyword"
  | invalidExtension => "invalid file extension"
  | moduleNotFound => "module not found"
  | divisionByZero => "division by zero"
  | negativeExponent => "negative exponent"
  | recursionLimit => "recursion limit exceeded"
  | other => "stopped"

/-- The group of a scanning error. -/
def ScanError.kind : ScanError → ErrorKind
  | unbalanced => .malformedParens
  | unterminated _ => .unterminatedString
  | badNumber _ => .invalidNumber

/-- What a scanning error says after its heading. -/
def ScanError.detail : ScanError → String
  | unbalanced => ""
  | unterminated text => ": " ++ Text.quoted text
  | badNumber word => ": " ++ Text.quoted word

/-- The group of a reading error. -/
def ReadError.kind : ReadError → ErrorKind
  | scan e => e.kind
  | endOfTokens => .unexpectedEnd
  | noList _ | notAnItem _ => .unexpectedToken
  | trailing _ => .trailingTokens

/-- What a reading error says after its heading. -/
def ReadError.detail : ReadError → String
  | scan e => e.detail
  | endOfTokens => ""
  | noList t => ": expecting \"(\", got " ++ t.describe
  | notAnItem t => ": " ++ t.describe
  | trailing t => ": " ++ t.describe

/-- Why a program fails. -/
inductive Error where
  /-- The text is no program. -/
  | read (e : ReadError)
  /-- A name that no frame binds. -/
  | unbound (name : String)
  /-- A form or a lambda got the wrong number of arguments. -/
  | arity (name : String) (expected got : Nat)
  /-- An operand that is no number. -/
  | notANumber (op : Operator) (got : Kind)
  /-- A comparison by an operator that compares nothing. -/
  | invalidOperator (op : Operator)
  /-- An operand of a concatenation that is no scalar. -/
  | notAScalar (got : Kind)
  /-- A condition that is no truth value. -/
  | condition (got : Kind)
  /-- A name bound to something other than the path of a module. -/
  | pathBinding (name : String) (got : Kind)
  /-- A module named by something other than a text or a symbol. -/
  | pathForm (got : Kind)
  /-- A name at the head of a form that is bound to neither a lambda nor a scalar. -/
  | notCallable (name : String) (got : Kind)
  /-- A keyword that heads no form. -/
  | keywordHead (k : Keyword)
  /-- A definition of something other than a symbol. -/
  | defineTarget (got : Kind)
  /-- A definition of a keyword. -/
  | defineKeyword (k : Keyword)
  /-- Parameters that are no list. -/
  | lambdaParams (got : Kind)
  /-- A parameter that is no symbol. -/
  | lambdaParam (param : Value)
  /-- A body that is no list. -/
  | lambdaBody (got : Kind)
  /-- A module path with an extension that is not one of a source file. -/
  | extension (ext : String)
  /-- A program file that is no source file. -/
  | notASource (file : String)
  /-- A module that cannot be read, with the reason. -/
  | moduleNotFound (file reason : String)
  /-- A division or a remainder of integers by zero. -/
  | divisionByZero (left : Int64) (op : Operator) (right : Int64)
  /-- An integer power with a negative exponent. -/
  | negativeExponent (left right : Int64)
  /-- One call or load too many inside each other. -/
  | recursionLimit (what : String) (depth : Nat)
  /-- A run without a limit that nested deeper than it can be followed. -/
  | exhausted (what : String)
  /-- A module that was to be loaded before anything else failed. -/
  | preload (path : String) (cause : Error)

namespace Error

/-- The group of a cause. -/
def kind : Error → ErrorKind
  | read e => e.kind
  | unbound _ => .unboundSymbol
  | arity _ _ _ => .arity
  | notANumber _ _ | notAScalar _ | condition _ | pathBinding _ _ | pathForm _ => .type
  | invalidOperator _ => .invalidOperator
  | notCallable _ _ | keywordHead _ => .notCallable
  | defineTarget _ | lambdaParams _ | lambdaParam _ | lambdaBody _ => .malformed
  | defineKeyword _ => .defineKeyword
  | extension _ | notASource _ => .invalidExtension
  | moduleNotFound _ _ => .moduleNotFound
  | divisionByZero _ _ _ => .divisionByZero
  | negativeExponent _ _ => .negativeExponent
  | recursionLimit _ _ => .recursionLimit
  | exhausted _ => .other
  | preload _ cause => cause.kind

/-- What a cause says after the heading of its group. -/
def detail : Error → String
  | read e => e.detail
  | unbound name => ": " ++ name
  | arity name expected got =>
    ": " ++ name ++ " expects " ++ toString expected ++ ", got " ++ toString got
  | notANumber op got => ": operand of " ++ op.name ++ " must be a number, got " ++ got.name
  | invalidOperator op => ": " ++ op.name
  | notAScalar got =>
    ": operand of " ++ concatName ++ " must be Str, Integer, Float or Bool, got " ++ got.name
  | condition got => ": condition must be Bool, got " ++ got.name
  | pathBinding name got => ": load path " ++ name ++ " must be Str, got " ++ got.name
  | pathForm got => ": load expects a Str or a Symbol, got " ++ got.name
  | notCallable name got => ": " ++ name ++ " is " ++ got.name
  | keywordHead k => ": keyword " ++ k.name
  | defineTarget got => ": define expects a symbol, got " ++ got.name
  | defineKeyword k => ": `" ++ k.name ++ "`"
  | lambdaParams got => ": lambda parameters must be a list, got " ++ got.name
  | lambdaParam param => ": lambda parameter " ++ param.source ++ " is " ++ param.kind.name
  | lambdaBody got => ": lambda body must be a list, got " ++ got.name
  | extension ext => ": " ++ Text.quoted ext
  | notASource file => ": " ++ file
  | moduleNotFound file reason => ": " ++ file ++ " (" ++ reason ++ ")"
  | divisionByZero left op right =>
    ": " ++ Number.integerText left ++ " " ++ op.name ++ " " ++ Number.integerText right
  | negativeExponent left right =>
    ": " ++ Number.integerText left ++ " ^ " ++ Number.integerText right
  | recursionLimit what depth => ": " ++ what ++ " at depth " ++ toString depth
  | exhausted what => ": " ++ what
  | preload _ _ => ""

/-- The message of a cause. -/
def message : Error → String
  | preload path cause => "preload " ++ path ++ ": " ++ cause.message
  | e => e.kind.heading ++ e.detail

end Error

end SmallLisp

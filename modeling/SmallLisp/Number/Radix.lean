import SmallLisp.Number.Literal

/-!
# Integers in any base

An integer whose own spelling names its base: `0x` for sixteen, `0o` or a leading zero for eight,
`0b` for two, and ten otherwise.  Underscores may separate digits.  Settings and command-line flags
use this form; number words of a program do not.
-/

namespace SmallLisp.Number

/-- Why a text is no integer. -/
inductive RadixError where
  /-- It is not spelled like one. -/
  | malformed
  /-- It does not fit in 64 bits. -/
  | outOfRange
deriving DecidableEq

/-- Reads digits in a base, passing over underscores.  A value that no longer fits in 64 bits ends
the reading. -/
def readDigits (base n : Nat) : List Char → Except RadixError Nat
  | [] => .ok n
  | c :: cs =>
    if c = '_' then readDigits base n cs
    else
      match digit? base c with
      | none => .error .malformed
      | some d =>
        let m := n * base + d
        if 0x10000000000000000 ≤ m then .error .outOfRange else readDigits base m cs

/-- Reads digits after what names their base. -/
def readBased : List Char → Except RadixError Nat
  | [] => .error .malformed
  | '0' :: b :: c :: cs =>
    if b = 'x' || b = 'X' then readDigits 16 0 (c :: cs)
    else if b = 'o' || b = 'O' then readDigits 8 0 (c :: cs)
    else if b = 'b' || b = 'B' then readDigits 2 0 (c :: cs)
    else readDigits 8 0 (b :: c :: cs)
  | '0' :: cs => readDigits 8 0 cs
  | cs => readDigits 10 0 cs

/-- The value of an unsigned integer of 64 bits. -/
def readUnsigned (cs : List Char) : Except RadixError Nat :=
  match readBased cs with
  | .error e => .error e
  | .ok n => if cs.contains '_' && !underscoresOk cs then .error .malformed else .ok n

/-- The signed integer of 64 bits with a sign and a magnitude. -/
def signedOf (negative : Bool) (n : Nat) : Except RadixError Int :=
  if negative then if n ≤ 0x8000000000000000 then .ok (-(n : Int)) else .error .outOfRange
  else if n < 0x8000000000000000 then .ok n
  else .error .outOfRange

/-- The value of a signed integer of 64 bits. -/
def readSigned (cs : List Char) : Except RadixError Int :=
  let (negative, digits) := splitSign cs
  match readUnsigned digits with
  | .error e => .error e
  | .ok n => signedOf negative n

/-- The value of a signed integer of 64 bits whose base is known, without underscores. -/
def readSignedIn (base : Nat) (cs : List Char) : Except RadixError Int :=
  let (negative, digits) := splitSign cs
  if digits.isEmpty || digits.contains '_' then .error .malformed
  else
    match readDigits base 0 digits with
    | .error e => .error e
    | .ok n => signedOf negative n

example : (readSigned "-0x1F".toList).toOption = some (-31) := by decide +kernel

end SmallLisp.Number

import SmallLisp.Eval.Arithmetic
import SmallLisp.Eval.Script

/-!
# Forms

`Script.ofValue` gives every value its script.  A symbol stands for what is bound to it, and so do
the keywords `true` and `false`.  A lambda evaluates to nothing, and every other value that is no
list to itself.  A list is a form if its head is a keyword or a symbol, and otherwise a sequence.

The other items of a form are its operands.  A form decides which of them are evaluated, in which
order and how often, so an operand comes with its script, not yet carried out.  The special forms
are `define`, `if`, `lambda`, `print`, `equal` and `load`.  A symbol heads an operation if it names
one, and otherwise a call.

The recursion is on the value alone.  Bodies and modules, which are not part of it, are asked for.
-/

namespace SmallLisp

/-- An item of a form after its head. -/
structure Operand where
  /-- The item as it stands in the program. -/
  node : Value
  /-- What evaluating it asks for. -/
  meaning : Script Value

/-! ## Special forms -/

/-- Binds a symbol to the value of an operand. -/
def defineForm (target : Value) (body : Script Value) : Script Value :=
  match target with
  | .symbol name => do
    let v ← body
    .define name v (pure .void)
  | .keyword k => .fail (.defineKeyword k)
  | v => .fail (.defineTarget v.kind)

/-- Evaluates one of two operands, as the value of a third says. -/
def ifForm (test yes no : Script Value) : Script Value := do
  let b ← test
  match b with
  | .bool true => yes
  | .bool false => no
  | v => .fail (.condition v.kind)

/-- The names of parameters, each of which has to be a symbol. -/
def paramNames : List Value → Except Error (List String)
  | [] => .ok []
  | .symbol name :: rest =>
    match paramNames rest with
    | .ok names => .ok (name :: names)
    | .error e => .error e
  | v :: _ => .error (.lambdaParam v)

/-- The lambda with these parameters and this body, neither of them evaluated. -/
def lambdaForm (params body : Value) : Except Error Value :=
  match params with
  | .list params =>
    match paramNames params with
    | .error e => .error e
    | .ok names =>
      match body with
      | .list body => .ok (.lambda names body)
      | v => .error (.lambdaBody v.kind)
  | v => .error (.lambdaParams v.kind)

/-- Prints an operand: the help text of a keyword, the value and the variant of a symbol, the value
of a list, and anything else as it stands. -/
def printForm (arg : Operand) : Script Value :=
  match arg.node with
  | .keyword k => .print k.help (pure .void)
  | .symbol name =>
    .lookup name fun v =>
      .print ("Type: " ++ v.kind.name ++ ", Var " ++ name ++ ": " ++ v.text) (pure .void)
  | .list _ => do
    let v ← arg.meaning
    .print v.text (pure .void)
  | .lambda params body => .print (Value.lambda params body).text (pure .void)
  | v => .print v.describe (pure .void)

/-- Whether two operands have the same value. -/
def equalForm (left right : Script Value) : Script Value := do
  let l ← left
  let r ← right
  pure (.bool (l.same r))

/-- Loads the module that an operand names: a text, or a symbol that is bound to one. -/
def loadForm : Value → Script Value
  | .str path => .load path pure
  | .symbol name =>
    .lookup name fun v =>
      match v with
      | .str path => .load path pure
      | v => .fail (.pathBinding name v.kind)
  | v => .fail (.pathForm v.kind)

/-- A form headed by a keyword. -/
def specialForm (k : Keyword) (args : List Operand) : Script Value :=
  match k, args with
  | .define, [target, body] => defineForm target.node body.meaning
  | .ifElse, [test, yes, no] => ifForm test.meaning yes.meaning no.meaning
  | .lambda, [params, body] => .ofExcept (lambdaForm params.node body.node)
  | .print, [arg] => printForm arg
  | .equal, [left, right] => equalForm left.meaning right.meaning
  | .load, [arg] => loadForm arg.node
  | .define, args => .fail (.arity Keyword.define.name 2 args.length)
  | .ifElse, args => .fail (.arity Keyword.ifElse.name 3 args.length)
  | .lambda, args => .fail (.arity Keyword.lambda.name 2 args.length)
  | .print, args => .fail (.arity Keyword.print.name 1 args.length)
  | .equal, args => .fail (.arity Keyword.equal.name 2 args.length)
  | .load, args => .fail (.arity Keyword.load.name 1 args.length)
  | .trueName, _ => .fail (.keywordHead .trueName)
  | .falseName, _ => .fail (.keywordHead .falseName)
  | .unnamed, _ => .fail (.keywordHead .unnamed)

/-! ## Forms headed by a symbol -/

/-- An operation on the values of exactly two operands. -/
def binaryForm (name : String) (op : Value → Value → Except Error Value) (args : List Operand) :
    Script Value :=
  match args with
  | [left, right] => do
    let l ← left.meaning
    let r ← right.meaning
    .ofExcept (op l r)
  | args => .fail (.arity name 2 args.length)

/-- A form headed by a name that is no operation: a call if the name is bound to a lambda.  A scalar
in its place is printed. -/
def callForm (name : String) (args : List Operand) : Script Value :=
  .lookup name fun f =>
    match f with
    | .lambda params body => .call name params body (args.map Operand.node) pure
    | f => if f.isScalar then .print f.text (pure .void) else .fail (.notCallable name f.kind)

/-- A form headed by a symbol. -/
def namedForm (name : String) (args : List Operand) : Script Value :=
  match Operator.ofName? name with
  | some op => binaryForm name op.apply args
  | none => if name = concatName then binaryForm name concatenate args else callForm name args

/-! ## Sequences -/

/-- Evaluates operands in order. -/
def evalAll : List Operand → Script (List Value)
  | [] => pure []
  | arg :: args => do
    let v ← arg.meaning
    let vs ← evalAll args
    pure (v :: vs)

/-- Evaluates operands in order and lists the values other than `void`. -/
def sequenceForm (args : List Operand) : Script Value := do
  let values ← evalAll args
  pure (.list (values.filter (!·.isVoid)))

/-! ## Values -/

namespace Script

mutual

/-- The script of a value. -/
def ofValue : Value → Script Value
  | .symbol name => lookup name pure
  | .keyword .trueName => lookup Keyword.trueName.name pure
  | .keyword .falseName => lookup Keyword.falseName.name pure
  | .lambda _ _ => pure .void
  | .list [] => pure .void
  | .list (.keyword k :: args) => specialForm k (ofValues args)
  | .list (.symbol name :: args) => namedForm name (ofValues args)
  | .list items => sequenceForm (ofValues items)
  | v => pure v

/-- Values as operands. -/
def ofValues : List Value → List Operand
  | [] => []
  | v :: vs => ⟨v, ofValue v⟩ :: ofValues vs

end

end Script

end SmallLisp

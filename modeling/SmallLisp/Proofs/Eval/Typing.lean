import SmallLisp.Proofs.Eval.Covered
import SmallLisp.Proofs.Eval.Quiet

/-!
# Types of expressions

An *expression* is made of literals, the twelve operators, concatenation and the conditional.  It
uses no name of the frame, so it means the same in every frame, and evaluating it does nothing else
(`OpExpr.quiet`).  `OpExpr.value` is what it comes to.

`HasType` gives expressions a type, which is the variant that their value has.  A typed expression
has a value of its type, or an operation on two integers in it has no answer (`HasType.sound`).
Such an operation counts only where evaluation gets to it: not in the branch that is not taken, and
not behind an operand that already failed.  `OpExpr.Reaches` says where it gets.
-/

namespace SmallLisp

/-- An expression without names. -/
inductive OpExpr where
  | int (n : Int64)
  | float (x : Float)
  | str (text : String)
  | binary (op : Operator) (left right : OpExpr)
  | concat (left right : OpExpr)
  | ifElse (test yes no : OpExpr)

namespace OpExpr

/-- How an expression is written as a value. -/
def node : OpExpr → Value
  | int n => .int n
  | float x => .float x
  | str text => .str text
  | binary op left right => .list [.symbol op.name, left.node, right.node]
  | concat left right => .list [.symbol concatName, left.node, right.node]
  | ifElse test yes no => .list [.keyword .ifElse, test.node, yes.node, no.node]

/-- What an expression comes to. -/
def value : OpExpr → Except Error Value
  | int n => .ok (.int n)
  | float x => .ok (.float x)
  | str text => .ok (.str text)
  | binary op left right => do
    let l ← left.value
    let r ← right.value
    op.apply l r
  | concat left right => do
    let l ← left.value
    let r ← right.value
    concatenate l r
  | ifElse test yes no => do
    match ← test.value with
    | .bool true => yes.value
    | .bool false => no.value
    | v => .error (.condition v.kind)

/-! ## Evaluation -/

theorem evalNode_concat (c : Context) (left right : Value) :
    evalNode c (.list [.symbol concatName, left, right]) =
      evalNode c left >>= fun l => evalNode c right >>= fun r => .ofExcept (concatenate l r) := by
  have hname : Operator.ofName? concatName = none := by decide
  simp only [evalNode, Script.ofValue, Script.ofValues, namedForm, hname, if_true,
    Script.run_binaryForm]

/-- In every frame an expression evaluates to what it comes to, and nothing happens. -/
theorem quiet (c : Context) (s : Scope) (e : OpExpr) : Quiet (evalNode c e.node) s e.value := by
  induction e with
  | int n => exact quiet_pure _
  | float x => exact quiet_pure _
  | str text => exact quiet_pure _
  | binary op left right ihl ihr =>
    rw [node, evalNode_operator]
    exact ihl.bind_except fun l => ihr.bind_except fun r => quiet_ofExcept _
  | concat left right ihl ihr =>
    rw [node, evalNode_concat]
    exact ihl.bind_except fun l => ihr.bind_except fun r => quiet_ofExcept _
  | ifElse test yes no iht ihy ihn =>
    have hform : evalNode c (ifElse test yes no).node = _ :=
      Script.run_ifForm c (.ofValue test.node) (.ofValue yes.node) (.ofValue no.node)
    rw [hform]
    refine iht.bind_except fun b => ?_
    cases b with
    | bool b =>
      cases b with
      | true => exact ihy
      | false => exact ihn
    | _ => exact quiet_ofExcept _

/-! ## What is evaluated -/

/-- Evaluating the first expression evaluates the second, which is a part of it. -/
inductive Reaches : OpExpr → OpExpr → Prop where
  | self (e : OpExpr) : Reaches e e
  | left {op : Operator} {left right x : OpExpr} (h : Reaches left x) :
      Reaches (binary op left right) x
  | right {op : Operator} {left right x : OpExpr} {v : Value} (hleft : left.value = .ok v)
      (h : Reaches right x) : Reaches (binary op left right) x
  | concatLeft {left right x : OpExpr} (h : Reaches left x) : Reaches (concat left right) x
  | concatRight {left right x : OpExpr} {v : Value} (hleft : left.value = .ok v)
      (h : Reaches right x) : Reaches (concat left right) x
  | test {test yes no x : OpExpr} (h : Reaches test x) : Reaches (ifElse test yes no) x
  | yes {test yes no x : OpExpr} (htest : test.value = .ok (.bool true)) (h : Reaches yes x) :
      Reaches (ifElse test yes no) x
  | no {test yes no x : OpExpr} (htest : test.value = .ok (.bool false)) (h : Reaches no x) :
      Reaches (ifElse test yes no) x

/-- What is evaluated and fails makes the whole fail. -/
theorem Reaches.value_eq_error {e x : OpExpr} (h : e.Reaches x) {err : Error}
    (hx : x.value = .error err) : e.value = .error err := by
  induction h with
  | self e => exact hx
  | left _ ih | concatLeft _ ih | test _ ih =>
    rw [value, ih hx]
    rfl
  | right hleft _ ih | concatRight hleft _ ih =>
    rw [value, hleft]
    exact congrArg (· >>= _) (ih hx)
  | yes htest _ ih | no htest _ ih =>
    rw [value, htest]
    exact ih hx

/-- Evaluation gets to an operation on two integers of which this holds. -/
def Meets (e : OpExpr) (P : Operator → Int64 → Int64 → Prop) : Prop :=
  ∃ (op : Operator) (left right : OpExpr) (l r : Int64), e.Reaches (.binary op left right) ∧
    left.value = .ok (.int l) ∧ right.value = .ok (.int r) ∧ P op l r

theorem Meets.of_reaches {e x : OpExpr} {P : Operator → Int64 → Int64 → Prop} (h : x.Meets P)
    (hreaches : ∀ {y}, x.Reaches y → e.Reaches y) : e.Meets P := by
  obtain ⟨op, left, right, l, r, hop, hvalues⟩ := h
  exact ⟨op, left, right, l, r, hreaches hop, hvalues⟩

/-- An operation without an answer that evaluation gets to makes the whole fail. -/
theorem Meets.value_eq_error {e : OpExpr} {err : Error}
    (h : e.Meets fun op l r => op.Faults l r err) : e.value = .error err := by
  obtain ⟨op, left, right, l, r, hop, hl, hr, hfault⟩ := h
  refine hop.value_eq_error ?_
  rw [value, hl, hr]
  exact hfault.onIntegers_eq

/-- The expression has a value of this variant, unless evaluation gets to an operation without an
answer. -/
def Sound (e : OpExpr) (k : Kind) : Prop :=
  (∃ v, e.value = .ok v ∧ v.kind = k) ∨ ∃ err, e.Meets fun op l r => op.Faults l r err

theorem sound_of_value {e : OpExpr} {v : Value} (h : e.value = .ok v) : e.Sound v.kind :=
  .inl ⟨v, h, rfl⟩

/-- Two numbers have a result of the right variant, or no answer. -/
theorem sound_apply {op : Operator} {left right : OpExpr} {l r : Value} (hl : left.value = .ok l)
    (hr : right.value = .ok r) (hleft : l.kind.isNumeric = true)
    (hright : r.kind.isNumeric = true) :
    (binary op left right).Sound (op.resultKind l.kind r.kind) := by
  have hvalue : (binary op left right).value = op.apply l r := by
    rw [value, hl, hr]
    rfl
  have happlies := op.applies_apply l r
  rw [← hvalue] at happlies
  generalize hresult : (binary op left right).value = result at happlies
  cases happlies with
  | value _ _ hkind => exact .inl ⟨_, hresult, hkind⟩
  | fault hfault => exact .inr ⟨_, op, left, right, _, _, .self _, hl, hr, hfault⟩
  | left _ hnot => exact absurd (hleft.symm.trans hnot) nofun
  | right _ hnot => exact absurd (hright.symm.trans hnot) nofun

theorem Sound.binary {op : Operator} {left right : OpExpr} {k k' : Kind} (hleft : left.Sound k)
    (hright : right.Sound k') (hk : k.isNumeric = true) (hk' : k'.isNumeric = true) :
    (OpExpr.binary op left right).Sound (op.resultKind k k') := by
  obtain ⟨l, hl, rfl⟩ | ⟨err, hfault⟩ := hleft
  · obtain ⟨r, hr, rfl⟩ | ⟨err, hfault⟩ := hright
    · exact sound_apply hl hr hk hk'
    · exact .inr ⟨err, hfault.of_reaches (.right hl)⟩
  · exact .inr ⟨err, hfault.of_reaches .left⟩

theorem Sound.concat {left right : OpExpr} {k k' : Kind} (hleft : left.Sound k)
    (hright : right.Sound k') (hk : k.isScalar = true) (hk' : k'.isScalar = true) :
    (OpExpr.concat left right).Sound .str := by
  obtain ⟨l, hl, rfl⟩ | ⟨err, hfault⟩ := hleft
  · obtain ⟨r, hr, rfl⟩ | ⟨err, hfault⟩ := hright
    · have hjoined : concatenate l r = .ok (.str (l.text ++ r.text)) := by
        simp [concatenate, Value.isScalar, hk, hk']
      have hvalue : (OpExpr.concat left right).value = .ok (.str (l.text ++ r.text)) := by
        rw [value, hl, hr]
        exact hjoined
      exact sound_of_value hvalue
    · exact .inr ⟨err, hfault.of_reaches (.concatRight hl)⟩
  · exact .inr ⟨err, hfault.of_reaches .concatLeft⟩

/-- The branch that is taken decides. -/
theorem Sound.ifElse {test yes no : OpExpr} {k : Kind} (htest : test.Sound .bool)
    (hyes : yes.Sound k) (hno : no.Sound k) : (OpExpr.ifElse test yes no).Sound k := by
  obtain ⟨b, ht, hb⟩ | ⟨err, hfault⟩ := htest
  · cases b with
    | bool b =>
      cases b with
      | true =>
        have hvalue : (OpExpr.ifElse test yes no).value = yes.value := by
          rw [value, ht]
          rfl
        exact hyes.imp (fun h => hvalue ▸ h) fun ⟨err, h⟩ => ⟨err, h.of_reaches (.yes ht)⟩
      | false =>
        have hvalue : (OpExpr.ifElse test yes no).value = no.value := by
          rw [value, ht]
          rfl
        exact hno.imp (fun h => hvalue ▸ h) fun ⟨err, h⟩ => ⟨err, h.of_reaches (.no ht)⟩
    | _ => cases hb
  · exact .inr ⟨err, hfault.of_reaches .test⟩

end OpExpr

/-! ## Types -/

/-- The expression has this type. -/
inductive HasType : OpExpr → Kind → Prop where
  | int (n : Int64) : HasType (.int n) .int
  | float (x : Float) : HasType (.float x) .float
  | str (text : String) : HasType (.str text) .str
  | binary (op : Operator) {left right : OpExpr} {k k' : Kind} (hleft : HasType left k)
      (hright : HasType right k') (hk : k.isNumeric = true) (hk' : k'.isNumeric = true) :
      HasType (.binary op left right) (op.resultKind k k')
  | concat {left right : OpExpr} {k k' : Kind} (hleft : HasType left k)
      (hright : HasType right k') (hk : k.isScalar = true) (hk' : k'.isScalar = true) :
      HasType (.concat left right) .str
  | ifElse {test yes no : OpExpr} {k : Kind} (htest : HasType test .bool) (hyes : HasType yes k)
      (hno : HasType no k) : HasType (.ifElse test yes no) k

theorem HasType.sound {e : OpExpr} {k : Kind} (h : HasType e k) : e.Sound k := by
  induction h with
  | int n => exact OpExpr.sound_of_value (v := .int n) rfl
  | float x => exact OpExpr.sound_of_value (v := .float x) rfl
  | str text => exact OpExpr.sound_of_value (v := .str text) rfl
  | binary op _ _ hk hk' ihl ihr => exact ihl.binary ihr hk hk'
  | concat _ _ hk hk' ihl ihr => exact ihl.concat ihr hk hk'
  | ifElse _ _ _ iht ihy ihn => exact iht.ifElse ihy ihn

/-- Expressions are sound for their types.  In every frame an expression evaluates to what it comes
to and nothing else happens.  If it has a type, that is a value of this type, unless evaluation gets
to a quotient or remainder of two integers with divisor zero or to a power of two integers with a
negative exponent; then it fails for that reason.  No value at all, in no frame, evaluates to an
invalid operator. -/
theorem expressions_typed (i : Interpreter) (s : Store) (id : Nat) :
    (∀ e : OpExpr, s.run id (i.eval e.node) = (⟨e.value, s.own id, []⟩, s)) ∧
      (∀ (e : OpExpr) (k : Kind), HasType e k →
        (∃ v, e.value = .ok v ∧ v.kind = k) ∨
        (∃ err, e.value = .error err ∧ err.kind = .divisionByZero ∧
          e.Meets fun op _ r => (op = .div ∨ op = .rem) ∧ r = 0) ∨
        ∃ err, e.value = .error err ∧ err.kind = .negativeExponent ∧
          e.Meets fun op _ r => op = .pow ∧ r < 0) ∧
      ∀ (v : Value) (err : Error), (s.run id (i.eval v)).1.result = .error err →
        err.kind ≠ .invalidOperator := by
  refine ⟨fun e => (e.quiet i.context (s.scope id)).run_eq, fun e k h => ?_,
    fun v err => covered_eval i v (s.scope id) err⟩
  obtain hvalue | ⟨err, hmeets⟩ := h.sound
  · exact .inl hvalue
  · have herror := hmeets.value_eq_error
    obtain ⟨op, left, right, l, r, hop, hl, hr, hfault⟩ := hmeets
    refine .inr ?_
    cases hfault with
    | div => exact .inl ⟨_, herror, rfl, .div, left, right, l, 0, hop, hl, hr, .inl rfl, rfl⟩
    | rem => exact .inl ⟨_, herror, rfl, .rem, left, right, l, 0, hop, hl, hr, .inr rfl, rfl⟩
    | pow _ hneg => exact .inr ⟨_, herror, rfl, .pow, left, right, l, r, hop, hl, hr, rfl, hneg⟩

/-- A float divided by zero is greater than two, and so the remainder by zero is evaluated and the
power with a negative exponent is not. -/
def zeroTwice : OpExpr :=
  .ifElse (.binary .lt (.float 2) (.binary .div (.float 1) (.float 0)))
    (.concat (.str "a") (.binary .rem (.int 7) (.binary .sub (.int 3) (.int 3))))
    (.concat (.binary .pow (.int 2) (.int (-1))) (.str "b"))

theorem zeroTwice_faults :
    HasType zeroTwice .str ∧ zeroTwice.value = .error (.divisionByZero 7 .rem 0) ∧
      zeroTwice.Meets fun op _ r => (op = .div ∨ op = .rem) ∧ r = 0 := by
  have htest : HasType (.binary .lt (.float 2) (.binary .div (.float 1) (.float 0))) .bool :=
    .binary .lt (.float 2) (.binary .div (.float 1) (.float 0) rfl rfl) rfl rfl
  have hyes : HasType (.concat (.str "a") (.binary .rem (.int 7) (.binary .sub (.int 3) (.int 3))))
      .str :=
    .concat (.str "a") (.binary .rem (.int 7) (.binary .sub (.int 3) (.int 3) rfl rfl) rfl rfl)
      rfl rfl
  have hno : HasType (.concat (.binary .pow (.int 2) (.int (-1))) (.str "b")) .str :=
    .concat (.binary .pow (.int 2) (.int (-1)) rfl rfl) (.str "b") rfl rfl
  have htype : HasType zeroTwice .str := .ifElse htest hyes hno
  have hvalue : zeroTwice.value = .error (.divisionByZero 7 .rem 0) := by rfl
  obtain ⟨-, htyped, -⟩ := expressions_typed ⟨.atMost 1, fun _ => .error "no such file"⟩ {} 0
  obtain ⟨v, hv, -⟩ | ⟨err, -, -, hmeets⟩ | ⟨err, herr, hkind, -⟩ := htyped zeroTwice .str htype
  · exact nomatch hvalue.symm.trans hv
  · exact ⟨htype, hvalue, hmeets⟩
  · cases hvalue.symm.trans herr
    exact nomatch hkind

end SmallLisp

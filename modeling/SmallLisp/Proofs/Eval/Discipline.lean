import SmallLisp.Proofs.Eval.Operator
import SmallLisp.Proofs.Eval.Script

/-!
# What scripts keep to

A *discipline* says something of the values that scripts handle, of the parts of programs that they
hand out to be evaluated, and of the errors that they fail with.  A script obeys it when every
request does, as long as the answers to the requests before it did.

A discipline is *sound* when what forms and operations make of values and parts that have its
properties has them too.  The script of a part then obeys it and ends with a value that has the
property (`Script.obeys_ofValue`), form by form.  How requests are answered plays no part here, so
whoever answers them only has to keep its side.

Most errors can arise somewhere.  Two kinds cannot: a name is looked up among the operators before
anything is computed with it, so no operator is invalid, and only a limit ends a run that nests too
deep.  `Ordinary` says that a property of errors leaves out nothing but these.
-/

namespace SmallLisp

/-! ## Errors of operations -/

/-- The property holds of every error that is neither an invalid operator nor the end of what is
followed. -/
def Ordinary (P : Error → Prop) : Prop :=
  ∀ e : Error, e.kind ≠ .invalidOperator → e.kind ≠ .other → P e

section

variable {P : Error → Prop}

/-- What an operator gives is not an invalid operator. -/
theorem ordinary_apply (hP : Ordinary P) {op : Operator} {left right : Value} {e : Error}
    (h : op.apply left right = .error e) : P e := by
  have happlies := op.applies_apply left right
  rw [h] at happlies
  cases happlies with
  | fault hfault => cases hfault <;> exact hP _ nofun nofun
  | left _ _ => exact hP _ nofun nofun
  | right _ _ => exact hP _ nofun nofun

theorem ordinary_concatenate (hP : Ordinary P) {left right : Value} {e : Error}
    (h : concatenate left right = .error e) : P e := by
  unfold concatenate at h
  split at h
  · cases h
    exact hP _ nofun nofun
  · split at h
    · cases h
      exact hP _ nofun nofun
    · cases h

theorem ordinary_paramNames (hP : Ordinary P) {params : List Value} {e : Error}
    (h : paramNames params = .error e) : P e := by
  induction params with
  | nil => cases h
  | cons v params ih =>
    cases v with
    | symbol name =>
      rw [paramNames] at h
      split at h
      · cases h
      · next he =>
        cases h
        exact ih he
    | _ =>
      cases h
      exact hP _ nofun nofun

theorem ordinary_lambdaForm (hP : Ordinary P) {params body : Value} {e : Error}
    (h : lambdaForm params body = .error e) : P e := by
  cases params with
  | list params =>
    rw [lambdaForm] at h
    split at h
    · next he =>
      cases h
      exact ordinary_paramNames hP he
    · cases body with
      | list body => cases h
      | _ =>
        cases h
        exact hP _ nofun nofun
  | _ =>
    cases h
    exact hP _ nofun nofun

theorem ordinary_modulePath (hP : Ordinary P) {path : String} {e : Error}
    (h : modulePath path = .error e) : P e := by
  simp only [modulePath] at h
  split at h
  · cases h
  · split at h
    · cases h
    · cases h
      exact hP _ nofun nofun

theorem ordinary_read (hP : Ordinary P) (e : ReadError) : P (.read e) := by
  cases e with
  | scan e => cases e <;> exact hP _ nofun nofun
  | _ => exact hP _ nofun nofun

end

/-! ## Disciplines -/

/-- What is said of the values that scripts handle, of the parts of programs that they hand out, and
of the errors that they fail with. -/
structure Discipline where
  value : Value → Prop
  node : Value → Prop
  error : Error → Prop

namespace Discipline

/-- What is made of values and parts with the properties has them. -/
structure Sound (D : Discipline) : Prop where
  error : Ordinary D.error
  void : D.value .void
  bool : ∀ b, D.value (.bool b)
  list : ∀ {vs}, (∀ v ∈ vs, v.isVoid = false ∧ D.value v) → D.value (.list vs)
  scalar : ∀ {v}, D.node v → v.isScalar = true → D.value v
  keyword : ∀ {k}, D.node (.keyword k) → k ≠ .trueName → k ≠ .falseName → D.value (.keyword k)
  items : ∀ {vs}, D.node (.list vs) → ∀ v ∈ vs, D.node v
  lambda : ∀ {params body v}, D.node params → D.node body → lambdaForm params body = .ok v →
    D.value v
  params : ∀ {params body}, D.value (.lambda params body) → ∀ name ∈ params, D.node (.symbol name)
  body : ∀ {params body}, D.value (.lambda params body) → D.node (.list body)
  apply : ∀ {op : Operator} {l r v}, op.apply l r = .ok v → D.value v
  concatenate : ∀ {l r v}, D.value l → D.value r → concatenate l r = .ok v → D.value v
  parsed : ∀ {bytes v}, parse bytes = .ok v → D.node v

/-- Nothing is said but of errors. -/
def failing (P : Error → Prop) : Discipline where
  value _ := True
  node _ := True
  error := P

/-- Nothing is said at all. -/
def any : Discipline :=
  failing fun _ => True

/-- What scripts fail with are ordinary errors, and these have the property. -/
theorem sound_failing {P : Error → Prop} (hP : Ordinary P) : (failing P).Sound where
  error := hP
  void := trivial
  bool _ := trivial
  list _ := trivial
  scalar _ _ := trivial
  keyword _ _ _ := trivial
  items _ _ _ := trivial
  lambda _ _ _ := trivial
  params _ _ _ := trivial
  body _ := trivial
  apply _ := trivial
  concatenate _ _ _ := trivial
  parsed _ := trivial

/-- Nothing is asked for, so nothing can go wrong. -/
theorem sound_any : any.Sound :=
  sound_failing fun _ _ _ => trivial

end Discipline

/-! ## Scripts that obey -/

namespace Script

variable {α β : Type} {D : Discipline}

/-- Every request obeys the discipline as long as the answers do, and the result is as said. -/
def Obeys (D : Discipline) (post : α → Prop) : Script α → Prop
  | done a => post a
  | fail e => D.error e
  | lookup _ next => ∀ v, D.value v → (next v).Obeys D post
  | define name value next => D.node (.symbol name) ∧ D.value value ∧ next.Obeys D post
  | print _ next => next.Obeys D post
  | call _ params body args next =>
    D.value (.lambda params body) ∧ (∀ v ∈ args, D.node v) ∧
      ∀ v, D.value v → (next v).Obeys D post
  | load _ next => ∀ v, D.value v → (next v).Obeys D post

/-- Scripts in a row: the second may rely on what the first gives. -/
theorem Obeys.bind {post : α → Prop} {post' : β → Prop} {x : Script α} {f : α → Script β}
    (hx : x.Obeys D post) (hf : ∀ a, post a → (f a).Obeys D post') : (x >>= f).Obeys D post' := by
  change (x.bind f).Obeys D post'
  induction x with
  | done a => exact hf a hx
  | fail e => exact hx
  | lookup name next ih => exact fun v hv => ih v (hx v hv)
  | define name value next ih => exact ⟨hx.1, hx.2.1, ih hx.2.2⟩
  | print text next ih => exact ih hx
  | call name params body args next ih => exact ⟨hx.1, hx.2.1, fun v hv => ih v (hx.2.2 v hv)⟩
  | load path next ih => exact fun v hv => ih v (hx v hv)

/-- Where nothing is said there is nothing to obey. -/
theorem obeys_any (x : Script Value) : x.Obeys .any Discipline.any.value := by
  induction x with
  | done v => trivial
  | fail e => trivial
  | lookup name next ih => exact fun v _ => ih v
  | define name value next ih => exact ⟨trivial, trivial, ih⟩
  | print text next ih => exact ih
  | call name params body args next ih => exact ⟨trivial, fun _ _ => trivial, fun v _ => ih v⟩
  | load path next ih => exact fun v _ => ih v

/-- A computation outside of scripts obeys by its result. -/
theorem obeys_ofExcept {post : α → Prop} {x : Except Error α} (hok : ∀ a, x = .ok a → post a)
    (herror : ∀ e, x = .error e → D.error e) : (ofExcept x).Obeys D post := by
  cases x with
  | error e => exact herror e rfl
  | ok a => exact hok a rfl

end Script

/-- An item of a form keeps to the discipline as a part of a program, and so does its script. -/
structure Operand.Obeys (D : Discipline) (arg : Operand) : Prop where
  node : D.node arg.node
  meaning : arg.meaning.Obeys D D.value

/-! ## Forms -/

namespace Script

section

variable {D : Discipline} (hD : D.Sound)

include hD

theorem obeys_defineForm {target : Value} {body : Script Value} (ht : D.node target)
    (hb : body.Obeys D D.value) : (defineForm target body).Obeys D D.value := by
  cases target with
  | symbol name => exact hb.bind fun v hv => ⟨ht, hv, hD.void⟩
  | _ => exact hD.error _ nofun nofun

theorem obeys_ifForm {test yes no : Script Value} (ht : test.Obeys D D.value)
    (hy : yes.Obeys D D.value) (hn : no.Obeys D D.value) :
    (ifForm test yes no).Obeys D D.value := by
  refine ht.bind fun b _ => ?_
  cases b with
  | bool b =>
    cases b with
    | true => exact hy
    | false => exact hn
  | _ => exact hD.error _ nofun nofun

theorem obeys_printForm {arg : Operand} (h : arg.Obeys D) : (printForm arg).Obeys D D.value := by
  obtain ⟨node, meaning⟩ := arg
  cases node with
  | symbol name => exact fun _ _ => hD.void
  | list items => exact h.meaning.bind fun _ _ => hD.void
  | _ => exact hD.void

theorem obeys_equalForm {left right : Script Value} (hl : left.Obeys D D.value)
    (hr : right.Obeys D D.value) : (equalForm left right).Obeys D D.value :=
  hl.bind fun _ _ => hr.bind fun _ _ => hD.bool _

theorem obeys_loadForm (arg : Value) : (loadForm arg).Obeys D D.value := by
  cases arg with
  | str path => exact fun _ hv => hv
  | symbol name =>
    intro v _
    cases v with
    | str path => exact fun _ hv => hv
    | _ => exact hD.error _ nofun nofun
  | _ => exact hD.error _ nofun nofun

/-- Every special form obeys if its operands do. -/
theorem obeys_specialForm (k : Keyword) {args : List Operand} (h : ∀ arg ∈ args, arg.Obeys D) :
    (specialForm k args).Obeys D D.value := by
  unfold specialForm
  split
  · next target body =>
    exact obeys_defineForm hD (h target (by simp)).node (h body (by simp)).meaning
  · next test yes no =>
    exact obeys_ifForm hD (h test (by simp)).meaning (h yes (by simp)).meaning
      (h no (by simp)).meaning
  · next params body =>
    exact obeys_ofExcept (fun v => hD.lambda (h params (by simp)).node (h body (by simp)).node)
      fun e => ordinary_lambdaForm hD.error
  · next arg => exact obeys_printForm hD (h arg (by simp))
  · next left right =>
    exact obeys_equalForm hD (h left (by simp)).meaning (h right (by simp)).meaning
  · next arg => exact obeys_loadForm hD arg.node
  all_goals exact hD.error _ nofun nofun

theorem obeys_binaryForm (name : String) {op : Value → Value → Except Error Value}
    (hok : ∀ l r v, D.value l → D.value r → op l r = .ok v → D.value v)
    (herror : ∀ l r e, op l r = .error e → D.error e) {args : List Operand}
    (h : ∀ arg ∈ args, arg.Obeys D) : (binaryForm name op args).Obeys D D.value := by
  unfold binaryForm
  split
  · next left right =>
    refine (h left (by simp)).meaning.bind fun l hl => ?_
    refine (h right (by simp)).meaning.bind fun r hr => ?_
    exact obeys_ofExcept (fun v => hok l r v hl hr) (herror l r)
  · exact hD.error _ nofun nofun

theorem obeys_callForm (name : String) {args : List Operand} (h : ∀ arg ∈ args, arg.Obeys D) :
    (callForm name args).Obeys D D.value := by
  intro f hf
  dsimp only
  split
  · exact ⟨hf, List.forall_mem_map.2 fun arg harg => (h arg harg).node, fun _ hv => hv⟩
  · split
    · exact hD.void
    · exact hD.error _ nofun nofun

/-- And so does every form that starts with a name. -/
theorem obeys_namedForm (name : String) {args : List Operand} (h : ∀ arg ∈ args, arg.Obeys D) :
    (namedForm name args).Obeys D D.value := by
  unfold namedForm
  split
  · exact obeys_binaryForm hD name (fun _ _ _ _ _ => hD.apply)
      (fun _ _ _ => ordinary_apply hD.error) h
  · split
    · exact obeys_binaryForm hD name (fun _ _ _ => hD.concatenate)
        (fun _ _ _ => ordinary_concatenate hD.error) h
    · exact obeys_callForm hD name h

omit hD in
theorem obeys_evalAll {args : List Operand} (h : ∀ arg ∈ args, arg.Obeys D) :
    (evalAll args).Obeys D fun vs => ∀ v ∈ vs, D.value v := by
  induction args with
  | nil => exact fun v hv => nomatch hv
  | cons arg args ih =>
    obtain ⟨harg, hargs⟩ := List.forall_mem_cons.1 h
    exact harg.meaning.bind fun v hv => (ih hargs).bind fun vs hvs =>
      List.forall_mem_cons.2 ⟨hv, hvs⟩

/-- A sequence drops `void`, so it gives a list without it. -/
theorem obeys_sequenceForm {args : List Operand} (h : ∀ arg ∈ args, arg.Obeys D) :
    (sequenceForm args).Obeys D D.value := by
  refine (obeys_evalAll h).bind fun vs hvs => hD.list fun v hv => ?_
  obtain ⟨hmem, hvoid⟩ := List.mem_filter.1 hv
  exact ⟨by simpa using hvoid, hvs v hmem⟩

end

/-! ## Values -/

mutual

/-- The script of a part of a program obeys, and ends with a value as said. -/
theorem obeys_ofValue {D : Discipline} (hD : D.Sound) :
    (v : Value) → D.node v → (ofValue v).Obeys D D.value
  | .symbol name, _ => fun _ hv => hv
  | .keyword k, h => by
    cases k with
    | trueName | falseName => exact fun _ hv => hv
    | _ => exact hD.keyword h nofun nofun
  | .list [], _ => hD.void
  | .list (v :: rest), h => by
    have hitems := obeys_ofValues hD (v :: rest) (hD.items h)
    have hrest := (List.forall_mem_cons.1 hitems).2
    cases v with
    | keyword k => exact obeys_specialForm hD k hrest
    | symbol name => exact obeys_namedForm hD name hrest
    | _ => exact obeys_sequenceForm hD hitems
  | .lambda _ _, _ | .void, _ => hD.void
  | .int _, h | .float _, h | .bool _, h | .str _, h => hD.scalar h rfl

/-- Values that may be evaluated are operands that obey. -/
theorem obeys_ofValues {D : Discipline} (hD : D.Sound) :
    (vs : List Value) → (∀ v ∈ vs, D.node v) → ∀ arg ∈ ofValues vs, arg.Obeys D
  | [], _ => nofun
  | v :: vs, h =>
    have ⟨hv, hvs⟩ := List.forall_mem_cons.1 h
    List.forall_mem_cons.2 ⟨⟨hv, obeys_ofValue hD v hv⟩, obeys_ofValues hD vs hvs⟩

end

/-- A program that is read obeys. -/
theorem obeys_of_parse {D : Discipline} (hD : D.Sound) {bytes : List UInt8} {program : Value}
    (h : parse bytes = .ok program) : (ofValue program).Obeys D D.value :=
  obeys_ofValue hD program (hD.parsed h)

end Script

/-- What is asked obeys, if a value that is to be evaluated is a part of a program as said. -/
theorem Request.obeys_script {D : Discipline} (hD : D.Sound) {q : Request}
    (hq : ∀ v, q = .eval v → D.node v) : q.script.Obeys D D.value := by
  cases q with
  | eval v => exact Script.obeys_ofValue hD v (hq v rfl)
  | evaluate bytes =>
    simp only [script]
    split
    · next e _ => exact ordinary_read hD.error e
    · next hparse => exact Script.obeys_of_parse hD hparse
  | load path => exact fun _ hv => hv

end SmallLisp

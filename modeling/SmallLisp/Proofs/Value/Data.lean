import Mathlib
import SmallLisp.Proofs.Eval.Quiet
import SmallLisp.Proofs.Eval.Sequence
import SmallLisp.Proofs.RoundTrip
import SmallLisp.Proofs.Value.Runtime

/-!
# Data evaluates to itself

A value is written down as program text, and a program can be evaluated.  For *data* the two go
together: evaluating the text of a list or a lambda gives the value back (`evaluate_source`).

The text of a value is not always the text of a value that can be read.  A truth value is written
like a keyword, and a lambda like the form that makes it.  `Value.form` is what the text is read as:
it has the same text (`source_form`), it can be read where the value is data (`Data.readable_form`),
and it evaluates to the value (`Data.quiet_form`).

A list of data has a head that is neither a keyword nor a symbol, so its form is a sequence.  An
empty list would evaluate to nothing, and a truth value at the head would make the list a form.

As with reading, the texts have to be spelled in UTF-8.  One that holds another byte does not come
back (`strayText_replaced`).
-/

namespace SmallLisp

/-- Scalars, lambdas made from a form that can be read, and lists of these with some item first that
is no truth value. -/
inductive Data {τ : Type} [TextType τ] : Value τ → Prop where
  | int (n : Int64) : Data (.int n)
  | float {x : Float} (hx : Number.isFinite x = true) : Data (.float x)
  | bool (b : Bool) : Data (.bool b)
  | str {s : τ} (hs : '"' ∉ TextType.chars s) : Data (.str s)
  | lambda {bytes : List UInt8} {params body made : Value} {names : List τ} {items : List (Value τ)}
      (hread : parse bytes = .ok (.list [.keyword .lambda, params, body]))
      (hmade : lambdaForm params body = .ok made)
      (hmap : made.map TextType.ofString = .lambda names items) : Data (.lambda names items)
  | list {first : Value τ} {rest : List (Value τ)} (hfirst : first.kind ≠ .bool)
      (hi : ∀ v ∈ first :: rest, Data v) : Data (.list (first :: rest))

/-! ## Forms of values -/

mutual

/-- What the text of a value is read as. -/
def Value.form : Value → Value
  | .bool b => .keyword (if b then .trueName else .falseName)
  | .lambda params body => .list [.keyword .lambda, .list (params.map .symbol), .list body]
  | .list items => .list (forms items)
  | v => v

/-- What the text of each value is read as. -/
def Value.forms : List Value → List Value
  | [] => []
  | v :: vs => v.form :: forms vs

end

theorem forms_eq (vs : List Value) : Value.forms vs = vs.map Value.form := by
  induction vs with
  | nil => rfl
  | cons v vs ih => rw [Value.forms, ih, List.map_cons]

theorem sources_symbols (names : List String) : Value.sources (names.map .symbol) = names := by
  rw [sources_eq, List.map_map]
  exact List.map_id names

mutual

/-- A value and its form are written alike. -/
theorem source_form : (v : Value) → v.form.source = v.source
  | .void | .int _ | .float _ | .str _ | .symbol _ | .keyword _ => rfl
  | .bool b => by cases b <;> rfl
  | .lambda params body => by
    apply String.toList_inj.1
    simp [Value.form, Value.source, Value.sources, Text.spaced, Keyword.name, sources_symbols]
  | .list items => by rw [Value.form, Value.source, sources_forms items, Value.source]

theorem sources_forms : (vs : List Value) → Value.sources (Value.forms vs) = Value.sources vs
  | [] => rfl
  | v :: vs => by
    rw [Value.forms, Value.sources, source_form v, sources_forms vs, Value.sources]

end

/-! ## Forms of lambdas -/

theorem eq_symbols_of_paramNames {params : List Value} {names : List String}
    (h : paramNames params = .ok names) : params = names.map .symbol := by
  induction params generalizing names with
  | nil =>
    cases h
    rfl
  | cons v params ih =>
    cases v with
    | symbol name =>
      rw [paramNames] at h
      split at h
      · next rest hrest =>
        cases h
        rw [ih hrest, List.map_cons]
      · cases h
    | _ => cases h

/-- The form of a lambda is the one that makes it. -/
theorem form_of_lambdaForm {params body v : Value} (h : lambdaForm params body = .ok v) :
    v.form = .list [.keyword .lambda, params, body] := by
  cases params with
  | list params =>
    rw [lambdaForm] at h
    split at h
    · cases h
    · next names hnames =>
      cases body with
      | list body =>
        cases h
        rw [Value.form, eq_symbols_of_paramNames hnames]
      | _ => cases h
  | _ => cases h

/-! ## Data -/

namespace Data

variable {v : Value}

/-- The form of data can be read. -/
theorem readable_form (h : Data v) : Readable v.form := by
  induction h with
  | int n => exact .int n
  | float hx => exact .float hx
  | bool b => cases b <;> exact .keyword (by decide)
  | str hs => exact .str hs
  | lambda hread hmade hmap =>
    rw [Value.map_ofString] at hmap
    subst hmap
    rw [form_of_lambdaForm hmade]
    exact (readableList_of_parse hread).1
  | list _ _ ih =>
    rw [Value.form, forms_eq]
    exact .list (List.forall_mem_map.2 ih)

theorem ne_void (h : Data v) : v.isVoid = false := by
  cases h <;> rfl

/-- Data that is no truth value is written neither as a keyword nor as a symbol. -/
theorem kind_form (h : Data v) (hb : v.kind ≠ .bool) :
    v.form.kind ≠ .keyword ∧ v.form.kind ≠ .symbol := by
  cases h with
  | bool b => exact absurd rfl hb
  | _ => exact ⟨nofun, nofun⟩

theorem same_self (h : Data v) : v.same v = true := by
  induction h with
  | int n => exact (Readable.int n).same_self
  | float hx => exact (Readable.float hx).same_self
  | bool b => cases b <;> rfl
  | str hs => exact (Readable.str hs).same_self
  | @lambda _ _ _ _ names items hread hmade hmap =>
    -- The body stands in the form of the lambda, where it can be read.
    cases (Data.lambda hread hmade hmap).readable_form with
    | list hparts =>
      have hbody := (hparts (.list items) (by simp)).same_self
      rw [Value.same] at hbody
      rw [Value.same, beq_self_eq_true, hbody]
      rfl
  | list _ _ ih =>
    rw [Value.same, sameAll_iff]
    exact List.forall₂_same.2 ih

/-- The form of data evaluates to it where the names of the truth values are bound to them. -/
theorem quiet_form {c : Context} {s : Scope} (htrue : s.get? Keyword.trueName.name = some (.bool true))
    (hfalse : s.get? Keyword.falseName.name = some (.bool false)) (h : Data v) :
    Quiet (evalNode c v.form) s (.ok v) := by
  induction h with
  | int n => exact quiet_pure _
  | float _ => exact quiet_pure _
  | bool b =>
    cases b with
    | true => exact (quiet_lookup htrue).bind (quiet_pure _)
    | false => exact (quiet_lookup hfalse).bind (quiet_pure _)
  | str _ => exact quiet_pure _
  | @lambda _ params body _ _ _ _ hmade hmap =>
    have hform : evalNode c (.list [.keyword .lambda, params, body]) =
        .ofExcept (lambdaForm params body) := Script.run_ofExcept c _
    rw [Value.map_ofString] at hmap
    subst hmap
    rw [form_of_lambdaForm hmade, ← hmade, hform]
    exact quiet_ofExcept _
  | @list first rest hfirst hi ih =>
    have hitems : List.Forall₂ (fun w x => Quiet (evalNode c w) s (.ok x))
        (Value.forms (first :: rest)) (first :: rest) := by
      rw [forms_eq, List.forall₂_map_left_iff]
      exact List.forall₂_same.2 ih
    have hfilter : (first :: rest).filter (!·.isVoid) = first :: rest :=
      List.filter_eq_self.2 fun w hw => by rw [(hi w hw).ne_void, Bool.not_false]
    obtain ⟨hk, hs⟩ := (hi first List.mem_cons_self).kind_form hfirst
    rw [Value.form, Value.forms, evalNode_sequence c hk hs]
    refine (quiet_runAll hitems).bind ?_
    rw [hfilter]
    exact quiet_pure _

/-- The text of a list or a lambda that is data is read as its form. -/
theorem parse_source_eq_form (h : Data v) (hk : v.kind = .list ∨ v.kind = .lambda) :
    parse (Text.bytesOf v.source) = .ok v.form := by
  have hlist : v.form.kind = .list := by
    cases v with
    | list items => rfl
    | lambda params body => rfl
    | _ => rcases hk with hk | hk <;> cases hk
  rw [← source_form]
  exact parse_source ⟨h.readable_form, hlist⟩

end Data

/-! ## Texts of bytes -/

/-- Whether a value is data does not depend on whether its texts are strings or their bytes. -/
theorem data_utf8 {w : Value} : Data w.utf8 ↔ Data w := by
  constructor
  · intro h
    generalize hv : w.utf8 = v at h
    induction h generalizing w with
    | int n =>
      cases w <;> cases hv
      exact .int n
    | float hx =>
      cases w <;> cases hv
      exact .float hx
    | bool b =>
      cases w <;> cases hv
      exact .bool b
    | str hs =>
      cases w <;> cases hv
      rw [Text.chars_bytesOf] at hs
      exact .str hs
    | lambda hread hmade hmap =>
      obtain rfl := Value.utf8_injective (hv.trans hmap.symm)
      cases w <;> cases hv
      exact .lambda hread hmade (Value.map_ofString _)
    | list hfirst hi ih =>
      cases w with
      | list items =>
        rw [Value.utf8, Value.map, Value.mapAll_eq] at hv
        obtain ⟨first, rest, rfl, rfl, rfl⟩ := List.map_eq_cons_iff.1 (Value.list.inj hv)
        rw [Value.kind_map] at hfirst
        exact .list hfirst fun u hu => ih u.utf8 (List.mem_map_of_mem (f := Value.utf8) hu) rfl
      | _ => cases hv
  · intro h
    induction h with
    | int n => exact .int n
    | float hx => exact .float hx
    | bool b => exact .bool b
    | str hs => exact .str (by rwa [Text.chars_bytesOf])
    | lambda hread hmade hmap =>
      rw [Value.map_ofString] at hmap
      subst hmap
      exact .lambda hread hmade rfl
    | @list first rest hfirst _ ih =>
      have hitems : ∀ v ∈ (first :: rest).map Value.utf8, Data v := List.forall_mem_map.2 ih
      rw [Value.utf8, Value.map, Value.mapAll_eq]
      exact .list (by rwa [Value.kind_map]) hitems

/-! ## Evaluation -/

/-- Data evaluates to itself through its text.  In a frame where the names of the truth values are
bound to them, the text of a list or a lambda that is data and spelled in UTF-8 evaluates to it.
Nothing is printed, and no frame changes. -/
theorem evaluate_source {v : Value (List UInt8)} (hv : Data v) (hutf8 : v.IsUtf8)
    (hk : v.kind = .list ∨ v.kind = .lambda) (i : Interpreter) {s : Store} (hs : s.Linked) {id : Nat}
    (hid : id < s.size) (htrue : s.get? id Keyword.trueName.name = some (.bool true))
    (hfalse : s.get? id Keyword.falseName.name = some (.bool false)) :
    let run := s.run id (i.evaluate v.source)
    (∃ w : Value, run.1.result = .ok w ∧ w.utf8 = v ∧ w.utf8.same v = true) ∧
      outputOf (Activity.moments run.1.record) = "" ∧ run.1.record = [] ∧ run.2 = s := by
  intro run
  obtain ⟨w, rfl⟩ := hutf8
  rw [Value.utf8, Value.kind_map] at hk
  have hw : Data w := data_utf8.1 hv
  rw [← Store.get?_scope hs hid] at htrue hfalse
  have heval : i.evaluate w.utf8.source = evalNode i.context w.form := by
    rw [Value.source_utf8, Interpreter.evaluate, hw.parse_source_eq_form hk]
    rfl
  have hrun : run = (⟨.ok w, s.own id, []⟩, s) := by
    have hquiet := hw.quiet_form (c := i.context) htrue hfalse
    rw [← heval] at hquiet
    exact hquiet.run_eq
  rw [hrun]
  exact ⟨⟨w, rfl, rfl, Value.same_self_map _ w hw.same_self⟩, rfl, rfl, rfl⟩

/-- A list with a lambda at its head, truth values in other places, a text with a parenthesis, and a
list inside that starts with minus zero. -/
def lambdaFirst : Value :=
  .list [.lambda ["x", "if?"] [.symbol "+", .symbol "x", .list [], .keyword .trueName],
    .bool true, .str "a (b", .list [.float (-0.0), .bool false]]

theorem data_lambdaFirst : Data lambdaFirst := by
  have hread : parse (Text.bytesOf "(lambda (x if?) (+ x () true))") =
      .ok (.list [.keyword .lambda, .list [.symbol "x", .symbol "if?"],
        .list [.symbol "+", .symbol "x", .list [], .keyword .trueName]]) := by rfl
  have hinner : Data (.list [.float (-0.0), .bool false] : Value) := by
    refine .list nofun (List.forall_mem_cons.2 ⟨.float (by decide), ?_⟩)
    exact List.forall_mem_singleton.2 (.bool false)
  refine .list nofun (List.forall_mem_cons.2 ⟨.lambda hread rfl rfl, ?_⟩)
  refine List.forall_mem_cons.2 ⟨.bool true, List.forall_mem_cons.2 ⟨.str (by decide), ?_⟩⟩
  exact List.forall_mem_singleton.2 hinner

/-- A new frame that binds the truth values. -/
def booleansOnly : Store :=
  (Store.new {}).bindBooleans 0

theorem linked_booleansOnly : booleansOnly.Linked :=
  Store.linked_setOwn (Store.linked_new Store.linked_empty) 0 _

/-- A text evaluated there without modules. -/
def runOfSource (bytes : List UInt8) : Outcome Value × Store :=
  booleansOnly.run 0 (Interpreter.evaluate ⟨.atMost 1, fun _ => .error "no such file"⟩ bytes)

theorem lambdaFirstRun_eq :
    lambdaFirst.source = "((lambda (x if?) (+ x () true)) true \"a (b\" (-0.0 false))" ∧
      Data lambdaFirst.utf8 ∧
      (∃ w, (runOfSource lambdaFirst.utf8.source).1.result = .ok w ∧ w.utf8 = lambdaFirst.utf8) ∧
      (runOfSource lambdaFirst.utf8.source).2 = booleansOnly := by
  have hdata : Data lambdaFirst.utf8 := data_utf8.2 data_lambdaFirst
  have hsize : 0 < booleansOnly.size := by decide
  obtain ⟨⟨w, hresult, heq, -⟩, -, -, hstore⟩ := evaluate_source hdata ⟨_, rfl⟩ (.inl rfl)
    ⟨.atMost 1, fun _ => .error "no such file"⟩ linked_booleansOnly hsize rfl rfl
  exact ⟨by decide +kernel, hdata, ⟨w, hresult, heq⟩, hstore⟩

/-- A list with a byte among its texts that spells no character is data, but the byte is replaced in
what its program text evaluates to. -/
theorem strayText_replaced :
    Data strayText ∧ strayText.kind = .list ∧ booleansOnly.Linked ∧ 0 < booleansOnly.size ∧
      booleansOnly.get? 0 Keyword.trueName.name = some (.bool true) ∧
      booleansOnly.get? 0 Keyword.falseName.name = some (.bool false) ∧
      ¬∃ w, (runOfSource strayText.source).1.result = .ok w ∧ w.utf8.same strayText = true := by
  have hresult : (runOfSource strayText.source).1.result =
      .ok (.list [.str (String.singleton Text.replacement)]) := by
    rfl
  refine ⟨.list nofun (List.forall_mem_singleton.2 (.str (by decide))), rfl, linked_booleansOnly,
    by decide, rfl, rfl, ?_⟩
  rintro ⟨w, hw, hsame⟩
  obtain rfl := Except.ok.inj (hresult.symm.trans hw)
  exact absurd hsame (by decide)

end SmallLisp

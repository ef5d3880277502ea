import Mathlib.Data.List.Forall2
import SmallLisp.Proofs.Eval.Script
import SmallLisp.Proofs.Event
import SmallLisp.Proofs.Grammar
import SmallLisp.Proofs.Store.Frames

/-!
# Several programs as one

Programs written one after the other, in parentheses of their own, are one program.  Nothing needs
to stand between them: each ends with its closing parenthesis or with blanks, so the bytes of one
neither complete a character nor continue a word of the one before (`parse_joined`).

Such a program is a list of lists, so it is evaluated as a sequence, and a sequence is evaluated
item by item in one frame.  `evaluateEach_eq` says that separate evaluations in a frame of a store,
up to the first that fails, leave what the evaluation of the items leaves: the bindings of one are
there for the next, and output and trace are put together.  `evaluate_joined` is the law that a file
and a transcript of its forms mean the same.
-/

namespace SmallLisp

/-! ## Texts -/

/-- The bytes are read as the value, and no mark opens them. -/
def ReadsAs (bytes : List UInt8) (v : Value) : Prop :=
  (Text.decodeAll bytes).head? ≠ some Text.byteOrderMark ∧ parse bytes = .ok v

theorem parse_eq_ok_of_head? {bytes : List UInt8} {v : Value}
    (h : (Text.decodeAll bytes).head? ≠ some Text.byteOrderMark) :
    parse bytes = .ok v ↔ Program (Text.decodeAll bytes) v := by
  rw [parse, parseText_eq_ok_iff, Text.decode, Text.dropMark_of_head? h]

/-- A program may stand in front of other items. -/
theorem Program.items_append {cs : List Char} {v : Value} (h : Program cs v) {rest : List Char}
    {vs : List Value} (hrest : Items rest vs) : Items (cs ++ rest) (v :: vs) := by
  obtain ⟨before, inner, after, ws, hbefore, hafter, hitems, rfl, rfl⟩ := h
  have hlist := (Items.list hitems (hrest.blanks hafter)).blanks hbefore
  simpa using hlist

/-- A program ends with a parenthesis or a blank. -/
theorem Program.getLast?_ne {cs : List Char} {v : Value} (h : Program cs v) :
    cs.getLast? ≠ some Text.replacement := by
  obtain ⟨before, inner, after, ws, -, hafter, -, rfl, -⟩ := h
  intro hlast
  have hend : (')' :: after).getLast? = some Text.replacement := by
    rw [← hlast]
    simp [List.getLast?_append, List.getLast?_cons]
  rcases List.mem_cons.1 (List.mem_of_getLast? hend) with h | h
  · cases h
  · cases hafter _ h

/-- The texts one after the other, in parentheses. -/
def joined (sources : List (List UInt8)) : List UInt8 :=
  String.utf8EncodeChar '(' ++ (sources.flatten ++ String.utf8EncodeChar ')')

/-- Each program is decoded apart from those before and after it. -/
theorem decodeAll_flatten {sources : List (List UInt8)} {values : List Value}
    (h : List.Forall₂ (fun bytes v => Program (Text.decodeAll bytes) v) sources values)
    (later : List UInt8) :
    Text.decodeAll (sources.flatten ++ later) =
      (sources.map Text.decodeAll).flatten ++ Text.decodeAll later := by
  induction h with
  | nil => rfl
  | cons hfirst _ ih =>
    rw [List.flatten_cons, List.append_assoc, Text.decodeAll_append hfirst.getLast?_ne, ih,
      List.map_cons, List.flatten_cons, List.append_assoc]

theorem items_flatten {sources : List (List UInt8)} {values : List Value}
    (h : List.Forall₂ (fun bytes v => Program (Text.decodeAll bytes) v) sources values) :
    Items (sources.map Text.decodeAll).flatten values := by
  induction h with
  | nil => exact .nil
  | cons hfirst _ ih => exact hfirst.items_append ih

/-- Programs are read together as the list of what they are read as. -/
theorem parse_joined {sources : List (List UInt8)} {values : List Value}
    (h : List.Forall₂ ReadsAs sources values) : parse (joined sources) = .ok (.list values) := by
  have hprograms : List.Forall₂ (fun bytes v => Program (Text.decodeAll bytes) v) sources values :=
    h.imp fun bytes v hv => (parse_eq_ok_of_head? hv.1).1 hv.2
  have htext : Text.decodeAll (joined sources) =
      '(' :: ((sources.map Text.decodeAll).flatten ++ [')']) := by
    rw [joined, Text.decodeAll_char, decodeAll_flatten hprograms]
    rfl
  have hmark : (Text.decodeAll (joined sources)).head? ≠ some Text.byteOrderMark := by
    rw [htext, List.head?_cons]
    decide
  rw [parse_eq_ok_of_head? hmark, htext]
  exact ⟨[], _, [], values, by simp, by simp, items_flatten hprograms, rfl, rfl⟩

/-! ## Evaluation -/

/-- A list that starts with neither a keyword nor a symbol is evaluated item by item. -/
theorem evalNode_sequence (c : Context) {v : Value} (hk : v.kind ≠ .keyword)
    (hs : v.kind ≠ .symbol) (vs : List Value) :
    evalNode c (.list (v :: vs)) =
      runAll (evalNode c) (v :: vs) >>= fun values => pure (.list (values.filter (!·.isVoid))) := by
  have hform : Script.ofValue (.list (v :: vs)) = sequenceForm (Script.ofValues (v :: vs)) := by
    cases v with
    | keyword k => exact absurd rfl hk
    | symbol name => exact absurd rfl hs
    | _ => rfl
  rw [evalNode, hform, sequenceForm, Script.run_bind, Script.run_evalAll]
  rfl

/-- A list that starts with a list is evaluated item by item. -/
theorem evalNode_lists (c : Context) {v : Value} (hv : v.kind = .list) (vs : List Value) :
    evalNode c (.list (v :: vs)) =
      runAll (evalNode c) (v :: vs) >>= fun values => pure (.list (values.filter (!·.isVoid))) :=
  evalNode_sequence c (by simp [hv]) (by simp [hv]) vs

/-- What evaluating programs one after the other did. -/
structure Transcript where
  /-- The value of each, or the error of the last one evaluated. -/
  result : Except Error (List Value)
  /-- All frames afterwards. -/
  store : Store
  /-- What was printed. -/
  output : String
  /-- What was traced. -/
  trace : String

/-- Evaluates programs one after the other in a frame, up to the first that fails.  The trace has
the label in front of each entry. -/
def evaluateEach (i : Interpreter) (label : String) (id : Nat) :
    List (List UInt8) → Store → Transcript
  | [], s => { result := .ok [], store := s, output := "", trace := "" }
  | bytes :: sources, s =>
    let (o, s') := s.run id (i.evaluate bytes)
    let moments := Activity.moments o.record
    match o.result with
    | .error e =>
      { result := .error e
        store := s'
        output := outputOf moments
        trace := traceOf label moments }
    | .ok v =>
      let later := evaluateEach i label id sources s'
      { result := later.result.map (v :: ·)
        store := later.store
        output := outputOf moments ++ later.output
        trace := traceOf label moments ++ later.trace }

/-- The transcript of one evaluation in a frame. -/
def Outcome.transcript (o : Outcome (List Value)) (label : String) (id : Nat) (s : Store) :
    Transcript where
  result := o.result
  store := s.setOwn id o.own
  output := outputOf (Activity.moments o.record)
  trace := traceOf label (Activity.moments o.record)

/-- Evaluating programs one after the other leaves what evaluating their values in order leaves. -/
theorem evaluateEach_eq (i : Interpreter) (label : String) {id : Nat}
    {sources : List (List UInt8)} {values : List Value} (h : List.Forall₂ ReadsAs sources values)
    {s : Store} (hs : s.Linked) (hid : id < s.size) :
    evaluateEach i label id sources s =
      (runAll (evalNode i.context) values (s.scope id)).transcript label id s := by
  induction h generalizing s with
  | nil =>
    have hstore := s.setOwn_own id
    exact congrArg (fun t => Transcript.mk _ t _ _) hstore.symm
  | @cons bytes v sources values hfirst _ ih =>
    have heval : i.evaluate bytes = evalNode i.context v := by
      rw [Interpreter.evaluate, hfirst.2]
      rfl
    rcases ho : evalNode i.context v (s.scope id) with ⟨result, own, record⟩
    simp only [evaluateEach, Store.run, heval, ho]
    rw [runAll]
    cases result with
    | error e => rw [Evaluation.bind_of_error ho, Outcome.transcript]
    | ok x =>
      have hlater := ih (Store.linked_setOwn hs id own) (by rwa [Store.size_setOwn])
      rw [Store.scope_setOwn hs hid] at hlater
      rw [Evaluation.bind_of_ok ho, Evaluation.bind_pure_apply]
      simp only [hlater, Outcome.transcript, Store.setOwn_setOwn, Activity.moments_eq,
        Activity.momentsAt_append, outputOf_append, traceOf_append]

/-! ## The law -/

/-- Programs written one after the other in parentheses are one program.  Evaluating it in a frame
does what evaluating them one by one does, up to the first that fails: it gives the list of their
values other than `void`, or that failure, prints and traces the same, and leaves the same
frames. -/
theorem evaluate_joined {sources : List (List UInt8)} {values : List Value} (hne : sources ≠ [])
    (h : List.Forall₂ ReadsAs sources values) :
    parse (joined sources) = .ok (.list values) ∧
      ∀ (i : Interpreter) (label : String) (s : Store) (id : Nat), s.Linked → id < s.size →
        let whole := s.run id (i.evaluate (joined sources))
        let each := evaluateEach i label id sources s
        whole.1.result = each.result.map (fun vs => .list (vs.filter (!·.isVoid))) ∧
          whole.2 = each.store ∧ outputOf (Activity.moments whole.1.record) = each.output ∧
          traceOf label (Activity.moments whole.1.record) = each.trace := by
  have hparse := parse_joined h
  refine ⟨hparse, fun i label s id hs hid => ?_⟩
  have heval : i.evaluate (joined sources) = evalNode i.context (.list values) := by
    rw [Interpreter.evaluate, hparse]
    rfl
  cases h with
  | nil => exact absurd rfl hne
  | @cons bytes v sources values hfirst hrest =>
    have hkind : v.kind = .list := by
      obtain ⟨-, -, -, vs, -, -, -, -, rfl⟩ := (parse_eq_ok_of_head? hfirst.1).1 hfirst.2
      rfl
    rw [evaluateEach_eq i label (.cons hfirst hrest) hs hid, Store.run, heval,
      evalNode_lists _ hkind, Evaluation.bind_pure_apply]
    exact ⟨rfl, rfl, rfl, rfl⟩

/-- A definition, a text with a stray byte in it and a blank of two bytes after it, and two forms
that use the definition, of which the second fails. -/
def forms : List (List UInt8) :=
  [Text.bytesOf "((define x 2))", [0x28, 0x22, 0xC2, 0x22, 0x29, 0xC2, 0xA0],
    Text.bytesOf "(print x)", Text.bytesOf "(+ x y)"]

/-- The forms in one text, evaluated without modules in a new frame. -/
def formsRun : Outcome Value × Store :=
  (Store.new {}).run 0
    (Interpreter.evaluate ⟨.atMost 1, fun _ => .error "no such file"⟩ (joined forms))

/-- The forms in one text print what the third prints, and fail as the fourth does. -/
theorem formsRun_eq :
    List.Forall₂ ReadsAs forms
        [.list [.list [.keyword .define, .symbol "x", .int 2]], .list [.str "\uFFFD"],
          .list [.keyword .print, .symbol "x"], .list [.symbol "+", .symbol "x", .symbol "y"]] ∧
      formsRun.1.result = .error (.unbound "y") ∧ formsRun.2.own 0 = ⟨[("x", .int 2)]⟩ ∧
      outputOf (Activity.moments formsRun.1.record) = "Type: Integer, Var x: 2\n" ∧
      traceOf "" (Activity.moments formsRun.1.record) = "define x 2\n" := by
  have hforms : List.Forall₂ ReadsAs forms
      [.list [.list [.keyword .define, .symbol "x", .int 2]], .list [.str "\uFFFD"],
        .list [.keyword .print, .symbol "x"], .list [.symbol "+", .symbol "x", .symbol "y"]] :=
    .cons ⟨by decide, rfl⟩ (.cons ⟨by decide, rfl⟩ (.cons ⟨by decide, rfl⟩
      (.cons ⟨by decide, rfl⟩ .nil)))
  have hne : forms ≠ [] := List.cons_ne_nil _ _
  have hlinked : (Store.new {}).Linked := Store.linked_new Store.linked_empty
  have hsize : 0 < (Store.new {}).size := by decide
  obtain ⟨-, h⟩ := evaluate_joined hne hforms
  obtain ⟨hresult, hstore, houtput, htrace⟩ := h _ "" _ 0 hlinked hsize
  rw [evaluateEach_eq _ "" hforms hlinked hsize] at hresult hstore houtput htrace
  refine ⟨hforms, hresult.trans rfl, ?_, houtput.trans rfl, htrace.trans rfl⟩
  rw [formsRun, hstore]
  rfl

end SmallLisp

import SmallLisp.Event

/-!
# Views of a record

A record can be taken apart at any place: its moments are those of the one part followed by those of
the other, and so are its output, the files read and its trace.  `momentsAt` lists the moments of a
record made with calls and loads around it.  With one more around it every event is one level deeper
(`momentsAt_succ`), which changes nothing that is printed and shows in the trace as two more spaces
(`Moment.traceEntry_deeper`).
-/

namespace SmallLisp

namespace Activity

/-- The events of a record made with this many calls and loads around it. -/
def momentsAt (depth : Nat) (record : List Activity) : List Moment :=
  allMomentsOnto depth [] record

mutual

/-- What comes later stays behind the moments of an activity. -/
theorem momentsOnto_eq (depth : Nat) (later : List Moment) :
    (a : Activity) → momentsOnto depth later a = momentsOnto depth [] a ++ later
  | event _ => rfl
  | nested inside => allMomentsOnto_eq (depth + 1) later inside

theorem allMomentsOnto_eq (depth : Nat) (later : List Moment) :
    (record : List Activity) →
      allMomentsOnto depth later record = momentsAt depth record ++ later
  | [] => rfl
  | a :: rest => by
    rw [momentsAt, allMomentsOnto, allMomentsOnto, momentsOnto_eq depth _ a,
      momentsOnto_eq depth (allMomentsOnto depth [] rest) a, allMomentsOnto_eq depth later rest,
      momentsAt, List.append_assoc]

end

@[simp] theorem momentsAt_nil (depth : Nat) : momentsAt depth [] = [] := rfl

@[simp] theorem momentsAt_nested (depth : Nat) (inside : List Activity) :
    momentsAt depth [.nested inside] = momentsAt (depth + 1) inside := rfl

/-- The moments of a record are those of its parts in order. -/
@[simp] theorem momentsAt_append (depth : Nat) (a b : List Activity) :
    momentsAt depth (a ++ b) = momentsAt depth a ++ momentsAt depth b := by
  induction a with
  | nil => rfl
  | cons x a ih =>
    rw [List.cons_append, momentsAt, momentsAt, allMomentsOnto, allMomentsOnto,
      momentsOnto_eq depth (allMomentsOnto depth [] (a ++ b)),
      momentsOnto_eq depth (allMomentsOnto depth [] a), List.append_assoc]
    exact congrArg _ ih

theorem moments_eq (record : List Activity) : moments record = momentsAt 0 record := rfl

end Activity

/-! ## Texts put together -/

theorem foldl_append_eq {α : Type} (f : α → String) (text : String) (xs : List α) :
    xs.foldl (fun t x => t ++ f x) text = text ++ xs.foldl (fun t x => t ++ f x) "" := by
  induction xs generalizing text with
  | nil => simp
  | cons x xs ih =>
    rw [List.foldl_cons, List.foldl_cons, ih, ih ("" ++ f x), String.empty_append,
      String.append_assoc]

/-- What is printed in a record is what is printed in its parts. -/
@[simp] theorem outputOf_append (a b : List Moment) :
    outputOf (a ++ b) = outputOf a ++ outputOf b := by
  rw [outputOf, List.foldl_append, foldl_append_eq]
  rfl

@[simp] theorem filesRead_append (a b : List Moment) :
    filesRead (a ++ b) = filesRead a ++ filesRead b :=
  List.filterMap_append

/-- And so is its trace. -/
@[simp] theorem traceOf_append (label : String) (a b : List Moment) :
    traceOf label (a ++ b) = traceOf label a ++ traceOf label b := by
  rw [traceOf, List.foldl_append, foldl_append_eq]
  rfl

/-! ## One level deeper -/

/-- The same event with one more call or load around it. -/
def Moment.deeper (m : Moment) : Moment :=
  ⟨m.depth + 1, m.event⟩

namespace Activity

mutual

theorem momentsOnto_succ (depth : Nat) :
    (a : Activity) → momentsOnto (depth + 1) [] a = (momentsOnto depth [] a).map Moment.deeper
  | event _ => rfl
  | nested inside => momentsAt_succ (depth + 1) inside

/-- With one more call or load around a record, its moments are one level deeper. -/
theorem momentsAt_succ (depth : Nat) :
    (record : List Activity) →
      momentsAt (depth + 1) record = (momentsAt depth record).map Moment.deeper
  | [] => rfl
  | a :: rest => by
    have hrest := momentsAt_succ depth rest
    unfold momentsAt at hrest ⊢
    rw [allMomentsOnto, allMomentsOnto, momentsOnto_eq (depth + 1), momentsOnto_eq depth,
      List.map_append, momentsOnto_succ depth a, hrest]

end

end Activity

/-- The level of an event does not change what is printed. -/
theorem outputOf_deeper (ms : List Moment) : outputOf (ms.map Moment.deeper) = outputOf ms := by
  simp [outputOf, List.foldl_map, Moment.deeper]

/-- One level deeper, an entry is indented by two more spaces, as long as there is room for them. -/
theorem traceIndent_succ {depth : Nat} (h : 2 * (depth + 1) ≤ widestIndent) :
    traceIndent (depth + 1) = "  " ++ traceIndent depth := by
  have hdepth : 2 * depth ≤ widestIndent := by omega
  have hspaces : List.replicate (2 * (depth + 1)) ' ' =
      List.replicate 2 ' ' ++ List.replicate (2 * depth) ' ' := by
    rw [List.replicate_append_replicate, Nat.mul_add, Nat.add_comm]
  rw [traceIndent, traceIndent, if_pos h, if_pos hdepth, hspaces, String.ofList_append]
  rfl

/-- Only the end of a line decides whether a line break is missing. -/
theorem endLine_append (front : String) {line : String} (h : front.toList.getLast? ≠ some '\n') :
    endLine (front ++ line) = front ++ endLine line := by
  unfold endLine
  rw [String.toList_append, List.getLast?_append]
  cases hline : line.toList.getLast? with
  | none => simp [h, String.append_assoc]
  | some c =>
    by_cases hc : c = '\n'
    · simp [hc]
    · simp [hc, String.append_assoc]

/-- An entry is two spaces further to the right. -/
theorem Moment.traceEntry_deeper (m : Moment) (h : 2 * (m.depth + 1) ≤ widestIndent)
    (label : String) : m.deeper.traceEntry label = m.traceEntry (label ++ "  ") := by
  unfold traceEntry deeper
  cases m.event.traceText? with
  | none => rfl
  | some text =>
    dsimp only
    rw [traceIndent_succ h, String.append_assoc, endLine_append "  " (by decide),
      String.append_assoc]

theorem traceOf_cons (label : String) (m : Moment) (ms : List Moment) :
    traceOf label (m :: ms) = m.traceEntry label ++ traceOf label ms := by
  rw [← List.singleton_append, traceOf_append]
  simp [traceOf]

/-- A trace one level deeper is the trace behind a label with two more spaces. -/
theorem traceOf_deeper (label : String) {ms : List Moment}
    (h : ∀ m ∈ ms, 2 * (m.depth + 1) ≤ widestIndent) :
    traceOf label (ms.map Moment.deeper) = traceOf (label ++ "  ") ms := by
  induction ms with
  | nil => rfl
  | cons m ms ih =>
    obtain ⟨hm, hms⟩ := List.forall_mem_cons.1 h
    rw [List.map_cons, traceOf_cons, traceOf_cons, m.traceEntry_deeper hm, ih hms]

end SmallLisp

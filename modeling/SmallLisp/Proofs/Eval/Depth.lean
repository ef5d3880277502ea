import Mathlib.Order.Lattice
import SmallLisp.Proofs.Eval.Correspondence
import SmallLisp.Store

/-!
# The limit on nesting

A limit decides whether a run is cut short, and nothing else about it.

`Agree` compares a run with room for `r` levels with the same run with more room.  Either both end
in the same way and no more than `r` levels were used, or the first was refused a level that the
second used.  Answers to requests agree one by one (`Agrees.congruence`), and scripts agree on every
level by induction on the room (`agrees_contextAt`).

`ends_iff_heights_le` reads off what that means for a number as a limit, where zero and negative
numbers stand for none.
-/

namespace SmallLisp

open Activity (height heights)

/-! ## Heights -/

theorem heights_append (a b : List Activity) :
    heights (a ++ b) = max (heights a) (heights b) := by
  induction a with
  | nil => simp [heights]
  | cons x a ih => simp [heights, ih, max_assoc]

theorem heights_nested (a : List Activity) : heights [.nested a] = heights a + 1 := by
  simp [heights, height]

/-! ## Agreement -/

section

variable {α β : Type} {r r' : Nat} {Refusal : Error → Prop}

/-- Two runs agree: they are the same run of at most `r` levels, or the first used `r` levels and
was refused another one, and the second, if it has more room, used more. -/
inductive Agree (r r' : Nat) (Refusal : Error → Prop) : Outcome α → Outcome α → Prop where
  | same {o : Outcome α} (h : heights o.record ≤ r) : Agree r r' Refusal o o
  | refused {x y : Outcome α} {e : Error} (hx : x.result = .error e) (he : Refusal e)
      (hr : heights x.record = r) (hy : r < r' → r < heights y.record) : Agree r r' Refusal x y

/-- Two evaluations agree in every scope. -/
def Agrees (r r' : Nat) (Refusal : Error → Prop) (x y : Evaluation α) : Prop :=
  ∀ s, Agree r r' Refusal (x s) (y s)

/-- What uses no level agrees with itself. -/
theorem agrees_of_flat {x : Evaluation α} (h : ∀ s, heights (x s).record = 0) :
    Agrees r r' Refusal x x := by
  intro s
  refine .same ?_
  rw [h s]
  exact Nat.zero_le r

theorem heights_le_bind (y : Evaluation α) (g : α → Evaluation β) (s : Scope) :
    heights (y s).record ≤ heights ((y >>= g) s).record := by
  rcases hy : y s with ⟨result, own, record⟩
  cases result with
  | error e => rw [Evaluation.bind_of_error hy]
  | ok a =>
    rw [Evaluation.bind_of_ok hy, heights_append]
    exact le_max_left _ _

theorem Agrees.bind {x y : Evaluation α} {f g : α → Evaluation β}
    (hx : Agrees r r' Refusal x y) (hf : ∀ a, Agrees r r' Refusal (f a) (g a)) :
    Agrees r r' Refusal (x >>= f) (y >>= g) := by
  intro s
  have hfirst := hx s
  generalize hox : x s = ox at hfirst
  generalize hoy : y s = oy at hfirst
  cases hfirst with
  | same h =>
    obtain ⟨result, own, record⟩ := ox
    cases result with
    | error e =>
      rw [Evaluation.bind_of_error hox, Evaluation.bind_of_error hoy]
      exact .same h
    | ok a =>
      rw [Evaluation.bind_of_ok hox, Evaluation.bind_of_ok hoy]
      have hsecond := hf a { s with own := own }
      generalize f a { s with own := own } = of at hsecond
      generalize g a { s with own := own } = og at hsecond
      cases hsecond with
      | same h' =>
        refine .same ?_
        rw [heights_append]
        exact max_le h h'
      | refused hx he hr hy =>
        refine .refused hx he ?_ fun hlt => (hy hlt).trans_le ?_
        · rw [heights_append, hr]
          exact max_eq_right h
        · rw [heights_append]
          exact le_max_right _ _
  | refused hx he hr hy =>
    obtain ⟨result, own, record⟩ := ox
    cases hx
    rw [Evaluation.bind_of_error hox]
    refine .refused rfl he hr fun hlt => (hy hlt).trans_le ?_
    rw [← hoy]
    exact heights_le_bind y g s

theorem Agrees.nested {x y : Evaluation α} (h : Agrees r r' Refusal x y) :
    Agrees (r + 1) (r' + 1) Refusal (.nested x) (.nested y) := by
  intro s
  have hinner := h s
  simp only [Evaluation.nested]
  generalize x s = ox at hinner
  generalize y s = oy at hinner
  cases hinner with
  | same h =>
    refine .same ?_
    rw [heights_nested]
    exact Nat.add_le_add_right h 1
  | refused hx he hr hy =>
    refine .refused hx he ?_ fun hlt => ?_
    · rw [heights_nested, hr]
    · rw [heights_nested]
      exact Nat.add_lt_add_right (hy (Nat.lt_of_add_lt_add_right hlt)) 1

theorem Agrees.inFrame {x y : Evaluation α} (frame : Bindings) (h : Agrees r r' Refusal x y) :
    Agrees r r' Refusal (.inFrame frame x) (.inFrame frame y) := by
  intro s
  have hinner := h { s with own := frame }
  simp only [Evaluation.inFrame]
  generalize x { s with own := frame } = ox at hinner
  generalize y { s with own := frame } = oy at hinner
  cases hinner with
  | same h => exact .same h
  | refused hx he hr hy => exact .refused hx he hr hy

theorem agrees_pure (a : α) : Agrees r r' Refusal (pure a) (pure a) :=
  agrees_of_flat fun _ => rfl

theorem agrees_fail (e : Error) : Agrees r r' Refusal (.fail e : Evaluation α) (.fail e) :=
  agrees_of_flat fun _ => rfl

theorem agrees_lookup (name : String) :
    Agrees r r' Refusal (.lookup name) (.lookup name) := by
  refine agrees_of_flat fun s => ?_
  rw [Evaluation.lookup]
  cases s.get? name <;> rfl

theorem Agrees.congruence (r r' : Nat) (Refusal : Error → Prop) :
    Congruence (fun _ => True) fun {α : Type} (x y : Evaluation α) => Agrees r r' Refusal x y where
  pure := agrees_pure
  bind := Agrees.bind
  fail _ := agrees_fail _
  lookup := agrees_lookup
  define _ _ := agrees_of_flat fun _ => rfl
  print _ := agrees_of_flat fun _ => rfl
  clone := agrees_of_flat fun _ => rfl
  bindParam _ _ _ := agrees_pure _
  called _ _ _ := agrees_of_flat fun _ => rfl
  inFrame := Agrees.inFrame
  fetch _ _ := agrees_of_flat fun _ => rfl

/-! ## Levels -/

/-- A script agrees with itself on levels that agree. -/
theorem Script.agrees {c c' : Context} {p q : Nat}
    (h : Level.Related .any (Agrees r r' Refusal) (Agrees p q Refusal) c c') (x : Script Value) :
    Agrees r r' Refusal (x.run c) (x.run c') :=
  (Agrees.congruence r r' Refusal).correspondence.run
    (Agrees.congruence p q Refusal).correspondence Discipline.sound_any h x.obeys_any

end

/-- With room for `r` levels a script agrees with itself with more room. -/
theorem agrees_contextAt (read : ModuleReader) (refusal refusal' : Nat → String → Error) :
    ∀ {r r' : Nat} (d : Nat), r ≤ r' → ∀ x : Script Value,
      Agrees r r' (fun e => ∃ what, e = refusal (d + r) what) (x.run (contextAt read refusal r d))
        (x.run (contextAt read refusal' r' d))
  | 0, 0, d, _, x => by
    refine Script.agrees (p := 0) (q := 0) ?_ x
    refine ⟨rfl, fun what _ _ _ s => ?_⟩
    exact .refused rfl ⟨what, rfl⟩ rfl fun hlt => absurd hlt (Nat.lt_irrefl 0)
  | 0, r' + 1, d, _, x => by
    refine Script.agrees (p := 0) (q := 0) ?_ x
    refine ⟨rfl, fun what _ _ _ s => ?_⟩
    refine .refused rfl ⟨what, rfl⟩ rfl fun _ => ?_
    simp only [contextAt, Gate.level, Evaluation.inside_gate, Evaluation.nested, heights_nested]
    exact Nat.succ_pos _
  | r + 1, r' + 1, d, h, x => by
    refine Script.agrees (p := r) (q := r') ?_ x
    refine ⟨rfl, fun what _ _ hbody => ?_⟩
    simp only [contextAt, Gate.level, Evaluation.inside_gate]
    -- The last level allowed is the same one, counted from one level deeper.
    have hinner := agrees_contextAt read refusal refusal' (d + 1) (Nat.le_of_succ_le_succ h)
    rw [Nat.add_right_comm] at hinner
    exact (hbody fun v _ => hinner (.ofValue v)).nested

/-- A run with some room agrees with the same run with more. -/
theorem Request.agrees (q : Request) (read : ModuleReader) {l l' : Limit} (h : l.room ≤ l'.room) :
    Agrees l.room l'.room (fun e => ∃ what, e = l.refusal l.room what) (q.run ⟨l, read⟩)
      (q.run ⟨l', read⟩) := by
  have hcontext := agrees_contextAt read l.refusal l'.refusal 0 h
  rw [Nat.zero_add] at hcontext
  rw [Request.run_eq, Request.run_eq]
  exact hcontext q.script

/-! ## Limits -/

/-- A run ended since its limit refused it a level. -/
def Limit.Refused (l : Limit) (o : Outcome Value) : Prop :=
  ∃ what, o.result = .error (l.refusal l.room what)

/-- The limit had no part in a run: it refused no level, or there was room left. -/
def Limit.Spares (l : Limit) (o : Outcome Value) : Prop :=
  ¬l.Refused o ∨ heights o.record < l.room

theorem Limit.Spares.not_refused {l : Limit} {o : Outcome Value} (h : l.Spares o) {e : Error}
    (ho : o.result = .error e) (he : ∃ what, e = l.refusal l.room what)
    (hr : heights o.record = l.room) : False := by
  obtain ⟨what, rfl⟩ := he
  rcases h with h | h
  · exact h ⟨what, ho⟩
  · exact absurd hr (Nat.ne_of_lt h)

section

variable (q : Request) (read : ModuleReader) (s : Scope) {l l' : Limit}

/-- A run uses no more than its room. -/
theorem heights_le_room (l : Limit) : heights (q.run ⟨l, read⟩ s).record ≤ l.room := by
  have hagree := q.agrees read (le_refl l.room) s
  generalize q.run ⟨l, read⟩ s = o at hagree
  cases hagree with
  | same h => exact h
  | refused _ _ hr _ => exact hr.le

/-- A run in which the limit has no part is the same with any room that is enough for it. -/
theorem run_eq_of_heights_le (h : l.Spares (q.run ⟨l, read⟩ s))
    (hroom : heights (q.run ⟨l, read⟩ s).record ≤ l'.room) :
    q.run ⟨l', read⟩ s = q.run ⟨l, read⟩ s := by
  rcases Nat.lt_or_ge l'.room l.room with hlt | hle
  · have hagree := q.agrees read hlt.le s
    generalize q.run ⟨l', read⟩ s = x at hagree
    generalize q.run ⟨l, read⟩ s = y at hroom hagree
    cases hagree with
    | same _ => rfl
    | refused _ _ _ hy => exact absurd (hy hlt) (Nat.not_lt.2 hroom)
  · have hagree := q.agrees read hle s
    generalize q.run ⟨l', read⟩ s = y at hagree
    generalize q.run ⟨l, read⟩ s = x at h hagree
    cases hagree with
    | same _ => rfl
    | refused hx he hr _ => exact (h.not_refused hx he hr).elim

/-- With less room than it uses, a run is refused a level. -/
theorem refused_of_lt_heights (hroom : l'.room < heights (q.run ⟨l, read⟩ s).record) :
    l'.Refused (q.run ⟨l', read⟩ s) := by
  have hagree := q.agrees read (hroom.le.trans (heights_le_room q read s l)) s
  generalize q.run ⟨l', read⟩ s = x at hagree
  generalize q.run ⟨l, read⟩ s = y at hroom hagree
  cases hagree with
  | same h' => exact absurd hroom (Nat.not_lt.2 h')
  | refused hx he _ _ =>
    obtain ⟨what, rfl⟩ := he
    exact ⟨what, hx⟩

end

/-! ## Numbers as limits -/

/-- The error is the one of the recursion limit. -/
def Outcome.Limited (o : Outcome Value) : Prop :=
  ∃ e, o.result = .error e ∧ e.kind = .recursionLimit

theorem Limit.limited_of_refused {n : Nat} {o : Outcome Value}
    (h : (Limit.atMost n).Refused o) : o.Limited := by
  obtain ⟨what, h⟩ := h
  exact ⟨_, h, rfl⟩

/-- What is asked, done in a frame of a store under a limit. -/
def Request.under (q : Request) (read : ModuleReader) (s : Store) (id : Nat) (l : Limit) :
    Outcome Value × Store :=
  s.run id (q.run ⟨l, read⟩)

/-- With a number as its limit a run ends in this way.  Zero and negative numbers are no limit, and
a run without one ends in the way that following it further does not change. -/
def Ends {γ : Type} (run : Limit → γ) (limit : Int) (ending : γ) : Prop :=
  if 0 < limit then run (.atMost limit.toNat) = ending
  else ∃ n, ∀ m, n ≤ m → run (.unlimited m) = ending

theorem ends_of_pos {γ : Type} {run : Limit → γ} {limit : Int} (h : 0 < limit) :
    Ends run limit (run (.atMost limit.toNat)) := by
  rw [Ends, if_pos h]

section

variable {q : Request} {read : ModuleReader} {s : Store} {id : Nat} {k : Int}
  {ending : Outcome Value × Store}

/-- A run that ends is one in which some limit has no part. -/
theorem Ends.exists_limit (h : Ends (q.under read s id) k ending) (hl : ¬ending.1.Limited) :
    ∃ l, q.under read s id l = ending ∧ l.Spares ending.1 := by
  unfold Ends at h
  split at h
  · exact ⟨_, h, .inl fun hr => hl (Limit.limited_of_refused hr)⟩
  · -- The run is the same when it is followed one level further, so it does not use the last one.
    obtain ⟨n, hn⟩ := h
    have hroom := heights_le_room q read (s.scope id) (.unlimited n)
    have hlast := hn n (le_refl n)
    have hnext := hn (n + 1) (Nat.le_succ n)
    rw [← hlast] at hnext ⊢
    exact ⟨.unlimited (n + 1), hnext, .inr (Nat.lt_succ_of_le hroom)⟩

/-- A run under a limit uses no more levels than that. -/
theorem Ends.heights_le (h : Ends (q.under read s id) k ending) (hpos : 0 < k) :
    (heights ending.1.record : Int) ≤ k := by
  rw [Ends, if_pos hpos] at h
  have hroom : heights (q.under read s id (.atMost k.toNat)).1.record ≤ k.toNat :=
    heights_le_room q read (s.scope id) (.atMost k.toNat)
  rw [h] at hroom
  omega

/-- A run that ends without an error of the limit is the same under every limit that is enough for
it. -/
theorem Ends.under_eq (h : Ends (q.under read s id) k ending) (hl : ¬ending.1.Limited)
    {l : Limit} (hroom : heights ending.1.record ≤ l.room) : q.under read s id l = ending := by
  obtain ⟨l', rfl, hspares⟩ := h.exists_limit hl
  have hrun := run_eq_of_heights_le q read (s.scope id) hspares hroom
  simp only [Request.under, Store.run, hrun]

theorem Ends.of_heights_le (h : Ends (q.under read s id) k ending) (hl : ¬ending.1.Limited)
    {m : Int} (hm : 0 < m → (heights ending.1.record : Int) ≤ m) :
    Ends (q.under read s id) m ending := by
  unfold Ends
  split
  · next hpos =>
    apply h.under_eq hl
    have := hm hpos
    show _ ≤ m.toNat
    omega
  · exact ⟨_, fun n hn => h.under_eq hl hn⟩

/-- Under a limit that is not enough for it the run ends with an error of the limit. -/
theorem Ends.limited_of_lt (h : Ends (q.under read s id) k ending) (hl : ¬ending.1.Limited)
    {m : Int} (hpos : 0 < m) (hm : m < heights ending.1.record) :
    ∃ ending', Ends (q.under read s id) m ending' ∧ ending'.1.Limited := by
  obtain ⟨l, rfl, -⟩ := h.exists_limit hl
  refine ⟨_, ends_of_pos hpos, Limit.limited_of_refused (n := m.toNat) ?_⟩
  refine refused_of_lt_heights q read (s.scope id) (l := l) ?_
  show m.toNat < heights (q.under read s id l).1.record
  omega

end

/-- The limit is an exact threshold and otherwise unobservable: a run that ends without an error of
the limit is the same under larger limits and without one, and the limits that cut it short are
those below the number of levels that it uses.  A run without a limit is followed far enough unless
it uses more than `unlimitedRoom` levels. -/
theorem ends_iff_heights_le (q : Request) (read : ModuleReader) (s : Store) (id : Nat) :
    (∀ (m : Int) (ending : Outcome Value × Store), 0 < m → Ends (q.under read s id) m ending →
        ¬ending.1.Limited →
        ∀ m' : Int, m ≤ m' ∨ m' ≤ 0 → Ends (q.under read s id) m' ending) ∧
      ∀ (k : Int) (ending : Outcome Value × Store), Ends (q.under read s id) k ending →
        ¬ending.1.Limited →
        (∀ m : Int, 0 < m → m < heights ending.1.record →
            ∃ ending', Ends (q.under read s id) m ending' ∧ ending'.1.Limited) ∧
          (∀ m : Int, 0 < m → (heights ending.1.record : Int) ≤ m →
            Ends (q.under read s id) m ending) ∧
          (heights ending.1.record ≤ unlimitedRoom → q.under read s id (.ofInt k) = ending) := by
  constructor
  · intro m ending hpos h hl m' hm'
    have hroom := h.heights_le hpos
    exact h.of_heights_le hl fun _ => by omega
  · intro k ending h hl
    refine ⟨fun m hpos hm => h.limited_of_lt hl hpos hm,
      fun m _ hm => h.of_heights_le hl fun _ => hm, fun hroom => ?_⟩
    unfold Limit.ofInt Limit.following
    split
    · next hpos =>
      rw [Ends, if_pos hpos] at h
      exact h
    · exact h.under_eq hl hroom

/-- A call among the arguments of a call, of a lambda that prints, in a frame of its own. -/
def callInCall : Limit → Outcome Value × Store :=
  Request.under
    (.eval (.list
      [.list [.keyword .define, .symbol "f",
        .list [.keyword .lambda, .list [.symbol "x"], .list [.keyword .print, .str "a"]]],
       .list [.symbol "f", .list [.symbol "f", .int 1]]]))
    (fun _ => .error "no such file") (Store.new {}) 0

/-- Two levels are enough for a call in a call, and one is not. -/
theorem callInCall_ends :
    Ends callInCall 2 (callInCall (.atMost 2)) ∧ ¬(callInCall (.atMost 2)).1.Limited ∧
      Ends callInCall (-1) (callInCall (.atMost 2)) ∧
      ∃ ending, Ends callInCall 1 ending ∧ ending.1.Limited := by
  have hends : Ends callInCall 2 (callInCall (.atMost 2)) := ends_of_pos (by decide)
  have hlimited : ¬(callInCall (.atMost 2)).1.Limited := by
    rintro ⟨e, he, -⟩
    have hok : (callInCall (.atMost 2)).1.result = .ok (.list []) := by rfl
    rw [hok] at he
    cases he
  obtain ⟨habove, hthreshold⟩ := ends_iff_heights_le _ _ _ _
  exact ⟨hends, hlimited, habove 2 _ (by decide) hends hlimited (-1) (.inr (by decide)),
    (hthreshold 2 _ hends hlimited).1 1 (by decide) (by decide)⟩

end SmallLisp

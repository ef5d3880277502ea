import Mathlib.Data.Rat.Floor
import Mathlib.Tactic.FieldSimp
import Mathlib.Tactic.Linarith
import SmallLisp.Proofs.Eval.Wrapping

/-!
# Division of integers

The quotient of two words is that of the integers, cut off toward zero, and the remainder is what
the cut left over, with the sign of the dividend.  `truncate` says what cutting off is for a
fraction, and `truncate_div` that division of integers does it.

One quotient is no word: the least integer has no counterpart of the other sign.  Divided by minus
one it stays what it is, with no remainder and without a failure.  Quotient times divisor and
remainder still add up to the dividend, modulo `2 ^ 64` (`dividesTo`).

Both operators refuse the divisor zero, and no other (`division_of_words`).
-/

namespace SmallLisp

/-! ## Cutting off toward zero -/

/-- A fraction without what stands behind its point. -/
def truncate (x : ℚ) : Int :=
  if 0 ≤ x then ⌊x⌋ else ⌈x⌉

theorem natAbs_tmod_lt (a : Int) {b : Int} (hb : b ≠ 0) : (a.tmod b).natAbs < b.natAbs := by
  rw [Int.natAbs_tmod]
  exact Nat.mod_lt _ (Int.natAbs_pos.2 hb)

theorem tmod_nonpos {a : Int} (b : Int) (h : a ≤ 0) : a.tmod b ≤ 0 := by
  have hneg := Int.tmod_nonneg b (Int.neg_nonneg_of_nonpos h)
  rw [Int.neg_tmod] at hneg
  omega

/-- A fraction is its quotient and what the remainder adds to it. -/
theorem div_eq_tdiv_add (a : Int) {b : Int} (hb : b ≠ 0) :
    (a : ℚ) / b = a.tdiv b + (a.tmod b : ℚ) / b := by
  have hsplit : (b : ℚ) * a.tdiv b + a.tmod b = a := by
    exact_mod_cast Int.mul_tdiv_add_tmod a b
  have hb' : (b : ℚ) ≠ 0 := Int.cast_ne_zero.2 hb
  field_simp
  linarith

/-- The remainder adds less than one. -/
theorem abs_tmod_div_lt (a : Int) {b : Int} (hb : b ≠ 0) : |(a.tmod b : ℚ) / b| < 1 := by
  have hlt : |a.tmod b| < |b| := by
    rw [Int.abs_eq_natAbs, Int.abs_eq_natAbs]
    exact Int.ofNat_lt.2 (natAbs_tmod_lt a hb)
  rw [abs_div, div_lt_one (abs_pos.2 (Int.cast_ne_zero.2 hb))]
  exact_mod_cast hlt

theorem truncate_div (a : Int) {b : Int} (hb : b ≠ 0) : truncate ((a : ℚ) / b) = a.tdiv b := by
  obtain ⟨hlow, hhigh⟩ := abs_lt.1 (abs_tmod_div_lt a hb)
  have hsplit := div_eq_tdiv_add a hb
  -- The remainder has the sign of the dividend, so what it adds points away from zero.
  rw [truncate]
  split
  · next h =>
    have hplaces : 0 ≤ (a.tmod b : ℚ) / b := by
      rcases div_nonneg_iff.1 h with ⟨ha, hb⟩ | ⟨ha, hb⟩
      · have hm := Int.tmod_nonneg b (Int.cast_nonneg_iff.1 ha)
        exact div_nonneg (Int.cast_nonneg hm) hb
      · have hm := tmod_nonpos b (Int.cast_nonpos.1 ha)
        exact div_nonneg_of_nonpos (Int.cast_nonpos.2 hm) hb
    rw [Int.floor_eq_iff]
    constructor <;> linarith
  · next h =>
    have hplaces : (a.tmod b : ℚ) / b ≤ 0 := by
      rcases div_neg_iff.1 (not_le.1 h) with ⟨ha, hb⟩ | ⟨ha, hb⟩
      · have hm := Int.tmod_nonneg b (Int.cast_pos.1 ha).le
        exact div_nonpos_of_nonneg_of_nonpos (Int.cast_nonneg hm) hb.le
      · have hm := tmod_nonpos b (Int.cast_lt_zero.1 ha).le
        exact div_nonpos_of_nonpos_of_nonneg (Int.cast_nonpos.2 hm) hb.le
    rw [Int.ceil_eq_iff]
    constructor <;> linarith

/-! ## Words -/

/-- The word `l` divided by `r` is `q` with the remainder `m`. -/
structure DividesTo (l r q m : Int64) : Prop where
  congruent : q.toInt * r.toInt + m.toInt ≡ l.toInt [ZMOD 2 ^ 64]
  abs_lt : |m.toInt| < |r.toInt|
  sign : m = 0 ∨ m.toInt.sign = l.toInt.sign
  quotient : ¬ (l = Int64.minValue ∧ r = -1) → q.toInt = truncate (l.toInt / r.toInt)
  overflow : l = Int64.minValue ∧ r = -1 → q = Int64.minValue ∧ m = 0

theorem toInt_ne_zero {r : Int64} (h : r ≠ 0) : r.toInt ≠ 0 :=
  fun hzero => h (Int64.toInt_inj.1 hzero)

theorem dividesTo (l : Int64) {r : Int64} (h : r ≠ 0) : DividesTo l r (l / r) (l % r) where
  congruent := by
    have hdiv : (l / r).toInt ≡ l.toInt.tdiv r.toInt [ZMOD 2 ^ 64] := by
      rw [Int64.toInt_div]
      exact bmod_modEq _
    have hsum := (hdiv.mul_right r.toInt).add_right (l.toInt.tmod r.toInt)
    rw [Int64.toInt_mod]
    rwa [mul_comm (Int.tdiv _ _), Int.mul_tdiv_add_tmod] at hsum
  abs_lt := by
    rw [Int64.toInt_mod, Int.abs_eq_natAbs, Int.abs_eq_natAbs]
    exact Int.ofNat_lt.2 (natAbs_tmod_lt _ (toInt_ne_zero h))
  sign := by
    rw [← Int64.toInt_inj, Int64.toInt_mod, Int.sign_tmod]
    split
    · next hdvd => exact .inl (Int.tmod_eq_zero_of_dvd hdvd)
    · exact .inr rfl
  quotient := by
    intro hfits
    rw [truncate_div _ (toInt_ne_zero h)]
    by_cases hl : l = Int64.minValue
    · exact Int64.toInt_div_of_ne_right l r fun hr => hfits ⟨hl, hr⟩
    · exact Int64.toInt_div_of_ne_left l r hl
  overflow := by
    rintro ⟨rfl, rfl⟩
    decide

/-! ## Forms -/

/-- Evaluates two values, one after the other. -/
def Interpreter.evalBoth (i : Interpreter) (left right : Value) : Evaluation (Value × Value) := do
  let l ← i.eval left
  let r ← i.eval right
  pure (l, r)

theorem eval_operator (i : Interpreter) (op : Operator) (left right : Value) :
    i.eval (.list [.symbol op.name, left, right]) =
      i.evalBoth left right >>= fun values => .ofExcept (op.apply values.1 values.2) := by
  simp only [Interpreter.eval, Interpreter.evalBoth, evalNode_operator, bind_assoc, pure_bind]

/-- What is computed from a result changes nothing else. -/
theorem Store.run_bind_ofExcept {α β : Type} {s t : Store} {id : Nat} {x : Evaluation α} {a : α}
    {own : Bindings} {record : List Activity} (h : s.run id x = (⟨.ok a, own, record⟩, t))
    (f : α → Except Error β) :
    s.run id (x >>= fun a => .ofExcept (f a)) = (⟨f a, own, record⟩, t) := by
  rw [run, Prod.mk.injEq] at h
  obtain ⟨ho, rfl⟩ := h
  rw [run, Evaluation.bind_of_ok ho, ho]
  simp only [Evaluation.ofExcept, List.append_nil]

/-- A quotient and a remainder fail where the divisor is zero, as divisions by zero, and nowhere
else.  All other words have a quotient and a remainder.  The operands may be any forms with integer
values, and nothing happens but what happens in them. -/
theorem division_of_words (i : Interpreter) {s t : Store} {id : Nat} {left right : Value}
    {l r : Int64} {own : Bindings} {record : List Activity}
    (h : s.run id (i.evalBoth left right) = (⟨.ok (.int l, .int r), own, record⟩, t)) :
    ∃ quotient remainder : Except Error Value,
      s.run id (i.eval (.list [.symbol "/", left, right])) = (⟨quotient, own, record⟩, t) ∧
      s.run id (i.eval (.list [.symbol "%", left, right])) = (⟨remainder, own, record⟩, t) ∧
      ((∃ e, quotient = .error e) ↔ r = 0) ∧ ((∃ e, remainder = .error e) ↔ r = 0) ∧
      (∀ e, quotient = .error e ∨ remainder = .error e → e.kind = .divisionByZero) ∧
      (r ≠ 0 → ∃ q m : Int64, quotient = .ok (.int q) ∧ remainder = .ok (.int m) ∧
        DividesTo l r q m) := by
  have hforms : ∀ op : Operator, s.run id (i.eval (.list [.symbol op.name, left, right])) =
      (⟨op.apply (.int l) (.int r), own, record⟩, t) := by
    intro op
    rw [eval_operator]
    exact Store.run_bind_ofExcept h fun values => op.apply values.1 values.2
  refine ⟨_, _, hforms .div, hforms .rem, ?_⟩
  by_cases hr : r = 0
  · have hdiv : Operator.div.apply (.int l) (.int r) = .error (.divisionByZero l .div r) :=
      if_pos hr
    have hrem : Operator.rem.apply (.int l) (.int r) = .error (.divisionByZero l .rem r) :=
      if_pos hr
    rw [hdiv, hrem]
    refine ⟨iff_of_true ⟨_, rfl⟩ hr, iff_of_true ⟨_, rfl⟩ hr, ?_, fun hne => absurd hr hne⟩
    rintro e (⟨⟨⟩⟩ | ⟨⟨⟩⟩) <;> rfl
  · have hdiv : Operator.div.apply (.int l) (.int r) = .ok (.int (l / r)) := if_neg hr
    have hrem : Operator.rem.apply (.int l) (.int r) = .ok (.int (l % r)) := if_neg hr
    rw [hdiv, hrem]
    exact ⟨iff_of_false nofun hr, iff_of_false nofun hr, nofun,
      fun _ => ⟨_, _, rfl, rfl, dividesTo l hr⟩⟩

/-- The least integer, bound to a name, is divided by a difference that is minus one. -/
theorem least_divided :
    let i : Interpreter := ⟨.atMost 1, fun _ => .error "no such file"⟩
    let s := (Store.new {}).set 0 "least" (.int Int64.minValue)
    let right := Value.list [.symbol "-", .int 0, .int 1]
    s.run 0 (i.evalBoth (.symbol "least") right) =
        (⟨.ok (.int Int64.minValue, .int (-1)), s.own 0, []⟩, s) ∧
      s.run 0 (i.eval (.list [.symbol "/", .symbol "least", right])) =
        (⟨.ok (.int Int64.minValue), s.own 0, []⟩, s) ∧
      s.run 0 (i.eval (.list [.symbol "%", .symbol "least", right])) =
        (⟨.ok (.int 0), s.own 0, []⟩, s) := by
  intro i s right
  have hboth : s.run 0 (i.evalBoth (.symbol "least") right) =
      (⟨.ok (.int Int64.minValue, .int (-1)), s.own 0, []⟩, s) := by rfl
  obtain ⟨_, _, hdiv, hrem, -, -, -, hwords⟩ := division_of_words i hboth
  obtain ⟨q, m, rfl, rfl, hdivides⟩ := hwords (by decide)
  obtain ⟨rfl, rfl⟩ := hdivides.overflow ⟨rfl, rfl⟩
  exact ⟨hboth, hdiv, hrem⟩

end SmallLisp

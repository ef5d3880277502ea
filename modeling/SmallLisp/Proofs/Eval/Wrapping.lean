import Mathlib.Data.Int.ModEq
import Mathlib.Tactic.Ring
import SmallLisp.Proofs.Eval.Quiet

/-!
# Integer arithmetic modulo `2 ^ 64`

Integers wrap around in every operation, and a power in every round of its loop.  Since wrapping
around keeps an integer modulo `2 ^ 64`, nothing is lost over a whole expression: its value is the
word that is congruent to what the expression is worth over all integers (`IntExpr.eval_congruent`).

The loop of a power holds a result, a base and an exponent.  `Squaring.worth` is what these stand
for together.  A round keeps it modulo `2 ^ 64` (`Squaring.worth_round`), also where the base has
long wrapped around and in the last round, whose square is not used.  A round also halves the
exponent, so the loop ends, with what `squareMultiply` gives (`Squaring.ends_squareMultiply`).
-/

namespace SmallLisp

/-! ## Words -/

theorem bmod_modEq (z : Int) : z.bmod (2 ^ 64) ≡ z [ZMOD 2 ^ 64] :=
  Int.bmod_emod

theorem toInt_add_modEq (m n : Int64) : (m + n).toInt ≡ m.toInt + n.toInt [ZMOD 2 ^ 64] := by
  rw [Int64.toInt_add]
  exact bmod_modEq _

theorem toInt_sub_modEq (m n : Int64) : (m - n).toInt ≡ m.toInt - n.toInt [ZMOD 2 ^ 64] := by
  rw [Int64.toInt_sub]
  exact bmod_modEq _

theorem toInt_mul_modEq (m n : Int64) : (m * n).toInt ≡ m.toInt * n.toInt [ZMOD 2 ^ 64] := by
  rw [Int64.toInt_mul]
  exact bmod_modEq _

/-! ## The loop of a power -/

namespace Number

/-- What the loop of a power holds. -/
structure Squaring where
  result : Int64
  base : Int64
  exponent : Nat

namespace Squaring

/-- What a loop stands for over all integers. -/
def worth (s : Squaring) : Int :=
  s.result.toInt * s.base.toInt ^ s.exponent

/-- One round: the last binary digit of the exponent is used up. -/
def round (s : Squaring) : Squaring where
  result := if s.exponent % 2 = 1 then s.result * s.base else s.result
  base := s.base * s.base
  exponent := s.exponent / 2

/-- The loop goes on until the exponent is zero, and ends after so many rounds with this result. -/
inductive Ends : Squaring → Nat → Int64 → Prop where
  | stop {s : Squaring} (h : s.exponent = 0) : Ends s 0 s.result
  | round {s : Squaring} {rounds : Nat} {result : Int64} (h : s.exponent ≠ 0)
      (later : Ends s.round rounds result) : Ends s (rounds + 1) result

/-- A round keeps what the loop stands for. -/
theorem worth_round (s : Squaring) : s.round.worth ≡ s.worth [ZMOD 2 ^ 64] := by
  obtain ⟨result, base, exponent⟩ := s
  have hbase : (base * base).toInt ^ (exponent / 2) ≡
      (base.toInt * base.toInt) ^ (exponent / 2) [ZMOD 2 ^ 64] :=
    (toInt_mul_modEq base base).pow _
  have hdigits : exponent = 2 * (exponent / 2) + exponent % 2 := by omega
  rcases Nat.mod_two_eq_zero_or_one exponent with heven | hodd
  · rw [heven, Nat.add_zero] at hdigits
    have hworth : result.toInt * (base.toInt * base.toInt) ^ (exponent / 2) =
        result.toInt * base.toInt ^ exponent := by
      rw [← pow_two, ← pow_mul, ← hdigits]
    simp only [worth, round, heven]
    exact (hbase.mul_left _).trans (hworth ▸ Int.ModEq.refl _)
  · rw [hodd] at hdigits
    have hworth : result.toInt * base.toInt * (base.toInt * base.toInt) ^ (exponent / 2) =
        result.toInt * base.toInt ^ exponent := by
      calc result.toInt * base.toInt * (base.toInt * base.toInt) ^ (exponent / 2)
          = result.toInt * base.toInt ^ (2 * (exponent / 2) + 1) := by ring
        _ = result.toInt * base.toInt ^ exponent := by rw [← hdigits]
    simp only [worth, round, hodd, if_true]
    exact ((toInt_mul_modEq result base).mul hbase).trans (hworth ▸ Int.ModEq.refl _)

/-- A loop that ends has what it stood for as its result. -/
theorem Ends.modEq {s : Squaring} {rounds : Nat} {result : Int64} (h : s.Ends rounds result) :
    result.toInt ≡ s.worth [ZMOD 2 ^ 64] := by
  induction h with
  | @stop s h =>
    rw [worth, h, pow_zero, mul_one]
  | round _ _ ih => exact ih.trans (worth_round _)

/-- The loop ends after at most as many rounds as the exponent has binary digits. -/
theorem ends_squareMultiply :
    ∀ (digits : Nat) (s : Squaring), s.exponent < 2 ^ digits →
      ∃ rounds ≤ digits, s.Ends rounds (squareMultiply digits s.result s.base s.exponent)
  | 0, s, h => by
    rw [pow_zero, Nat.lt_one_iff] at h
    exact ⟨0, Nat.le_refl 0, .stop h⟩
  | digits + 1, s, h => by
    by_cases hzero : s.exponent = 0
    · rw [squareMultiply, if_pos hzero]
      exact ⟨0, Nat.zero_le _, .stop hzero⟩
    · have hhalf : s.round.exponent < 2 ^ digits := by
        rw [pow_succ] at h
        exact Nat.div_lt_of_lt_mul (by omega)
      obtain ⟨rounds, hrounds, hends⟩ := ends_squareMultiply digits s.round hhalf
      rw [squareMultiply, if_neg hzero]
      exact ⟨rounds + 1, Nat.succ_le_succ hrounds, .round hzero hends⟩

end Squaring

/-- The loop of a power ends, after as many rounds as the exponent has binary digits at most. -/
theorem ends_wrappingPower (base : Int64) (e : Nat) :
    ∃ rounds ≤ e.log2 + 1, Squaring.Ends ⟨1, base, e⟩ rounds (wrappingPower base e) :=
  Squaring.ends_squareMultiply (e.log2 + 1) ⟨1, base, e⟩ Nat.lt_log2_self

theorem wrappingPower_modEq (base : Int64) (e : Nat) :
    (wrappingPower base e).toInt ≡ base.toInt ^ e [ZMOD 2 ^ 64] := by
  obtain ⟨rounds, -, hends⟩ := ends_wrappingPower base e
  have hworth : Squaring.worth ⟨1, base, e⟩ = base.toInt ^ e := one_mul _
  exact hworth ▸ hends.modEq

/-- Both the base and the result wrap around on the way. -/
example : wrappingPower 3 41 = -420491770248316829 := by decide

end Number

/-! ## Expressions -/

/-- The operations that have an answer for all integers. -/
inductive RingOperator where
  | add
  | sub
  | mul

namespace RingOperator

/-- The operator of the language. -/
def operator : RingOperator → Operator
  | add => .add
  | sub => .sub
  | mul => .mul

/-- The operation over all integers. -/
def exact : RingOperator → Int → Int → Int
  | add => (· + ·)
  | sub => (· - ·)
  | mul => (· * ·)

/-- On words the operation gives the word of what it gives over all integers. -/
theorem apply_modEq (op : RingOperator) {m n : Int64} {a b : Int}
    (hm : m.toInt ≡ a [ZMOD 2 ^ 64]) (hn : n.toInt ≡ b [ZMOD 2 ^ 64]) :
    ∃ k : Int64, op.operator.apply (.int m) (.int n) = .ok (.int k) ∧
      k.toInt ≡ op.exact a b [ZMOD 2 ^ 64] := by
  cases op with
  | add => exact ⟨m + n, rfl, (toInt_add_modEq m n).trans (hm.add hn)⟩
  | sub => exact ⟨m - n, rfl, (toInt_sub_modEq m n).trans (hm.sub hn)⟩
  | mul => exact ⟨m * n, rfl, (toInt_mul_modEq m n).trans (hm.mul hn)⟩

end RingOperator

/-- An exponent that is not negative has a power. -/
theorem apply_pow_modEq {m k : Int64} (hk : 0 ≤ k) {a : Int} (hm : m.toInt ≡ a [ZMOD 2 ^ 64]) :
    ∃ n : Int64, Operator.pow.apply (.int m) (.int k) = .ok (.int n) ∧
      n.toInt ≡ a ^ k.toInt.toNat [ZMOD 2 ^ 64] := by
  have hpow : Operator.pow.apply (.int m) (.int k) =
      .ok (.int (Number.wrappingPower m k.toInt.toNat)) :=
    if_neg (Int64.not_lt.2 hk)
  exact ⟨_, hpow, (Number.wrappingPower_modEq m _).trans (hm.pow _)⟩

/-- An expression of sums, differences, products and powers.  The exponent of a power is a literal
that is not negative. -/
inductive IntExpr where
  | literal (n : Int64)
  | binary (op : RingOperator) (left right : IntExpr)
  | power (base : IntExpr) (exponent : Int64) (nonneg : 0 ≤ exponent)

namespace IntExpr

/-- How an expression is written as a value. -/
def node : IntExpr → Value
  | literal n => .int n
  | binary op left right => .list [.symbol op.operator.name, left.node, right.node]
  | power base exponent _ => .list [.symbol Operator.pow.name, base.node, .int exponent]

/-- What an expression is worth over all integers. -/
def exact : IntExpr → Int
  | literal n => n.toInt
  | binary op left right => op.exact left.exact right.exact
  | power base exponent _ => base.exact ^ exponent.toInt.toNat

/-- An expression evaluates to a word that is congruent to what it is worth. -/
theorem exists_quiet (c : Context) (s : Scope) (e : IntExpr) :
    ∃ n : Int64, Quiet (evalNode c e.node) s (.ok (.int n)) ∧
      n.toInt ≡ e.exact [ZMOD 2 ^ 64] := by
  induction e with
  | literal n => exact ⟨n, quiet_pure _, rfl⟩
  | binary op left right ihl ihr =>
    obtain ⟨l, hl, hlmod⟩ := ihl
    obtain ⟨r, hr, hrmod⟩ := ihr
    obtain ⟨n, happly, hmod⟩ := op.apply_modEq hlmod hrmod
    exact ⟨n, happly ▸ quiet_operator op.operator hl hr, hmod⟩
  | power base exponent nonneg ih =>
    obtain ⟨b, hb, hbmod⟩ := ih
    obtain ⟨n, happly, hmod⟩ := apply_pow_modEq nonneg hbmod
    exact ⟨n, happly ▸ quiet_operator .pow hb (quiet_pure (Value.int exponent)), hmod⟩

/-- Integer expressions compute exactly modulo `2 ^ 64`.  In every frame an expression evaluates to
the word that is congruent to what it is worth, and nothing else happens.  For a power the loop ends
with the word of the power, whatever the base and the exponent. -/
theorem eval_congruent :
    (∀ (i : Interpreter) (s : Store) (id : Nat) (e : IntExpr), ∃ n : Int64,
        s.run id (i.eval e.node) = (⟨.ok (.int n), s.own id, []⟩, s) ∧
          -2 ^ 63 ≤ n.toInt ∧ n.toInt < 2 ^ 63 ∧ n.toInt ≡ e.exact [ZMOD 2 ^ 64]) ∧
      ∀ (base : Int64) (e : Nat),
        (∃ rounds ≤ e.log2 + 1,
          Number.Squaring.Ends ⟨1, base, e⟩ rounds (Number.wrappingPower base e)) ∧
        (Number.wrappingPower base e).toInt ≡ base.toInt ^ e [ZMOD 2 ^ 64] := by
  refine ⟨fun i s id e => ?_, fun base e =>
    ⟨Number.ends_wrappingPower base e, Number.wrappingPower_modEq base e⟩⟩
  obtain ⟨n, hquiet, hmod⟩ := exists_quiet i.context (s.scope id) e
  exact ⟨n, hquiet.run_eq, n.le_toInt, n.toInt_lt, hmod⟩

end IntExpr

end SmallLisp

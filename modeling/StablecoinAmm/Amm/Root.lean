import Mathlib.Data.Nat.Sqrt
import Mathlib.Tactic.Linarith
import Mathlib.Tactic.Ring
import Mathlib.Tactic.NormNum
import StablecoinAmm.Amm.Math

/-!
# Amm — the integer square root

`integer_sqrt` finds the root digit by digit, in base two, from the top.  With `n` digits still
to be decided, `bit` is `4 ^ (n - 1)`, and for the part `p` of the root decided so far
(`Digits.Decided`)

* `root = p · 2 ^ n` — the doubled partial root, shifted for the digit at hand;
* `remainder = value - p ²`;
* `p ² ≤ value < (p + 2 ^ n) ²`.

A pass of the second loop decides one digit (`Digits.Decided.next`).  At `n = 0` the bit is gone,
`root` is `p`, and `p` is the floor root.  Each loop ends within sixty-four passes, which is the
bound the model gives it: `integerSqrt_eq` is about the bounded loops, `sqrtReturns_iff` about
those of the source.
-/

namespace StablecoinAmm.Amm
open Support

/-! ### The loops -/

theorem shrinkBit_eq (value fuel bit : ℕ) :
    passes (fun bit => bit > value) dropDigit fuel bit = .ok (shrinkBit value fuel bit) := by
  induction fuel generalizing bit with
  | zero => rfl
  | succ fuel ih =>
      rw [passes, shrinkBit]
      split
      · exact ih (bit >>> 2)
      · rfl

theorem rootLoop_eq (fuel : ℕ) (s : Digits) :
    rootLoop fuel s.bit s.remainder s.root =
      (passes (fun s : Digits => s.bit ≠ 0) Digits.next fuel s).map Digits.root := by
  induction fuel generalizing s with
  | zero => rfl
  | succ fuel ih =>
      rw [passes, rootLoop, Digits.next]
      split
      · cases okOr (checkedAdd 128 s.root s.bit) MathError.mathOverflow with
        | error e => rfl
        | ok candidate =>
            rw [ok_bind, ok_bind]
            split
            · cases okOr (checkedSub s.remainder candidate) MathError.mathOverflow with
              | error e => rfl
              | ok remainder =>
                  rw [ok_bind, ok_bind]
                  cases okOr (checkedAdd 128 (s.root >>> 1) s.bit) MathError.mathOverflow with
                  | error e => rfl
                  | ok root => exact ih ⟨s.bit >>> 2, remainder, root⟩
            · exact ih ⟨s.bit >>> 2, s.remainder, s.root >>> 1⟩
      · rfl

/-! ### The first loop -/

/-- `bit` with `n` digits to go. -/
def digitBit : ℕ → ℕ
  | 0 => 0
  | n + 1 => 4 ^ n

theorem shiftRight_four_pow (n : ℕ) : 4 ^ n >>> 2 = digitBit n := by
  rw [Nat.shiftRight_eq_div_pow]
  cases n with
  | zero => rfl
  | succ n => rw [digitBit, Nat.pow_succ]; exact Nat.mul_div_cancel _ (by decide)

/-- The first loop stops at a power of four whose next one exceeds `value`. -/
theorem shrinkBit_spec {value : ℕ} (hv : 1 ≤ value) {n fuel : ℕ} (hn : n ≤ fuel)
    (h : value < 4 ^ (n + 1)) :
    ∃ d, shrinkBit value fuel (4 ^ n) = 4 ^ d ∧ ¬ 4 ^ d > value ∧ d ≤ n ∧ value < 4 ^ (d + 1) := by
  have hpass : ∀ m bit, (bit = 4 ^ m ∧ m ≤ n ∧ value < 4 ^ (m + 1)) → bit > value →
      ∃ k < m, ∃ bit', dropDigit bit = .ok bit' ∧ bit' = 4 ^ k ∧ k ≤ n ∧ value < 4 ^ (k + 1) := by
    rintro m bit ⟨rfl, hm, -⟩ hgt
    cases m with
    | zero => exact absurd hgt (by simp; omega)
    | succ k =>
        refine ⟨k, Nat.lt_succ_self k, _, rfl, ?_, by omega, hgt⟩
        rw [shiftRight_four_pow, digitBit]
  obtain ⟨d, bit, hbit, ⟨rfl, hd, hlt⟩, hstop⟩ := passes_total hpass ⟨rfl, le_rfl, h⟩ hn
  rw [shrinkBit_eq] at hbit
  exact ⟨d, Except.ok.inj hbit, hstop, hd, hlt⟩

/-! ### The second loop -/

/-- The digits of the root above the last `n` are decided: they are `p`. -/
structure Digits.Decided (s : Digits) (value n p : ℕ) : Prop where
  bit : s.bit = digitBit n
  root : s.root = p * 2 ^ n
  remainder : s.remainder + p * p = value
  value_lt : value < (p + 2 ^ n) * (p + 2 ^ n)
  /-- What keeps `root + bit` in a `u128`. -/
  fits : p + 2 ^ n ≤ 2 ^ 64

namespace Digits.Decided
variable {s : Digits} {value n p : ℕ}

/-- **A pass decides a digit.** -/
theorem next (h : s.Decided value (n + 1) p) :
    ∃ p' s', s.next = .ok s' ∧ s'.Decided value n p' := by
  obtain ⟨hbit, hroot, hrem, hlt, hfits⟩ := h
  obtain ⟨x, hx⟩ : ∃ x, x = 2 ^ n := ⟨_, rfl⟩
  have hx2 : 2 ^ (n + 1) = 2 * x := by rw [hx]; ring
  have hbit' : digitBit (n + 1) = x * x := by rw [digitBit, hx, ← Nat.mul_pow]
  have hnext : s.bit >>> 2 = digitBit n := by rw [hbit]; exact shiftRight_four_pow n
  rw [hbit'] at hbit
  rw [hx2] at hroot hlt hfits
  have hhalf : s.root >>> 1 = p * x := by
    rw [hroot, Nat.shiftRight_eq_div_pow, show p * (2 * x) = p * x * 2 ^ 1 by ring]
    exact Nat.mul_div_cancel _ (by decide)
  have hsq : (p + x) * (p + x) = p * p + (p * (2 * x) + x * x) := by ring
  have hsum : p * (2 * x) + x * x < 2 ^ 128 := by
    have hx0 : 0 < x := hx ▸ Nat.two_pow_pos n
    have hpx : p + x < 2 ^ 64 := by omega
    calc p * (2 * x) + x * x ≤ (p + x) * (p + x) := by omega
      _ < 2 ^ 64 * 2 ^ 64 := Nat.mul_lt_mul'' hpx hpx
      _ = 2 ^ 128 := by norm_num
  rw [Digits.next, hnext, hhalf, hroot, hbit, checkedAdd, if_pos hsum, okOr_some, ok_bind]
  by_cases hge : s.remainder ≥ p * (2 * x) + x * x
  · -- the digit is one: `(p + x)² - p²` is taken off the remainder
    have hle : p * x + x * x < 2 ^ 128 := by nlinarith
    rw [if_pos hge, checkedSub, if_pos hge, okOr_some, ok_bind, checkedAdd, if_pos hle, okOr_some,
      ok_bind]
    refine ⟨p + x, _, rfl, rfl, ?_, ?_, ?_, ?_⟩
    · rw [← hx]; ring
    · rw [hsq]; dsimp only; omega
    · rw [← hx, show p + x + x = p + 2 * x by ring]; exact hlt
    · rw [← hx]; omega
  · -- the digit is zero
    rw [if_neg hge]
    refine ⟨p, _, rfl, rfl, ?_, hrem, ?_, ?_⟩
    · rw [← hx]
    · rw [← hx, hsq]; omega
    · rw [← hx]; omega

/-- With no digit to go, the root is found. -/
theorem root_eq (h : s.Decided value 0 p) : s.root = value.sqrt := by
  obtain ⟨-, hroot, hrem, hlt, -⟩ := h
  rw [hroot, Nat.pow_zero, Nat.mul_one]
  exact Nat.eq_sqrt.mpr ⟨by omega, hlt⟩

/-- **The second loop finds the floor root.** -/
theorem ends (h : s.Decided value n p) {fuel : ℕ} (hn : n ≤ fuel) :
    ∃ s', passes (fun s : Digits => s.bit ≠ 0) Digits.next fuel s = .ok s' ∧
      s'.bit = 0 ∧ s'.root = value.sqrt := by
  have hpass : ∀ m (s : Digits), (∃ p, s.Decided value m p) → s.bit ≠ 0 →
      ∃ k < m, ∃ s', s.next = .ok s' ∧ ∃ p, s'.Decided value k p := by
    rintro m s ⟨p, hp⟩ hbit
    cases m with
    | zero => exact absurd hp.bit hbit
    | succ k =>
        obtain ⟨p', s', hs', hp'⟩ := hp.next
        exact ⟨k, Nat.lt_succ_self k, s', hs', p', hp'⟩
  obtain ⟨m, s', hs', ⟨p', hp'⟩, hstop⟩ := passes_total hpass ⟨p, h⟩ hn
  have hzero : s'.bit = 0 := not_not.mp hstop
  cases m with
  | zero => exact ⟨s', hs', hzero, hp'.root_eq⟩
  | succ m =>
      have hpos : 0 < 4 ^ m := Nat.pow_pos (by decide)
      exact absurd (hp'.bit.symm.trans hzero) hpos.ne'

end Digits.Decided

/-! ### `integer_sqrt` -/

/-- Both loops, on a value that needs them. -/
theorem sqrtLoops {value : ℕ} (hv : 2 ≤ value) (h : value < 2 ^ 128) :
    ∃ s, passes (fun s : Digits => s.bit ≠ 0) Digits.next 64
        ⟨shrinkBit value 64 (1 <<< 126), value, 0⟩ = .ok s ∧
      s.bit = 0 ∧ s.root = value.sqrt ∧ ¬ shrinkBit value 64 (1 <<< 126) > value := by
  have hbit : (1 <<< 126 : ℕ) = 4 ^ 63 := by decide +kernel
  obtain ⟨d, hd, hstop, hd63, hlt⟩ :=
    shrinkBit_spec (n := 63) (by omega : 1 ≤ value) (by omega : 63 ≤ 64) (by simpa using h)
  have hpow : 2 ^ (d + 1) ≤ 2 ^ 64 := Nat.pow_le_pow_right (by decide) (by omega)
  rw [hbit, hd]
  have hstart : Digits.Decided ⟨4 ^ d, value, 0⟩ value (d + 1) 0 :=
    { bit := rfl
      root := (Nat.zero_mul _).symm
      remainder := rfl
      value_lt := by rw [Nat.zero_add, ← Nat.mul_pow]; exact hlt
      fits := by omega }
  obtain ⟨s, hs, hzero, hroot⟩ := hstart.ends (by omega : d + 1 ≤ 64)
  exact ⟨s, hs, hzero, hroot, hstop⟩

/-- **`integer_sqrt` is the floor root**, on every `u128`, and never fails. -/
theorem integerSqrt_eq {value : ℕ} (h : value < 2 ^ 128) : integerSqrt value = .ok value.sqrt := by
  by_cases hsmall : value < 2
  · rw [integerSqrt, if_pos hsmall]
    obtain rfl | rfl : value = 0 ∨ value = 1 := by omega
    · rfl
    · rfl
  · obtain ⟨s, hs, -, hroot, -⟩ := sqrtLoops (by omega) h
    have hloop := rootLoop_eq 64 ⟨shrinkBit value 64 (1 <<< 126), value, 0⟩
    rw [hs] at hloop
    rw [integerSqrt, if_neg hsmall, ← hroot]
    exact hloop

theorem SqrtReturns.unique {value : ℕ} {r r' : Except MathError ℕ} (h : SqrtReturns value r)
    (h' : SqrtReturns value r') : r = r' := by
  cases h with
  | small hv =>
      cases h' with
      | small => rfl
      | loops hv' => exact absurd hv hv'
  | loops hv hbit hroot =>
      cases h' with
      | small hv' => exact absurd hv' hv
      | loops _ hbit' hroot' =>
          obtain rfl := Except.ok.inj (hbit.unique hbit')
          rw [hroot.unique hroot']

/-- The loops of the source end, and with what the bounded ones compute. -/
theorem sqrtReturns_iff {value : ℕ} (h : value < 2 ^ 128) {r : Except MathError ℕ} :
    SqrtReturns value r ↔ r = integerSqrt value := by
  have hret : SqrtReturns value (integerSqrt value) := by
    by_cases hsmall : value < 2
    · rw [integerSqrt, if_pos hsmall]
      exact .small hsmall
    · obtain ⟨s, hs, hzero, hroot, hstop⟩ := sqrtLoops (by omega) h
      have hbit : Loop (fun bit => bit > value) dropDigit (1 <<< 126)
          (.ok (shrinkBit value 64 (1 <<< 126))) := .of_passes (shrinkBit_eq value 64 _) hstop
      have hdigits : Loop (fun s : Digits => s.bit ≠ 0) Digits.next
          ⟨shrinkBit value 64 (1 <<< 126), value, 0⟩ (.ok s) :=
        .of_passes hs (not_not_intro hzero)
      rw [integerSqrt_eq h, ← hroot]
      exact SqrtReturns.loops hsmall hbit hdigits
  constructor
  · exact fun hr => hr.unique hret
  · rintro rfl
    exact hret

example : integerSqrt (2 ^ 128 - 1) = .ok (2 ^ 64 - 1) := by decide +kernel

end StablecoinAmm.Amm

import Mathlib.Algebra.Order.Ring.Nat
import Mathlib.Tactic.Common

/-!
# Support — outcomes of fallible code

A handler is a sequence of checks and calls, each of which ends it at the first error.  This
module reads such a sequence both ways: from an outcome back to the checks that passed
(`bind_ok_iff`, `require_ok_iff`), and from assertions about the parts to one about the whole.

`Sat x Q E` says that `x` either returns a value satisfying `Q` or fails with an error
satisfying `E`.  It composes along `>>=` (`Sat.bind`), so one pass over a handler proves what
its success means and which of its errors are still possible.

The checked operations of a machine word of `bits` bits return `none` on overflow.
-/

namespace Support

variable {ε ε' α β : Type}

/-! ### Checks and inversion -/

/-- `c`, or the error `e`. -/
def require (c : Prop) [Decidable c] (e : ε) : Except ε Unit :=
  if c then .ok () else .error e

/-- The value of `o`, or the error `e`. -/
def okOr (o : Option α) (e : ε) : Except ε α :=
  match o with
  | some a => .ok a
  | none => .error e

@[simp] theorem require_ok_iff {c : Prop} [Decidable c] {e : ε} {u : Unit} :
    require c e = .ok u ↔ c := by
  unfold require; split <;> simp_all

@[simp] theorem require_error_iff {c : Prop} [Decidable c] {e e' : ε} :
    require c e = .error e' ↔ ¬ c ∧ e = e' := by
  unfold require; split <;> simp_all

theorem require_of {c : Prop} [Decidable c] (h : c) (e : ε) : require c e = .ok () :=
  if_pos h

theorem require_not {c : Prop} [Decidable c] (h : ¬ c) (e : ε) : require c e = .error e :=
  if_neg h

@[simp] theorem okOr_ok_iff {o : Option α} {e : ε} {a : α} : okOr o e = .ok a ↔ o = some a := by
  cases o <;> simp [okOr]

@[simp] theorem okOr_some (a : α) (e : ε) : okOr (some a) e = .ok a := rfl

theorem isOk_iff {x : Except ε α} : x.isOk ↔ ∃ a, x = .ok a := by
  cases x with
  | error e => exact ⟨nofun, nofun⟩
  | ok a => exact ⟨fun _ => ⟨a, rfl⟩, fun _ => rfl⟩

@[simp] theorem bind_ok_iff {x : Except ε α} {f : α → Except ε β} {b : β} :
    (x >>= f) = .ok b ↔ ∃ a, x = .ok a ∧ f a = .ok b := by
  cases x <;> simp [bind, Except.bind]

@[simp] theorem mapError_ok_iff {f : ε → ε'} {x : Except ε α} {a : α} :
    x.mapError f = .ok a ↔ x = .ok a := by
  cases x <;> simp [Except.mapError]

@[simp] theorem pure_ok_iff {a b : α} : (pure a : Except ε α) = .ok b ↔ a = b := by
  simp [pure, Except.pure]

theorem bind_error_iff {x : Except ε α} {f : α → Except ε β} {e : ε} :
    (x >>= f) = .error e ↔ x = .error e ∨ ∃ a, x = .ok a ∧ f a = .error e := by
  cases x <;> simp [bind, Except.bind]

theorem okOr_error_iff {o : Option α} {e e' : ε} :
    okOr o e = .error e' ↔ o = none ∧ e = e' := by
  cases o <;> simp [okOr]

theorem mapError_error_iff {f : ε → ε'} {x : Except ε α} {e : ε'} :
    x.mapError f = .error e ↔ ∃ e', x = .error e' ∧ f e' = e := by
  cases x <;> simp [Except.mapError]

@[simp] theorem ok_bind (a : α) (f : α → Except ε β) : (Except.ok a >>= f) = f a := rfl

/-! ### Checks as conditionals -/

section
variable {c d : Prop} [Decidable c] [Decidable d] {e : ε} {y : Except ε β}

/-- A check is a conditional, and what follows it may use that it passed. -/
theorem require_bind_eq (hcd : c ↔ ¬ d) {f : Unit → Except ε β} (h : ¬ d → f () = y) :
    (require c e >>= f) = if d then .error e else y := by
  by_cases hd : d
  · rw [if_pos hd, require_not fun hc => hcd.mp hc hd]; rfl
  · rw [if_neg hd, require_of (hcd.mpr hd), ok_bind, h hd]

theorem ite_bind_eq {a : α} {f : α → Except ε β} (h : ¬ c → f a = y) :
    ((if c then .error e else .ok a) >>= f) = if c then .error e else y := by
  by_cases hc : c
  · rw [if_pos hc, if_pos hc]; rfl
  · rw [if_neg hc, if_neg hc, ok_bind, h hc]

/-- Checks with one error after each other are one check. -/
theorem ite_bind_or {a : α} {f : α → Except ε β} (h : ¬ c → f a = if d then .error e else y) :
    ((if c then .error e else .ok a) >>= f) = if c ∨ d then .error e else y := by
  by_cases hc : c
  · rw [if_pos hc, if_pos (.inl hc)]; rfl
  · rw [if_neg hc, ok_bind, h hc]
    exact if_congr (or_iff_right hc).symm rfl rfl

end

/-! ### Assertions about an outcome -/

/-- `x` returns a value satisfying `Q`, or fails with an error satisfying `E`. -/
def Sat (x : Except ε α) (Q : α → Prop) (E : ε → Prop) : Prop :=
  match x with
  | .ok a => Q a
  | .error e => E e

namespace Sat

variable {Q P : α → Prop} {R : β → Prop} {E : ε → Prop}

theorem ok {x : Except ε α} (h : Sat x Q E) {a : α} (hx : x = .ok a) : Q a := by
  subst hx; exact h

theorem error {x : Except ε α} (h : Sat x Q E) {e : ε} (hx : x = .error e) : E e := by
  subst hx; exact h

theorem intro {x : Except ε α} (hQ : ∀ a, x = .ok a → Q a) (hE : ∀ e, x = .error e → E e) :
    Sat x Q E := by
  cases x with
  | ok a => exact hQ a rfl
  | error e => exact hE e rfl

/-- More errors may be admitted. -/
theorem weaken {x : Except ε α} {E' : ε → Prop} (h : Sat x Q E) (hE : ∀ e, E e → E' e) :
    Sat x Q E' :=
  intro (fun _ ha => h.ok ha) fun e he => hE e (h.error he)

theorem pure {a : α} (h : Q a) : Sat (pure a : Except ε α) Q E := h

/-- A success that is known. -/
theorem of_ok {x : Except ε α} {a : α} (hx : x = .ok a) (h : Q a) : Sat x Q E := by
  subst hx; exact h

/-- **The rule of sequencing.** -/
theorem bind {x : Except ε α} {f : α → Except ε β} (hx : Sat x P E)
    (hf : ∀ a, P a → Sat (f a) R E) : Sat (x >>= f) R E := by
  cases x with
  | ok a => exact hf a hx
  | error e => exact hx

/-- A part whose outcome is known. -/
theorem step {x : Except ε α} {a : α} {f : α → Except ε β} (hx : x = .ok a)
    (hf : Sat (f a) R E) : Sat (x >>= f) R E := by
  subst hx; exact hf

theorem fail {x : Except ε α} {e : ε} {f : α → Except ε β} (hx : x = .error e) (he : E e) :
    Sat (x >>= f) R E := by
  subst hx; exact he

/-- A check whose error is one of the admitted ones. -/
theorem require {c : Prop} [Decidable c] {e : ε} {f : Unit → Except ε β} (he : ¬ c → E e)
    (hf : c → Sat (f ()) R E) : Sat (Support.require c e >>= f) R E := by
  by_cases h : c
  · rw [require_of h]; exact hf h
  · simp only [Support.require, if_neg h]; exact he h

/-- A check that cannot fail here, so its error need not be admitted. -/
theorem require_true {c : Prop} [Decidable c] {e : ε} {f : Unit → Except ε β} (hc : c)
    (hf : Sat (f ()) R E) : Sat (Support.require c e >>= f) R E :=
  require (fun h => absurd hc h) fun _ => hf

/-- A partial operation known to be defined. -/
theorem okOr_some {o : Option α} {e : ε} {a : α} {f : α → Except ε β} (ho : o = some a)
    (hf : Sat (f a) R E) : Sat (okOr o e >>= f) R E := by
  subst ho; exact hf

theorem okOr {o : Option α} {e : ε} {f : α → Except ε β} (he : o = none → E e)
    (hf : ∀ a, o = some a → Sat (f a) R E) : Sat (Support.okOr o e >>= f) R E := by
  cases o with
  | none => exact he rfl
  | some a => exact hf a rfl

theorem mapError {x : Except ε' α} {g : ε' → ε} (hQ : ∀ a, x = .ok a → Q a)
    (hE : ∀ e, x = .error e → E (g e)) : Sat (x.mapError g) Q E := by
  cases x with
  | ok a => exact hQ a rfl
  | error e => exact hE e rfl

end Sat

/-! ### Checked machine arithmetic -/

def checkedAdd (bits a b : ℕ) : Option ℕ := if a + b < 2 ^ bits then some (a + b) else none

def checkedMul (bits a b : ℕ) : Option ℕ := if a * b < 2 ^ bits then some (a * b) else none

def checkedSub (a b : ℕ) : Option ℕ := if b ≤ a then some (a - b) else none

def checkedDiv (a b : ℕ) : Option ℕ := if b = 0 then none else some (a / b)

@[simp] theorem checkedAdd_eq_some {bits a b c : ℕ} :
    checkedAdd bits a b = some c ↔ a + b < 2 ^ bits ∧ a + b = c := by
  simp [checkedAdd]

@[simp] theorem checkedMul_eq_some {bits a b c : ℕ} :
    checkedMul bits a b = some c ↔ a * b < 2 ^ bits ∧ a * b = c := by
  simp [checkedMul]

@[simp] theorem checkedSub_eq_some {a b c : ℕ} :
    checkedSub a b = some c ↔ b ≤ a ∧ a - b = c := by
  simp [checkedSub]

@[simp] theorem checkedDiv_eq_some {a b c : ℕ} :
    checkedDiv a b = some c ↔ b ≠ 0 ∧ a / b = c := by
  simp [checkedDiv]

end Support

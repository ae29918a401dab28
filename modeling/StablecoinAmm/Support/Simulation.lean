import StablecoinAmm.Support.Runs

/-!
# Support — an execution that follows another

A program written over more of the machine than another does the same and then some: it keeps
state that the other has not, and it can fail where that state does not suffice.  `Follows R T F`
says of its outcome `x` and the other's outcome `y` that

* if `x` is a value then so is `y`, and the two are related by `R`;
* if `x` is an error then it is one of its own, which `F` admits, or it is `y`'s error, as `T`
  translates it.

It composes along `>>=` (`Follows.bind`), and either side may take a step alone
(`Follows.ahead`, `Follows.passed`).  `Run.follows` carries it from steps to runs: every run of
the larger machine is one of the smaller.
-/

namespace Support

variable {ε δ α β α' β' : Type}

/-- `x` does what `y` does, or fails for a reason of its own. -/
def Follows (R : α → β → Prop) (T : ε → δ → Prop) (F : ε → Prop) (x : Except ε α)
    (y : Except δ β) : Prop :=
  match x, y with
  | .ok a, .ok b => R a b
  | .ok _, .error _ => False
  | .error e, .ok _ => F e
  | .error e, .error d => T e d ∨ F e

namespace Follows

variable {P : α → β → Prop} {R : α' → β' → Prop} {T : ε → δ → Prop} {F : ε → Prop}
  {x : Except ε α} {y : Except δ β} {f : α → Except ε α'} {g : β → Except δ β'}

theorem of_ok (h : Follows P T F x y) {a : α} (hx : x = .ok a) : ∃ b, y = .ok b ∧ P a b := by
  subst hx
  cases y with
  | ok b => exact ⟨b, rfl, h⟩
  | error d => exact absurd h nofun

theorem imp {R : α → β → Prop} (h : Follows P T F x y)
    (hPR : ∀ a b, x = .ok a → y = .ok b → P a b → R a b) : Follows R T F x y := by
  cases x with
  | ok a =>
      cases y with
      | ok b => exact hPR a b rfl rfl h
      | error d => exact h
  | error e => cases y <;> exact h

/-- An error that is not its own is the other's. -/
theorem of_error (h : Follows P T F x y) {e : ε} (hx : x = .error e) :
    F e ∨ ∃ d, y = .error d ∧ T e d := by
  subst hx
  cases y with
  | ok b => exact .inl h
  | error d => exact h.symm.imp id fun ht => ⟨d, rfl, ht⟩

/-- Where it has no reason of its own to fail, it succeeds with the other. -/
theorem ok_iff (h : Follows P T F x y) {c : Prop} (hF : ∀ e, F e → ¬ c) (hP : ∀ a b, P a b → c) :
    (∃ a, x = .ok a) ↔ (∃ b, y = .ok b) ∧ c := by
  constructor
  · rintro ⟨a, hx⟩
    obtain ⟨b, hb, hab⟩ := h.of_ok hx
    exact ⟨⟨b, hb⟩, hP a b hab⟩
  · rintro ⟨⟨b, rfl⟩, hc⟩
    cases x with
    | ok a => exact ⟨a, rfl⟩
    | error e => exact absurd hc (hF e h)

theorem pure {a : α} {b : β} (h : P a b) :
    Follows P T F (pure a : Except ε α) (pure b : Except δ β) := h

/-- **The rule of sequencing.** -/
theorem bind (h : Follows P T F x y) (hfg : ∀ a b, P a b → Follows R T F (f a) (g b)) :
    Follows R T F (x >>= f) (y >>= g) := by
  cases x with
  | ok a =>
      cases y with
      | ok b => exact hfg a b h
      | error d => exact absurd h nofun
  | error e =>
      cases y with
      | ok b =>
          -- the other side goes on, and whatever it comes to, this error is admitted
          change Follows R T F (.error e) (g b)
          cases g b with
          | ok _ => exact h
          | error _ => exact .inr h
      | error d => exact h

/-- A part of its own, before the other goes on. -/
theorem ahead {Q : α → Prop} {y : Except δ β'} (hx : Sat x Q F)
    (hf : ∀ a, Q a → Follows R T F (f a) y) : Follows R T F (x >>= f) y := by
  cases x with
  | ok a => exact hf a hx
  | error e =>
      change Follows R T F (.error e) y
      cases y with
      | ok _ => exact hx
      | error _ => exact .inr hx

/-- The same part on both sides, with the errors of one written as the other's. -/
theorem seq {φ : δ → ε} {y : Except δ α} {g : α → Except δ β'}
    (hT : ∀ d, y = .error d → T (φ d) d) (hfg : ∀ a, y = .ok a → Follows R T F (f a) (g a)) :
    Follows R T F (y.mapError φ >>= f) (y >>= g) := by
  cases y with
  | ok a => exact hfg a rfl
  | error d => exact .inl (hT d rfl)

/-- The same check on both sides. -/
theorem check {φ : δ → ε} {c : Prop} [Decidable c] {d : δ} {f : Unit → Except ε α'}
    {g : Unit → Except δ β'} (hT : T (φ d) d) (hfg : c → Follows R T F (f ()) (g ())) :
    Follows R T F ((require c d).mapError φ >>= f) (require c d >>= g) := by
  by_cases hc : c
  · rw [require_of hc]; exact hfg hc
  · rw [require_not hc]; exact .inl hT

/-- A part of its own that cannot fail here. -/
theorem sure {y : Except δ β'} {a : α} (hx : x = .ok a) (h : Follows R T F (f a) y) :
    Follows R T F (x >>= f) y := by
  subst hx; exact h

/-- A part of the other's that cannot fail here. -/
theorem passed {y : Except δ β} {b : β} {x : Except ε α'} (hy : y = .ok b)
    (h : Follows R T F x (g b)) : Follows R T F x (y >>= g) := by
  subst hy; exact h

/-- Both fail. -/
theorem both {e : ε} {d : δ} (hx : x = .error e) (hy : y = .error d) (hT : T e d) :
    Follows R T F (x >>= f) (y >>= g) := by
  subst hx hy; exact .inl hT

theorem mapError {ε' δ' : Type} {T' : ε' → δ' → Prop} {F' : ε' → Prop} {φ : ε → ε'} {ψ : δ → δ'}
    (hT : ∀ e d, T e d → T' (φ e) (ψ d)) (hF : ∀ e, F e → F' (φ e)) (h : Follows P T F x y) :
    Follows P T' F' (x.mapError φ) (y.mapError ψ) := by
  cases x with
  | ok a =>
      cases y with
      | ok b => exact h
      | error d => exact h
  | error e =>
      cases y with
      | ok b => exact hF e h
      | error d => exact Or.imp (hT e d) (hF e) h

end Follows

/-- **Runs.**  Every step of the larger machine is one of the smaller, or one that it does not
see. -/
theorem Run.follows {S S' A A' E E' : Type} {step : S → A → Except E S}
    {step' : S' → A' → Except E' S'} (view : S → S') (act : A → Option A') {I : S → Prop}
    (hI : ∀ s a s', I s → step s a = .ok s' → I s')
    (hstep : ∀ s a s', I s → step s a = .ok s' →
      (act a).elim (view s' = view s) fun a' => step' (view s) a' = .ok (view s'))
    {s s' : S} {as : List A} (h : Run step s as s') (hs : I s) :
    Run step' (view s) (as.filterMap act) (view s') := by
  induction h with
  | refl => exact .refl _
  | @more s s₁ _ a as h _ ih =>
      have hrest := ih (hI _ _ _ hs h)
      have hhead := hstep _ _ _ hs h
      cases ha : act a with
      | none =>
          rw [ha] at hhead
          rw [List.filterMap_cons_none ha]
          exact hhead ▸ hrest
      | some a' =>
          rw [ha] at hhead
          rw [List.filterMap_cons_some ha]
          exact .more hhead hrest

end Support

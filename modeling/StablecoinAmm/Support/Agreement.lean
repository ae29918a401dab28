import StablecoinAmm.Support.Runs

/-!
# Support — two executions side by side

`Agree R x y` says that the outcomes `x` and `y` are values related by `R`, or one and the same
error.  It composes along `>>=` (`Agree.bind`), so one pass over a handler compares what it does
in two states.

The second half is about two histories of attempts that show an observer the same actions.
`Unwinds` has the conditions on a single step under which the observer cannot tell them apart:
what it sees agrees from related states, and what it does not see stays within the relation.
`Unwinds.sound` carries them to histories of any length.
-/

namespace Support

variable {ε ε' α α' β β' γ : Type}

/-! ### Outcomes -/

/-- Values related by `R`, or the same error. -/
def Agree (R : α → α' → Prop) (x : Except ε α) (y : Except ε α') : Prop :=
  match x, y with
  | .ok a, .ok b => R a b
  | .error e, .error e' => e = e'
  | _, _ => False

namespace Agree

variable {P : α → α' → Prop} {R : β → β' → Prop} {x : Except ε α} {y : Except ε α'}
  {f : α → Except ε β} {g : α' → Except ε β'}

theorem imp {Q : α → α' → Prop} (h : Agree P x y)
    (hPQ : ∀ a b, x = .ok a → y = .ok b → P a b → Q a b) : Agree Q x y := by
  cases x with
  | ok a =>
      cases y with
      | ok b => exact hPQ a b rfl rfl h
      | error e => exact h
  | error e =>
      cases y with
      | ok b => exact h
      | error e' => exact h

theorem pure {a : α} {b : α'} (h : P a b) :
    Agree P (pure a : Except ε α) (pure b : Except ε α') := h

/-- Both outcomes are known. -/
theorem of_ok {a : α} {b : α'} (hx : x = .ok a) (hy : y = .ok b) (h : P a b) : Agree P x y := by
  subst hx hy; exact h

/-- **The rule of sequencing.** -/
theorem bind (h : Agree P x y)
    (hfg : ∀ a b, x = .ok a → y = .ok b → P a b → Agree R (f a) (g b)) :
    Agree R (x >>= f) (y >>= g) := by
  cases x with
  | ok a =>
      cases y with
      | ok b => exact hfg a b rfl rfl h
      | error e => exact absurd h nofun
  | error e =>
      cases y with
      | ok b => exact absurd h nofun
      | error e' => exact h

/-- Equal parts. -/
theorem seq {x y : Except ε α} {g : α → Except ε β'} (h : x = y)
    (hfg : ∀ a, x = .ok a → y = .ok a → Agree R (f a) (g a)) :
    Agree R (x >>= f) (y >>= g) := by
  subst h
  cases x with
  | ok a => exact hfg a rfl rfl
  | error e => exact rfl

/-- Parts whose outcomes are known. -/
theorem step {a : α} {b : α'} (hx : x = .ok a) (hy : y = .ok b) (hfg : Agree R (f a) (g b)) :
    Agree R (x >>= f) (y >>= g) := by
  subst hx hy; exact hfg

/-- A check that both pass, or neither. -/
theorem require {c d : Prop} [Decidable c] [Decidable d] {e : ε} {f : Unit → Except ε β}
    {g : Unit → Except ε β'} (hcd : c ↔ d) (hfg : c → d → Agree R (f ()) (g ())) :
    Agree R (Support.require c e >>= f) (Support.require d e >>= g) := by
  by_cases h : c
  · rw [require_of h, require_of (hcd.mp h)]; exact hfg h (hcd.mp h)
  · rw [require_not h, require_not (mt hcd.mpr h)]; exact rfl

/-- A partial value that both have, or neither, and that looks the same through `φ`. -/
theorem of_map {φ : α → γ} {o o' : Option α} (h : o'.map φ = o.map φ) (e : ε) :
    Agree (fun a b => φ b = φ a) (Support.okOr o e) (Support.okOr o' e) := by
  cases o with
  | none =>
      obtain rfl := Option.map_eq_none_iff.mp h
      exact rfl
  | some a =>
      obtain ⟨b, rfl, hb⟩ := Option.map_eq_some_iff.mp h
      exact hb

theorem okOr {φ : α → γ} {o o' : Option α} {e : ε} {g : α → Except ε β'}
    (h : o'.map φ = o.map φ)
    (hfg : ∀ a b, o = some a → o' = some b → φ b = φ a → Agree R (f a) (g b)) :
    Agree R (Support.okOr o e >>= f) (Support.okOr o' e >>= g) :=
  (of_map h e).bind fun a b ha hb hab => hfg a b (okOr_ok_iff.mp ha) (okOr_ok_iff.mp hb) hab

theorem mapError {φ : ε → ε'} (h : Agree P x y) : Agree P (x.mapError φ) (y.mapError φ) := by
  cases x with
  | ok a =>
      cases y with
      | ok b => exact h
      | error e => exact h
  | error e =>
      cases y with
      | ok b => exact h
      | error e' => exact congrArg φ h

end Agree

/-! ### Histories of attempts -/

section Histories
variable {S A E : Type}

/-- The error of an outcome, if it is one. -/
def errorOf : Except E S → Option E
  | .ok _ => none
  | .error e => some e

/-- The state after an attempt; one that fails changes nothing. -/
def attempt (step : S → A → Except E S) (s : S) (a : A) : S := (step s a).toOption.getD s

/-- The state after a history of attempts. -/
def attempts (step : S → A → Except E S) (s : S) (as : List A) : S := as.foldl (attempt step) s

/-- How the attempts that `seen` selects end, in their order. -/
def verdicts (step : S → A → Except E S) (seen : A → Bool) : S → List A → List (Option E)
  | _, [] => []
  | s, a :: as =>
      if seen a then
        errorOf (step s a) :: verdicts step seen (attempt step s a) as
      else
        verdicts step seen (attempt step s a) as

variable {step : S → A → Except E S} {I : S → Prop} {R : S → S → Prop} {seen : A → Bool}
  {C : A → Prop} {s t s' : S} {a : A}

theorem attempt_ok (h : step s a = .ok s') : attempt step s a = s' := by
  rw [attempt, h]; rfl

theorem attempt_error {e : E} (h : step s a = .error e) : attempt step s a = s := by
  rw [attempt, h]; rfl

/-- What every successful step keeps, every attempt keeps. -/
theorem attempt_invariant (hstep : ∀ s a s', I s → step s a = .ok s' → I s') (hs : I s) (a : A) :
    I (attempt step s a) := by
  cases h : step s a with
  | ok s' => rw [attempt_ok h]; exact hstep s a s' hs h
  | error e => rw [attempt_error h]; exact hs

theorem attempts_invariant (hstep : ∀ s a s', I s → step s a = .ok s' → I s') (hs : I s)
    (as : List A) : I (attempts step s as) := by
  induction as generalizing s with
  | nil => exact hs
  | cons a as ih => exact ih (attempt_invariant hstep hs a)

/-- Agreeing attempts lead from related states to related states, and end alike. -/
theorem Agree.attempt (h : Agree R (step s a) (step t a)) (hst : R s t) :
    R (Support.attempt step s a) (Support.attempt step t a) ∧
      errorOf (step s a) = errorOf (step t a) := by
  unfold Support.attempt
  revert h
  cases step s a with
  | ok s' =>
      cases step t a with
      | ok t' => exact fun h => ⟨h, rfl⟩
      | error e => exact fun h => absurd h nofun
  | error e =>
      cases step t a with
      | ok t' => exact fun h => absurd h nofun
      | error e' => exact fun h => ⟨hst, congrArg some h⟩

/-- **The unwinding conditions**, for actions that satisfy `C` in states that satisfy `I`. -/
structure Unwinds (step : S → A → Except E S) (I : S → Prop) (R : S → S → Prop)
    (seen : A → Bool) (C : A → Prop) : Prop where
  symm : ∀ {s t}, R s t → R t s
  trans : ∀ {s t u}, R s t → R t u → R s u
  keeps : ∀ s a s', I s → step s a = .ok s' → I s'
  agree : ∀ {s t a}, I s → I t → R s t → C a → seen a → Agree R (step s a) (step t a)
  unseen : ∀ {s s' a}, I s → C a → ¬ seen a → step s a = .ok s' → R s s'

namespace Unwinds

/-- A history and what is seen of it. -/
theorem filter (h : Unwinds step I R seen C) (hs : I s) (ht : I t) (hst : R s t) {as : List A}
    (has : ∀ a ∈ as, C a) :
    R (attempts step s as) (attempts step t (as.filter seen)) ∧
      verdicts step seen s as = verdicts step seen t (as.filter seen) := by
  induction as generalizing s t with
  | nil => exact ⟨hst, rfl⟩
  | cons a as ih =>
      have ha := has a List.mem_cons_self
      have has' : ∀ b ∈ as, C b := fun b hb => has b (List.mem_cons_of_mem _ hb)
      have hs₁ := attempt_invariant h.keeps hs a
      by_cases hseen : seen a
      · obtain ⟨hst₁, herr⟩ := (h.agree hs ht hst ha hseen).attempt hst
        obtain ⟨hR, hv⟩ := ih hs₁ (attempt_invariant h.keeps ht a) hst₁ has'
        rw [List.filter_cons_of_pos hseen, verdicts, verdicts, if_pos hseen, if_pos hseen, herr, hv]
        exact ⟨hR, rfl⟩
      · have hst₁ : R (attempt step s a) t := by
          cases hstep : step s a with
          | ok s' =>
              rw [attempt_ok hstep]
              exact h.trans (h.symm (h.unseen hs ha hseen hstep)) hst
          | error e => rw [attempt_error hstep]; exact hst
        rw [List.filter_cons_of_neg hseen, verdicts, if_neg hseen]
        exact ih hs₁ ht hst₁ has'

/-- **Two histories in which the same is seen**: they end in related states, and what is seen
ends alike in both. -/
theorem sound (h : Unwinds step I R seen C) (hs : I s) (ht : I t) (hst : R s t) {as bs : List A}
    (has : ∀ a ∈ as, C a) (hbs : ∀ b ∈ bs, C b) (heq : as.filter seen = bs.filter seen) :
    R (attempts step s as) (attempts step t bs) ∧
      verdicts step seen s as = verdicts step seen t bs := by
  have htt := h.trans (h.symm hst) hst
  obtain ⟨hR, hv⟩ := h.filter hs ht hst has
  obtain ⟨hR', hv'⟩ := h.filter ht ht htt hbs
  rw [heq] at hR hv
  exact ⟨h.trans hR (h.symm hR'), hv.trans hv'.symm⟩

end Unwinds

end Histories

end Support

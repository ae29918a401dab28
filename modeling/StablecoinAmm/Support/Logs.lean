import Mathlib.Algebra.Order.Monoid.Defs
import Mathlib.Tactic.Abel
import StablecoinAmm.Support.Runs

/-!
# Support — machines that keep a log

A machine may write as it runs: `emit s a` is what the action `a` writes when it succeeds in the
state `s`, and `logAlong` what a run has written.  Whoever reads the log sees neither states nor
actions.

* `Run.replay`: if every step changes a view of the state as what it wrote says, the view after a
  run is the one before it, with the log applied.
* `Run.reconcile`: a quantity that every step moves by the credits and debits it wrote, and by
  what it lost unwritten, moves over a run by the sums.
* `Run.bound`: the same for a quantity that the steps, if they are all of one kind, move by no
  more than that.
-/

namespace Support

variable {S A E V : Type} {step : S → A → Except E S} {emit : S → A → List V}

/-- What the actions `as` write, each in the state in which it is taken. -/
def logAlong (step : S → A → Except E S) (emit : S → A → List V) : S → List A → List V
  | _, [] => []
  | s, a :: as => emit s a ++ (step s a).toOption.elim [] fun s' => logAlong step emit s' as

theorem logAlong_cons {s s' : S} {a : A} (h : step s a = .ok s') (as : List A) :
    logAlong step emit s (a :: as) = emit s a ++ logAlong step emit s' as := by
  rw [logAlong, h]; rfl

namespace Run

variable {I : S → Prop} {s s' : S} {as : List A}

/-- **Replay.**  A view that each step changes by what it wrote is the log, applied. -/
theorem replay {W : Type} {view : S → W} {apply : W → V → W}
    (hI : ∀ s a s', I s → step s a = .ok s' → I s')
    (hstep : ∀ s a s', I s → step s a = .ok s' → view s' = (emit s a).foldl apply (view s))
    (h : Run step s as s') (hs : I s) :
    view s' = (logAlong step emit s as).foldl apply (view s) := by
  induction h with
  | refl => rfl
  | more h _ ih =>
      rw [logAlong_cons h, List.foldl_append, ← hstep _ _ _ hs h]
      exact ih (hI _ _ _ hs h)

/-- **Double entry.**  `lost` is what an action takes away without writing it down. -/
theorem reconcile {M : Type} [AddCommMonoid M] {q : S → M} {credit debit : V → M} {lost : A → M}
    (hI : ∀ s a s', I s → step s a = .ok s' → I s')
    (hstep : ∀ s a s', I s → step s a = .ok s' →
      q s' + ((emit s a).map debit).sum + lost a = q s + ((emit s a).map credit).sum)
    (h : Run step s as s') (hs : I s) :
    q s' + ((logAlong step emit s as).map debit).sum + (as.map lost).sum =
      q s + ((logAlong step emit s as).map credit).sum := by
  induction h with
  | refl => simp [logAlong]
  | @more s s₁ s' a as h _ ih =>
      have hrest := ih (hI _ _ _ hs h)
      have hhead := hstep _ _ _ hs h
      rw [logAlong_cons h, List.map_append, List.sum_append, List.map_append, List.sum_append,
        List.map_cons, List.sum_cons]
      calc q s' + (((emit s a).map debit).sum + ((logAlong step emit s₁ as).map debit).sum) +
            (lost a + (as.map lost).sum)
          = (q s' + ((logAlong step emit s₁ as).map debit).sum + (as.map lost).sum) +
              ((emit s a).map debit).sum + lost a := by abel
        _ = (q s₁ + ((emit s a).map debit).sum + lost a) +
              ((logAlong step emit s₁ as).map credit).sum := by rw [hrest]; abel
        _ = q s + (((emit s a).map credit).sum + ((logAlong step emit s₁ as).map credit).sum) := by
              rw [hhead, add_assoc]

/-- **Bounds.**  `C` says of which kind the actions are. -/
theorem bound {M : Type} [AddCommMonoid M] [PartialOrder M] [IsOrderedAddMonoid M] {C : A → Prop}
    {q : S → M} {gain cost : V → M} (hI : ∀ s a s', I s → step s a = .ok s' → I s')
    (hstep : ∀ s a s', I s → C a → step s a = .ok s' →
      q s + ((emit s a).map gain).sum ≤ q s' + ((emit s a).map cost).sum)
    (h : Run step s as s') (hs : I s) (hC : ∀ a ∈ as, C a) :
    q s + ((logAlong step emit s as).map gain).sum ≤
      q s' + ((logAlong step emit s as).map cost).sum := by
  induction h with
  | refl => simp [logAlong]
  | @more s s₁ s' a as h _ ih =>
      have hrest := ih (hI _ _ _ hs h) fun b hb => hC b (List.mem_cons_of_mem _ hb)
      have hhead := hstep _ _ _ hs (hC a List.mem_cons_self) h
      rw [logAlong_cons h, List.map_append, List.sum_append, List.map_append, List.sum_append]
      calc q s + (((emit s a).map gain).sum + ((logAlong step emit s₁ as).map gain).sum)
          = q s + ((emit s a).map gain).sum + ((logAlong step emit s₁ as).map gain).sum :=
            (add_assoc ..).symm
        _ ≤ q s₁ + ((emit s a).map cost).sum + ((logAlong step emit s₁ as).map gain).sum :=
            add_le_add_left hhead _
        _ = q s₁ + ((logAlong step emit s₁ as).map gain).sum + ((emit s a).map cost).sum := by abel
        _ ≤ q s' + ((logAlong step emit s₁ as).map cost).sum + ((emit s a).map cost).sum :=
            add_le_add_left hrest _
        _ = q s' + (((emit s a).map cost).sum + ((logAlong step emit s₁ as).map cost).sum) := by
            abel

end Run

end Support

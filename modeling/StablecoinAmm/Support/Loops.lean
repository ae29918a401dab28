import StablecoinAmm.Support.Outcome

/-!
# Support — `while` loops

A loop is a guard and a body that may fail.  `Loop guard body s r` says that the loop, entered in
`s`, ends with `r`; a loop that goes on for ever ends with nothing.

* `Loop.unique`: a loop ends in one way at most.
* `passes`: the executable form, cut off after a number of passes.  Where it leaves the loop with
  the guard off, the loop ends there (`Loop.of_passes`).
* `passes_total`: an invariant that counts the passes to come keeps the cut-off from being
  reached, and holds at the end.
-/

namespace Support

variable {S E : Type} {guard : S → Prop} {body : S → Except E S}

/-- `while guard { body }`, entered in `s`, ends with `r`. -/
inductive Loop (guard : S → Prop) (body : S → Except E S) : S → Except E S → Prop where
  | exit {s : S} (h : ¬ guard s) : Loop guard body s (.ok s)
  | fail {s : S} {e : E} (h : guard s) (hb : body s = .error e) : Loop guard body s (.error e)
  | next {s s' : S} {r : Except E S} (h : guard s) (hb : body s = .ok s')
      (t : Loop guard body s' r) : Loop guard body s r

theorem Loop.unique {s : S} {r r' : Except E S} (h : Loop guard body s r)
    (h' : Loop guard body s r') : r = r' := by
  induction h with
  | exit hg =>
      cases h' with
      | exit => rfl
      | fail hg' => exact absurd hg' hg
      | next hg' => exact absurd hg' hg
  | fail hg hb =>
      cases h' with
      | exit hg' => exact absurd hg hg'
      | fail _ hb' => exact hb.symm.trans hb'
      | next _ hb' => cases hb.symm.trans hb'
  | next hg hb _ ih =>
      cases h' with
      | exit hg' => exact absurd hg hg'
      | fail _ hb' => cases hb.symm.trans hb'
      | next _ hb' t' =>
          obtain rfl := Except.ok.inj (hb.symm.trans hb')
          exact ih t'

variable [DecidablePred guard]

/-- The loop, cut off after `fuel` passes. -/
def passes (guard : S → Prop) [DecidablePred guard] (body : S → Except E S) :
    ℕ → S → Except E S
  | 0, s => pure s
  | fuel + 1, s => if guard s then body s >>= passes guard body fuel else pure s

theorem Loop.of_passes {fuel : ℕ} {s s' : S} (h : passes guard body fuel s = .ok s')
    (hs' : ¬ guard s') : Loop guard body s (.ok s') := by
  induction fuel generalizing s with
  | zero =>
      obtain rfl := pure_ok_iff.mp h
      exact .exit hs'
  | succ fuel ih =>
      rw [passes] at h
      split at h
      · rename_i hg
        obtain ⟨s₁, hb, h⟩ := bind_ok_iff.mp h
        exact .next hg hb (ih h)
      · obtain rfl := pure_ok_iff.mp h
        exact .exit hs'

/-- **Total correctness.**  `I n s` bounds the passes to come by `n`; `fuel` passes suffice. -/
theorem passes_total {I : ℕ → S → Prop}
    (hbody : ∀ n s, I n s → guard s → ∃ m < n, ∃ s', body s = .ok s' ∧ I m s')
    {n fuel : ℕ} {s : S} (hI : I n s) (hn : n ≤ fuel) :
    ∃ m s', passes guard body fuel s = .ok s' ∧ I m s' ∧ ¬ guard s' := by
  induction fuel generalizing n s with
  | zero =>
      refine ⟨n, s, rfl, hI, fun hg => ?_⟩
      obtain ⟨m, hm, -⟩ := hbody n s hI hg
      omega
  | succ fuel ih =>
      rw [passes]
      split
      · rename_i hg
        obtain ⟨m, hm, s₁, hb, hI₁⟩ := hbody n s hI hg
        rw [hb]
        exact ih hI₁ (by omega)
      · rename_i hg
        exact ⟨n, s, rfl, hI, hg⟩

end Support

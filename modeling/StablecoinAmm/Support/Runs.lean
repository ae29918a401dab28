import StablecoinAmm.Support.Outcome

/-!
# Support — runs of a fallible machine

A machine is a function `step : S → A → Except E S`.  A run (`Run step s as s'`) performs the
actions `as` from `s` to `s'`, each of them successfully; an action that fails leaves no trace,
so every history of attempts is a run of the attempts that succeeded.

* `Run.invariant`: a property every step keeps holds after every run.
* `Run.throughout`: one that only some steps keep holds in every state of a run made of these.
* `Run.invariant_of_mem`: where these steps are known by their actions alone.
* `Run.history`: the property may depend on a history variable that the actions update.
* `Run.past`: or on everything done so far.
* `Run.tally`: a quantity every action moves by a fixed amount moves, over a run, by the sum,
  where the steps may assume an invariant.
* `sumAlong`: the sum of amounts that depend on the states passed through.
* `Run.budget`: a quantity that every action raises by what it gains, or more, if it is given back
  what the action costs and what an earlier one left owing.
* `answers`: a machine whose every answer determines its next state.
-/

namespace Support

variable {S A E : Type}

/-- The actions `as`, all successful, lead from `s` to `s'`. -/
inductive Run (step : S → A → Except E S) : S → List A → S → Prop where
  | refl (s : S) : Run step s [] s
  | more {s s₁ s' : S} {a : A} {as : List A}
      (h : step s a = .ok s₁) (t : Run step s₁ as s') : Run step s (a :: as) s'

/-- `s` is the end of a run from an initial state. -/
def Reachable (step : S → A → Except E S) (init : S → Prop) (s : S) : Prop :=
  ∃ s₀ as, init s₀ ∧ Run step s₀ as s

/-- Every state on the way from `s` along `as` satisfies `I`. -/
def Throughout (step : S → A → Except E S) (I : S → Prop) (s : S) (as : List A) : Prop :=
  ∀ bs cs s₁, as = bs ++ cs → Run step s bs s₁ → I s₁

/-- Every action of `as` is taken in a state where `C` allows it. -/
def Along (step : S → A → Except E S) (C : S → A → Prop) (s : S) (as : List A) : Prop :=
  ∀ bs a cs s₁, as = bs ++ a :: cs → Run step s bs s₁ → C s₁ a

namespace Run

variable {step : S → A → Except E S}

theorem one {s s' : S} {a : A} (h : step s a = .ok s') : Run step s [a] s' :=
  .more h (.refl _)

theorem of_one {s s' : S} {a : A} (h : Run step s [a] s') : step s a = .ok s' := by
  cases h with
  | more h t => cases t; exact h

theorem append {s s₁ s' : S} {as bs : List A} (h₁ : Run step s as s₁)
    (h₂ : Run step s₁ bs s') : Run step s (as ++ bs) s' := by
  induction h₁ with
  | refl => exact h₂
  | more h _ ih => exact .more h (ih h₂)

theorem split {s s' : S} {as bs : List A} (h : Run step s (as ++ bs) s') :
    ∃ s₁, Run step s as s₁ ∧ Run step s₁ bs s' := by
  induction as generalizing s with
  | nil => exact ⟨s, .refl s, h⟩
  | cons a as ih =>
      cases h with
      | more h t =>
          obtain ⟨s₁, h₁, h₂⟩ := ih t
          exact ⟨s₁, .more h h₁, h₂⟩

/-- A run is one step after another: the executable form. -/
theorem iff_foldlM {s s' : S} {as : List A} :
    Run step s as s' ↔ as.foldlM step s = .ok s' := by
  constructor
  · intro h
    induction h with
    | refl => rfl
    | more h _ ih => rw [List.foldlM_cons, h]; exact ih
  · intro h
    induction as generalizing s with
    | nil =>
        simp only [List.foldlM_nil, pure_ok_iff] at h
        subst h; exact .refl _
    | cons a as ih =>
        simp only [List.foldlM_cons, bind_ok_iff] at h
        obtain ⟨s₁, h₁, h₂⟩ := h
        exact .more h₁ (ih h₂)

/-- A machine has no choice. -/
theorem unique {s s₁ s₂ : S} {as : List A} (h₁ : Run step s as s₁) (h₂ : Run step s as s₂) :
    s₁ = s₂ :=
  Except.ok.inj ((iff_foldlM.mp h₁).symm.trans (iff_foldlM.mp h₂))

theorem invariant {I : S → Prop} (hstep : ∀ s a s', I s → step s a = .ok s' → I s')
    {s s' : S} {as : List A} (h : Run step s as s') (hs : I s) : I s' := by
  induction h with
  | refl => exact hs
  | more h _ ih => exact ih (hstep _ _ _ hs h)

/-- An invariant that only the steps satisfying `C` keep, along a run all of whose steps do. -/
theorem invariant_along {I : S → Prop} {C : S → A → Prop}
    (hstep : ∀ s a s', I s → C s a → step s a = .ok s' → I s') {s s' : S} {as : List A}
    (h : Run step s as s') (hs : I s) (hC : Along step C s as) : I s' := by
  induction h with
  | refl => exact hs
  | @more s _ _ a as h _ ih =>
      refine ih (hstep _ _ _ hs (hC [] a as s rfl (.refl _)) h) ?_
      intro bs b cs s₁ has hr
      exact hC (a :: bs) b cs s₁ (by rw [has]; rfl) (.more h hr)

/-- Such an invariant holds in every state of the run. -/
theorem throughout {I : S → Prop} {C : S → A → Prop}
    (hstep : ∀ s a s', I s → C s a → step s a = .ok s' → I s') {s : S} {as : List A} (hs : I s)
    (hC : Along step C s as) : Throughout step I s as := by
  intro bs cs s₁ has hr
  refine hr.invariant_along hstep hs ?_
  intro ds a es s₂ hbs hr'
  exact hC ds a (es ++ cs) s₂ (by rw [has, hbs, List.append_assoc, List.cons_append]) hr'

/-- An invariant that only some actions keep, after a run of these. -/
theorem invariant_of_mem {I : S → Prop} {s s' : S} {as : List A} (h : Run step s as s')
    (hs : I s) (hstep : ∀ v a v', I v → a ∈ as → step v a = .ok v' → I v') : I s' := by
  refine h.invariant_along (C := fun _ a => a ∈ as) hstep hs ?_
  intro bs a cs _ has _
  rw [has]
  exact List.mem_append_right _ List.mem_cons_self

/-- An invariant that speaks of the past: `g` is what the actions so far have left in a history
variable. -/
theorem history {G : Type} {upd : G → A → G} {I : G → S → Prop}
    (hstep : ∀ g s a s', I g s → step s a = .ok s' → I (upd g a) s') {s s' : S} {as : List A}
    (h : Run step s as s') {g : G} (hs : I g s) : I (as.foldl upd g) s' := by
  induction h generalizing g with
  | refl => exact hs
  | more h _ ih => exact ih (hstep _ _ _ _ hs h)

/-- An invariant that speaks of the whole past. -/
theorem past {I : List A → S → Prop} {s s' : S} {as : List A} (h : Run step s as s') (h₀ : I [] s)
    (hstep : ∀ bs s₁ a s₂, Run step s bs s₁ → I bs s₁ → step s₁ a = .ok s₂ → I (bs ++ [a]) s₂) :
    I as s' := by
  have key : ∀ {s₁ cs}, Run step s₁ cs s' → ∀ bs, Run step s bs s₁ → I bs s₁ → I (bs ++ cs) s' := by
    clear h
    intro s₁ cs t
    induction t with
    | refl => exact fun bs _ hI => (List.append_nil bs).symm ▸ hI
    | @more _ _ _ a cs h _ ih =>
        intro bs t hI
        have hI' := ih (bs ++ [a]) (t.append (.one h)) (hstep _ _ _ _ t hI h)
        rwa [List.append_assoc, List.singleton_append] at hI'
  exact key h [] (.refl s) h₀

/-- **A quantity along a run.**  If every action `a` raises `q` by `w a`, a run raises it by the
sum over its actions. -/
theorem tally {I : S → Prop} (hI : ∀ s a s', I s → step s a = .ok s' → I s') {q : S → ℕ}
    {w : A → ℕ} (hw : ∀ s a s', I s → step s a = .ok s' → q s' = q s + w a)
    {s s' : S} {as : List A} (h : Run step s as s') (hs : I s) :
    q s' = q s + (as.map w).sum := by
  induction h with
  | refl => simp
  | more h _ ih =>
      rw [ih (hI _ _ _ hs h), hw _ _ _ hs h, List.map_cons, List.sum_cons, Nat.add_assoc]

end Run

/-! ### Sums along a run -/

section Sums
variable {step : S → A → Except E S} {M : Type} [AddMonoid M] {weight : S → A → M}

/-- The weights of the actions `as`, each in the state in which it is taken. -/
def sumAlong (step : S → A → Except E S) (weight : S → A → M) : S → List A → M
  | _, [] => 0
  | s, a :: as => weight s a + (step s a).toOption.elim 0 fun s' => sumAlong step weight s' as

theorem sumAlong_cons {s s' : S} {a : A} (h : step s a = .ok s') (as : List A) :
    sumAlong step weight s (a :: as) = weight s a + sumAlong step weight s' as := by
  rw [sumAlong, h]; rfl

/-- Weights that are smaller where an invariant holds have a smaller sum. -/
theorem Run.sumAlong_le [Preorder M] [AddLeftMono M] [AddRightMono M] {weight' : S → A → M}
    {I : S → Prop} (hI : ∀ s a s', I s → step s a = .ok s' → I s')
    (hle : ∀ s a, I s → weight s a ≤ weight' s a) {s s' : S} {as : List A}
    (h : Run step s as s') (hs : I s) :
    sumAlong step weight s as ≤ sumAlong step weight' s as := by
  induction h with
  | refl => exact le_rfl
  | more h _ ih =>
      rw [sumAlong_cons h, sumAlong_cons h]
      exact add_le_add (hle _ _ hs) (ih (hI _ _ _ hs h))

theorem sumAlong_eq_zero {as : List A} (h : ∀ a ∈ as, ∀ s, weight s a = 0) (s : S) :
    sumAlong step weight s as = 0 := by
  induction as generalizing s with
  | nil => rfl
  | cons a as ih =>
      rw [sumAlong, h a List.mem_cons_self, zero_add]
      cases step s a with
      | error => rfl
      | ok s' => exact ih (fun b hb => h b (List.mem_cons_of_mem _ hb)) s'

/-- **Gains and costs along a run**, where what is owed may be paid later. -/
theorem Run.budget {I : S → Prop} (hI : ∀ s a s', I s → step s a = .ok s' → I s')
    {q debt : S → ℕ} {gain : A → ℕ} {cost : S → A → ℕ}
    (hq : ∀ s a s', I s → step s a = .ok s' →
      q s + gain a + debt s' ≤ q s' + cost s a + debt s)
    {s s' : S} {as : List A} (h : Run step s as s') (hs : I s) :
    q s + (as.map gain).sum + debt s' ≤ q s' + sumAlong step cost s as + debt s := by
  induction h with
  | refl => exact le_rfl
  | more h _ ih =>
      have hstep := hq _ _ _ hs h
      have hrest := ih (hI _ _ _ hs h)
      rw [sumAlong_cons h, List.map_cons, List.sum_cons]
      omega

end Sums

namespace Reachable

variable {step : S → A → Except E S} {init : S → Prop}

theorem run {s s' : S} {as : List A} (h : Reachable step init s) (t : Run step s as s') :
    Reachable step init s' := by
  obtain ⟨s₀, bs, h₀, h₁⟩ := h
  exact ⟨s₀, bs ++ as, h₀, h₁.append t⟩

theorem invariant {I : S → Prop} (h₀ : ∀ s, init s → I s)
    (hstep : ∀ s a s', I s → step s a = .ok s' → I s') {s : S} (h : Reachable step init s) :
    I s := by
  obtain ⟨s₀, as, hi, hr⟩ := h
  exact hr.invariant hstep (h₀ _ hi)

end Reachable

/-! ### Machines that answer -/

section Answers
variable {Q : Type} {ask : S → A → Except E Q} {next : Q → S}

/-- The answers to `as`, asked one after another.  An answer determines the next state. -/
def answers (ask : S → A → Except E Q) (next : Q → S) : S → List A → Except E (List Q)
  | _, [] => pure []
  | s, a :: as => do
      let q ← ask s a
      let qs ← answers ask next (next q) as
      pure (q :: qs)

theorem answers_nil {s : S} {qs : List Q} (h : answers ask next s [] = .ok qs) : qs = [] :=
  (pure_ok_iff.mp h).symm

theorem answers_cons {s : S} {a : A} {as : List A} {qs : List Q}
    (h : answers ask next s (a :: as) = .ok qs) :
    ∃ q qs', ask s a = .ok q ∧ answers ask next (next q) as = .ok qs' ∧ qs = q :: qs' := by
  simp only [answers, bind_ok_iff, pure_ok_iff] at h
  obtain ⟨q, hq, qs', hqs, rfl⟩ := h
  exact ⟨q, qs', hq, hqs, rfl⟩

end Answers

end Support

import Mathlib.Logic.Equiv.Defs
import Mathlib.Logic.Function.Basic
import StablecoinAmm.Support.Agreement

/-!
# Support — steps that touch little

A state is a family of cells, `cells : S ≃ (K → V)`.  An action names the cells it may read, and
among them those it may write.  A `Footprint` has the two laws that make the names true: a step
does the same whatever the cells it does not name hold (`Footprint.reads`), and leaves those it
may not write as they are (`Footprint.writes`).

Actions neither of which writes what the other names are independent.  They commute
(`Footprint.attempt_comm`), so two batches of pairwise independent attempts come out alike however
they are interleaved, and each fares as it would alone (`Footprint.interleaved`).
-/

namespace Support

variable {S K V A E : Type}

/-! ### Splicing states -/

theorem ext_cells (cells : S ≃ (K → V)) {s t : S} (h : ∀ k, cells s k = cells t k) : s = t :=
  cells.injective (funext h)

variable [DecidableEq K]

/-- The cells at `ks` from `s`, the others from `t`. -/
def splice (cells : S ≃ (K → V)) (ks : List K) (s t : S) : S :=
  cells.symm fun k => if k ∈ ks then cells s k else cells t k

section
variable {cells : S ≃ (K → V)} {ks : List K} {s t : S} {k : K}

theorem cells_splice (cells : S ≃ (K → V)) (ks : List K) (s t : S) (k : K) :
    cells (splice cells ks s t) k = if k ∈ ks then cells s k else cells t k := by
  rw [splice, Equiv.apply_symm_apply]

theorem splice_of_agree (h : ∀ k ∈ ks, cells s k = cells t k) : splice cells ks s t = t := by
  refine ext_cells cells fun k => ?_
  rw [cells_splice]
  split
  · rename_i hk
    exact h k hk
  · rfl

theorem splice_self : splice cells ks s s = s := splice_of_agree fun _ _ => rfl

/-- A write to a cell that is taken from the first state. -/
theorem update_ite {f g : K → V} (hk : k ∈ ks) (v : V) :
    Function.update (fun j => if j ∈ ks then f j else g j) k v =
      fun j => if j ∈ ks then Function.update f k v j else g j := by
  funext j
  by_cases hj : j = k
  · subst hj
    rw [Function.update_self, Function.update_self, if_pos hk]
  · rw [Function.update_of_ne hj, Function.update_of_ne hj]

end

theorem map_ite {α β : Type} (f : α → β) (c : Prop) [Decidable c] (x y : Except E α) :
    f <$> (if c then x else y) = if c then f <$> x else f <$> y := by
  split <;> rfl

/-! ### Batches of attempts -/

/-- The attempts of a batch, each with its outcome. -/
def reports (step : S → A → Except E S) (s : S) (as : List A) : List (A × Option E) :=
  as.zip (verdicts step (fun _ => true) s as)

theorem reports_cons (step : S → A → Except E S) (s : S) (a : A)
    (as : List A) :
    reports step s (a :: as) = (a, errorOf (step s a)) :: reports step (attempt step s a) as := by
  rw [reports, verdicts, if_pos rfl, List.zip_cons_cons, reports]

/-- `cs` has the elements of `as` and of `bs`, each in their order. -/
inductive Interleaved {α : Type} : List α → List α → List α → Prop where
  | nil : Interleaved [] [] []
  | left {a : α} {as bs cs : List α} (h : Interleaved as bs cs) :
      Interleaved (a :: as) bs (a :: cs)
  | right {b : α} {as bs cs : List α} (h : Interleaved as bs cs) :
      Interleaved as (b :: bs) (b :: cs)

/-! ### Footprints -/

/-- What the actions of a machine touch, where `I` holds. -/
structure Footprint (cells : S ≃ (K → V)) (step : S → A → Except E S) (I : S → Prop) where
  names : A → List K
  mutable : A → List K
  kept : ∀ s a s', I s → step s a = .ok s' → I s'
  reads : ∀ a s t, step (splice cells (names a) s t) a =
    (fun s' => splice cells (names a) s' t) <$> step s a
  writes : ∀ a s s', I s → step s a = .ok s' → ∀ k, k ∉ mutable a → cells s' k = cells s k

namespace Footprint

variable {cells : S ≃ (K → V)} {step : S → A → Except E S} {I : S → Prop}
  {F : Footprint cells step I} {a b : A} {s s' t : S} {k : K}

/-- What is not named stays. -/
theorem unnamed (F : Footprint cells step I) (h : step s a = .ok s') (hk : k ∉ F.names a) :
    cells s' k = cells s k := by
  have hsame := F.reads a s s
  rw [splice_self, h] at hsame
  rw [Except.ok.inj hsame, cells_splice, if_neg hk]

/-- `a` does not write what `b` names. -/
def Avoids (F : Footprint cells step I) (a b : A) : Prop := ∀ k ∈ F.mutable a, k ∉ F.names b

/-- Neither writes what the other names. -/
def Independent (F : Footprint cells step I) (a b : A) : Prop := F.Avoids a b ∧ F.Avoids b a

theorem Independent.symm (h : F.Independent a b) : F.Independent b a := ⟨h.2, h.1⟩

theorem Avoids.unwritten (hav : F.Avoids a b) (hs : I s) (h : step s a = .ok s')
    (hk : k ∈ F.names b) : cells s' k = cells s k :=
  F.writes a s s' hs h k fun hm => hav k hm hk

/-- **An action does not notice one that avoids it.** -/
theorem Avoids.unnoticed (hav : F.Avoids a b) (hs : I s) (h : step s a = .ok s') :
    step s' b = (fun t => splice cells (F.names b) t s') <$> step s b := by
  rw [← F.reads, splice_of_agree fun k hk => (hav.unwritten hs h hk).symm]

theorem Avoids.errorOf_eq (hav : F.Avoids a b) (hs : I s) :
    errorOf (step (attempt step s a) b) = errorOf (step s b) := by
  cases h : step s a with
  | error e => rw [attempt_error h]
  | ok s' =>
      rw [attempt_ok h, hav.unnoticed hs h]
      cases step s b <;> rfl

/-- **Independent steps commute.** -/
theorem Independent.comm (hi : F.Independent a b) (hs : I s) {s₁ s₂ : S}
    (ha : step s a = .ok s₁) (hb : step s b = .ok s₂) :
    step s₁ b = .ok (splice cells (F.names b) s₂ s₁) ∧
      step s₂ a = .ok (splice cells (F.names b) s₂ s₁) := by
  have hab := hi.1.unnoticed hs ha
  have hba := hi.2.unnoticed hs hb
  rw [hb] at hab
  rw [ha] at hba
  refine ⟨hab, hba.trans (congrArg Except.ok ?_)⟩
  refine ext_cells cells fun k => ?_
  rw [cells_splice, cells_splice]
  by_cases hka : k ∈ F.names a
  · by_cases hkb : k ∈ F.names b
    -- neither writes a cell that both name
    · rw [if_pos hka, if_pos hkb, hi.1.unwritten hs ha hkb, hi.2.unwritten hs hb hka]
    · rw [if_pos hka, if_neg hkb]
  · by_cases hkb : k ∈ F.names b
    · rw [if_neg hka, if_pos hkb]
    · rw [if_neg hka, if_neg hkb, F.unnamed ha hka, F.unnamed hb hkb]

theorem attempt_comm (hi : F.Independent a b) (hs : I s) :
    attempt step (attempt step s a) b = attempt step (attempt step s b) a := by
  cases ha : step s a with
  | ok s₁ =>
      cases hb : step s b with
      | ok s₂ =>
          obtain ⟨h₁, h₂⟩ := hi.comm hs ha hb
          rw [attempt_ok ha, attempt_ok hb, attempt_ok h₁, attempt_ok h₂]
      | error e =>
          have hfail : step s₁ b = .error e := by rw [hi.1.unnoticed hs ha, hb]; rfl
          rw [attempt_error hb, attempt_ok ha, attempt_error hfail]
  | error e =>
      cases hb : step s b with
      | ok s₂ =>
          have hfail : step s₂ a = .error e := by rw [hi.2.unnoticed hs hb, ha]; rfl
          rw [attempt_error ha, attempt_ok hb, attempt_error hfail]
      | error e' => rw [attempt_error ha, attempt_error hb, attempt_error ha]

/-! ### Batches -/

theorem attempts_comm (hs : I s) {bs : List A} (hi : ∀ b ∈ bs, F.Independent a b) :
    attempts step (attempt step s a) bs = attempt step (attempts step s bs) a := by
  induction bs generalizing s with
  | nil => rfl
  | cons b bs ih =>
      have hrest := ih (attempt_invariant F.kept hs b) fun c hc => hi c (List.mem_cons_of_mem _ hc)
      calc attempts step (attempt step s a) (b :: bs)
          = attempts step (attempt step (attempt step s a) b) bs := rfl
        _ = attempts step (attempt step (attempt step s b) a) bs := by
            rw [attempt_comm (hi b List.mem_cons_self) hs]
        _ = attempt step (attempts step s (b :: bs)) a := hrest

/-- What a batch may not write stays. -/
theorem attempts_unwritten (F : Footprint cells step I) (hs : I s) {as : List A}
    (hk : ∀ a ∈ as, k ∉ F.mutable a) : cells (attempts step s as) k = cells s k := by
  induction as generalizing s with
  | nil => rfl
  | cons a as ih =>
      have hrest := ih (attempt_invariant F.kept hs a) fun b hb => hk b (List.mem_cons_of_mem _ hb)
      refine hrest.trans ?_
      cases h : step s a with
      | ok s' =>
          rw [attempt_ok h]
          exact F.writes a s s' hs h k (hk a List.mem_cons_self)
      | error e => rw [attempt_error h]

/-- A batch fares as if an independent action had not come first. -/
theorem reports_unnoticed (hs : I s) {bs : List A} (hi : ∀ b ∈ bs, F.Independent a b) :
    reports step (attempt step s a) bs = reports step s bs := by
  induction bs generalizing s with
  | nil => rfl
  | cons b bs ih =>
      have hab := hi b List.mem_cons_self
      have hrest := ih (attempt_invariant F.kept hs b) fun c hc => hi c (List.mem_cons_of_mem _ hc)
      rw [reports_cons, reports_cons, hab.1.errorOf_eq hs, attempt_comm hab hs, hrest]

/-- **Interleavings do not matter.**  Two batches of attempts, those of one independent of those
of the other, lead to one state in every interleaving, and each fares as it would alone. -/
theorem interleaved (F : Footprint cells step I) {as bs cs : List A} (hc : Interleaved as bs cs)
    (hi : ∀ a ∈ as, ∀ b ∈ bs, F.Independent a b) (hs : I s) :
    attempts step s cs = attempts step (attempts step s as) bs ∧
      Interleaved (reports step s as) (reports step s bs) (reports step s cs) := by
  induction hc generalizing s with
  | nil => exact ⟨rfl, .nil⟩
  | @left a as bs cs _ ih =>
      have hab := hi a List.mem_cons_self
      obtain ⟨heq, hv⟩ := ih (fun a' ha' => hi a' (List.mem_cons_of_mem _ ha'))
        (attempt_invariant F.kept hs a)
      rw [reports_unnoticed hs hab] at hv
      rw [reports_cons, reports_cons]
      exact ⟨heq, .left hv⟩
  | @right b as bs cs _ ih =>
      have hba : ∀ a ∈ as, F.Independent b a := fun a ha => (hi a ha b List.mem_cons_self).symm
      obtain ⟨heq, hv⟩ := ih (fun a ha b' hb' => hi a ha b' (List.mem_cons_of_mem _ hb'))
        (attempt_invariant F.kept hs b)
      rw [reports_unnoticed hs hba] at hv
      rw [attempts_comm hs hba] at heq
      rw [reports_cons step s b bs, reports_cons step s b cs]
      exact ⟨heq, .right hv⟩

end Footprint

end Support

import Mathlib.Algebra.BigOperators.Finprod
import Mathlib.Algebra.Order.BigOperators.Group.Finset
import Mathlib.Algebra.Order.Monoid.Canonical.Defs
import Mathlib.Algebra.BigOperators.Group.Finset.Piecewise
import Mathlib.Tactic.Abel

/-!
# Support — totals of finitely supported maps

`Totals f n`: the values of `f : α → M` vanish outside a finite set and add up to `n`.  It is
the form in which a ledger conserves an asset: `f` is the balance at each account, `n` the
amount issued.  The keys need not be enumerated and the set of accounts may change.

* `Totals.shift`: entries move in and out, and the total with them; `Totals.update` replaces one.
* `Totals.exchange`: totals over two indices may be taken in either order.
* `Totals.apply_le`: no entry exceeds the total.
* `Totals.finsum_eq`: the total is Mathlib's `∑ᶠ`.
-/

namespace Support

variable {α M : Type*}

section Additive
variable [AddCommMonoid M]

/-- `f` vanishes outside a finite set and adds up to `n` on it. -/
def Totals (f : α → M) (n : M) : Prop :=
  ∃ S : Finset α, (∀ a ∉ S, f a = 0) ∧ ∑ a ∈ S, f a = n

namespace Totals

variable {f g : α → M} {n m : M}

theorem zero : Totals (fun _ : α => (0 : M)) 0 := ⟨∅, by simp, by simp⟩

theorem finsum_eq (h : Totals f n) : ∑ᶠ a, f a = n := by
  obtain ⟨S, hS, rfl⟩ := h
  exact finsum_eq_sum_of_support_subset f fun a ha => by
    by_contra hn
    exact ha (hS a (by simpa using hn))

theorem unique (h : Totals f n) (h' : Totals f m) : n = m :=
  h.finsum_eq.symm.trans h'.finsum_eq

/-- The total may be taken over any larger set of keys. -/
theorem sum_superset [DecidableEq α] (h : Totals f n) (T : Finset α) :
    ∃ S, T ⊆ S ∧ (∀ a ∉ S, f a = 0) ∧ ∑ a ∈ S, f a = n := by
  obtain ⟨S, hS, rfl⟩ := h
  refine ⟨S ∪ T, Finset.subset_union_right, fun a ha => hS a fun h => ha (by simp [h]), ?_⟩
  exact (Finset.sum_subset Finset.subset_union_left fun a _ ha => hS a ha).symm

/-- A single entry, where `p` holds. -/
theorem single_where [DecidableEq α] (a : α) (n : M) (p : α → Prop) [DecidablePred p] :
    Totals (fun b => if p b then if b = a then n else 0 else 0) (if p a then n else 0) := by
  refine ⟨{a}, fun b hb => ?_, by simp⟩
  have hba : b ≠ a := by simpa using hb
  simp [hba]

theorem add (h : Totals f n) (h' : Totals g m) : Totals (fun a => f a + g a) (n + m) := by
  classical
  obtain ⟨T, hT, -⟩ := id h'
  obtain ⟨S, hTS, hS, hsum⟩ := h.sum_superset T
  have hg : ∀ a ∉ S, g a = 0 := fun a ha => hT a fun h => ha (hTS h)
  refine ⟨S, fun a ha => by simp only [hS a ha, hg a ha, add_zero], ?_⟩
  rw [Finset.sum_add_distrib, hsum, unique ⟨S, hg, rfl⟩ h']

/-- Where entries have moved, the totals have moved alike. -/
theorem shift_eq {u v : α → M} {c d : M} (h : Totals f n) (h' : Totals g m) (hu : Totals u c)
    (hv : Totals v d) (e : ∀ a, g a + u a = f a + v a) : m + c = n + d := by
  have hg := h'.add hu
  rw [funext e] at hg
  exact hg.unique (h.add hv)

/-- **Entries move.**  `u` leaves `f` and `v` joins it; the total follows. -/
theorem shift [IsRightCancelAdd M] {u v : α → M} {c d : M} (h : Totals f n) (hu : Totals u c)
    (hv : Totals v d) (e : ∀ a, g a + u a = f a + v a) (e' : m + c = n + d) : Totals g m := by
  classical
  obtain ⟨U, hU, -⟩ := id hu
  obtain ⟨V, hV, -⟩ := id hv
  obtain ⟨S, hUV, hS, hsum⟩ := h.sum_superset (U ∪ V)
  have hu0 : ∀ a ∉ S, u a = 0 := fun a ha => hU a fun h => ha (hUV (by simp [h]))
  have hv0 : ∀ a ∉ S, v a = 0 := fun a ha => hV a fun h => ha (hUV (by simp [h]))
  have hg0 : ∀ a ∉ S, g a = 0 := fun a ha => by
    simpa [hu0 a ha, hv0 a ha, hS a ha] using e a
  have hc : ∑ a ∈ S, u a = c := unique ⟨S, hu0, rfl⟩ hu
  have hd : ∑ a ∈ S, v a = d := unique ⟨S, hv0, rfl⟩ hv
  refine ⟨S, hg0, add_right_cancel (b := c) ?_⟩
  calc ∑ a ∈ S, g a + c = ∑ a ∈ S, (g a + u a) := by rw [Finset.sum_add_distrib, hc]
    _ = ∑ a ∈ S, (f a + v a) := Finset.sum_congr rfl fun a _ => e a
    _ = m + c := by rw [Finset.sum_add_distrib, hsum, hd, e']

/-- **One entry is replaced**, and the total changes by the difference. -/
theorem update [DecidableEq α] (h : Totals f n) (a : α) (x : M) :
    ∃ m, Totals (Function.update f a x) m ∧ m + f a = n + x := by
  obtain ⟨S, ha, hS, rfl⟩ := h.sum_superset {a}
  replace ha : a ∈ S := ha (Finset.mem_singleton_self a)
  refine ⟨_, ⟨S, fun b hb => ?_, rfl⟩, ?_⟩
  · rw [Function.update_of_ne (ne_of_mem_of_not_mem ha hb).symm, hS b hb]
  · rw [Finset.sum_update_of_mem ha, ← Finset.erase_eq, ← Finset.sum_erase_add S f ha]
    abel

/-- Where `f` vanishes so does `g`: then `g` has a total too. -/
theorem of_support (h : Totals f n) (hg : ∀ a, f a = 0 → g a = 0) : ∃ m, Totals g m := by
  obtain ⟨S, hS, -⟩ := h
  exact ⟨_, S, fun a ha => hg a (hS a ha), rfl⟩

/-- **Two indices.**  If every entry of `f` is the total of a row of `g`, the totals of the
columns of `g` add up to that of `f`. -/
theorem exchange {β : Type*} {g : α → β → M} {c : β → M} (h : Totals f n)
    (hrow : ∀ a, Totals (g a) (f a)) (hcol : ∀ b, Totals (fun a => g a b) (c b))
    (hg : ∀ a b, f a = 0 → g a b = 0) : Totals c n := by
  classical
  obtain ⟨S, hS, rfl⟩ := h
  choose T hT hsum using hrow
  have hc : ∀ b, c b = ∑ a ∈ S, g a b := fun b =>
    unique (hcol b) ⟨S, fun a ha => hg a b (hS a ha), rfl⟩
  refine ⟨S.biUnion T, fun b hb => ?_, ?_⟩
  · rw [hc]
    refine Finset.sum_eq_zero fun a ha => hT a b fun hba => ?_
    exact hb (Finset.mem_biUnion.mpr ⟨a, ha, hba⟩)
  · calc ∑ b ∈ S.biUnion T, c b = ∑ b ∈ S.biUnion T, ∑ a ∈ S, g a b :=
          Finset.sum_congr rfl fun b _ => hc b
      _ = ∑ a ∈ S, ∑ b ∈ S.biUnion T, g a b := Finset.sum_comm
      _ = ∑ a ∈ S, f a := Finset.sum_congr rfl fun a ha => by
          rw [← hsum a]
          exact (Finset.sum_subset (Finset.subset_biUnion_of_mem T ha) fun b _ hb => hT a b hb).symm

end Totals

end Additive

section Ordered
variable [AddCommMonoid M] [PartialOrder M] [CanonicallyOrderedAdd M]

namespace Totals

variable {f : α → M} {n : M}

theorem sum_le (h : Totals f n) (T : Finset α) : ∑ a ∈ T, f a ≤ n := by
  classical
  obtain ⟨S, hT, -, rfl⟩ := h.sum_superset T
  exact Finset.sum_le_sum_of_subset hT

theorem mono [IsOrderedAddMonoid M] {g : α → M} {m : M} (h : Totals f n) (h' : Totals g m)
    (hle : ∀ a, f a ≤ g a) : n ≤ m := by
  classical
  obtain ⟨T, -, -⟩ := id h'
  obtain ⟨S, -, -, rfl⟩ := h.sum_superset T
  exact (Finset.sum_le_sum fun a _ => hle a).trans (h'.sum_le S)

theorem apply_le (h : Totals f n) (a : α) : f a ≤ n := by
  simpa using h.sum_le {a}

end Totals

end Ordered

end Support

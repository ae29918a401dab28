import StablecoinAmm.Custody.Holdings

/-!
# Custody — everything is backed at once

A reserve is a number in a pool's account, a balance one in a token account.  `solvency` says that
the numbers are about different tokens: what users hold of a mint, over all their accounts, and
what all pools record of it, together, was issued, within the cap.
-/

namespace StablecoinAmm
open Support Ledger

/-! ### Holders -/

namespace Ledger

variable {l : Ledger}

/-- Only the owner of an account holds what is there. -/
theorem totals_heldBy (l : Ledger) (m k : Pubkey) :
    Totals (fun u => l.heldBy u m k) (l.balanceOf m k) := by
  rcases ha : l.tokens k with _ | a
  · simp only [heldBy, balanceOf, share_none ha]
    exact .zero
  · have hone := Totals.single_where a.owner (l.balanceOf m k) fun _ => True
    rw [if_pos trivial] at hone
    convert hone using 2 with u
    have hacc : l.HasAccount k a.mint a.owner := ⟨a, ha, rfl, rfl⟩
    simp only [heldBy, balanceOf, share, selects_held_iff hacc, selects_mint_iff ha]
    by_cases hu : u = a.owner
    · simp [hu]
    · simp [hu, Ne.symm hu]

/-- **What all users hold of a mint is its supply.** -/
theorem Conserved.holders (h : Conserved l) (m : Pubkey) :
    Totals (fun u => l.holdings u m) (l.supply m) :=
  (h m).exchange (g := fun k u => l.heldBy u m k) (totals_heldBy l m) (fun u => h.held u m)
    fun k u hk => Nat.le_zero.mp (hk ▸ heldBy_le l u m k)

theorem Conserved.balance_le_holdings (h : Conserved l) {k m u : Pubkey}
    (hk : l.HasAccount k m u) : l.balance k ≤ l.holdings u m := by
  rw [← heldBy_of_hasAccount hk]
  exact (h.held u m).apply_le k

end Ledger

/-! ### Pools -/

/-- What the pool at `p` records of the mint `m`, as reserve of either side or as locked. -/
def World.recorded (w : World) (m p : Pubkey) : ℕ :=
  (w.pools p).elim 0 fun P =>
    (if P.mintA = m then P.reserveA else 0) + (if P.mintB = m then P.reserveB else 0) +
      if P.lpMint = m then w.ledger.balance P.lockedLp else 0

section
variable {w : World} {p : Pubkey} {P : Pool}

/-- A pool holds what it records. -/
theorem World.Inv.recorded_le (hw : w.Inv) (m p : Pubkey) :
    w.recorded m p ≤ w.ledger.holdings p m := by
  rw [World.recorded]
  cases hP : w.pools p with
  | none => exact Nat.zero_le _
  | some P =>
      have hshape := hw.shape.pool p P hP
      have hpl := hshape.placed
      obtain ⟨sA, hA⟩ := hpl.mintA
      obtain ⟨sB, hB⟩ := hpl.mintB
      obtain ⟨hvA, hvB⟩ := (hw.pools p P hP).vaults
      have hlA : P.lpMint ≠ P.mintA := by rw [hpl.lpMint, hA]; rintro ⟨⟩
      have hlB : P.lpMint ≠ P.mintB := by rw [hpl.lpMint, hB]; rintro ⟨⟩
      dsimp only [Option.elim]
      by_cases hmA : P.mintA = m
      · subst hmA
        rw [if_pos rfl, if_neg hpl.mints_ne.symm, if_neg hlA]
        exact hvA.trans (hw.conserved.balance_le_holdings hshape.vaultA)
      by_cases hmB : P.mintB = m
      · subst hmB
        rw [if_neg hpl.mints_ne, if_pos rfl, if_neg hlB, Nat.zero_add]
        exact hvB.trans (hw.conserved.balance_le_holdings hshape.vaultB)
      by_cases hmL : P.lpMint = m
      · subst hmL
        rw [if_neg hlA.symm, if_neg hlB.symm, if_pos rfl, Nat.zero_add]
        exact hw.conserved.balance_le_holdings hshape.lockedLp
      · rw [if_neg hmA, if_neg hmB, if_neg hmL]
        exact Nat.zero_le _

/-- What users hold and what pools record, of one mint, was issued. -/
theorem World.Inv.backed (hw : w.Inv) (m : Pubkey) (users pools : Finset Pubkey)
    (hu : ∀ u ∈ users, u.isSigner) (hp : ∀ p ∈ pools, (w.pools p).isSome) :
    ∑ u ∈ users, w.ledger.holdings u m + ∑ p ∈ pools, w.recorded m p ≤ w.ledger.supply m := by
  have hdisj : Disjoint users pools := by
    refine Finset.disjoint_left.mpr fun k hk hk' => ?_
    obtain ⟨P, hP⟩ := Option.isSome_iff_exists.mp (hp k hk')
    exact hw.shape.signer_ne hP (hu k hk) rfl
  calc ∑ u ∈ users, w.ledger.holdings u m + ∑ p ∈ pools, w.recorded m p
      ≤ ∑ u ∈ users, w.ledger.holdings u m + ∑ p ∈ pools, w.ledger.holdings p m :=
        Nat.add_le_add_left (Finset.sum_le_sum fun p _ => hw.recorded_le m p) _
    _ = ∑ k ∈ users ∪ pools, w.ledger.holdings k m := (Finset.sum_union hdisj).symm
    _ ≤ w.ledger.supply m := (hw.conserved.holders m).sum_le _

/-- **Solvency.**  In every reachable world and for every mint: all balances add up to the supply,
what users hold and what pools record of it are different parts of that, and the supply of a
stablecoin is within its cap. -/
theorem solvency (hw : w.Reachable) (m : Pubkey) (users pools : Finset Pubkey)
    (hu : ∀ u ∈ users, u.isSigner) (hp : ∀ p ∈ pools, (w.pools p).isSome) :
    ∑ᶠ u, w.ledger.holdings u m = w.ledger.supply m ∧
      ∑ u ∈ users, w.ledger.holdings u m + ∑ p ∈ pools, w.recorded m p ≤ w.ledger.supply m ∧
      ∀ c, w.configs (.config m) = some c →
        w.ledger.supply m ≤ c.supplyCap ∧ c.supplyCap ≤ maxSupplyCap := by
  refine ⟨(hw.inv.conserved.holders m).finsum_eq, hw.inv.backed m users pools hu hp, fun c hc => ?_⟩
  have hacc := hw.inv.accounted _ _ hc
  rw [← hw.inv.shape.config_mint hc]
  exact ⟨hacc.supply_le, hacc.supplyCap_le⟩

end

/-- The user of the lopsided pool and the pool itself. -/
theorem solvency_lopsided :
    lopsided.ledger.holdings Lopsided.user Lopsided.mintB + lopsidedPool.reserveB ≤
      lopsided.ledger.supply Lopsided.mintB := by
  obtain ⟨-, h, -⟩ := solvency lopsided_reachable Lopsided.mintB {Lopsided.user} {Lopsided.pool}
    (by simp [Lopsided.user, Pubkey.isSigner]) (by simp [lopsided_pool])
  rw [Finset.sum_singleton, Finset.sum_singleton, World.recorded, lopsided_pool] at h
  exact h

end StablecoinAmm

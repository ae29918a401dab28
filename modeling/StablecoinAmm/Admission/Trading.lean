import StablecoinAmm.Admission.Accounts
import StablecoinAmm.Amm.Traces

/-!
# Admission — who can trade

`swap`, `add_liquidity` and `remove_liquidity` make dozens of checks, before and after their calls.
In a reachable world they come down to a few questions: are the accounts the right ones and
thawed, are the stablecoins live, does the quote exist and meet the limits, and does the user
have what it pays.  Each instruction succeeds when the answers are yes (`CanSwap.succeeds` and its
siblings) and only then (`canSwap_of_ok` and its siblings).  What the options of the user's accounts
add to this is in `Admission/Payments`.
-/

namespace StablecoinAmm
open Support Ledger

section
variable {w w' : World} {P : Pool}

/-! ### Payments -/

/-- A payment in a stablecoin, made after calls that kept its supply. -/
theorem World.Issued.pays {m : Pubkey} {c : MintConfig} {M : Mint} (hm : w.Issued m c M)
    (hlive : w.ledger.Live m) {l : Ledger} (hskel : l.skeleton = w.ledger.skeleton)
    (hc : l.Conserved) (hsup : l.supply m = w.ledger.supply m)
    {source destination authority o : Pubkey} {n : ℕ} (hs : w.ledger.Thawed source m authority)
    (hd : w.ledger.Thawed destination m o) (hn : n ≤ l.balance source) :
    ∃ l', l.transferChecked ⟨source, m, destination, authority⟩ authority n stablecoinDecimals =
      .ok l' := by
  have hcap : l.supply m < 2 ^ 64 := by
    rw [hsup, supply_of hm.mint]
    exact hm.supply_le.trans_lt (by decide)
  exact transferChecked_of hc hcap ((hm.tradable hlive).of_skeleton hskel) (hs.of_skeleton hskel)
    (hd.of_skeleton hskel) hn

/-- The thawed accounts of a transfer, told from before the calls that came first. -/
theorem Ledger.Transferred.thawed {l l' : Ledger} {c : TransferChecked} {signer : Pubkey} {n : ℕ}
    (h : Transferred l c signer n l') (hskel : l.skeleton = w.ledger.skeleton) :
    w.ledger.Thawed c.source c.mint c.authority ∧
      ∀ {o}, w.ledger.HasAccount c.destination c.mint o →
        w.ledger.Thawed c.destination c.mint o := by
  obtain ⟨a, ha, ham, haf, hao⟩ := h.source
  obtain ⟨b, hb, -, hbf⟩ := h.destination
  refine ⟨⟨_, token_of_skeleton hskel.symm ha, ham, hao, haf⟩, ?_⟩
  rintro o ⟨b', hb', hm, ho⟩
  obtain rfl := Option.some.inj (hb'.symm.trans (token_of_skeleton hskel.symm hb))
  exact ⟨_, hb', hm, ho, hbf⟩

/-- What a swap needs besides its accounts. -/
structure PoolAccounts.CanSwap (w : World) (ctx : PoolAccounts) (d : SwapDirection)
    (amountIn minAmountOut : ℕ) (P : Pool) : Prop where
  accounts : ctx.Proper w P
  isOpen : w.Open ctx.pool P
  funded : amountIn ≤ w.ledger.balance (ctx.transferIn d).source
  priced : ∃ q, Amm.quoteSwap amountIn (P.reserves d).1 (P.reserves d).2 P.feeBps = .ok q ∧
    minAmountOut ≤ q.amountOut

variable {ctx : PoolAccounts} {amountIn minAmountOut : ℕ}

/-- A swap that was made could be made. -/
theorem canSwap_of_ok (hw : w.Inv) {d : SwapDirection}
    (h : swap w ctx d amountIn minAmountOut = .ok w') :
    ∃ P, ctx.CanSwap w d amountIn minAmountOut P := by
  obtain ⟨b, hb, -⟩ := bind_ok_iff.mp h
  have hk := PoolAccounts.validate_policies hb
  obtain ⟨a, q, l₁, l₂, h⟩ := swap_trace hw.shape hw.pools h
  have hv := h.valid
  obtain ⟨hvA, hvB⟩ := hv.vaults hw.shape
  obtain ⟨hin, hin'⟩ := h.paidIn.thawed rfl
  obtain ⟨hout, hout'⟩ := h.paidOut.thawed h.paidIn.skeleton
  have hlive := h.paidOut.live.of_skeleton h.paidIn.skeleton.symm
  refine ⟨a.pool, ?_, ?_, h.paidIn.covered, q, h.quote, h.slippage⟩
  · cases d with
    | aToB => exact hv.proper hk hin (hout' hv.userB)
    | bToA => exact hv.proper hk (hout' hv.userA) hin
  · cases d with
    | aToB => exact hv.isOpen h.paidIn.live hlive (hin' hvA) hout
    | bToA => exact hv.isOpen hlive h.paidIn.live hout (hin' hvB)

end

/-! ### The LP side -/

section
variable {w w' : World} {P : Pool} {p : Pubkey}

/-- LP mints are not stablecoins. -/
theorem Pool.Placed.lpMint_ne (h : P.Placed p) : P.mintA ≠ P.lpMint ∧ P.mintB ≠ P.lpMint := by
  obtain ⟨s, hs⟩ := h.mintA
  obtain ⟨s', hs'⟩ := h.mintB
  rw [hs, hs', h.lpMint]
  exact ⟨nofun, nofun⟩

/-! ### `remove_liquidity` -/

variable {ctx : LiquidityAccounts} {lpAmount minAOut minBOut : ℕ}

/-- What a deposit needs besides its accounts. -/
structure LiquidityAccounts.CanAdd (w : World) (ctx : LiquidityAccounts)
    (aDesired bDesired aMin bMin minLpOut : ℕ) (P : Pool) : Prop where
  accounts : ctx.Proper w P
  isOpen : w.Open ctx.pool P
  priced : ∃ t, depositTerms P (w.ledger.supply P.lpMint) (w.ledger.balance P.lockedLp) aDesired
    bDesired = .ok t ∧ aMin ≤ t.amountA ∧ bMin ≤ t.amountB ∧ minLpOut ≤ t.lpToUser ∧
    t.amountA ≤ w.ledger.balance ctx.userA ∧ t.amountB ≤ w.ledger.balance ctx.userB

variable {aDesired bDesired aMin bMin minLpOut : ℕ} {t : DepositTerms}

theorem LiquidityAccounts.Locked.conserved {l l' : Ledger} {n : ℕ} (h : ctx.Locked n l l')
    (hc : l.Conserved) : l'.Conserved := by
  rcases h with ⟨-, rfl⟩ | h
  · exact hc
  · exact h.conserved hc

/-- A deposit that was made could be made. -/
theorem canAdd_of_ok (hw : w.Inv)
    (h : addLiquidity w ctx aDesired bDesired aMin bMin minLpOut = .ok w') :
    ∃ P, ctx.CanAdd w aDesired bDesired aMin bMin minLpOut P := by
  obtain ⟨b, hb, -⟩ := bind_ok_iff.mp h
  have hk := LiquidityAccounts.validate_policies hb
  obtain ⟨a, t, l₁, l₂, l₃, l₄, h⟩ := addLiquidity_trace hw.shape hw.pools h
  have hv := h.valid
  have hP := hw.shape.pool _ _ hv.pool
  have hskel := h.paidA.skeleton
  obtain ⟨hvA, hvB⟩ := hv.toValid.vaults hw.shape
  obtain ⟨hA, hA'⟩ := h.paidA.thawed rfl
  obtain ⟨hB, hB'⟩ := h.paidB.thawed hskel
  have hopen := hv.toValid.isOpen h.paidA.live (h.paidB.live.of_skeleton hskel.symm) (hA' hvA)
    (hB' hvB)
  have hproper := hv.toValid.proper hk hA hB
  have husers : ctx.userB ≠ ctx.userA :=
    (hproper.userA.hasAccount.ne_of_mint hproper.userB.hasAccount hP.placed.mints_ne).symm
  have hfB := h.paidB.covered
  rw [h.paidA.elsewhere husers (hv.toValid.apart hw.shape).vaultA_userB.symm] at hfB
  refine ⟨a.pool, ⟨hproper, hv.lockedLp_eq.symm, ?_⟩, hopen, t, ?_, h.slippageA, h.slippageB,
    h.slippageLp, h.paidA.covered, hfB⟩
  · rw [hv.lpMint_eq]
    exact hv.userLp
  · have hterms := h.terms
    rw [hv.lpMint_supply, hv.lockedLp_amount] at hterms
    exact hterms

end

end StablecoinAmm

import StablecoinAmm.Amm.Traces
import StablecoinAmm.Pools.Extraction
import StablecoinAmm.System.History

/-!
# Custody — what a user holds

Neither program can reach into a wallet: the mints have no permanent delegate, and every account
a program debits belongs to whoever signs or to the pool.  So what a user holds of any mint falls
only through what is signed for it (`Action.Effect.spares_user`), and then by no more than the
amounts named there, against which it receives at least the minima named (`step_signed`).
-/

namespace StablecoinAmm
open Support Ledger

/-! ### Holdings of a ledger -/

namespace Ledger

variable {l l' : Ledger} {u m : Pubkey}

theorem heldBy_of_hasAccount {k : Pubkey} (h : l.HasAccount k m u) :
    l.heldBy u m k = l.balance k := by
  obtain ⟨a, ha, hm, ho⟩ := h
  rw [heldBy, share_of ha, balance_of ha, if_pos (by simp [TokenAccount.erase, hm, ho])]

theorem hasAccount_of_heldBy {k : Pubkey} (h : l.heldBy u m k ≠ 0) : l.HasAccount k m u := by
  rcases ha : l.tokens k with _ | a
  · rw [heldBy, share_none ha] at h
    exact absurd rfl h
  · rw [heldBy, share_of ha] at h
    obtain ⟨hsel, -⟩ := ite_ne_right_iff.mp h
    obtain ⟨ho, hm⟩ := of_decide_eq_true hsel
    exact ⟨a, ha, hm, ho⟩

/-- One account may lose `n`, the others lose nothing. -/
theorem holdings_le_add (hc : Conserved l) (hc' : Conserved l') (k : Pubkey) (n : ℕ)
    (h : ∀ j, l.HasAccount j m u → l.balance j ≤ l'.heldBy u m j + if j = k then n else 0) :
    l.holdings u m ≤ l'.holdings u m + n := by
  have hn := Totals.single_where k n fun _ => True
  rw [if_pos trivial] at hn
  refine (hc.held u m).mono ((hc'.held u m).add hn) fun j => ?_
  by_cases hj : l.heldBy u m j = 0
  · rw [hj]; exact Nat.zero_le _
  · have hacc := hasAccount_of_heldBy hj
    rw [heldBy_of_hasAccount hacc]
    simpa using h j hacc

theorem Spares.holdings_le (h : Spares u l l') (hc : Conserved l) (hc' : Conserved l') (m : Pubkey) :
    l.holdings u m ≤ l'.holdings u m := by
  refine holdings_le_add (n := 0) hc hc' .default fun j hj => ?_
  obtain ⟨hj', hle⟩ := h.account j m hj
  rw [heldBy_of_hasAccount hj']
  exact Nat.le_add_right_of_le hle

end Ledger

/-! ### Whose signature moves tokens -/

namespace Action

/-- The signer whose accounts the action debits, hands over or closes. -/
def spender : Action → Option Pubkey
  | .burn ctx _ => some ctx.owner
  | .addLiquidity ctx .. | .removeLiquidity ctx .. => some ctx.user
  | .swap ctx .. => some ctx.user
  | .transfer c .. => some c.authority
  | .burnDirect c .. => some c.authority
  | .setOwner _ authority _ | .closeAccount _ authority => some authority
  | _ => none

/-- What it allows to be taken of the mint `m`: an account handed over goes with all it holds. -/
def stake (w : World) (m : Pubkey) : Action → ℕ
  | .burn ctx amount => if ctx.mint = m then amount else 0
  | .addLiquidity ctx aDesired bDesired _ _ _ =>
      (if ctx.mintA = m then aDesired else 0) + if ctx.mintB = m then bDesired else 0
  | .removeLiquidity ctx lpAmount _ _ => if ctx.lpMint = m then lpAmount else 0
  | .swap ctx d amountIn _ => if (ctx.transferIn d).mint = m then amountIn else 0
  | .transfer c amount _ => if c.mint = m then amount else 0
  | .burnDirect c amount _ => if c.mint = m then amount else 0
  | .setOwner account _ _ => w.ledger.balanceOf m account
  | _ => 0

/-- What it gives of the mint `m` at least, or fails. -/
def assured (m : Pubkey) : Action → ℕ
  | .addLiquidity ctx _ _ _ _ minLpOut => if ctx.lpMint = m then minLpOut else 0
  | .removeLiquidity ctx _ minAOut minBOut =>
      (if ctx.mintA = m then minAOut else 0) + if ctx.mintB = m then minBOut else 0
  | .swap ctx d _ minAmountOut => if (ctx.transferOut d).mint = m then minAmountOut else 0
  | _ => 0

/-- What `u` is assured by it. -/
def assuredTo (u m : Pubkey) (a : Action) : ℕ :=
  if a.spender = some u then a.assured m else 0

end Action

section
variable {w w' : World} {u m : Pubkey}

/-- Neither pools nor configurations are anybody's key. -/
theorem Pubkey.pool_ne_of_isSigner (hu : u.isSigner) (kA kB : Pubkey) : .pool kA kB ≠ u := by
  rintro rfl
  cases hu

theorem Pubkey.config_ne_of_isSigner (hu : u.isSigner) (k : Pubkey) : .config k ≠ u := by
  rintro rfl
  cases hu

/-- **What `u` does not sign spares it.** -/
theorem Action.Effect.spares_user (hu : u.isSigner) : ∀ {a : Action}, a.Effect w w' →
    a.spender ≠ some u → Spares u w.ledger w'.ledger
  | .initializeStablecoin .., ⟨_, _, h⟩, _ => by
      rw [h.result]
      refine Spares.setMint fun N hN => ?_
      cases h.mint_free.symm.trans hN
  | .grantMinter .., h, _ | .revokeMinter .., h, _ => by rw [h]; exact .refl u _
  | .acceptAdmin .., ⟨_, _, _, h⟩, _ => by rw [h]; exact .refl u _
  | .updateConfig .., ⟨_, h⟩, _ => by rw [h.result]; exact .refl u _
  | .setWalletPolicy .., ⟨_, _, h⟩, _ => by
      rw [h.result]; exact Spares.setToken h.account rfl rfl rfl
  | .setPause .., ⟨_, _, _, h⟩, _ => by
      rw [h.result]
      refine Spares.setMint fun N hN => ?_
      obtain rfl := Option.some.inj (h.mint.symm.trans hN)
      exact ⟨rfl, rfl⟩
  | .mintTo .., ⟨_, _, h⟩, _ => by
      rw [h.result]
      exact Spares.of_minted h.minted (h.valid.config_key ▸ Pubkey.config_ne_of_isSigner hu _)
  | .burn .., ⟨_, _, h⟩, hne => by
      rw [h.result]; exact Spares.of_burned h.burned fun e => hne (congrArg some e)
  | .initializePool .., ⟨_, _, h⟩, _ => by rw [h.result]; exact h.spares
  | .addLiquidity .., ⟨_, _, _, _, _, _, h⟩, hne => by
      have hp := h.valid.pool_key ▸ Pubkey.pool_ne_of_isSigner hu _ _
      have hne := fun e => hne (congrArg some e)
      rw [h.result]
      exact (Spares.of_transferred h.paidA hne).trans ((Spares.of_transferred h.paidB hne).trans
        ((h.locked.spares hp).trans (Spares.of_minted h.minted hp)))
  | .removeLiquidity .., ⟨_, _, _, _, _, h⟩, hne => by
      have hp := h.valid.pool_key ▸ Pubkey.pool_ne_of_isSigner hu _ _
      rw [h.result]
      exact (Spares.of_burned h.burned fun e => hne (congrArg some e)).trans
        ((Spares.of_transferred h.paidA hp).trans (Spares.of_transferred h.paidB hp))
  | .swap .., ⟨_, _, _, _, h⟩, hne => by
      rw [h.result]
      exact (Spares.of_transferred h.paidIn fun e => hne (congrArg some e)).trans
        (Spares.of_transferred h.paidOut (h.valid.pool_key ▸ Pubkey.pool_ne_of_isSigner hu _ _))
  | .createAccount .., ⟨_, _, _, hfree, h⟩, _ => by
      rw [h]
      refine .elsewhere (setToken_mints ..) (fun j hj => setToken_tokens_of_ne _ _ _ hj) ?_
      rintro m ⟨a, ha, -⟩
      cases hfree.symm.trans ha
  | .transfer .., ⟨_, _, h, hw⟩, hne => by
      rw [hw]; exact Spares.of_transferred h fun e => hne (congrArg some e)
  | .burnDirect .., ⟨_, _, h, hw⟩, hne => by
      rw [hw]; exact Spares.of_burned h fun e => hne (congrArg some e)
  | .setOwner .., ⟨b, _, hb, _, ho, _, h⟩, hne => by
      rw [h]
      refine .elsewhere (setToken_mints ..) (fun j hj => setToken_tokens_of_ne _ _ _ hj) ?_
      rintro m ⟨b', hb', -, ho'⟩
      obtain rfl := Option.some.inj (hb.symm.trans hb')
      exact hne (congrArg some (ho.symm.trans ho'))
  | .closeAccount .., ⟨b, _, hb, _, ho, h⟩, hne => by
      rw [h]
      refine .elsewhere rfl (fun j hj => Function.update_of_ne hj ..) ?_
      rintro m ⟨b', hb', -, ho'⟩
      obtain rfl := Option.some.inj (hb.symm.trans hb')
      exact hne (congrArg some (ho.symm.trans ho'))

/-! ### What a signature costs -/

/-- Amounts of one mint, among those of others. -/
theorem amountOf_mono {p : Prop} [Decidable p] {x y : ℕ} (h : x ≤ y) :
    (if p then x else 0) ≤ if p then y else 0 := by
  split_ifs
  · exact h
  · exact le_rfl

theorem PoolAccounts.SwapTrace.holdings (hw : w.Inv) (m : Pubkey) {ctx : PoolAccounts}
    {amountIn minAmountOut : ℕ} {a : PoolAccounts.Loaded} {q : Amm.SwapQuote} {l₁ l₂ : Ledger} :
    ∀ {d : SwapDirection}, ctx.SwapTrace w d amountIn minAmountOut a q l₁ l₂ w' →
      w.ledger.holdings ctx.user m + (if (ctx.transferOut d).mint = m then minAmountOut else 0) ≤
        l₂.holdings ctx.user m + if (ctx.transferIn d).mint = m then amountIn else 0
  | .aToB, h => by
      have hh := h.valid.held hw.shape
      have hin := h.paidIn.holdings (u := ctx.user) (n := m) hw.conserved hh.userA hh.vaultA
      have hout := h.paidOut.holdings (u := ctx.user) (n := m) (h.paidIn.conserved hw.conserved)
        (hh.vaultB.of_skeleton h.paidIn.skeleton) (hh.userB.of_skeleton h.paidIn.skeleton)
      have hslip := amountOf_mono (p := ctx.mintB = m) h.slippage
      simp only [hh.user_ne, true_and, false_and, if_false, Nat.add_zero] at hin hout
      change _ + (if ctx.mintB = m then _ else 0) ≤ _ + if ctx.mintA = m then _ else 0
      omega
  | .bToA, h => by
      have hh := h.valid.held hw.shape
      have hin := h.paidIn.holdings (u := ctx.user) (n := m) hw.conserved hh.userB hh.vaultB
      have hout := h.paidOut.holdings (u := ctx.user) (n := m) (h.paidIn.conserved hw.conserved)
        (hh.vaultA.of_skeleton h.paidIn.skeleton) (hh.userA.of_skeleton h.paidIn.skeleton)
      have hslip := amountOf_mono (p := ctx.mintA = m) h.slippage
      simp only [hh.user_ne, true_and, false_and, if_false, Nat.add_zero] at hin hout
      change _ + (if ctx.mintA = m then _ else 0) ≤ _ + if ctx.mintB = m then _ else 0
      omega

theorem LiquidityAccounts.RemoveTrace.holdings (hw : w.Inv) (m : Pubkey) {ctx : LiquidityAccounts}
    {lpAmount minAOut minBOut : ℕ} {a : LiquidityAccounts.Loaded} {q : Amm.RemoveLiquidityQuote}
    {l₁ l₂ l₃ : Ledger} (h : ctx.RemoveTrace w lpAmount minAOut minBOut a q l₁ l₂ l₃ w') :
    w.ledger.holdings ctx.user m +
        ((if ctx.mintA = m then minAOut else 0) + if ctx.mintB = m then minBOut else 0) ≤
      l₃.holdings ctx.user m + if ctx.lpMint = m then lpAmount else 0 := by
  have hv := h.valid
  have hh := hv.toValid.held hw.shape
  have hc₁ := h.burned.conserved hw.conserved
  have hskel := h.paidA.skeleton.trans h.burned.skeleton
  have hburn := h.burned.holdings (u := ctx.user) (n := m) hw.conserved hv.userLp
  have hA := h.paidA.holdings (u := ctx.user) (n := m) hc₁
    (hh.vaultA.of_skeleton h.burned.skeleton) (hh.userA.of_skeleton h.burned.skeleton)
  have hB := h.paidB.holdings (u := ctx.user) (n := m) (h.paidA.conserved hc₁)
    (hh.vaultB.of_skeleton hskel) (hh.userB.of_skeleton hskel)
  have hslipA := amountOf_mono (p := ctx.mintA = m) h.slippageA
  have hslipB := amountOf_mono (p := ctx.mintB = m) h.slippageB
  simp only [hh.user_ne, true_and, false_and, if_false, Nat.add_zero] at hburn hA hB
  omega

/-- A deposit charges no more than is desired. -/
theorem DepositTerms.Sound.le_desired {s : PoolState} {aDesired bDesired : ℕ} {t : DepositTerms}
    (h : t.Sound s aDesired bDesired) : t.amountA ≤ aDesired ∧ t.amountB ≤ bDesired := by
  cases h with
  | first => exact ⟨le_rfl, le_rfl⟩
  | later _ hq => exact ⟨hq.amountA_le, hq.amountB_le⟩

theorem LiquidityAccounts.AddTrace.holdings (hw : w.Inv) (m : Pubkey) {ctx : LiquidityAccounts}
    {aDesired bDesired aMin bMin minLpOut : ℕ} {a : LiquidityAccounts.Loaded} {t : DepositTerms}
    {l₁ l₂ l₃ l₄ : Ledger}
    (h : ctx.AddTrace w aDesired bDesired aMin bMin minLpOut a t l₁ l₂ l₃ l₄ w') :
    w.ledger.holdings ctx.user m + (if ctx.lpMint = m then minLpOut else 0) ≤
      l₄.holdings ctx.user m +
        ((if ctx.mintA = m then aDesired else 0) + if ctx.mintB = m then bDesired else 0) := by
  have hv := h.valid
  have hh := hv.toValid.held hw.shape
  have hlk := hv.lockedLp_eq ▸ (hw.shape.pool _ _ hv.pool).lockedLp
  have hc₁ := h.paidA.conserved hw.conserved
  have hc₂ := h.paidB.conserved hc₁
  have hskel := h.paidB.skeleton.trans h.paidA.skeleton
  have hA := h.paidA.holdings (u := ctx.user) (n := m) hw.conserved hh.userA hh.vaultA
  have hB := h.paidB.holdings (u := ctx.user) (n := m) hc₁
    (hh.userB.of_skeleton h.paidA.skeleton) (hh.vaultB.of_skeleton h.paidA.skeleton)
  have hlock := h.locked.unrelated (n := m) hc₂ (hlk.of_skeleton hskel) hh.user_ne
  have hmint := h.minted.holdings (u := ctx.user) (n := m) (Conserved.locked h.locked hc₂)
    (hv.userLp.of_skeleton (h.locked.moved.skeleton.trans hskel))
  obtain ⟨hleA, hleB⟩ := h.sound.le_desired
  have hcostA := amountOf_mono (p := ctx.mintA = m) hleA
  have hcostB := amountOf_mono (p := ctx.mintB = m) hleB
  have hslip := amountOf_mono (p := ctx.lpMint = m) h.slippageLp
  simp only [hh.user_ne, true_and, false_and, if_false, Nat.add_zero] at hA hB hmint
  omega

theorem Ledger.Transferred.holdings_le {l l' : Ledger} {c : TransferChecked} {n : ℕ}
    (t : Transferred l c c.authority n l') (hc : Conserved l) (m : Pubkey) :
    l.holdings c.authority m ≤ l'.holdings c.authority m + if c.mint = m then n else 0 := by
  obtain ⟨b, hb, hm, -, ho⟩ := t.source
  obtain ⟨d, hd, hm', -⟩ := t.destination
  have h := t.holdings (u := c.authority) (n := m) hc ⟨b, hb, hm, ho⟩ ⟨d, hd, hm', rfl⟩
  simp only [true_and] at h
  omega

theorem Ledger.Burned.holdings_eq {l l' : Ledger} {c : BurnChecked} {n : ℕ}
    (t : Burned l c c.authority n l') (hc : Conserved l) (m : Pubkey) :
    l.holdings c.authority m = l'.holdings c.authority m + if c.mint = m then n else 0 := by
  obtain ⟨b, hb, hm, -, ho⟩ := t.source
  have h := t.holdings (u := c.authority) (n := m) hc ⟨b, hb, hm, ho⟩
  simp only [true_and] at h
  exact h.symm

/-- **What `u` signs costs it no more than it stakes**, and gives what it is assured. -/
theorem step_signed (hw : w.Inv) {a : Action} (hu : u.isSigner) (h : step w a = .ok w')
    (hs : a.spender = some u) (m : Pubkey) :
    w.ledger.holdings u m + a.assured m ≤ w'.ledger.holdings u m + a.stake w m := by
  have heff := step_effect hw h
  have hc := hw.conserved
  have hc' := (heff.inv hw).conserved
  cases a with
  | burn ctx =>
      obtain ⟨c, l, heff⟩ := heff
      obtain rfl := Option.some.inj hs
      rw [heff.result]
      exact (heff.burned.holdings_eq hc m).le
  | addLiquidity =>
      obtain rfl := Option.some.inj hs
      obtain ⟨a, t, l₁, l₂, l₃, l₄, ht⟩ := addLiquidity_trace hw.shape hw.pools (mapError_ok_iff.mp h)
      rw [ht.result]
      exact ht.holdings hw m
  | removeLiquidity =>
      obtain rfl := Option.some.inj hs
      obtain ⟨a, q, l₁, l₂, l₃, ht⟩ := removeLiquidity_trace hw.shape hw.pools (mapError_ok_iff.mp h)
      rw [ht.result]
      exact ht.holdings hw m
  | swap =>
      obtain rfl := Option.some.inj hs
      obtain ⟨a, q, l₁, l₂, ht⟩ := swap_trace hw.shape hw.pools (mapError_ok_iff.mp h)
      rw [ht.result]
      exact ht.holdings hw m
  | transfer =>
      obtain ⟨l, -, ht, rfl⟩ := heff
      obtain rfl := Option.some.inj hs
      exact ht.holdings_le hc m
  | burnDirect =>
      obtain ⟨l, -, ht, rfl⟩ := heff
      obtain rfl := Option.some.inj hs
      exact (ht.holdings_eq hc m).le
  | setOwner account authority newOwner =>
      obtain ⟨b, -, hb, -, ho, -, rfl⟩ := heff
      refine holdings_le_add hc hc' account _ ?_
      intro j hj
      by_cases hk : j = account
      · subst hk
        obtain ⟨b', hb', hm, -⟩ := hj
        have hstake : (Action.setOwner j authority newOwner).stake w m = w.ledger.balance j :=
          balanceOf_of hb' hm
        rw [if_pos rfl, hstake]
        exact Nat.le_add_left _ _
      · rw [heldBy, share_congr (setToken_tokens_of_ne _ _ _ hk)]
        exact (heldBy_of_hasAccount hj).ge.trans (Nat.le_add_right _ _)
  | closeAccount account authority =>
      obtain ⟨b, -, hb, hn, ho, rfl⟩ := heff
      refine holdings_le_add hc hc' account 0 ?_
      intro j hj
      by_cases hk : j = account
      · subst hk
        rw [balance_of hb, hn]
        exact Nat.zero_le _
      · rw [heldBy, share_congr (Function.update_of_ne hk ..)]
        exact (heldBy_of_hasAccount hj).ge.trans (Nat.le_add_right _ _)
  | _ => cases hs

end

end StablecoinAmm

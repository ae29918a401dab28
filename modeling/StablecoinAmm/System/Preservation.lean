import StablecoinAmm.System.Effects

/-!
# System — what every step keeps

* `Effect.honest`: a step changes a balance only of a thawed account whose mint is live, a
  supply only of a live mint, and keeps the tokens conserved.
* `Effect.shape`: a step keeps the shape of the world.  Eleven actions change nothing that the
  shape depends on; the seven that do are taken one by one.
-/

namespace StablecoinAmm
open Support Ledger

/-! ### Balances and supplies -/

/-- What a step may do to amounts. -/
structure Ledger.Honest (l l' : Ledger) : Prop where
  balanceOf : ∀ m k, l'.balanceOf m k ≠ l.balanceOf m k →
    ∃ a, l.tokens k = some a ∧ a.mint = m ∧ a.state ≠ .frozen ∧ l.Live m
  supply : ∀ m, l'.supply m ≠ l.supply m → l.Live m
  conserved : l.Conserved → l'.Conserved

theorem Ledger.Moved.honest {l l' : Ledger} (h : Moved l l')
    (hc : l.Conserved → l'.Conserved) : Honest l l' := by
  refine ⟨fun m k hk => ?_, h.supply, hc⟩
  -- the same accounts are counted before and after: what differs is a balance that counts
  have hsel : l.selects (fun a => a.mint = m) k := by
    by_contra hn
    refine hk ?_
    rw [Ledger.balanceOf, Ledger.balanceOf, share, share, selects_of_skeleton h.skeleton, if_neg hn,
      if_neg hn]
  have hbal : l'.balance k ≠ l.balance k := by
    intro he
    refine hk ?_
    rw [Ledger.balanceOf, Ledger.balanceOf, share, share, selects_of_skeleton h.skeleton, he]
  obtain ⟨a, ha, hf, hlive⟩ := h.balance k hbal
  have hm : a.mint = m := (selects_mint_iff ha).mp hsel
  exact ⟨a, ha, hm, hf, hm ▸ hlive⟩

theorem Ledger.Settled.honest {l l' : Ledger} (h : Settled l l') : Honest l l' :=
  ⟨fun m k hk => absurd (h.balanceOf m k) hk, fun m hm => absurd (h.supply m) hm, h.conserved⟩

theorem Ledger.Conserved.locked {l l' : Ledger} {ctx : LiquidityAccounts} {n : ℕ}
    (h : ctx.Locked n l l') (hc : l.Conserved) : l'.Conserved := by
  rcases h with ⟨-, rfl⟩ | h
  · exact hc
  · exact h.conserved hc

theorem supply_of_none {l : Ledger} {m : Pubkey} (h : l.mints m = none) : l.supply m = 0 := by
  rw [Ledger.supply, h]; rfl

section OpenPool
variable (l : Ledger) (pool kA kB : Pubkey) (mA mB : Mint)

@[simp] theorem openPool_vaultB : (openPool l pool kA kB mA mB).tokens (.vault pool kB) =
    some (emptyAccount kB pool mB.defaultState false) := by simp [openPool]

@[simp] theorem openPool_vaultA (hne : kA ≠ kB) :
    (openPool l pool kA kB mA mB).tokens (.vault pool kA) =
      some (emptyAccount kA pool mA.defaultState false) := by simp [openPool, hne]

@[simp] theorem openPool_lockedLp : (openPool l pool kA kB mA mB).tokens (.lockedLp pool) =
    some (emptyAccount (.lpMint pool) pool .initialized false) := by simp [openPool]

theorem openPool_tokens_of_ne {j : Pubkey} (hA : j ≠ .vault pool kA) (hB : j ≠ .vault pool kB)
    (hK : j ≠ .lockedLp pool) : (openPool l pool kA kB mA mB).tokens j = l.tokens j := by
  simp [openPool, hA, hB, hK]

@[simp] theorem openPool_lpMint : (openPool l pool kA kB mA mB).mints (.lpMint pool) =
    some (emptyLpMint pool mA.decimals) := by simp [openPool]

@[simp] theorem openPool_mints_of_ne {m : Pubkey} (h : m ≠ .lpMint pool) :
    (openPool l pool kA kB mA mB).mints m = l.mints m := by simp [openPool, h]

/-- An account is one of the three of the new pool, or was there before. -/
theorem openPool_tokens_cases (hne : kA ≠ kB) {k : Pubkey} {a : TokenAccount}
    (ha : (openPool l pool kA kB mA mB).tokens k = some a) :
    a = emptyAccount kA pool mA.defaultState false ∨
      a = emptyAccount kB pool mB.defaultState false ∨
      a = emptyAccount (.lpMint pool) pool .initialized false ∨ l.tokens k = some a := by
  by_cases hA : k = .vault pool kA
  · subst hA
    exact .inl (Option.some.inj (ha.symm.trans (openPool_vaultA _ _ _ _ _ _ hne)))
  by_cases hB : k = .vault pool kB
  · subst hB
    exact .inr (.inl (Option.some.inj (ha.symm.trans (openPool_vaultB ..))))
  by_cases hK : k = .lockedLp pool
  · subst hK
    exact .inr (.inr (.inl (Option.some.inj (ha.symm.trans (openPool_lockedLp ..)))))
  · exact .inr (.inr (.inr ((openPool_tokens_of_ne _ _ _ _ _ _ hA hB hK).symm.trans ha)))

end OpenPool

/-- The accounts of a new pool are empty, and so is its mint. -/
theorem settled_openPool {l : Ledger} {pool kA kB : Pubkey} {mA mB : Mint} (hne : kA ≠ kB)
    (hA : l.tokens (.vault pool kA) = none) (hB : l.tokens (.vault pool kB) = none)
    (hL : l.mints (.lpMint pool) = none) (hK : l.tokens (.lockedLp pool) = none) :
    Settled l (openPool l pool kA kB mA mB) := by
  have hBA : Pubkey.vault pool kB ≠ .vault pool kA := fun h => hne (Pubkey.vault.inj h).2.symm
  have h₁ : Settled l (l.setToken (.vault pool kA) (emptyAccount kA pool mA.defaultState false)) :=
    settled_create hA rfl
  have h₂ := h₁.trans (settled_create (k := .vault pool kB)
    (b := emptyAccount kB pool mB.defaultState false) ((setToken_tokens_of_ne _ _ _ hBA).trans hB)
    rfl)
  have h₃ := h₂.trans (settled_setMint (m := .lpMint pool) (M := emptyLpMint pool mA.decimals)
    (supply_of_none hL).symm)
  exact h₃.trans (settled_create (by simpa using hK) rfl)

section InitializePool
variable {w w' : World} {ctx : InitializePool} {feeBps : ℕ} {mA mB : Mint}

/-- What was there before a pool is created is still there. -/
theorem InitializePool.Effect.token_kept (h : ctx.Effect w feeBps mA mB w') {k : Pubkey}
    {a : TokenAccount} (ha : w.ledger.tokens k = some a) :
    (openPool w.ledger ctx.pool ctx.mintA ctx.mintB mA mB).tokens k = some a := by
  rw [openPool_tokens_of_ne]
  · exact ha
  · rintro rfl; cases h.vaultA_free.symm.trans ha
  · rintro rfl; cases h.vaultB_free.symm.trans ha
  · rintro rfl; cases h.lockedLp_free.symm.trans ha

theorem InitializePool.Effect.mint_kept (h : ctx.Effect w feeBps mA mB w') {m : Pubkey}
    {M : Mint} (hM : w.ledger.mints m = some M) :
    (openPool w.ledger ctx.pool ctx.mintA ctx.mintB mA mB).mints m = some M := by
  rw [openPool_mints_of_ne]
  · exact hM
  · rintro rfl; cases h.lpMint_free.symm.trans hM

end InitializePool

/-- **Amounts.** -/
theorem Action.Effect.honest {w w' : World} : ∀ {a : Action}, a.Effect w w' →
    Honest w.ledger w'.ledger
  | .initializeStablecoin .., ⟨M, c, h⟩ => by
      rw [h.result]
      exact (settled_setMint (h.supply.trans (supply_of_none h.mint_free).symm)).honest
  | .grantMinter .., h | .revokeMinter .., h => by rw [h]; exact (Settled.refl _).honest
  | .acceptAdmin .., ⟨_, _, _, h⟩ => by rw [h]; exact (Settled.refl _).honest
  | .updateConfig .., ⟨_, h⟩ => by rw [h.result]; exact (Settled.refl _).honest
  | .setWalletPolicy .., ⟨_, _, h⟩ => by
      rw [h.result]; exact Settled.honest (settled_setToken h.account rfl rfl)
  | .setPause .., ⟨_, _, _, h⟩ => by
      rw [h.result]; exact Settled.honest (settled_setMint (supply_of h.mint).symm)
  | .mintTo .., ⟨_, _, h⟩ => by
      rw [h.result]; exact h.minted.toMoved.honest h.minted.conserved
  | .burn .., ⟨_, _, h⟩ => by
      rw [h.result]; exact h.burned.toMoved.honest h.burned.conserved
  | .initializePool .., ⟨_, _, h⟩ => by
      rw [h.result]
      exact (settled_openPool h.mints_ne h.vaultA_free h.vaultB_free h.lpMint_free
        h.lockedLp_free).honest
  | .addLiquidity .., ⟨_, _, _, _, _, _, h⟩ => by
      rw [h.result]
      refine (h.paidA.toMoved.trans (h.paidB.toMoved.trans
        (h.locked.moved.trans h.minted.toMoved))).honest fun hc => ?_
      exact h.minted.conserved (.locked h.locked (h.paidB.conserved (h.paidA.conserved hc)))
  | .removeLiquidity .., ⟨_, _, _, _, _, h⟩ => by
      rw [h.result]
      refine (h.burned.toMoved.trans (h.paidA.toMoved.trans h.paidB.toMoved)).honest fun hc => ?_
      exact h.paidB.conserved (h.paidA.conserved (h.burned.conserved hc))
  | .swap .., ⟨_, _, _, _, h⟩ => by
      rw [h.result]
      refine (h.paidIn.toMoved.trans h.paidOut.toMoved).honest fun hc => ?_
      exact h.paidOut.conserved (h.paidIn.conserved hc)
  | .createAccount .., ⟨_, _, _, hfree, h⟩ => by
      rw [h]; exact Settled.honest (settled_create hfree rfl)
  | .transfer .., ⟨_, _, h, hw⟩ => by rw [hw]; exact h.toMoved.honest h.conserved
  | .burnDirect .., ⟨_, _, h, hw⟩ => by rw [hw]; exact h.toMoved.honest h.conserved
  | .setOwner .., ⟨_, _, ha, _, _, _, h⟩ => by
      rw [h]; exact Settled.honest (settled_setToken ha rfl rfl)
  | .closeAccount .., ⟨_, _, ha, hn, _, h⟩ => by
      rw [h]; exact Settled.honest (settled_close ha hn)

/-! ### The shape -/

theorem World.PoolShape.kept {w w' : World} {p : Pubkey} {P : Pool} (h : w.PoolShape p P)
    (hm : ∀ M, w.ledger.mints P.lpMint = some M → w'.ledger.mints P.lpMint = some M)
    (ha : ∀ k m, w.ledger.HasAccount k m p → w'.ledger.HasAccount k m p) : w'.PoolShape p P := by
  obtain ⟨M, hM, hMs⟩ := h.lpMint
  exact ⟨h.placed, ha _ _ h.vaultA, ha _ _ h.vaultB, ha _ _ h.lockedLp, M, hm M hM, hMs⟩

namespace World.Shape

variable {w : World}

/-- A stablecoin's mint is derived from its symbol. -/
theorem isStablecoin_key (hs : w.Shape) {m : Pubkey} (h : w.IsStablecoin m) :
    ∃ s, m = .mint s := by
  obtain ⟨c, hc⟩ := h
  have hp := (hs.config _ _ hc).1
  exact ⟨c.symbol, (Pubkey.config.inj hp.key).trans hp.mint⟩

/-- And its configuration's address from its mint. -/
theorem config_mint (hs : w.Shape) {m : Pubkey} {c : MintConfig}
    (h : w.configs (.config m) = some c) : c.mint = m :=
  (Pubkey.config.inj (hs.config _ _ h).1.key).symm

/-- A mint with a configuration is a stablecoin's, and freezes its accounts. -/
theorem configured (hs : w.Shape) {m : Pubkey} {M : Mint} {c : MintConfig}
    (hc : w.configs (.config m) = some c) (hM : w.ledger.mints m = some M) :
    (∃ s, m = .mint s) ∧ M.defaultState = .frozen := by
  refine ⟨hs.isStablecoin_key ⟨c, hc⟩, ?_⟩
  obtain ⟨-, N, hN, hNi⟩ := hs.config _ _ hc
  rw [hs.config_mint hc] at hN
  obtain rfl := Option.some.inj (hM.symm.trans hN)
  exact hNi.defaultState

/-- Without a pool there is no LP mint. -/
theorem lpMint_of_none (hs : w.Shape) {p : Pubkey} (hp : w.pools p = none) :
    w.ledger.mints (.lpMint p) = none := by
  rcases hM : w.ledger.mints (.lpMint p) with _ | M
  · rfl
  · rcases hs.mint _ M hM with ⟨⟨s, hk⟩, -⟩ | ⟨j, P, hk, hP⟩
    · cases hk
    · cases hk
      cases hp.symm.trans hP

/-- One address changes hands or state: the account there, if there is one, has a mint and is
thawed only with a policy, and what a pool has there survives. -/
theorem of_tokens (hs : w.Shape) {l' : Ledger} {k : Pubkey} (hm : l'.mints = w.ledger.mints)
    (ht : ∀ j, j ≠ k → l'.tokens j = w.ledger.tokens j)
    (hk : ∀ a, l'.tokens k = some a → (∃ M, w.ledger.mints a.mint = some M) ∧
      (w.IsStablecoin a.mint → a.state ≠ .frozen → w.IsAllowed a.mint k))
    (hp : ∀ p P m, w.pools p = some P → w.ledger.HasAccount k m p → l'.HasAccount k m p) :
    Shape { w with ledger := l' } := by
  have hacc : ∀ p P j m, w.pools p = some P → w.ledger.HasAccount j m p →
      l'.HasAccount j m p := by
    intro p P j m hP hj
    by_cases hjk : j = k
    · subst hjk; exact hp p P m hP hj
    · obtain ⟨a, ha, hrest⟩ := hj
      exact ⟨a, (ht j hjk).trans ha, hrest⟩
  exact
    { config := fun k c hc => by
        obtain ⟨hplaced, M, hM, hMi⟩ := hs.config k c hc
        exact ⟨hplaced, M, hm ▸ hM, hMi⟩
      pool := fun p P hP =>
        (hs.pool p P hP).kept (fun _ hM => hm ▸ hM) fun k m => hacc p P k m hP
      mint := fun m M hM => hs.mint m M (hm ▸ hM)
      token := fun j a ha => by
        by_cases hjk : j = k
        · subst hjk
          obtain ⟨M, hM⟩ := (hk a ha).1
          exact ⟨M, hm ▸ hM⟩
        · obtain ⟨M, hM⟩ := hs.token j a ((ht j hjk).symm.trans ha)
          exact ⟨M, hm ▸ hM⟩
      policy := hs.policy
      thawed := fun j a ha hst hf => by
        by_cases hjk : j = k
        · subst hjk; exact (hk a ha).2 hst hf
        · exact hs.thawed j a ((ht j hjk).symm.trans ha) hst hf }

/-- A new account of a stablecoin is frozen. -/
theorem createAccount (hs : w.Shape) {k m owner : Pubkey} {immutable : Bool} {M : Mint}
    (hM : w.ledger.mints m = some M) (hfree : w.ledger.tokens k = none) :
    Shape { w with ledger := w.ledger.setToken k (emptyAccount m owner M.defaultState immutable) }
    := by
  refine hs.of_tokens (setToken_mints ..) (fun j hj => setToken_tokens_of_ne _ _ _ hj) ?_ ?_
  · intro a ha
    obtain rfl := Option.some.inj ((setToken_tokens_self ..).symm.trans ha)
    refine ⟨⟨M, hM⟩, fun hst hf => ?_⟩
    obtain ⟨c, hc⟩ := hst
    exact absurd (hs.configured hc hM).2 hf
  · rintro p P m - ⟨a, ha, -⟩
    rw [hfree] at ha
    cases ha

/-- The owner of an account is a key, so it is no pool, and what it does to the account does not
touch a pool's. -/
theorem not_hasAccount_of_signer (hs : w.Shape) {k p m : Pubkey} {P : Pool} {a : TokenAccount}
    (hP : w.pools p = some P) (ha : w.ledger.tokens k = some a) (ho : a.owner.isSigner) :
    ¬ w.ledger.HasAccount k m p := by
  rintro ⟨b, hb, -, hbo⟩
  obtain rfl := Option.some.inj (ha.symm.trans hb)
  rw [hbo, (hs.pool p P hP).placed.key] at ho
  cases ho

theorem setOwner (hs : w.Shape) {k owner : Pubkey} {a : TokenAccount}
    (ha : w.ledger.tokens k = some a) (ho : a.owner.isSigner) :
    Shape { w with ledger := w.ledger.setToken k { a with owner := owner } } := by
  refine hs.of_tokens (setToken_mints ..) (fun j hj => setToken_tokens_of_ne _ _ _ hj) ?_ ?_
  · intro b hb
    obtain rfl := Option.some.inj ((setToken_tokens_self ..).symm.trans hb)
    exact ⟨hs.token k a ha, hs.thawed k a ha⟩
  · intro p P m hP hk
    exact absurd hk (hs.not_hasAccount_of_signer hP ha ho)

theorem closeAccount (hs : w.Shape) {k : Pubkey} {a : TokenAccount}
    (ha : w.ledger.tokens k = some a) (ho : a.owner.isSigner) :
    Shape { w with
      ledger := { w.ledger with tokens := Function.update w.ledger.tokens k none } } := by
  refine hs.of_tokens rfl (fun j hj => Function.update_of_ne hj ..) ?_ ?_
  · intro b hb
    cases (Function.update_self k none w.ledger.tokens).symm.trans hb
  · intro p P m hP hk
    exact absurd hk (hs.not_hasAccount_of_signer hP ha ho)

/-- An account may always be frozen, and be thawed with a policy. -/
theorem setState (hs : w.Shape) {k : Pubkey} {a : TokenAccount}
    (ha : w.ledger.tokens k = some a) (state : AccountState)
    (hallowed : w.IsStablecoin a.mint → state ≠ .frozen → w.IsAllowed a.mint k) :
    Shape { w with ledger := w.ledger.setToken k { a with state := state } } := by
  refine hs.of_tokens (setToken_mints ..) (fun j hj => setToken_tokens_of_ne _ _ _ hj) ?_ ?_
  · intro b hb
    obtain rfl := Option.some.inj ((setToken_tokens_self ..).symm.trans hb)
    exact ⟨hs.token k a ha, hallowed⟩
  · rintro p P m - ⟨b, hb, hbm, hbo⟩
    obtain rfl := Option.some.inj (ha.symm.trans hb)
    exact ⟨_, setToken_tokens_self .., hbm, hbo⟩

/-- A policy may always allow, and block where the account is frozen. -/
theorem writePolicy (hs : w.Shape) (q : WalletPolicy)
    (h : q.status = .allowed ∨
      ∀ a, w.ledger.tokens q.tokenAccount = some a → a.state = .frozen) :
    Shape (w.setWalletPolicy (.walletPolicy q.mint q.tokenAccount) q) where
  config := hs.config
  pool p P hP := (hs.pool p P hP).kept (fun _ hM => hM) fun _ _ hk => hk
  mint := hs.mint
  token := hs.token
  policy k r hr := by
    by_cases hk : k = .walletPolicy q.mint q.tokenAccount
    · subst hk
      rw [setWalletPolicy_walletPolicies_self] at hr
      cases hr; rfl
    · rw [setWalletPolicy_walletPolicies_of_ne _ _ _ hk] at hr
      exact hs.policy k r hr
  thawed k a ha hst hf := by
    rw [IsAllowed]
    by_cases hk : Pubkey.walletPolicy a.mint k = .walletPolicy q.mint q.tokenAccount
    · obtain ⟨hm, rfl⟩ := Pubkey.walletPolicy.inj hk
      rcases h with h | h
      · rw [hm]
        exact ⟨q, setWalletPolicy_walletPolicies_self .., rfl, rfl, h⟩
      · exact absurd (h a ha) hf
    · rw [setWalletPolicy_walletPolicies_of_ne _ _ _ hk]
      exact hs.thawed k a ha hst hf

/-- A policy and the state it asks for are written together, whichever of them suits first. -/
theorem writeStatus (hs : w.Shape) (q : WalletPolicy) {a : TokenAccount}
    (ha : w.ledger.tokens q.tokenAccount = some a) (hm : a.mint = q.mint) :
    Shape ({ w with
      ledger := w.ledger.setToken q.tokenAccount { a with state := q.status.accountState }
      }.setWalletPolicy (.walletPolicy q.mint q.tokenAccount) q) := by
  cases hq : q.status with
  | allowed =>
      refine (hs.writePolicy q (.inl hq)).setState ha .initialized fun _ _ => ?_
      rw [hm]
      exact ⟨q, setWalletPolicy_walletPolicies_self .., rfl, rfl, hq⟩
  | blocked =>
      have hfrozen := hs.setState ha .frozen fun _ hf => absurd rfl hf
      refine hfrozen.writePolicy q (.inr fun b hb => ?_)
      obtain rfl := Option.some.inj ((setToken_tokens_self ..).symm.trans hb)
      rfl

theorem setWalletPolicy {w' : World} (hs : w.Shape) {ctx : SetWalletPolicy}
    {status : PolicyStatus} {t : ℤ} {c : MintConfig} {a : TokenAccount}
    (h : ctx.Effect w status t c a w') : w'.Shape := by
  rw [h.result]
  exact hs.writeStatus
    { mint := ctx.mint, tokenAccount := ctx.tokenAccount, owner := a.owner, status,
      updatedAt := t, updatedBy := ctx.complianceAuthority } h.account h.account_mint

/-- A stablecoin's mint and its configuration are written together. -/
theorem writeStablecoin (hs : w.Shape) {s : Symbol} {M : Mint} {c : MintConfig}
    (hc : c.Placed (.config (.mint s))) (hM : M.IssuedBy (.config (.mint s)) c)
    (hst : ∀ k a, w.ledger.tokens k = some a → a.mint = .mint s → w.IsStablecoin (.mint s)) :
    Shape ({ w with ledger := w.ledger.setMint (.mint s) M }.setConfig (.config (.mint s)) c) := by
  have hcm : c.mint = .mint s := (Pubkey.config.inj hc.key).symm
  have hconfig : ∀ m, m ≠ .mint s → Pubkey.config m ≠ .config (.mint s) :=
    fun m hm h => hm (Pubkey.config.inj h)
  have hmint : ∀ m N, w.ledger.mints m = some N → ∃ N', (w.ledger.setMint (.mint s) M).mints m =
      some N' := by
    intro m N hN
    by_cases hm : m = .mint s
    · subst hm; exact ⟨M, setMint_mints_self ..⟩
    · exact ⟨N, (setMint_mints_of_ne _ _ _ hm).trans hN⟩
  exact
    { config := fun k c' hc' => by
        by_cases hk : k = .config (.mint s)
        · subst hk
          obtain rfl := Option.some.inj ((setConfig_configs_self ..).symm.trans hc')
          exact ⟨hc, M, hcm ▸ setMint_mints_self .., hM⟩
        · obtain ⟨hplaced, N, hN, hNi⟩ := hs.config k c'
            ((setConfig_configs_of_ne _ _ _ hk).symm.trans hc')
          have hne : c'.mint ≠ .mint s := fun h => hk (h ▸ hplaced.key)
          exact ⟨hplaced, N, (setMint_mints_of_ne _ _ _ hne).trans hN, hNi⟩
      pool := fun p P hP => by
        have h := hs.pool p P hP
        have hne : P.lpMint ≠ .mint s := by rw [h.placed.lpMint]; exact nofun
        exact h.kept (fun _ hN => (setMint_mints_of_ne _ _ _ hne).trans hN) fun _ _ hk => hk
      mint := fun m N hN => by
        by_cases hm : m = .mint s
        · subst hm; exact .inl ⟨⟨s, rfl⟩, c, setConfig_configs_self ..⟩
        · rcases hs.mint m N ((setMint_mints_of_ne _ _ _ hm).symm.trans hN) with
            ⟨hkey, c', hc'⟩ | hp
          · exact .inl ⟨hkey, c', (setConfig_configs_of_ne _ _ _ (hconfig m hm)).trans hc'⟩
          · exact .inr hp
      token := fun k a ha => by
        obtain ⟨N, hN⟩ := hs.token k a ha
        exact hmint _ N hN
      policy := hs.policy
      thawed := fun k a ha hsta hf => by
        refine hs.thawed k a ha ?_ hf
        by_cases hm : a.mint = .mint s
        · rw [hm]; exact hst k a ha hm
        · obtain ⟨c', hc'⟩ := hsta
          exact ⟨c', (setConfig_configs_of_ne _ _ _ (hconfig _ hm)).symm.trans hc'⟩ }

theorem initializeStablecoin {w' : World} (hs : w.Shape) {ctx : InitializeStablecoin}
    {symbol : Symbol} {supplyCap : ℕ} {M : Mint} {c : MintConfig}
    (h : ctx.Effect w symbol supplyCap M c w') : w'.Shape := by
  obtain ⟨payer, mint, config⟩ := ctx
  obtain rfl : mint = .mint symbol := h.mint_key
  obtain rfl : config = .config (.mint symbol) := h.config_key
  rw [h.result]
  refine hs.writeStablecoin ?_ ?_ ?_
  · rw [h.config]; exact ⟨rfl, rfl⟩
  · exact
      { mintAuthority := h.mintAuthority
        freezeAuthority := h.freezeAuthority
        decimals := by rw [h.decimals, h.config]
        defaultState := h.defaultState
        pausable := by rw [h.pausable, h.config] }
  · -- before the mint exists it has no accounts
    intro k a ha hm
    obtain ⟨N, hN⟩ := hs.token k a ha
    rw [hm, h.mint_free] at hN
    cases hN

theorem setPause {w' : World} (hs : w.Shape) {ctx : SetPause} {paused : Bool} {c : MintConfig}
    {M : Mint} {p : PausableConfig} (h : ctx.Effect w paused c M p w') : w'.Shape := by
  obtain ⟨hplaced, N, hN, hNi⟩ := hs.config _ _ h.config
  obtain ⟨authority, mint, config⟩ := ctx
  obtain rfl : c.mint = mint := h.config_mint
  obtain rfl : config = .config c.mint := h.config_key
  obtain rfl := Option.some.inj (h.mint.symm.trans hN)
  have hp := hNi.pausable
  rw [h.pausable] at hp
  have hkey := hplaced.mint
  rw [h.result]
  dsimp only
  rw [hkey] at hplaced hNi ⊢
  refine hs.writeStablecoin ⟨rfl, rfl⟩ ?_ ?_
  · exact
      { mintAuthority := hNi.mintAuthority
        freezeAuthority := hNi.freezeAuthority
        decimals := hNi.decimals
        defaultState := hNi.defaultState
        pausable := by rw [Option.some.inj hp, hkey] }
  · intro k a _ _
    rw [← hkey]
    exact ⟨c, h.config⟩

theorem initializePool {w' : World} (hs : w.Shape) {ctx : InitializePool} {feeBps : ℕ}
    {mA mB : Mint} (h : ctx.Effect w feeBps mA mB w') : w'.Shape := by
  obtain ⟨cA, hcA, -⟩ := h.configA
  obtain ⟨cB, hcB, -⟩ := h.configB
  obtain ⟨hkA, hfA⟩ := hs.configured hcA h.mintA
  obtain ⟨hkB, hfB⟩ := hs.configured hcB h.mintB
  have hacc : ∀ j m o, w.ledger.HasAccount j m o →
      (openPool w.ledger ctx.pool ctx.mintA ctx.mintB mA mB).HasAccount j m o := by
    rintro j m o ⟨a, ha, hrest⟩
    exact ⟨a, h.token_kept ha, hrest⟩
  rw [h.result]
  exact
    { config := fun k c hc => by
        obtain ⟨hplaced, M, hM, hMi⟩ := hs.config k c hc
        exact ⟨hplaced, M, h.mint_kept hM, hMi⟩
      pool := fun p P hP => by
        by_cases hp : p = ctx.pool
        · subst hp
          obtain rfl := Option.some.inj ((setPool_pools_self ..).symm.trans hP)
          exact
            { placed := ⟨h.pool_key, hkA, hkB, h.mints_ne, rfl, rfl, rfl, rfl, h.feeBps_le⟩
              vaultA := ⟨_, openPool_vaultA _ _ _ _ _ _ h.mints_ne, rfl, rfl⟩
              vaultB := ⟨_, openPool_vaultB .., rfl, rfl⟩
              lockedLp := ⟨_, openPool_lockedLp .., rfl, rfl⟩
              lpMint := ⟨_, openPool_lpMint .., rfl, rfl, rfl, rfl⟩ }
        · have hsh := hs.pool p P ((setPool_pools_of_ne _ _ _ hp).symm.trans hP)
          exact hsh.kept (fun _ hM => h.mint_kept hM) fun _ _ hk => hacc _ _ _ hk
      mint := fun m M hM => by
        by_cases hm : m = .lpMint ctx.pool
        · exact .inr ⟨ctx.pool, _, hm, setPool_pools_self ..⟩
        · rcases hs.mint m M ((openPool_mints_of_ne _ _ _ _ _ _ hm).symm.trans hM) with
            hst | ⟨p, P, hkey, hP⟩
          · exact .inl hst
          · have hp : p ≠ ctx.pool := fun e => hm (e ▸ hkey)
            exact .inr ⟨p, P, hkey, (setPool_pools_of_ne _ _ _ hp).trans hP⟩
      token := fun k a ha => by
        rcases openPool_tokens_cases _ _ _ _ _ _ h.mints_ne ha with rfl | rfl | rfl | ha
        · exact ⟨mA, h.mint_kept h.mintA⟩
        · exact ⟨mB, h.mint_kept h.mintB⟩
        · exact ⟨_, openPool_lpMint ..⟩
        · obtain ⟨M, hM⟩ := hs.token k a ha
          exact ⟨M, h.mint_kept hM⟩
      policy := hs.policy
      thawed := fun k a ha hst hf => by
        rcases openPool_tokens_cases _ _ _ _ _ _ h.mints_ne ha with rfl | rfl | rfl | ha
        · exact absurd hfA hf
        · exact absurd hfB hf
        · -- an LP mint has no configuration
          obtain ⟨s, hkey⟩ := hs.isStablecoin_key hst
          cases hkey
        · exact hs.thawed k a ha hst hf }

end World.Shape

theorem Pool.erase_afterSwap (P : Pool) (q : Amm.SwapQuote) :
    ∀ d, (P.afterSwap q d).erase = P.erase
  | .aToB | .bToA => rfl

/-- The calls of a handler and its write to the pool leave the shape. -/
theorem World.Framed.of_moved_pool {w : World} {l : Ledger} {p : Pubkey} {P P' : Pool}
    (hl : Moved w.ledger l) (hP : w.pools p = some P) (he : P'.erase = P.erase) :
    World.Framed w ({ w with ledger := l }.setPool p P') :=
  (World.Framed.of_ledger hl.skeleton).trans (.of_pool hP he)

/-- And so do its calls and its write to the configuration. -/
theorem World.Framed.of_moved_config {w : World} {l : Ledger} {k : Pubkey} {c c' : MintConfig}
    (hl : Moved w.ledger l) (hc : w.configs k = some c) (he : c'.erase = c.erase) :
    World.Framed w ({ w with ledger := l }.setConfig k c') :=
  (World.Framed.of_ledger hl.skeleton).trans (.of_config hc he)

/-- Minting changes amounts and counters alone. -/
theorem MintTo.Effect.framed {w w' : World} {ctx : MintTo} {amount : ℕ} {a : MintTo.Loaded}
    {l : Ledger} (h : ctx.Effect w amount a l w') : w.Framed w' := by
  rw [h.result]
  refine .trans (.of_ledger h.minted.skeleton) ?_
  exact .trans (.of_minterRole ..) (.of_config h.valid.config rfl)

/-- **The shape is kept.** -/
theorem Action.Effect.shape {w w' : World} (hs : w.Shape) : ∀ {a : Action}, a.Effect w w' →
    w'.Shape
  | .initializeStablecoin .., ⟨_, _, h⟩ => hs.initializeStablecoin h
  | .grantMinter .., h | .revokeMinter .., h => by
      rw [h]; exact hs.of_framed (.of_minterRole ..)
  | .acceptAdmin .., ⟨_, hc, _, h⟩ => by rw [h]; exact hs.of_framed (.of_config hc rfl)
  | .updateConfig .., ⟨_, h⟩ => by rw [h.result]; exact hs.of_framed (.of_config h.config rfl)
  | .setWalletPolicy .., ⟨_, _, h⟩ => hs.setWalletPolicy h
  | .setPause .., ⟨_, _, _, h⟩ => hs.setPause h
  | .mintTo .., ⟨_, _, h⟩ => hs.of_framed h.framed
  | .burn .., ⟨_, _, h⟩ => by
      rw [h.result]; exact hs.of_framed (.of_moved_config h.burned.toMoved h.config rfl)
  | .initializePool .., ⟨_, _, h⟩ => hs.initializePool h
  | .addLiquidity .., ⟨_, _, _, _, _, _, h⟩ => by
      rw [h.result]
      exact hs.of_framed (.of_moved_pool (h.paidA.toMoved.trans (h.paidB.toMoved.trans
        (h.locked.moved.trans h.minted.toMoved))) h.valid.pool rfl)
  | .removeLiquidity .., ⟨_, _, _, _, _, h⟩ => by
      rw [h.result]
      exact hs.of_framed (.of_moved_pool
        (h.burned.toMoved.trans (h.paidA.toMoved.trans h.paidB.toMoved)) h.valid.pool rfl)
  | .swap .., ⟨_, _, _, _, h⟩ => by
      rw [h.result]
      exact hs.of_framed (.of_moved_pool (h.paidIn.toMoved.trans h.paidOut.toMoved) h.valid.pool
        (Pool.erase_afterSwap ..))
  | .createAccount .., ⟨_, _, hM, hfree, h⟩ => by rw [h]; exact hs.createAccount hM hfree
  | .transfer .., ⟨_, _, h, hw⟩ => by rw [hw]; exact hs.of_framed (.of_ledger h.skeleton)
  | .burnDirect .., ⟨_, _, h, hw⟩ => by rw [hw]; exact hs.of_framed (.of_ledger h.skeleton)
  | .setOwner .., ⟨_, ho, ha, _, hown, _, h⟩ => by
      rw [h]; exact hs.setOwner ha (hown ▸ ho)
  | .closeAccount .., ⟨_, ho, ha, _, hown, h⟩ => by
      rw [h]; exact hs.closeAccount ha (hown ▸ ho)

end StablecoinAmm

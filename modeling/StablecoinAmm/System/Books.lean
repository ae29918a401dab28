import StablecoinAmm.System.Preservation

/-!
# System — the books of a stablecoin

A configuration counts what was minted and what was burned through the program.  What an action
mints, burns through the program and burns past it can be read off the action itself
(`Action.issued`, `Action.redeemed`, `Action.directBurn`); `Booked` says that a successful one
moves the counters, the supply and the pause flag by just that.

* `Effect.booked`: every action keeps every configuration and books what it does.
* `Effect.config_new`: a configuration that was not there before starts with an empty mint.
* `Effect.accounted`: so every supply stays covered by its counters and within its cap.
-/

namespace StablecoinAmm
open Support Ledger

/-! ### What an action does to a stablecoin -/

namespace Action

/-- What an action mints of `m`. -/
def issued (m : Pubkey) : Action → ℕ
  | .mintTo ctx amount => if m = ctx.mint then amount else 0
  | _ => 0

/-- What an action burns of `m` through the program. -/
def redeemed (m : Pubkey) : Action → ℕ
  | .burn ctx amount => if m = ctx.mint then amount else 0
  | _ => 0

/-- What an action burns of `m` past the program. -/
def directBurn (m : Pubkey) : Action → ℕ
  | .burnDirect c amount _ => if m = c.mint then amount else 0
  | _ => 0

/-- Whether `m` is paused after an action, when it was as `paused` says before. -/
def pauses (m : Pubkey) (paused : Bool) : Action → Bool
  | .setPause ctx b => if m = ctx.mint then b else paused
  | _ => paused

/-- The action mints nothing, burns nothing through the program and pauses nothing. -/
def Idle (a : Action) (m : Pubkey) : Prop :=
  a.issued m = 0 ∧ a.redeemed m = 0 ∧ ∀ b, a.pauses m b = b

end Action

/-- **One step in the books**, from `c` to `c'`. -/
structure World.Booked (w w' : World) (a : Action) (c c' : MintConfig) : Prop where
  mint : c'.mint = c.mint
  totalMinted : c'.totalMinted = c.totalMinted + a.issued c.mint
  totalBurned : c'.totalBurned = c.totalBurned + a.redeemed c.mint
  supply : w'.ledger.supply c.mint + a.redeemed c.mint + a.directBurn c.mint =
    w.ledger.supply c.mint + a.issued c.mint
  paused : c'.paused = a.pauses c.mint c.paused
  live : a.issued c.mint + a.redeemed c.mint ≠ 0 → w.ledger.Live c.mint
  capped : w.AccountedAt c → w'.ledger.supply c.mint ≤ c'.supplyCap ∧ c'.supplyCap ≤ maxSupplyCap

namespace World.Booked

variable {w w' : World} {a : Action} {c c' : MintConfig}

/-- An idle action that keeps the cap. -/
theorem idle (ha : a.Idle c.mint) (hm : c'.mint = c.mint) (ht : c'.totalMinted = c.totalMinted)
    (hb : c'.totalBurned = c.totalBurned) (hp : c'.paused = c.paused)
    (hc : c'.supplyCap = c.supplyCap)
    (hs : w'.ledger.supply c.mint + a.directBurn c.mint = w.ledger.supply c.mint) :
    w.Booked w' a c c' := by
  obtain ⟨hi, hr, hpa⟩ := ha
  exact
    { mint := hm
      totalMinted := by rw [ht, hi]; rfl
      totalBurned := by rw [hb, hr]; rfl
      supply := by rw [hi, hr]; exact hs
      paused := by rw [hp, hpa]
      live := fun h => absurd (by rw [hi, hr]) h
      capped := fun h => by
        have hle := h.supply_le
        rw [hc]
        exact ⟨by omega, h.supplyCap_le⟩ }

/-- The books balance after the step when they did before. -/
theorem accounted (h : w.Booked w' a c c') (ha : w.AccountedAt c) : w'.AccountedAt c' := by
  obtain ⟨hcap, hmax⟩ := h.capped ha
  have ht := ha.tracks
  have hm := h.totalMinted
  have hb := h.totalBurned
  have hs := h.supply
  refine ⟨?_, ?_, hmax⟩
  · unfold MintConfig.Tracks at ht ⊢
    rw [h.mint]
    omega
  · rw [h.mint]; exact hcap

end World.Booked

section
variable {w w' : World}

/-- A configuration is found again after a write to it, or to another. -/
theorem World.setConfig_cases {w₁ : World} {j k : Pubkey} {c c₁ c₂ : MintConfig}
    (hr : w' = w₁.setConfig k c₂) (hw₁ : w₁.configs = w.configs) (hk : w.configs k = some c₁)
    (hj : w.configs j = some c) :
    (j = k ∧ c = c₁ ∧ w'.configs j = some c₂) ∨ (j ≠ k ∧ w'.configs j = some c) := by
  subst hr
  by_cases h : j = k
  · subst h
    exact .inl ⟨rfl, Option.some.inj (hj.symm.trans hk), setConfig_configs_self ..⟩
  · exact .inr ⟨h, by rw [setConfig_configs_of_ne _ _ _ h, hw₁, hj]⟩

/-- Different configurations are of different mints. -/
theorem World.Shape.mint_ne (hs : w.Shape) {j k : Pubkey} {c c₁ : MintConfig}
    (hj : w.configs j = some c) (hk : w.configs k = some c₁) (h : j ≠ k) : c.mint ≠ c₁.mint := by
  intro he
  refine h ?_
  rw [(hs.config j c hj).1.key, (hs.config k c₁ hk).1.key, he]

/-- A stablecoin is no LP mint. -/
theorem World.Shape.mint_ne_lpMint (hs : w.Shape) {k p : Pubkey} {c : MintConfig} {P : Pool}
    (hc : w.configs k = some c) (hP : w.pools p = some P) : c.mint ≠ P.lpMint := by
  rw [(hs.config k c hc).1.mint, (hs.pool p P hP).placed.lpMint]
  exact nofun

/-- The configurations are untouched and so is the supply of every stablecoin. -/
theorem booked_same {a : Action} (ha : ∀ m, a.Idle m) (hcfg : w'.configs = w.configs)
    (hsup : ∀ k c, w.configs k = some c →
      w'.ledger.supply c.mint + a.directBurn c.mint = w.ledger.supply c.mint) :
    ∀ k c, w.configs k = some c → ∃ c', w'.configs k = some c' ∧ w.Booked w' a c c' :=
  fun k c hc => ⟨c, by rw [hcfg, hc], .idle (ha _) rfl rfl rfl rfl rfl (hsup k c hc)⟩

theorem MintTo.Effect.booked (hs : w.Shape) {ctx : MintTo} {amount : ℕ} {a : MintTo.Loaded}
    {l : Ledger} (h : ctx.Effect w amount a l w') :
    ∀ k c, w.configs k = some c →
      ∃ c', w'.configs k = some c' ∧ w.Booked w' (.mintTo ctx amount) c c' := by
  intro k c hc
  have hm := h.valid.config_mint
  have hsup : ∀ m, w'.ledger.supply m = w.ledger.supply m + if m = ctx.mint then amount else 0 :=
    by rw [h.result]; exact h.minted.supplies
  rcases World.setConfig_cases h.result rfl h.valid.config hc with ⟨-, rfl, hc'⟩ | ⟨hne, hc'⟩
  · refine ⟨_, hc', ?_⟩
    exact
      { mint := rfl
        totalMinted := by rw [Action.issued, if_pos hm]
        totalBurned := rfl
        supply := hsup _
        paused := rfl
        live := fun _ => by rw [hm]; exact h.minted.live
        capped := fun ha => ⟨by rw [hsup, if_pos hm, hm]; exact h.capped, ha.supplyCap_le⟩ }
  · have hmne : c.mint ≠ ctx.mint := hm ▸ hs.mint_ne hc h.valid.config hne
    refine ⟨c, hc', .idle ⟨if_neg hmne, rfl, fun _ => rfl⟩ rfl rfl rfl rfl rfl ?_⟩
    rw [hsup, if_neg hmne]; rfl

theorem Burn.Effect.booked (hs : w.Shape) {ctx : Burn} {amount : ℕ} {c₁ : MintConfig}
    {l : Ledger} (h : ctx.Effect w amount c₁ l w') :
    ∀ k c, w.configs k = some c →
      ∃ c', w'.configs k = some c' ∧ w.Booked w' (.burn ctx amount) c c' := by
  intro k c hc
  have hm := h.config_mint
  have hsup : ∀ m, w'.ledger.supply m + (if m = ctx.mint then amount else 0) =
      w.ledger.supply m := by rw [h.result]; exact h.burned.supplies
  rcases World.setConfig_cases h.result rfl h.config hc with ⟨-, rfl, hc'⟩ | ⟨hne, hc'⟩
  · have hcm := hsup c.mint
    refine ⟨_, hc', ?_⟩
    exact
      { mint := rfl
        totalMinted := rfl
        totalBurned := by rw [Action.redeemed, if_pos hm]
        supply := hcm
        paused := rfl
        live := fun _ => by rw [hm]; exact h.burned.live
        capped := fun ha => by
          have hle := ha.supply_le
          exact ⟨by dsimp only; omega, ha.supplyCap_le⟩ }
  · have hmne : c.mint ≠ ctx.mint := hm ▸ hs.mint_ne hc h.config hne
    have hcm := hsup c.mint
    rw [if_neg hmne] at hcm
    exact ⟨c, hc', .idle ⟨rfl, if_neg hmne, fun _ => rfl⟩ rfl rfl rfl rfl rfl hcm⟩

theorem UpdateConfig.Effect.booked {ctx : UpdateConfig} {supplyCap : Option ℕ}
    {complianceAuthority pendingAdmin : Option Pubkey} {c₁ : MintConfig}
    (h : ctx.Effect w supplyCap complianceAuthority pendingAdmin c₁ w') :
    ∀ k c, w.configs k = some c → ∃ c', w'.configs k = some c' ∧
      w.Booked w' (.updateConfig ctx supplyCap complianceAuthority pendingAdmin) c c' := by
  intro k c hc
  have hsup : w'.ledger = w.ledger := by rw [h.result]; rfl
  rcases World.setConfig_cases h.result rfl h.config hc with ⟨-, rfl, hc'⟩ | ⟨-, hc'⟩
  · refine ⟨_, hc', rfl, rfl, rfl, by rw [hsup]; rfl, rfl, fun h => absurd rfl h, fun ha => ?_⟩
    rw [hsup]
    cases supplyCap with
    | none => exact ⟨ha.supply_le, ha.supplyCap_le⟩
    | some cap => rw [h.config_mint]; exact h.capped cap rfl
  · refine ⟨c, hc', .idle ⟨rfl, rfl, fun _ => rfl⟩ rfl rfl rfl rfl rfl ?_⟩
    rw [hsup]; rfl

theorem SetPause.Effect.booked (hs : w.Shape) {ctx : SetPause} {paused : Bool} {c₁ : MintConfig}
    {M : Mint} {p : PausableConfig} (h : ctx.Effect w paused c₁ M p w') :
    ∀ k c, w.configs k = some c →
      ∃ c', w'.configs k = some c' ∧ w.Booked w' (.setPause ctx paused) c c' := by
  intro k c hc
  have hm := h.config_mint
  have hset : Settled w.ledger (w.ledger.setMint ctx.mint
      { M with pausable := some { p with paused } }) := settled_setMint (supply_of h.mint).symm
  have hsup : ∀ m, w'.ledger.supply m = w.ledger.supply m := by rw [h.result]; exact hset.supply
  rcases World.setConfig_cases h.result rfl h.config hc with ⟨-, rfl, hc'⟩ | ⟨hne, hc'⟩
  · refine ⟨_, hc', ?_⟩
    exact
      { mint := rfl
        totalMinted := rfl
        totalBurned := rfl
        supply := hsup _
        paused := by rw [Action.pauses, if_pos hm]
        live := fun h => absurd rfl h
        capped := fun ha => ⟨by rw [hsup]; exact ha.supply_le, ha.supplyCap_le⟩ }
  · have hmne : c.mint ≠ ctx.mint := hm ▸ hs.mint_ne hc h.config hne
    exact ⟨c, hc', .idle ⟨rfl, rfl, fun _ => if_neg hmne⟩ rfl rfl rfl rfl rfl (hsup _)⟩

/-- **Every action keeps every configuration and books what it does.** -/
theorem Action.Effect.booked (hs : w.Shape) : ∀ {a : Action}, a.Effect w w' →
    ∀ k c, w.configs k = some c → ∃ c', w'.configs k = some c' ∧ w.Booked w' a c c'
  | .initializeStablecoin .., ⟨M, c₁, h⟩ => by
      intro k c hc
      rw [h.result]
      have hk : k ≠ _ := fun e => by rw [e, h.config_free] at hc; cases hc
      refine ⟨c, (World.setConfig_configs_of_ne _ _ _ hk).trans hc,
        .idle ⟨rfl, rfl, fun _ => rfl⟩ rfl rfl rfl rfl rfl ?_⟩
      exact (settled_setMint (h.supply.trans (supply_of_none h.mint_free).symm)).supply _
  | .grantMinter .., h | .revokeMinter .., h => by
      rw [h]; exact booked_same (fun _ => ⟨rfl, rfl, fun _ => rfl⟩) rfl fun _ _ _ => rfl
  | .acceptAdmin ctx, ⟨c₁, hc₁, _, h⟩ => by
      intro k c hc
      have hsup : w'.ledger.supply c.mint = w.ledger.supply c.mint := by rw [h]; rfl
      rcases World.setConfig_cases h rfl hc₁ hc with ⟨-, rfl, hc'⟩ | ⟨-, hc'⟩
      · exact ⟨_, hc', .idle ⟨rfl, rfl, fun _ => rfl⟩ rfl rfl rfl rfl rfl hsup⟩
      · exact ⟨c, hc', .idle ⟨rfl, rfl, fun _ => rfl⟩ rfl rfl rfl rfl rfl hsup⟩
  | .updateConfig .., ⟨_, h⟩ => h.booked
  | .setWalletPolicy .., ⟨_, _, h⟩ => by
      rw [h.result]
      exact booked_same (fun _ => ⟨rfl, rfl, fun _ => rfl⟩) rfl fun _ _ _ => rfl
  | .setPause .., ⟨_, _, _, h⟩ => h.booked hs
  | .mintTo .., ⟨_, _, h⟩ => h.booked hs
  | .burn .., ⟨_, _, h⟩ => h.booked hs
  | .initializePool .., ⟨_, _, h⟩ => by
      rw [h.result]
      refine booked_same (fun _ => ⟨rfl, rfl, fun _ => rfl⟩) rfl fun _ c _ => ?_
      exact (settled_openPool h.mints_ne h.vaultA_free h.vaultB_free h.lpMint_free
        h.lockedLp_free).supply c.mint
  | .addLiquidity .., ⟨a, _, _, _, _, _, h⟩ => by
      rw [h.result]
      refine booked_same (fun _ => ⟨rfl, rfl, fun _ => rfl⟩) rfl fun k c hc => ?_
      have hne : c.mint ≠ _ := h.valid.lpMint_eq ▸ hs.mint_ne_lpMint hc h.valid.pool
      refine (h.minted.supplies _).trans ?_
      rw [if_neg hne, h.locked.supplies, if_neg hne, h.paidB.supplies, h.paidA.supplies]; rfl
  | .removeLiquidity .., ⟨_, _, _, _, _, h⟩ => by
      rw [h.result]
      refine booked_same (fun _ => ⟨rfl, rfl, fun _ => rfl⟩) rfl fun k c hc => ?_
      have hne : c.mint ≠ _ := h.valid.lpMint_eq ▸ hs.mint_ne_lpMint hc h.valid.pool
      have hb := h.burned.supplies c.mint
      rw [if_neg hne] at hb
      exact ((h.paidB.supplies _).trans (h.paidA.supplies _)).trans hb
  | .swap .., ⟨_, _, _, _, h⟩ => by
      rw [h.result]
      exact booked_same (fun _ => ⟨rfl, rfl, fun _ => rfl⟩) rfl fun _ c _ =>
        (h.paidOut.supplies c.mint).trans (h.paidIn.supplies _)
  | .createAccount .., ⟨_, _, _, _, h⟩ => by
      rw [h]; exact booked_same (fun _ => ⟨rfl, rfl, fun _ => rfl⟩) rfl fun _ _ _ => rfl
  | .transfer .., ⟨_, _, h, hw⟩ => by
      rw [hw]
      exact booked_same (fun _ => ⟨rfl, rfl, fun _ => rfl⟩) rfl fun _ c _ => h.supplies c.mint
  | .burnDirect .., ⟨_, _, h, hw⟩ => by
      rw [hw]
      exact booked_same (fun _ => ⟨rfl, rfl, fun _ => rfl⟩) rfl fun _ c _ => h.supplies c.mint
  | .setOwner .., ⟨_, _, _, _, _, _, h⟩ => by
      rw [h]; exact booked_same (fun _ => ⟨rfl, rfl, fun _ => rfl⟩) rfl fun _ _ _ => rfl
  | .closeAccount .., ⟨_, _, _, _, _, h⟩ => by
      rw [h]; exact booked_same (fun _ => ⟨rfl, rfl, fun _ => rfl⟩) rfl fun _ _ _ => rfl

/-- A configuration that is created has an empty mint. -/
structure World.Opened (w : World) (c : MintConfig) : Prop where
  totalMinted : c.totalMinted = 0
  totalBurned : c.totalBurned = 0
  supply : w.ledger.supply c.mint = 0
  supplyCap_le : c.supplyCap ≤ maxSupplyCap

theorem World.Opened.accounted {c : MintConfig} (h : w.Opened c) : w.AccountedAt c where
  tracks := by
    unfold MintConfig.Tracks
    rw [h.totalMinted, h.totalBurned, h.supply]
  supply_le := by rw [h.supply]; exact Nat.zero_le _
  supplyCap_le := h.supplyCap_le

/-- A write to one configuration creates no other. -/
theorem World.not_new_config {w₁ : World} {j k : Pubkey} {c₁ c₂ c' : MintConfig}
    (hw₁ : w₁.configs = w.configs) (hk : w.configs k = some c₁) (hj : w.configs j = none) :
    (w₁.setConfig k c₂).configs j ≠ some c' := by
  intro hc'
  have hne : j ≠ k := by
    rintro rfl
    cases hj.symm.trans hk
  rw [setConfig_configs_of_ne _ _ _ hne, hw₁, hj] at hc'
  cases hc'

/-- **Only `initialize_stablecoin` creates a configuration.** -/
theorem Action.Effect.config_created {j : Pubkey} {c' : MintConfig} (hj : w.configs j = none)
    (hc' : w'.configs j = some c') : ∀ {a : Action}, a.Effect w w' →
      ∃ ctx symbol supplyCap M, InitializeStablecoin.Effect w ctx symbol supplyCap M c' w'
  | .initializeStablecoin ctx symbol _ _ _ supplyCap, ⟨M, c₁, h⟩ => by
      have hold := hc'
      rw [h.result] at hold
      by_cases hk : j = ctx.config
      · subst hk
        obtain rfl := Option.some.inj ((World.setConfig_configs_self ..).symm.trans hold)
        exact ⟨ctx, symbol, supplyCap, M, h⟩
      · cases hj.symm.trans ((World.setConfig_configs_of_ne _ _ _ hk).symm.trans hold)
  | .grantMinter .., h | .revokeMinter .., h => by rw [h] at hc'; cases hj.symm.trans hc'
  | .acceptAdmin .., ⟨_, hc, _, h⟩ => by
      rw [h] at hc'; exact absurd hc' (World.not_new_config rfl hc hj)
  | .updateConfig .., ⟨_, h⟩ => by
      rw [h.result] at hc'; exact absurd hc' (World.not_new_config rfl h.config hj)
  | .setWalletPolicy .., ⟨_, _, h⟩ => by rw [h.result] at hc'; cases hj.symm.trans hc'
  | .setPause .., ⟨_, _, _, h⟩ => by
      rw [h.result] at hc'; exact absurd hc' (World.not_new_config rfl h.config hj)
  | .mintTo .., ⟨_, _, h⟩ => by
      rw [h.result] at hc'; exact absurd hc' (World.not_new_config rfl h.valid.config hj)
  | .burn .., ⟨_, _, h⟩ => by
      rw [h.result] at hc'; exact absurd hc' (World.not_new_config rfl h.config hj)
  | .initializePool .., ⟨_, _, h⟩ => by rw [h.result] at hc'; cases hj.symm.trans hc'
  | .addLiquidity .., ⟨_, _, _, _, _, _, h⟩ => by rw [h.result] at hc'; cases hj.symm.trans hc'
  | .removeLiquidity .., ⟨_, _, _, _, _, h⟩ => by rw [h.result] at hc'; cases hj.symm.trans hc'
  | .swap .., ⟨_, _, _, _, h⟩ => by rw [h.result] at hc'; cases hj.symm.trans hc'
  | .createAccount .., ⟨_, _, _, _, h⟩ => by rw [h] at hc'; cases hj.symm.trans hc'
  | .transfer .., ⟨_, _, _, h⟩ => by rw [h] at hc'; cases hj.symm.trans hc'
  | .burnDirect .., ⟨_, _, _, h⟩ => by rw [h] at hc'; cases hj.symm.trans hc'
  | .setOwner .., ⟨_, _, _, _, _, _, h⟩ => by rw [h] at hc'; cases hj.symm.trans hc'
  | .closeAccount .., ⟨_, _, _, _, _, h⟩ => by rw [h] at hc'; cases hj.symm.trans hc'

theorem InitializeStablecoin.Effect.opened {ctx : InitializeStablecoin} {symbol : Symbol}
    {supplyCap : ℕ} {M : Mint} {c : MintConfig} (h : ctx.Effect w symbol supplyCap M c w') :
    w'.Opened c where
  totalMinted := by rw [h.config]
  totalBurned := by rw [h.config]
  supply := by
    have hM : (w.ledger.setMint ctx.mint M).mints ctx.mint = some M := setMint_mints_self ..
    rw [h.result, show c.mint = ctx.mint by rw [h.config]]
    exact (supply_of hM).trans h.supply
  supplyCap_le := by rw [h.config]; exact h.supplyCap_le

theorem Action.Effect.config_new {j : Pubkey} {c' : MintConfig} (hj : w.configs j = none)
    (hc' : w'.configs j = some c') {a : Action} (h : a.Effect w w') : w'.Opened c' := by
  obtain ⟨ctx, symbol, supplyCap, M, h⟩ := h.config_created hj hc'
  exact h.opened

/-- **The books stay balanced.** -/
theorem Action.Effect.accounted (hw : w.Inv) {a : Action} (h : a.Effect w w') :
    ∀ k c', w'.configs k = some c' → w'.AccountedAt c' := by
  intro k c' hc'
  rcases hc : w.configs k with _ | c
  · exact (h.config_new hc hc').accounted
  · obtain ⟨c'', hc'', hb⟩ := h.booked hw.shape k c hc
    obtain rfl := Option.some.inj (hc''.symm.trans hc')
    exact hb.accounted (hw.accounted k c hc)

end

end StablecoinAmm

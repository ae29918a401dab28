import StablecoinAmm.System.History

/-!
# Issuance — pausing

`pause_agrees_and_freezes`: the flag a configuration keeps is the one the ledger enforces, and
from the step that sets it to the step that clears it nothing moves: no balance and no supply of
the mint, neither counter, and no reserve of a pool that trades it on either side.

What the ledger refuses while a mint is paused is `Effect.honest`, what the counters record is
`Effect.booked`; the pools are stopped by their own check of both configurations.
-/

namespace StablecoinAmm
open Support Ledger

/-- The action resumes `m`. -/
def Action.Resumes (m : Pubkey) (a : Action) : Prop := a.pauses m true = false

/-- From `w` to `w'` nothing moved of the stablecoin `m`, which was paused all along. -/
structure World.Halted (m : Pubkey) (w w' : World) : Prop where
  config : ∀ c, w.configs (.config m) = some c → ∃ c', w'.configs (.config m) = some c' ∧
    c'.paused = true ∧ c'.totalMinted = c.totalMinted ∧ c'.totalBurned = c.totalBurned
  supply : w'.ledger.supply m = w.ledger.supply m
  balanceOf : ∀ k, w'.ledger.balanceOf m k = w.ledger.balanceOf m k
  reserves : ∀ p P, w.pools p = some P → P.mintA = m ∨ P.mintB = m →
    ∃ P', w'.pools p = some P' ∧ P'.erase = P.erase ∧ P'.reserveA = P.reserveA ∧
      P'.reserveB = P.reserveB

theorem World.Halted.trans {m : Pubkey} {w w₁ w' : World} (h₁ : Halted m w w₁)
    (h₂ : Halted m w₁ w') : Halted m w w' where
  config c hc := by
    obtain ⟨c₁, hc₁, -, hm₁, hb₁⟩ := h₁.config c hc
    obtain ⟨c', hc', hp, hm, hb⟩ := h₂.config c₁ hc₁
    exact ⟨c', hc', hp, hm.trans hm₁, hb.trans hb₁⟩
  supply := h₂.supply.trans h₁.supply
  balanceOf k := (h₂.balanceOf k).trans (h₁.balanceOf k)
  reserves p P hP hm := by
    obtain ⟨P₁, hP₁, he₁, hA₁, hB₁⟩ := h₁.reserves p P hP hm
    obtain ⟨hA, hB, -⟩ := Pool.mints_of_erase he₁
    obtain ⟨P', hP', he, hA', hB'⟩ := h₂.reserves p P₁ hP₁ (by rwa [hA, hB])
    exact ⟨P', hP', he.trans he₁, hA'.trans hA₁, hB'.trans hB₁⟩

section
variable {w w' : World} {m : Pubkey} {c : MintConfig}

/-- The ledger holds the flag the configuration keeps. -/
theorem World.Shape.pausable (hs : w.Shape) (hc : w.configs (.config m) = some c) :
    ∃ M p, w.ledger.mints m = some M ∧ M.pausable = some p ∧ p.paused = c.paused := by
  obtain ⟨-, M, hM, hMi⟩ := hs.config _ c hc
  rw [hs.config_mint hc] at hM
  exact ⟨M, _, hM, hMi.pausable, rfl⟩

theorem World.Shape.not_live (hs : w.Shape) (hc : w.configs (.config m) = some c)
    (hp : c.paused = true) : ¬ w.ledger.Live m := by
  rintro ⟨N, hN, hlive⟩
  obtain ⟨M, p, hM, hMp, he⟩ := hs.pausable hc
  obtain rfl := Option.some.inj (hM.symm.trans hN)
  rw [Mint.isPaused, hMp, Option.elim_some, he, hp] at hlive
  exact hlive rfl

/-- A pool instruction that succeeds found both of the pool's stablecoins running. -/
theorem PoolAccounts.Valid.not_paused {ctx : PoolAccounts} {a : PoolAccounts.Loaded}
    (hv : ctx.Valid w a) (hu : a.Unpaused) (hc : w.configs (.config m) = some c)
    (hm : a.pool.mintA = m ∨ a.pool.mintB = m) : c.paused = false := by
  rcases hm with rfl | rfl
  · have h := hv.configA
    rw [hv.configA_key, ← hv.mintA_eq, hc] at h
    rw [Option.some.inj h]
    exact hu.1
  · have h := hv.configB
    rw [hv.configB_key, ← hv.mintB_eq, hc] at h
    rw [Option.some.inj h]
    exact hu.2

theorem Action.Effect.pool_halted (hc : w.configs (.config m) = some c) (hp : c.paused = true)
    {a : Action} (h : a.Effect w w') {p : Pubkey} {P : Pool} (hP : w.pools p = some P)
    (hm : P.mintA = m ∨ P.mintB = m) : w'.pools p = some P := by
  refine h.pool_kept hP ?_
  by_contra he
  cases a with
  | addLiquidity ctx =>
      obtain ⟨a, t, l₁, l₂, l₃, l₄, h⟩ := h
      have hp' : ctx.pool = p := by by_contra hne; simp [eventOn, hne] at he
      obtain rfl := Option.some.inj (hP.symm.trans (hp' ▸ h.valid.pool))
      cases hp.symm.trans (h.valid.toValid.not_paused h.unpaused hc hm)
  | removeLiquidity ctx =>
      obtain ⟨a, q, l₁, l₂, l₃, h⟩ := h
      have hp' : ctx.pool = p := by by_contra hne; simp [eventOn, hne] at he
      obtain rfl := Option.some.inj (hP.symm.trans (hp' ▸ h.valid.pool))
      cases hp.symm.trans (h.valid.toValid.not_paused h.unpaused hc hm)
  | swap ctx =>
      obtain ⟨a, q, l₁, l₂, h⟩ := h
      have hp' : ctx.pool = p := by by_contra hne; simp [eventOn, hne] at he
      obtain rfl := Option.some.inj (hP.symm.trans (hp' ▸ h.valid.pool))
      cases hp.symm.trans (h.valid.not_paused h.unpaused hc hm)
  | _ => exact he rfl

/-- **One step while paused.** -/
theorem step_halted (hw : w.Inv) (hc : w.configs (.config m) = some c) (hp : c.paused = true)
    {a : Action} (ha : ¬ a.Resumes m) (h : step w a = .ok w') : w.Halted m w' := by
  have heff := step_effect hw h
  have hnl := hw.shape.not_live hc hp
  exact
    { config := fun c₁ hc₁ => by
        obtain rfl := Option.some.inj (hc.symm.trans hc₁)
        obtain ⟨c', hc', hb⟩ := heff.booked hw.shape _ c hc
        have hcm := hw.shape.config_mint hc
        have hzero : a.issued c.mint + a.redeemed c.mint = 0 := by
          by_contra hne
          exact hnl (hcm ▸ hb.live hne)
        have htm := hb.totalMinted
        have htb := hb.totalBurned
        have hpa := hb.paused
        rw [hcm, hp] at hpa
        exact ⟨c', hc', hpa.trans (by simpa [Action.Resumes] using ha), by omega, by omega⟩
      supply := by
        by_contra hne
        exact hnl (heff.honest.supply m hne)
      balanceOf := fun k => by
        by_contra hne
        obtain ⟨-, -, -, -, hlive⟩ := heff.honest.balanceOf m k hne
        exact hnl hlive
      reserves := fun p P hP hm => ⟨P, heff.pool_halted hc hp hP hm, rfl, rfl, rfl⟩ }

theorem run_halted (hw : w.Inv) (hc : w.configs (.config m) = some c) (hp : c.paused = true)
    {as : List Action} (has : ∀ a ∈ as, ¬ a.Resumes m) (t : Run step w as w') :
    w.Halted m w' := by
  induction t generalizing c with
  | refl =>
      refine ⟨fun c₁ hc₁ => ⟨c₁, hc₁, ?_, rfl, rfl⟩, rfl, fun _ => rfl,
        fun p P hP _ => ⟨P, hP, rfl, rfl, rfl⟩⟩
      rwa [← Option.some.inj (hc.symm.trans hc₁)]
  | more h _ ih =>
      have hh := step_halted hw hc hp (has _ (by simp)) h
      obtain ⟨c₁, hc₁, hp₁, -⟩ := hh.config c hc
      exact hh.trans (ih (step_inv _ _ _ hw h) hc₁ hp₁ fun a ha => has a (by simp [ha]))

/-- **The flags agree, and while they are set nothing moves.** -/
theorem pause_agrees_and_freezes (hw : w.Reachable) :
    (∀ m c, w.configs (.config m) = some c → ∃ M p, w.ledger.mints m = some M ∧
      M.pausable = some p ∧ p.paused = c.paused) ∧
    (∀ ctx paused, step w (.setPause ctx paused) ≠
      .error (.stablecoin (.custom .pauseStateDrift))) ∧
    (∀ m c as w', w.configs (.config m) = some c → c.paused = true → Run step w as w' →
      (∀ a ∈ as, ¬ a.Resumes m) → w.Halted m w') := by
  have hi := hw.inv
  refine ⟨fun m c hc => hi.shape.pausable hc, fun ctx paused h => ?_,
    fun m c as w' hc hp t has => run_halted hi hc hp has t⟩
  obtain ⟨e, he, hne⟩ := (step_sat hi _).error h
  cases he
  exact hne rfl

end

/-- The lopsided pool with its first stablecoin paused. -/
def lopsidedPaused : World :=
  lopsided.afterAll
    [.setPause
      { authority := Lopsided.issuer, mint := Lopsided.mintA, config := .config Lopsided.mintA }
      true]

/-- The user burns its LP token, and cannot swap. -/
theorem pause_agrees_and_freezes_lopsided :
    ∃ w', Run step lopsidedPaused
        [.burnDirect
          { mint := .lpMint Lopsided.pool, source := Lopsided.userLp,
            authority := Lopsided.user } 1 6] w' ∧
      World.Halted Lopsided.mintA lopsidedPaused w' ∧
      step w' (.swap Lopsided.accounts.toPoolAccounts .bToA 1 0) =
        .error (.amm (.custom .protocolPaused)) := by
  have hreach : lopsidedPaused.Reachable :=
    lopsided_reachable.run (run_afterAll (by decide +kernel))
  have hpaused : (lopsidedPaused.configs (.config Lopsided.mintA)).map (·.paused) = some true := by
    decide +kernel
  obtain ⟨c, hc, hp⟩ := Option.map_eq_some_iff.mp hpaused
  refine ⟨_, run_afterAll (by decide +kernel), ?_, ?_⟩
  · refine (pause_agrees_and_freezes hreach).2.2 _ c _ _ hc hp (run_afterAll (by decide +kernel)) ?_
    simp [Action.Resumes, Action.pauses]
  · rw [← failure_eq_some]
    decide +kernel

end StablecoinAmm

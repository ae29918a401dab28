import StablecoinAmm.System.History

/-!
# Pools — the value behind an LP token

`pool_value_never_falls`: in every run of the chain, whoever acts and in whatever order, nothing
but a swap lowers a reserve per LP token, a swap does not lower the product of the reserves, and
so the product per squared LP token never falls; nor does it fall short of one.

The pool's machine does the work (`PoolState.Step.ratios`, `.product`, `PoolState.Steps.value_le`);
what is left is that the chain's runs are runs of it (`run_refines`).
-/

namespace StablecoinAmm
open Support

section
variable {w w' : World} {p : Pubkey} {P P' : Pool}

/-- What a step that is not a swap does to the reserves per LP token. -/
def ReservesPerLpKept (s s' : PoolState) : Prop :=
  s.reserveA * s'.lpSupply ≤ s'.reserveA * s.lpSupply ∧
    s.reserveB * s'.lpSupply ≤ s'.reserveB * s.lpSupply

/-- What a swap does to the product and to the LP supply. -/
def ProductKept (s s' : PoolState) : Prop :=
  s.reserveA * s.reserveB ≤ s'.reserveA * s'.reserveB ∧ s'.lpSupply = s.lpSupply

/-- What a run does to the product per squared LP token. -/
def ValueKept (s s' : PoolState) : Prop :=
  s.reserveA * s.reserveB * s'.lpSupply ^ 2 ≤ s'.reserveA * s'.reserveB * s.lpSupply ^ 2

theorem step_value (hw : w.Inv) (hP : w.pools p = some P) {a : Action}
    (h : step w a = .ok w') :
    ∃ P', w'.pools p = some P' ∧ P'.erase = P.erase ∧
      (a.eventOn p ≠ .trade → ReservesPerLpKept (P.state w.ledger) (P'.state w'.ledger)) ∧
      (a.eventOn p = .trade → ProductKept (P.state w.ledger) (P'.state w'.ledger)) := by
  have heff := step_effect hw h
  obtain ⟨P', hP', he, hs⟩ := heff.refines hw.shape (heff.inv hw).conserved hP
  exact ⟨P', hP', he, hs.ratios, fun ht => (ht ▸ hs).product⟩

theorem run_value (hw : w.Inv) (hP : w.pools p = some P) {as : List Action}
    (t : Run step w as w') :
    ∃ P', w'.pools p = some P' ∧ P'.erase = P.erase ∧
      ValueKept (P.state w.ledger) (P'.state w'.ledger) := by
  obtain ⟨P', hP', he, hs⟩ := run_refines hw hP t
  exact ⟨P', hP', he, hs.value_le (hw.pools p P hP)⟩

/-- **The value behind an LP token never falls.** -/
theorem pool_value_never_falls (hw : w.Reachable) (hP : w.pools p = some P) :
    (∀ a w', step w a = .ok w' → ∃ P', w'.pools p = some P' ∧ P'.erase = P.erase ∧
      (a.eventOn p ≠ .trade → ReservesPerLpKept (P.state w.ledger) (P'.state w'.ledger)) ∧
      (a.eventOn p = .trade → ProductKept (P.state w.ledger) (P'.state w'.ledger))) ∧
    (∀ as w', Run step w as w' → ∃ P', w'.pools p = some P' ∧ P'.erase = P.erase ∧
      ValueKept (P.state w.ledger) (P'.state w'.ledger)) ∧
    w.ledger.supply P.lpMint ^ 2 ≤ P.reserveA * P.reserveB :=
  ⟨fun _ _ h => step_value hw.inv hP h, fun _ _ t => run_value hw.inv hP t,
    (hw.inv.pools p P hP).sq_le⟩

end

/-- From the lopsided pool: a swap, then a burn of the user's LP token. -/
def lopsidedTrades : List Action :=
  [.swap Lopsided.accounts.toPoolAccounts .aToB 1 0,
    .burnDirect
      { mint := .lpMint Lopsided.pool, source := Lopsided.userLp, authority := Lopsided.user } 1 6]

theorem pool_value_lopsided :
    ∃ w' P', Run step lopsided lopsidedTrades w' ∧ w'.pools Lopsided.pool = some P' ∧
      ValueKept (lopsidedPool.state lopsided.ledger) (P'.state w'.ledger) ∧
      (P'.reserveA, P'.reserveB, w'.ledger.supply P'.lpMint) = (2, 501754, 1000) := by
  have hrun : Run step lopsided lopsidedTrades (lopsided.afterAll lopsidedTrades) :=
    run_afterAll (by decide +kernel)
  obtain ⟨P', hP', -, hv⟩ :=
    (pool_value_never_falls lopsided_reachable lopsided_pool).2.1 _ _ hrun
  refine ⟨_, P', hrun, hP', hv, ?_⟩
  have h : ((lopsided.afterAll lopsidedTrades).pools Lopsided.pool).map (fun P =>
      (P.reserveA, P.reserveB, (lopsided.afterAll lopsidedTrades).ledger.supply P.lpMint)) =
      some (2, 501754, 1000) := by decide +kernel
  rw [hP'] at h
  exact Option.some.inj h

end StablecoinAmm

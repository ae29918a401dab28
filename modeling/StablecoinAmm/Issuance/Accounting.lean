import StablecoinAmm.System.History

/-!
# Issuance — supply accounting

The counters of a configuration and the live supply drift apart only where somebody burns past
the program, and by just that much: `supply_accounting`.  So the check that the counters cover
the supply never fails, however wide the gap has become.
-/

namespace StablecoinAmm
open Support Ledger

section
variable {w w' : World}

/-- How far the counters of a stablecoin are ahead of its supply. -/
def World.slack (w : World) (m : Pubkey) : ℕ :=
  match w.configs (.config m) with
  | some c => c.totalMinted - (c.totalBurned + w.ledger.supply m)
  | none => 0

theorem slack_of {m : Pubkey} {c : MintConfig} (hc : w.configs (.config m) = some c) :
    w.slack m = c.totalMinted - (c.totalBurned + w.ledger.supply m) := by
  rw [World.slack, hc]

theorem slack_of_none {m : Pubkey} (hc : w.configs (.config m) = none) : w.slack m = 0 := by
  rw [World.slack, hc]

/-- Nothing is burned of a stablecoin that does not exist. -/
theorem directBurn_of_none (hs : w.Shape) {s : Symbol}
    (hn : w.configs (.config (.mint s)) = none) {a : Action} (h : a.Effect w w') :
    a.directBurn (.mint s) = 0 := by
  cases a with
  | burnDirect c amount =>
      obtain ⟨l, -, hb, -⟩ := h
      refine if_neg ?_
      intro hm
      obtain ⟨M, hM, -⟩ := hb.live
      rw [← hm] at hM
      rcases hs.mint _ M hM with ⟨-, c', hc'⟩ | ⟨p, P, hp, -⟩
      · rw [hn] at hc'; cases hc'
      · cases hp
  | _ => rfl

/-- **One step widens the gap by what it burns directly.** -/
theorem step_slack (hw : w.Inv) {a : Action} (h : step w a = .ok w') (s : Symbol) :
    w'.slack (.mint s) = w.slack (.mint s) + a.directBurn (.mint s) := by
  have heff := step_effect hw h
  rcases hc : w.configs (.config (.mint s)) with _ | c
  · rw [slack_of_none hc, directBurn_of_none hw.shape hc heff]
    rcases hc' : w'.configs (.config (.mint s)) with _ | c'
    · exact slack_of_none hc'
    · rw [slack_of hc', (heff.config_new hc hc').totalMinted, Nat.zero_sub]
  · obtain ⟨c', hc', hb⟩ := heff.booked hw.shape _ c hc
    have hcm := hw.shape.config_mint hc
    have ht := (hw.accounted _ c hc).tracks
    have hm := hb.totalMinted
    have hr := hb.totalBurned
    have hsup := hb.supply
    rw [slack_of hc', slack_of hc]
    rw [hcm] at hm hr hsup ht
    unfold MintConfig.Tracks at ht
    omega

/-- **Supply accounting.**  In every state of every run the counters exceed the supply by what
was burned directly, the supply is within its cap and the cap within the limit, and the check of
the counters does not fail. -/
theorem supply_accounting {addressBytes : Pubkey → List UInt8} {as : List Action}
    (t : Run step (World.genesis addressBytes) as w) :
    (∀ m c, w.configs (.config m) = some c →
      c.totalMinted = c.totalBurned + w.ledger.supply m + (as.map (Action.directBurn m)).sum ∧
      w.ledger.supply m ≤ c.supplyCap ∧ c.supplyCap ≤ maxSupplyCap) ∧
    (∀ ctx amount, step w (.mintTo ctx amount) ≠
      .error (.stablecoin (.custom .counterInvariantViolation))) ∧
    (∀ ctx amount, step w (.burn ctx amount) ≠
      .error (.stablecoin (.custom .counterInvariantViolation))) ∧
    (∀ ctx supplyCap complianceAuthority pendingAdmin,
      step w (.updateConfig ctx supplyCap complianceAuthority pendingAdmin) ≠
        .error (.stablecoin (.custom .counterInvariantViolation))) := by
  have hw : w.Inv := t.invariant step_inv (inv_genesis addressBytes)
  refine ⟨fun m c hc => ?_, fun ctx amount h => ?_, fun ctx amount h => ?_,
    fun ctx cap authority nominee h => ?_⟩
  · obtain ⟨s, rfl⟩ := hw.shape.isStablecoin_key ⟨c, hc⟩
    have hacc := hw.accounted _ c hc
    have hcm := hw.shape.config_mint hc
    have hsum := t.tally step_inv (fun _ _ _ hi h => step_slack hi h s) (inv_genesis addressBytes)
    rw [slack_of hc, slack_of_none rfl, Nat.zero_add] at hsum
    have ht := hacc.tracks
    have hle := hacc.supply_le
    rw [hcm] at ht hle
    unfold MintConfig.Tracks at ht
    exact ⟨by omega, hle, hacc.supplyCap_le⟩
  all_goals
    obtain ⟨e, he, hne⟩ := (step_sat hw _).error h
    cases he
    exact hne rfl

end

/-- The user of the lopsided pool burns five units of its first stablecoin. -/
def lopsidedBurn : List Action :=
  Lopsided.history ++
    [.burnDirect
      { mint := Lopsided.mintA, source := Lopsided.userA, authority := Lopsided.user } 5 6]

theorem supply_accounting_lopsided :
    ∃ w c, Run step (World.genesis Lopsided.addressBytes) lopsidedBurn w ∧
      w.configs (.config Lopsided.mintA) = some c ∧
      c.totalMinted = c.totalBurned + w.ledger.supply Lopsided.mintA + 5 := by
  have hrun : Run step (World.genesis Lopsided.addressBytes) lopsidedBurn
      ((World.genesis Lopsided.addressBytes).afterAll lopsidedBurn) :=
    run_afterAll (by decide +kernel)
  obtain ⟨c, hc⟩ : ∃ c, ((World.genesis Lopsided.addressBytes).afterAll lopsidedBurn).configs
      (.config Lopsided.mintA) = some c := Option.isSome_iff_exists.mp (by decide +kernel)
  have hsum : (lopsidedBurn.map (Action.directBurn Lopsided.mintA)).sum = 5 := by decide +kernel
  have h := ((supply_accounting hrun).1 _ c hc).1
  rw [hsum] at h
  exact ⟨_, c, hrun, hc, h⟩

end StablecoinAmm

import StablecoinAmm.Funding.Invariant
import StablecoinAmm.System.History

/-!
# Funding — prefunded addresses

Every derived address is public, and anybody may send lamports there before the account exists.
The programs top such an address up, allocate and assign it.  In every reachable state an
instruction that creates accounts therefore succeeds exactly when the program's own checks do and
the payer can pay what is missing of the rents without coming to owe rent itself
(`creation_exact`): no error is about an address that somebody funded.  Whatever outsiders send
only makes it cheaper, and does not come in the way of a payer that has enough left afterwards
(`prefunding_harmless`); one that would be left with nothing at all may find itself left with too
little for an account.
-/

namespace StablecoinAmm
open Support Ledger

/-! ### Rent -/

section
variable {rt : Runtime} {a a' : AccountInfo}

theorem Runtime.rentKept_of_exempt (h : rt.isExempt a' = true) : rt.RentKept a a' := by
  unfold Runtime.RentKept Runtime.rentState
  by_cases hz : a'.lamports = 0
  · rw [if_pos hz]; rfl
  · rw [if_neg hz, if_pos h]; rfl

theorem Runtime.rentKept_refl (rt : Runtime) (a : AccountInfo) : rt.RentKept a a := by
  unfold Runtime.RentKept
  cases rt.rentState a with
  | rentPaying => simp [RentState.allowedAfter]
  | _ => rfl

end

/-- The payer can pay `n`, and the runtime lets it. -/
structure Bank.Affords (rt : Runtime) (b : Bank) (payer : Pubkey) (n : ℕ) : Prop where
  spendable : n ≤ (b.info payer).spendable
  rentKept : rt.RentKept (b.info payer)
    { b.info payer with lamports := (b.info payer).lamports - n }

section
variable {rt : Runtime} {s s' s₁ : Chain} {a : Action} {destination : Pubkey}

/-- Of all the accounts concerned, only the payer can be left owing rent. -/
theorem Bank.Billed.rentKept_iff {b b' : Bank} {payer : Pubkey} {cs : List Creation}
    (h : Billed rt b payer cs b') {ks : List Pubkey} (hp : payer ∈ ks) :
    (∀ k ∈ ks, rt.RentKept (b.info k) (b'.info k)) ↔
      rt.RentKept (b.info payer)
        { b.info payer with lamports := (b.info payer).lamports - b.cost cs } := by
  rw [← h.payer_info]
  constructor
  · exact fun hks => hks payer hp
  · intro hpayer k _
    by_cases hk : k = payer
    · rwa [hk]
    · by_cases hc : ∃ c ∈ cs, k = c.target
      · obtain ⟨c, hc, rfl⟩ := hc
        exact Runtime.rentKept_of_exempt (h.exempt c hc)
      · rw [h.elsewhere k hk fun c hcs he => hc ⟨c, hcs, he⟩]
        exact rt.rentKept_refl _

theorem Action.payer_mem_funded (ha : a.opened ≠ []) (destination : Pubkey) :
    a.payer ∈ (ChainAction.act a destination).funded := by
  cases a <;> first | exact absurd rfl ha | exact List.mem_cons_self

/-- It succeeds when the program's checks do and the payer can pay what is missing. -/
theorem Chain.creates_iff (hs : s.Inv) (ha : a.opened ≠ []) (destination : Pubkey) :
    (∃ s', s.step rt (.act a destination) = .ok s') ↔
      (∃ w', StablecoinAmm.step s.world a = .ok w') ∧
        s.bank.Affords rt a.payer (s.bank.cost (a.creations rt s.world)) := by
  have hmem := Action.payer_mem_funded ha destination
  have hexec : (∃ s', s.execute rt (.act a destination) = .ok s') ↔
      (∃ w', StablecoinAmm.step s.world a = .ok w') ∧
        s.bank.cost (a.creations rt s.world) ≤ (s.bank.info a.payer).spendable := by
    refine (Chain.execute_follows hs ha).ok_iff ?_ fun s' w' h => h.2.covered
    rintro e ⟨hshort, -⟩
    exact not_le.mpr hshort
  constructor
  · rintro ⟨s', h⟩
    obtain ⟨h, hrent⟩ := Chain.step_ok_iff.mp h
    obtain ⟨-, -, -, hbill⟩ := (Chain.execute_follows hs ha).of_ok h
    obtain ⟨hw, hle⟩ := hexec.mp ⟨s', h⟩
    exact ⟨hw, hle, (hbill.rentKept_iff hmem).mp hrent⟩
  · rintro ⟨hw, hle, hrent⟩
    obtain ⟨s', h⟩ := hexec.mpr ⟨hw, hle⟩
    obtain ⟨-, -, -, hbill⟩ := (Chain.execute_follows hs ha).of_ok h
    exact ⟨s', Chain.step_ok_iff.mpr ⟨h, (hbill.rentKept_iff hmem).mpr hrent⟩⟩

/-- Then it does what it does without lamports, and the payer has paid. -/
theorem Chain.creates_billed (hs : s.Inv) (ha : a.opened ≠ [])
    (h : s.step rt (.act a destination) = .ok s') :
    StablecoinAmm.step s.world a = .ok s'.world ∧
      Bank.Billed rt s.bank a.payer (a.creations rt s.world) s'.bank := by
  obtain ⟨h, -⟩ := Chain.step_ok_iff.mp h
  obtain ⟨w', hw, rfl, hbill⟩ := (Chain.execute_follows hs ha).of_ok h
  exact ⟨hw, hbill⟩

/-- The errors are those of an instruction that does not create the accounts itself, or the
payer's. -/
theorem Chain.creates_error (hs : s.Inv) (ha : a.opened ≠ []) {e : Fault StepError}
    (h : s.step rt (.act a destination) = .error e) :
    e = .insufficientFundsForRent ∨ (∃ e', e = .system e') ∨
      ∃ d, e = .code d ∧ StablecoinAmm.step s.world a = .error d ∧ d.aboutCreation = false := by
  rcases bind_error_iff.mp h with h | ⟨s', -, h⟩
  · rcases (Chain.execute_follows hs ha).of_error h with ⟨-, he⟩ | ⟨d, hd, ⟨rfl, hc⟩ | he⟩
    · exact .inr (.inl he)
    · exact .inr (.inr ⟨d, rfl, hd, hc⟩)
    · exact .inr (.inl he)
  · rcases bind_error_iff.mp h with h | ⟨-, -, h⟩
    · exact .inl (require_error_iff.mp h).2.symm
    · cases h

/-- **Creating accounts**: the conditions, the bill and the errors. -/
theorem creation_exact (hs : s.Reachable rt) (ha : a.opened ≠ []) (destination : Pubkey) :
    ((∃ s', s.step rt (.act a destination) = .ok s') ↔
      (∃ w', step s.world a = .ok w') ∧
        s.bank.Affords rt a.payer (s.bank.cost (a.creations rt s.world))) ∧
    (∀ s', s.step rt (.act a destination) = .ok s' →
      step s.world a = .ok s'.world ∧
        Bank.Billed rt s.bank a.payer (a.creations rt s.world) s'.bank) ∧
    ∀ e, s.step rt (.act a destination) = .error e →
      e = .insufficientFundsForRent ∨ (∃ e', e = .system e') ∨
        ∃ d, e = .code d ∧ step s.world a = .error d ∧ d.aboutCreation = false :=
  ⟨Chain.creates_iff hs.inv ha destination, fun _ => Chain.creates_billed hs.inv ha,
    fun _ => Chain.creates_error hs.inv ha⟩

/-! ### What outsiders send -/

/-- Instructions of the system program that `k` does not sign only give to it. -/
theorem run_system_kept {is : List SystemInstruction}
    (h : Run (Chain.step rt) s (is.map .system) s') :
    s'.world = s.world ∧ ∀ k, (∀ i ∈ is, k ∉ i.signers) → (s.bank.info k).Kept (s'.bank.info k) := by
  induction is generalizing s with
  | nil => cases h; exact ⟨rfl, fun _ _ => .refl _⟩
  | cons i is ih =>
      cases h with
      | more hi ht =>
          obtain ⟨hi, -⟩ := Chain.step_ok_iff.mp hi
          obtain ⟨-, hw, hkept⟩ := Chain.system_kept hi
          obtain ⟨hw', hkept'⟩ := ih ht
          refine ⟨hw'.trans hw, fun k hk => ?_⟩
          have hrest := hkept' k fun j hj => hk j (List.mem_cons_of_mem _ hj)
          exact (hkept k (hk i List.mem_cons_self)).trans hrest

/-- No key signs for an address that an action opens. -/
theorem run_system_signers {is : List SystemInstruction}
    (h : Run (Chain.step rt) s (is.map .system) s') : ∀ i ∈ is, ∀ k ∈ i.signers, k.isSigner := by
  induction is generalizing s with
  | nil => exact nofun
  | cons i is ih =>
      cases h with
      | more hi ht =>
          intro j hj
          rcases List.mem_cons.mp hj with rfl | hj
          · exact (Chain.system_kept (Chain.step_ok_iff.mp hi).1).1
          · exact ih ht j hj

theorem spendable_kept {a a' : AccountInfo} (h : a.Kept a') : a.spendable ≤ a'.spendable := by
  unfold AccountInfo.spendable
  by_cases ha : a.IsFree
  · rw [if_pos ha, if_pos (h.free ha)]
    exact h.lamports
  · rw [if_neg ha]
    exact Nat.zero_le _

theorem cost_kept {b b' : Bank} {cs : List Creation}
    (h : ∀ c ∈ cs, (b.info c.target).Kept (b'.info c.target)) : b'.cost cs ≤ b.cost cs := by
  apply List.sum_le_sum
  intro c hc
  exact Nat.sub_le_sub_left (h c hc).lamports _

/-- A payer that would be left rent-exempt can still pay, more or less. -/
theorem affords_kept {b b' : Bank} {payer : Pubkey} {n n' : ℕ} (h : b.Affords rt payer n)
    (hkept : (b.info payer).Kept (b'.info payer)) (hle : n' ≤ n)
    (hrent : rt.isExempt { b.info payer with lamports := (b.info payer).lamports - n } = true) :
    b'.Affords rt payer n' := by
  refine ⟨hle.trans (h.spendable.trans (spendable_kept hkept)), Runtime.rentKept_of_exempt ?_⟩
  have hlen : rt.minimumBalance (b.info payer).dataLen ≤ (b.info payer).lamports - n :=
    of_decide_eq_true hrent
  have hlamports := hkept.lamports
  refine decide_eq_true ?_
  dsimp only
  rw [hkept.dataLen]
  omega

/-- **Prefunding harms nobody**: whatever outsiders do with the system program, an instruction
that would have created its accounts and left its payer rent-exempt still does, and costs its
payer no more. -/
theorem prefunding_harmless (hs : s.Reachable rt) (ha : a.opened ≠ [])
    (h : s.step rt (.act a destination) = .ok s₁) (hrent : rt.isExempt (s₁.bank.info a.payer) = true)
    {is : List SystemInstruction} (hr : Run (Chain.step rt) s (is.map .system) s')
    (hpayer : ∀ i ∈ is, a.payer ∉ i.signers) :
    ∃ s₁', s'.step rt (.act a destination) = .ok s₁' ∧ s₁'.world = s₁.world ∧
      s'.bank.cost (a.creations rt s'.world) ≤ s.bank.cost (a.creations rt s.world) ∧
      (s₁.bank.info a.payer).lamports ≤ (s₁'.bank.info a.payer).lamports := by
  obtain ⟨hworld, hkept⟩ := run_system_kept hr
  have hs' : s'.Reachable rt := Reachable.run hs hr
  obtain ⟨hw, hbill⟩ := Chain.creates_billed hs.inv ha h
  obtain ⟨-, hafford⟩ := (Chain.creates_iff hs.inv ha destination).mp ⟨s₁, h⟩
  have htargets : ∀ c ∈ a.creations rt s.world, ¬ c.target.isSigner := by
    intro c hc
    exact opened_derived hs.inv.world hs.inv.anchored hw ((creations_opened rt hw).1 c hc).1
  have hp : (s.bank.info a.payer).Kept (s'.bank.info a.payer) := hkept _ hpayer
  have hcost : s'.bank.cost (a.creations rt s.world) ≤ s.bank.cost (a.creations rt s.world) := by
    apply cost_kept
    intro c hc
    exact hkept _ fun i hi hk => htargets c hc (run_system_signers hr i hi _ hk)
  rw [hbill.payer_info] at hrent
  obtain ⟨s₁', h'⟩ : ∃ s₁', s'.step rt (.act a destination) = .ok s₁' := by
    rw [Chain.creates_iff hs'.inv ha, hworld]
    exact ⟨⟨_, hw⟩, affords_kept hafford hp hcost hrent⟩
  obtain ⟨hw', hbill'⟩ := Chain.creates_billed hs'.inv ha h'
  rw [hworld] at hw' hbill'
  refine ⟨s₁', h', Except.ok.inj (hw'.symm.trans hw), hworld ▸ hcost, ?_⟩
  rw [hbill.payer_info, hbill'.payer_info]
  exact tsub_le_tsub hp.lamports hcost

end

/-! ### A squatted mint -/

namespace Squatted
open Lopsided

/-- Two years of rent in advance, and Token-2022's lengths. -/
def runtime : Runtime where
  minimumBalance n := (128 + n) * 6960
  mintLen xs := if xs = [] then 82 else 276
  tokenLen xs := if .pausable ∈ xs then 170 else 165
  -- a discriminator of eight bytes and a length of four, where the mint has a type of two and a
  -- length of two
  metadataLen m := 12 + (32 + 32 + (4 + m.name.length) + (4 + m.symbol.length) + (4 + m.uri.length) + 4)
  metadataGrowth m :=
    4 + (32 + 32 + (4 + m.name.length) + (4 + m.symbol.length) + (4 + m.uri.length) + 4)
  metadataGrowth_le m := by omega
  minimumBalance_mono _ _ h := Nat.mul_le_mul_right _ (Nat.add_le_add_left h _)
  minimumBalance_pos n := by omega
  minimumBalance_lt n h := by unfold maxPermittedDataLength at h; omega
  lpMintLen_le := by decide
  tokenLen_le xs _ := by
    unfold maxPermittedDataLength
    split <;> omega
  mintLen_le m hn hs hu := by
    unfold maxNameLen at hn
    unfold maxUriLen at hu
    unfold maxPermittedDataLength
    split <;> omega

/-- The issuer has ten million lamports, and so has somebody else. -/
def bank : Bank where
  info
    | .external _ => ⟨10000000, 0, .system⟩
    | _ => ⟨0, 0, .system⟩

def chain : Chain := ⟨World.genesis addressBytes, bank⟩

theorem chain_reachable : chain.Reachable runtime :=
  ⟨chain, [], ⟨⟨_, rfl⟩, fun k _ => by cases k <;> exact ⟨rfl, rfl⟩⟩, .refl _⟩

def create : Action :=
  .initializeStablecoin { payer := issuer, mint := mintA, config := .config mintA } symbolA [1] [1]
    stablecoinDecimals maxSupplyCap

/-- What an empty account must have, sent to the address of the mint. -/
def squat : SystemInstruction := .transfer user mintA (runtime.minimumBalance 0)

def squatted : Chain := { chain with bank := (bank.execute squat).toOption.getD bank }

theorem squatted_run : Run (Chain.step runtime) chain ([squat].map .system) squatted :=
  .more (Chain.step_ok_iff.mpr ⟨rfl, by decide +kernel⟩) (.refl _)

theorem create_ok : ∃ w', step chain.world create = .ok w' := by
  cases h : step chain.world create with
  | ok w' => exact ⟨w', rfl⟩
  | error e =>
      have hnone : chain.world.failure create = none := by decide +kernel
      rw [World.failure, h] at hnone
      cases hnone

end Squatted

open Squatted in
/-- The issuer can pay the rent of both accounts. -/
theorem creation_exact_squatted : ∃ s', chain.step runtime (.act create .default) = .ok s' :=
  (creation_exact chain_reachable (by decide) .default).1.mpr
    ⟨create_ok, by decide +kernel, by decide +kernel⟩

open Squatted in
/-- And the lamports sent to the mint block nothing. -/
theorem prefunding_harmless_squatted :
    ∃ s', squatted.step runtime (.act create .default) = .ok s' := by
  obtain ⟨s₁, h, hrent⟩ : ∃ s', chain.step runtime (.act create .default) = .ok s' ∧
      runtime.isExempt (s'.bank.info create.payer) = true := by
    have h : ((chain.step runtime (.act create .default)).toOption.map fun s' =>
        runtime.isExempt (s'.bank.info create.payer)) = some true := by decide +kernel
    cases hx : chain.step runtime (.act create .default) with
    | ok s' =>
        rw [hx] at h
        exact ⟨s', rfl, Option.some.inj h⟩
    | error e => rw [hx] at h; cases h
  obtain ⟨s', h', -⟩ := prefunding_harmless chain_reachable (by decide) h hrent squatted_run
    (by decide : ∀ i ∈ [squat], create.payer ∉ i.signers)
  exact ⟨s', h'⟩

end StablecoinAmm

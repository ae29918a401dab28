import StablecoinAmm.Funding.Invariant
import StablecoinAmm.System.Cluster

/-!
# System — what instructions do to options

An instruction of the programs adds nothing to the options of any account
(`Cluster.send_ok`); only owners do, to their own accounts (`Cluster.setOption_ok`).  So on the
accounts of pools nothing is ever set (`Cluster.Reachable.options_derived`), and what a program
pays out of a vault it can pay.

Every run of the cluster is one of the chain, with delegates in the place of owners
(`Cluster.Reachable.chain`).
-/

namespace StablecoinAmm
open Support

/-! ### Instructions that move no lamports -/

section
variable {rt : Runtime} {a : Action} {destination : Pubkey}

end

namespace Cluster

variable {rt : Runtime} {s s' : Cluster} {a : Action} {destination k : Pubkey} {afterMemo : Bool}

/-! ### Steps -/

theorem send_ok_iff :
    s.step rt (.send (.act a destination) afterMemo) = .ok s' ↔
      (∀ k ∈ a.authority, k.isSigner) ∧
        s.chain.step rt (.act (s.asOwner a) destination) = .ok s'.chain ∧
        s.settleOptions s'.chain.world afterMemo a = .ok s'.options := by
  simp only [step, bind_ok_iff, require_ok_iff, mapError_ok_iff, pure_ok_iff]
  constructor
  · rintro ⟨-, hsig, c, hc, o, ho, rfl⟩
    exact ⟨hsig, hc, ho⟩
  · rintro ⟨hsig, hc, ho⟩
    exact ⟨(), hsig, _, hc, _, ho, rfl⟩

theorem settleOptions_lapses {w' : World} {options : Pubkey → AccountOptions}
    (h : s.settleOptions w' afterMemo a = .ok options) (k : Pubkey) :
    (s.options k).Lapses (options k) := by
  cases a with
  | createAccount account | closeAccount account =>
      obtain rfl := pure_ok_iff.mp h
      by_cases hk : k = account
      · rw [hk, Function.update_self]; exact AccountOptions.lapses_unset _
      · rw [Function.update_of_ne hk]; exact .refl _
  | setOwner account =>
      simp only [settleOptions, bind_ok_iff, pure_ok_iff] at h
      obtain ⟨-, -, rfl⟩ := h
      by_cases hk : k = account
      · rw [hk, Function.update_self]; exact AccountOptions.lapses_revoked _
      · rw [Function.update_of_ne hk]; exact .refl _
  | _ => exact payAllWith_lapses h k

/-- **An instruction adds nothing to the options**, and the chain takes it for the owner's. -/
theorem send_ok (h : s.step rt (.send (.act a destination) afterMemo) = .ok s') :
    s.chain.step rt (.act (s.asOwner a) destination) = .ok s'.chain ∧
      ∀ k, (s.options k).Lapses (s'.options k) := by
  obtain ⟨-, hc, ho⟩ := send_ok_iff.mp h
  exact ⟨hc, settleOptions_lapses ho⟩

theorem system_ok {i : SystemInstruction} (h : s.step rt (.send (.system i) afterMemo) = .ok s') :
    s.chain.step rt (.system i) = .ok s'.chain ∧ s'.options = s.options := by
  simp only [step, bind_ok_iff, mapError_ok_iff, pure_ok_iff] at h
  obtain ⟨c, hc, rfl⟩ := h
  exact ⟨hc, rfl⟩

/-- **Options are changed by the owner of the account**, or revoked. -/
theorem setOption_ok {account authority : Pubkey} {change : OptionChange}
    (h : s.step rt (.setOption account authority change) = .ok s') :
    authority.isSigner ∧ s'.chain = s.chain ∧
      ∃ b, s.chain.world.ledger.tokens account = some b ∧
        ∃ o, s'.options = Function.update s.options account o ∧
          (s.options account).change b authority change = .ok o ∧
          (authority = b.owner ∨ (s.options account).Lapses o) := by
  simp only [step, bind_ok_iff, require_ok_iff, okOr_ok_iff, mapError_ok_iff, pure_ok_iff] at h
  obtain ⟨-, hsig, b, hb, o, ho, rfl⟩ := h
  refine ⟨hsig, rfl, b, hb, o, rfl, ho, ?_⟩
  cases change with
  | revoke =>
      simp only [AccountOptions.change, bind_ok_iff, pure_ok_iff] at ho
      obtain ⟨-, -, -, -, rfl⟩ := ho
      exact .inr (AccountOptions.lapses_revoked _)
  | approve =>
      simp only [AccountOptions.change, bind_ok_iff, require_ok_iff] at ho
      obtain ⟨-, -, -, howner, -⟩ := ho
      exact .inl howner
  | guard | memo =>
      simp only [AccountOptions.change, bind_ok_iff, require_ok_iff] at ho
      exact .inl ho.choose_spec.1

/-! ### Runs -/

/-- Every step is one of the chain, or leaves it alone. -/
theorem step_chain {x : ClusterAction} (h : s.step rt x = .ok s') :
    s'.chain = s.chain ∨ ∃ y, s.chain.step rt y = .ok s'.chain := by
  cases x with
  | setOption => exact .inl (setOption_ok h).2.1
  | send x =>
      cases x with
      | act => exact .inr ⟨_, (send_ok h).1⟩
      | system => exact .inr ⟨_, (system_ok h).1⟩

/-- **Options add no behaviour to the chain.** -/
theorem Reachable.chain (h : s.Reachable rt) : s.chain.Reachable rt := by
  refine Support.Reachable.invariant (I := fun s => s.chain.Reachable rt) ?_ ?_ h
  · exact fun s h₀ => ⟨_, [], h₀.chain, .refl _⟩
  · intro s x s' hs hx
    rcases step_chain hx with he | ⟨y, hy⟩
    · rwa [he]
    · exact Support.Reachable.run hs (.one hy)

theorem Reachable.world (h : s.Reachable rt) : s.chain.world.Reachable := h.chain.world

/-- **On derived accounts nothing is set.** -/
theorem Reachable.options_derived (h : s.Reachable rt) (hk : ¬ k.isSigner) :
    s.options k = .unset := by
  suffices h' : s.chain.Inv ∧ ∀ k, ¬ k.isSigner → s.options k = .unset from h'.2 k hk
  refine Support.Reachable.invariant (I := fun s : Cluster =>
    s.chain.Inv ∧ ∀ k, ¬ k.isSigner → s.options k = .unset) ?_ ?_ h
  · exact fun s h₀ => ⟨h₀.chain.inv, fun k _ => congrFun h₀.options k⟩
  · rintro s x s' ⟨hs, hu⟩ hx
    have hlapses : (∀ k, (s.options k).Lapses (s'.options k)) →
        ∀ k, ¬ k.isSigner → s'.options k = .unset := fun hl k hk =>
      AccountOptions.Lapses.of_unset (hu k hk ▸ hl k)
    cases x with
    | send x =>
        cases x with
        | act =>
            obtain ⟨hc, hl⟩ := send_ok hx
            exact ⟨Chain.step_inv _ _ _ hs hc, hlapses hl⟩
        | system =>
            obtain ⟨hc, ho⟩ := system_ok hx
            exact ⟨Chain.step_inv _ _ _ hs hc, ho ▸ hu⟩
    | setOption account authority =>
        obtain ⟨hsig, hc, b, hb, o, ho, -, howner⟩ := setOption_ok hx
        refine ⟨hc ▸ hs, fun k hk => ?_⟩
        rw [ho]
        by_cases hka : k = account
        · subst hka
          rw [Function.update_self]
          rcases howner with howner | hl
          · exact absurd (hs.anchored.signer_of hb (howner ▸ hsig)) hk
          · exact AccountOptions.Lapses.of_unset (hu k hk ▸ hl)
        · rw [Function.update_of_ne hka]
          exact hu k hk

/-- There are finitely many allowances. -/
theorem Reachable.pledges (h : s.Reachable rt) : ∃ n, Totals (fun k => (s.options k).pledge) n := by
  refine Support.Reachable.invariant
    (I := fun s : Cluster => ∃ n, Totals (fun k => (s.options k).pledge) n) ?_ ?_ h
  · intro s h₀
    rw [h₀.options]
    exact ⟨0, .zero⟩
  · rintro s x s' ⟨n, hn⟩ hx
    have hlapses : (∀ k, (s.options k).Lapses (s'.options k)) →
        ∃ n, Totals (fun k => (s'.options k).pledge) n := fun hl =>
      hn.of_support fun k hk => Nat.le_zero.mp (hk ▸ (hl k).pledge)
    cases x with
    | send x =>
        cases x with
        | act => exact hlapses (send_ok hx).2
        | system =>
            rw [(system_ok hx).2]
            exact ⟨n, hn⟩
    | setOption account =>
        obtain ⟨-, -, b, -, o, ho, -⟩ := setOption_ok hx
        obtain ⟨m, hm, -⟩ := hn.update account o.pledge
        refine ⟨m, ?_⟩
        rw [ho]
        convert hm using 1
        funext k
        exact Function.apply_update (fun _ o => AccountOptions.pledge o) s.options account o k

end Cluster

end StablecoinAmm

import StablecoinAmm.Chain.Movement
import StablecoinAmm.Support.Totals

/-!
# Chain — what owners add to their accounts

A token account may have a delegate, who spends up to an amount in the owner's place.  It may have
a CPI Guard, under which a program cannot use the signature that the owner gave it, and it may
require a memo of every payment into it.  `Ledger` knows nothing of this: an account here is what
its owner has added to it, and a payment is let through or not (`AccountOptions.spend`).

The instructions are Token-2022's documented ones, on accounts that have the space for them.  Close
authorities are left out, since what they close is empty.
-/

namespace StablecoinAmm
open Support

/-- An allowance. -/
structure Delegation where
  delegate : Pubkey
  amount : ℕ
  deriving DecidableEq

structure AccountOptions where
  delegation : Option Delegation
  /-- `CpiGuard`, locked. -/
  cpiGuard : Bool
  /-- `MemoTransfer`, required for incoming transfers. -/
  requiredMemo : Bool
  deriving DecidableEq

inductive OptionError where
  | uninitializedState
  | accountFrozen
  | ownerMismatch
  | insufficientFunds
  | cpiGuardBlocked
  | noMemo
  | missingRequiredSignature
  deriving DecidableEq

namespace AccountOptions

/-- A new account has none. -/
def unset : AccountOptions := ⟨none, false, false⟩

/-- What a delegate may still take. -/
def pledge (o : AccountOptions) : ℕ := o.delegation.elim 0 (·.amount)

/-- Whether `k` is the delegate. -/
def Delegated (o : AccountOptions) (k : Pubkey) : Prop := ∃ d ∈ o.delegation, d.delegate = k

instance (o : AccountOptions) (k : Pubkey) : Decidable (o.Delegated k) :=
  inferInstanceAs (Decidable (∃ d ∈ o.delegation, d.delegate = k))

/-- The options once the delegate has taken `amount`; the last of an allowance ends it. -/
def draw (o : AccountOptions) (amount : ℕ) : AccountOptions :=
  { o with delegation := o.delegation.bind fun d =>
      if d.amount = amount then none else some { d with amount := d.amount - amount } }

/-- Who takes `amount` from an account is its delegate, who is asked for first, or its owner.  The
guard stops the owner, delegate of itself or not, where a program uses its signature. -/
def spend (o : AccountOptions) (owner authority : Pubkey) (amount : ℕ) (byProgram : Bool) :
    Except OptionError AccountOptions := do
  require (¬ (authority = owner ∧ byProgram ∧ o.cpiGuard)) .cpiGuardBlocked
  if o.Delegated authority then do
    require (amount ≤ o.pledge) .insufficientFunds
    pure (o.draw amount)
  else do
    require (authority = owner) .ownerMismatch
    pure o

end AccountOptions

/-! ### Instructions -/

/-- What somebody does to the options of an account. -/
inductive OptionChange where
  /-- `Approve`. -/
  | approve (delegate : Pubkey) (amount : ℕ)
  /-- `Revoke`. -/
  | revoke
  /-- `Enable` and `Disable` of `CpiGuard`. -/
  | guard (lock : Bool)
  /-- `Enable` and `Disable` of `MemoTransfer`. -/
  | memo (required : Bool)
  deriving DecidableEq

/-- The options of the account `a` after `authority` has changed them. -/
def AccountOptions.change (o : AccountOptions) (a : TokenAccount) (authority : Pubkey) :
    OptionChange → Except OptionError AccountOptions
  | .approve delegate amount => do
      require (a.state ≠ .frozen) .accountFrozen
      require (authority = a.owner) .ownerMismatch
      pure { o with delegation := some { delegate, amount } }
  | .revoke => do
      require (a.state ≠ .frozen) .accountFrozen
      -- a delegate may give up its allowance
      require (authority = a.owner ∨ o.Delegated authority) .ownerMismatch
      pure { o with delegation := none }
  | .guard lock => do
      require (authority = a.owner) .ownerMismatch
      pure { o with cpiGuard := lock }
  | .memo required => do
      require (authority = a.owner) .ownerMismatch
      pure { o with requiredMemo := required }

/-- A call that takes tokens from an account, and pays them into another unless it burns them. -/
structure Payment where
  source : Pubkey
  destination : Option Pubkey
  authority : Pubkey
  amount : ℕ
  deriving DecidableEq

/-- What the options of the accounts say to a payment, and what is left of them.  A transfer from
an account to itself draws on no allowance. -/
def payWith (l : Ledger) (byProgram afterMemo : Bool) (options : Pubkey → AccountOptions)
    (p : Payment) : Except OptionError (Pubkey → AccountOptions) := do
  let source ← okOr (l.tokens p.source) .uninitializedState
  let o ← (options p.source).spend source.owner p.authority p.amount byProgram
  require (afterMemo ∨ ∀ k ∈ p.destination, ¬ (options k).requiredMemo) .noMemo
  pure (if p.destination = some p.source then options else Function.update options p.source o)

/-- Several payments, one after the other. -/
def payAllWith (l : Ledger) (byProgram afterMemo : Bool) :
    (Pubkey → AccountOptions) → List Payment → Except OptionError (Pubkey → AccountOptions) :=
  List.foldlM (payWith l byProgram afterMemo)

/-! ### What options allow -/

namespace AccountOptions

variable {o o' o₁ : AccountOptions} {owner authority k : Pubkey} {n : ℕ} {byProgram : Bool}

/-- `o'` has nothing that `o` does not have. -/
structure Lapses (o o' : AccountOptions) : Prop where
  delegate : ∀ k, o'.Delegated k → o.Delegated k
  pledge : o'.pledge ≤ o.pledge
  cpiGuard : o'.cpiGuard → o.cpiGuard
  requiredMemo : o'.requiredMemo → o.requiredMemo

theorem Lapses.refl (o : AccountOptions) : o.Lapses o := ⟨fun _ => id, le_rfl, id, id⟩

theorem Lapses.trans (h : o.Lapses o₁) (h' : o₁.Lapses o') : o.Lapses o' :=
  ⟨fun k hk => h.delegate k (h'.delegate k hk), h'.pledge.trans h.pledge,
    fun hg => h.cpiGuard (h'.cpiGuard hg), fun hm => h.requiredMemo (h'.requiredMemo hm)⟩

theorem not_delegated_of_none (h : o.delegation = none) : ¬ o.Delegated k := by
  rintro ⟨d, hd, -⟩
  rw [h] at hd
  cases hd

theorem lapses_unset (o : AccountOptions) : o.Lapses unset :=
  ⟨fun _ hk => absurd hk (not_delegated_of_none rfl), Nat.zero_le _, nofun, nofun⟩

theorem lapses_revoked (o : AccountOptions) : o.Lapses { o with delegation := none } :=
  ⟨fun _ hk => absurd hk (not_delegated_of_none rfl), Nat.zero_le _, id, id⟩

/-- Without a delegate there is none afterwards. -/
theorem Lapses.delegation (h : o.Lapses o') (ho : o.delegation = none) : o'.delegation = none := by
  cases hd : o'.delegation with
  | none => rfl
  | some d => exact absurd (h.delegate d.delegate ⟨d, hd, rfl⟩) (not_delegated_of_none ho)

/-- Where nothing is set, nothing comes to be. -/
theorem Lapses.of_unset (h : unset.Lapses o) : o = unset := by
  obtain ⟨d, g, m⟩ := o
  obtain rfl : d = none := h.delegation rfl
  have hg : g = false := Bool.eq_false_iff.mpr fun hg => absurd (h.cpiGuard hg) Bool.false_ne_true
  have hm : m = false := Bool.eq_false_iff.mpr fun hm => absurd (h.requiredMemo hm) Bool.false_ne_true
  rw [hg, hm]
  rfl

/-- A draw comes off the allowance. -/
theorem draw_pledge (h : n ≤ o.pledge) : (o.draw n).pledge + n = o.pledge := by
  obtain ⟨d, g, m⟩ := o
  cases d with
  | none => simpa [draw, pledge] using h
  | some d =>
      simp only [draw, pledge, Option.bind_some, Option.elim_some] at h ⊢
      split_ifs with he
      · rw [he]; exact Nat.zero_add n
      · exact Nat.sub_add_cancel h

theorem lapses_draw (o : AccountOptions) (n : ℕ) : o.Lapses (o.draw n) := by
  obtain ⟨d, g, m⟩ := o
  cases d with
  | none => exact .refl _
  | some d =>
      refine ⟨?_, ?_, id, id⟩
      · rintro k ⟨e, he, rfl⟩
        refine ⟨d, rfl, ?_⟩
        simp only [draw, Option.bind_some, Option.mem_def] at he
        split_ifs at he
        rw [← Option.some.inj he]
      · simp only [draw, pledge, Option.bind_some]
        split_ifs
        · exact Nat.zero_le _
        · exact Nat.sub_le _ _

theorem spend_ok_iff :
    o.spend owner authority n byProgram = .ok o' ↔
      ¬ (authority = owner ∧ byProgram ∧ o.cpiGuard) ∧
        if o.Delegated authority then n ≤ o.pledge ∧ o.draw n = o'
        else authority = owner ∧ o = o' := by
  unfold spend
  split_ifs <;>
    simp only [bind_ok_iff, require_ok_iff, pure_ok_iff, exists_const]

theorem spend_lapses (h : o.spend owner authority n byProgram = .ok o') :
    o.Lapses o' ∧ o'.requiredMemo = o.requiredMemo := by
  obtain ⟨-, h⟩ := spend_ok_iff.mp h
  split_ifs at h
  · rw [← h.2]
    exact ⟨lapses_draw o n, rfl⟩
  · rw [← h.2]
    exact ⟨.refl o, rfl⟩

end AccountOptions

/-! ### What payments leave -/

section
variable {l : Ledger} {byProgram afterMemo : Bool} {options options' : Pubkey → AccountOptions}
  {p q : Payment}

theorem payWith_ok_iff :
    payWith l byProgram afterMemo options p = .ok options' ↔
      ∃ a, l.tokens p.source = some a ∧
        ∃ o, (options p.source).spend a.owner p.authority p.amount byProgram = .ok o ∧
          (afterMemo ∨ ∀ k ∈ p.destination, ¬ (options k).requiredMemo) ∧
          (if p.destination = some p.source then options
            else Function.update options p.source o) = options' := by
  simp only [payWith, bind_ok_iff, okOr_ok_iff, require_ok_iff, pure_ok_iff, exists_const]

theorem payAllWith_one :
    payAllWith l byProgram afterMemo options [p] = .ok options' ↔
      payWith l byProgram afterMemo options p = .ok options' := by
  simp only [payAllWith, List.foldlM_cons, List.foldlM_nil, bind_ok_iff, pure_ok_iff,
    exists_eq_right]

theorem payAllWith_cons {ps : List Payment} :
    payAllWith l byProgram afterMemo options (p :: ps) = .ok options' ↔
      ∃ options₁, payWith l byProgram afterMemo options p = .ok options₁ ∧
        payAllWith l byProgram afterMemo options₁ ps = .ok options' := by
  simp only [payAllWith, List.foldlM_cons, bind_ok_iff]

/-- **A payment adds nothing to the options**, and leaves those of other accounts. -/
structure PaidFrom (source : Pubkey) (options options' : Pubkey → AccountOptions) : Prop where
  lapses : ∀ k, (options k).Lapses (options' k)
  requiredMemo : ∀ k, (options' k).requiredMemo = (options k).requiredMemo
  elsewhere : ∀ k, k ≠ source → options' k = options k

theorem payWith_paid (h : payWith l byProgram afterMemo options p = .ok options') :
    PaidFrom p.source options options' := by
  obtain ⟨a, -, o, ho, -, rfl⟩ := payWith_ok_iff.mp h
  obtain ⟨hlapses, hmemo⟩ := AccountOptions.spend_lapses ho
  split_ifs
  · exact ⟨fun _ => .refl _, fun _ => rfl, fun _ _ => rfl⟩
  · refine ⟨fun k => ?_, fun k => ?_, fun k hk => Function.update_of_ne hk ..⟩
    · by_cases hk : k = p.source
      · rw [hk, Function.update_self]; exact hlapses
      · rw [Function.update_of_ne hk]; exact .refl _
    · by_cases hk : k = p.source
      · rw [hk, Function.update_self]; exact hmemo
      · rw [Function.update_of_ne hk]

theorem payAllWith_lapses {ps : List Payment}
    (h : payAllWith l byProgram afterMemo options ps = .ok options') (k : Pubkey) :
    (options k).Lapses (options' k) := by
  induction ps generalizing options with
  | nil =>
      obtain rfl := pure_ok_iff.mp h
      exact .refl _
  | cons p ps ih =>
      obtain ⟨options₁, hp, hps⟩ := payAllWith_cons.mp h
      exact ((payWith_paid hp).lapses k).trans (ih hps)

end

end StablecoinAmm

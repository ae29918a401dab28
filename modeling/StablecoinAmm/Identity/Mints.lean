import StablecoinAmm.System.Books
import StablecoinAmm.System.Refinement

/-!
# Identity — mints

A mint is created by `initialize_stablecoin` or by `initialize_pool`, at an address that was free,
and is never removed.  After that only its supply and its pause flag change: the authorities,
the decimals, the extensions and the metadata are what they were on the first day
(`run_mint_kept`).
-/

namespace StablecoinAmm
open Support Ledger

/-- What a mint is for good: everything but its supply and its pause flag. -/
def Mint.identity (M : Mint) : Mint :=
  { M with supply := 0, pausable := M.pausable.map fun p => { p with paused := false } }

theorem Mint.identity_eq {M M' : Mint} (h : M'.identity = M.identity) :
    M'.decimals = M.decimals ∧ M'.extensions = M.extensions ∧ M'.metadata = M.metadata ∧
      M'.defaultState = M.defaultState := by
  cases M; cases M'
  simp only [Mint.identity, Mint.mk.injEq] at h
  obtain ⟨-, -, hd, -, he, hs, -, hm⟩ := h
  exact ⟨hd, he, hm, hs⟩

/-- The mint that the action creates. -/
def Action.mintCreated : Action → Option Pubkey
  | .initializeStablecoin ctx .. => some ctx.mint
  | .initializePool ctx _ => some (.lpMint ctx.pool)
  | _ => none

/-- From `l` to `l'` the mint at `m` changed in its supply and pause flag at most. -/
def Ledger.MintKept (m : Pubkey) (l l' : Ledger) : Prop :=
  (l'.mints m).map Mint.identity = (l.mints m).map Mint.identity

namespace Ledger.MintKept
variable {l l' : Ledger} {m : Pubkey}

theorem of_mints (h : l'.mints m = l.mints m) : MintKept m l l' := congrArg _ h

theorem of_skeleton (h : l'.skeleton = l.skeleton) : MintKept m l l' := by
  rcases hM : l.mints m with _ | M
  · have hM' : l'.mints m = none := by
      rcases hM' : l'.mints m with _ | M'
      · rfl
      · cases hM.symm.trans (mint_of_skeleton h.symm hM')
    rw [MintKept, hM, hM']
  · rw [MintKept, hM, mint_of_skeleton h hM]
    rfl

end Ledger.MintKept

section
variable {w w' : World} {m : Pubkey}

/-- **Mints are created at free addresses.** -/
theorem Action.Effect.mint_free {a : Action} (h : a.Effect w w') (hm : a.mintCreated = some m) :
    w.ledger.mints m = none := by
  cases a with
  | initializeStablecoin ctx =>
      obtain ⟨M, c, h⟩ := h
      obtain rfl := Option.some.inj hm
      exact h.mint_free
  | initializePool ctx =>
      obtain ⟨mA, mB, h⟩ := h
      obtain rfl := Option.some.inj hm
      exact h.lpMint_free
  | _ => cases hm

/-- The pause flag is not part of what is kept. -/
theorem SetPause.Effect.mintKept {ctx : SetPause} {paused : Bool} {c : MintConfig} {M : Mint}
    {p : PausableConfig} (h : ctx.Effect w paused c M p w') : MintKept m w.ledger w'.ledger := by
  rw [h.result]
  by_cases hm : m = ctx.mint
  · subst hm
    have hset : ∀ M' : Mint, (w.ledger.setMint ctx.mint M').mints ctx.mint = some M' :=
      fun M' => setMint_mints_self ..
    refine (congrArg (Option.map Mint.identity) (hset _)).trans ?_
    rw [h.mint, Option.map_some, Option.map_some]
    simp only [Mint.identity, h.pausable, Option.map_some]
  · exact .of_mints (setMint_mints_of_ne _ _ _ hm)

/-- **One step keeps every mint**, the one it creates apart. -/
theorem Action.Effect.mintKept {a : Action} (h : a.Effect w w') (hm : a.mintCreated ≠ some m) :
    MintKept m w.ledger w'.ledger := by
  cases a with
  | initializeStablecoin ctx =>
      obtain ⟨M, c, h⟩ := h
      rw [h.result]
      exact .of_mints (setMint_mints_of_ne _ _ _ fun he => hm (he ▸ rfl))
  | initializePool ctx =>
      obtain ⟨mA, mB, h⟩ := h
      rw [h.result]
      exact .of_mints (openPool_mints_of_ne _ _ _ _ _ _ fun he => hm (he ▸ rfl))
  | setPause ctx =>
      obtain ⟨c, M, p, h⟩ := h
      exact h.mintKept
  | grantMinter => rw [show w' = _ from h]; exact .of_mints rfl
  | revokeMinter => rw [show w' = _ from h]; exact .of_mints rfl
  | acceptAdmin =>
      obtain ⟨c, -, -, rfl⟩ := h
      exact .of_mints rfl
  | updateConfig =>
      obtain ⟨c, h⟩ := h
      rw [h.result]
      exact .of_mints rfl
  | setWalletPolicy =>
      obtain ⟨c, a, h⟩ := h
      rw [h.result]
      exact .of_mints rfl
  | mintTo =>
      obtain ⟨a, l, h⟩ := h
      exact .of_skeleton h.framed.ledger
  | burn =>
      obtain ⟨c, l, h⟩ := h
      rw [h.result]
      exact .of_skeleton h.burned.skeleton
  | addLiquidity =>
      obtain ⟨a, t, l₁, l₂, l₃, l₄, h⟩ := h
      rw [h.result]
      exact .of_skeleton (h.paidA.toMoved.trans (h.paidB.toMoved.trans
        (h.locked.moved.trans h.minted.toMoved))).skeleton
  | removeLiquidity =>
      obtain ⟨a, q, l₁, l₂, l₃, h⟩ := h
      rw [h.result]
      exact .of_skeleton (h.burned.toMoved.trans (h.paidA.toMoved.trans h.paidB.toMoved)).skeleton
  | swap =>
      obtain ⟨a, q, l₁, l₂, h⟩ := h
      rw [h.result]
      exact .of_skeleton (h.paidIn.toMoved.trans h.paidOut.toMoved).skeleton
  | createAccount =>
      obtain ⟨M, -, -, -, rfl⟩ := h
      exact .of_mints rfl
  | transfer =>
      obtain ⟨l, -, h, rfl⟩ := h
      exact .of_skeleton h.skeleton
  | burnDirect =>
      obtain ⟨l, -, h, rfl⟩ := h
      exact .of_skeleton h.skeleton
  | setOwner =>
      obtain ⟨a, -, -, -, -, -, rfl⟩ := h
      exact .of_mints rfl
  | closeAccount =>
      obtain ⟨a, -, -, -, -, rfl⟩ := h
      exact .of_mints rfl

/-- What exists is not created. -/
theorem step_mint_kept {M : Mint} (hw : w.Inv) {a : Action} (h : step w a = .ok w')
    (hM : w.ledger.mints m = some M) :
    ∃ M', w'.ledger.mints m = some M' ∧ M'.identity = M.identity := by
  have heff := step_effect hw h
  refine exists_of_map_eq (heff.mintKept fun hm => ?_) hM
  cases hM.symm.trans (heff.mint_free hm)

/-- **A mint stays what it is.** -/
theorem run_mint_kept {M : Mint} (hw : w.Inv) {as : List Action} (t : Run step w as w')
    (hM : w.ledger.mints m = some M) :
    ∃ M', w'.ledger.mints m = some M' ∧ M'.identity = M.identity := by
  induction t generalizing M with
  | refl => exact ⟨M, hM, rfl⟩
  | more h _ ih =>
      obtain ⟨M₁, hM₁, he₁⟩ := step_mint_kept hw h hM
      obtain ⟨M', hM', he⟩ := ih (step_inv _ _ _ hw h) hM₁
      exact ⟨M', hM', he.trans he₁⟩

end

end StablecoinAmm

import Mathlib.Data.List.TakeWhile

/-!
# Support — padded fields

A text in a field of fixed width is followed by a padding element that no text contains.
`Padded pad field text` says that the field holds the text; reading the field means to take what
stands before the first padding element, and to check that nothing but padding follows
(`padded_iff`).  Texts and fields of one width correspond one to one: `Padded.unique` and
`Padded.injective`, and `padded_rightpad` for existence.
-/

namespace Support

variable {α : Type} {pad : α} {field text text' : List α} {n : ℕ}

/-- The field holds the text, and padding after it. -/
structure Padded (pad : α) (field text : List α) : Prop where
  clean : pad ∉ text
  field : field = text.rightpad field.length pad

theorem padded_rightpad (h : pad ∉ text) (hn : text.length ≤ n) :
    Padded pad (text.rightpad n pad) text := by
  refine ⟨h, ?_⟩
  rw [List.length_rightpad, max_eq_left hn]

namespace Padded

theorem length_le (h : Padded pad field text) : text.length ≤ field.length := by
  rw [h.field, List.length_rightpad]
  exact le_max_right _ _

/-- Fields of one width that hold one text are the same. -/
theorem injective {field' : List α} (h : Padded pad field text) (h' : Padded pad field' text)
    (hlen : field.length = field'.length) : field = field' := by
  rw [h.field, h'.field, hlen]

section
variable [DecidableEq α]

theorem takeWhile_eq (h : Padded pad field text) : field.takeWhile (· ≠ pad) = text := by
  have hne : ∀ a ∈ text, decide (a ≠ pad) = true := fun a ha =>
    decide_eq_true (ne_of_mem_of_not_mem ha h.clean)
  rw [h.field, List.rightpad, List.takeWhile_append_of_pos hne, List.takeWhile_replicate]
  simp

theorem dropWhile_eq (h : Padded pad field text) :
    field.dropWhile (· ≠ pad) = List.replicate (field.length - text.length) pad := by
  have hsplit := List.takeWhile_append_dropWhile (p := (· ≠ pad)) (l := field)
  rw [h.takeWhile_eq] at hsplit
  exact List.append_cancel_left (hsplit.trans h.field)

/-- A field holds one text. -/
theorem unique (h : Padded pad field text) (h' : Padded pad field text') : text = text' :=
  h.takeWhile_eq.symm.trans h'.takeWhile_eq

end

end Padded

/-- **Reading a field.** -/
theorem padded_iff [DecidableEq α] :
    Padded pad field text ↔
      field.takeWhile (· ≠ pad) = text ∧ ∀ a ∈ field.dropWhile (· ≠ pad), a = pad := by
  constructor
  · intro h
    refine ⟨h.takeWhile_eq, fun a ha => ?_⟩
    rw [h.dropWhile_eq] at ha
    exact List.eq_of_mem_replicate ha
  · rintro ⟨rfl, hpad⟩
    refine ⟨fun h => ?_, ?_⟩
    · simpa using List.mem_takeWhile_imp h
    · have hsplit := List.takeWhile_append_dropWhile (p := (· ≠ pad)) (l := field)
      have hrest := List.eq_replicate_of_mem hpad
      have hlen := congrArg List.length hsplit
      rw [List.length_append] at hlen
      rw [List.rightpad, ← hlen, Nat.add_sub_cancel_left, ← hrest]
      exact hsplit.symm

end Support

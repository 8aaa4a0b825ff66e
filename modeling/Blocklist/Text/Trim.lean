set_option autoImplicit false

/-! # Trimming

Cutting the characters of a class off one end or both ends of a text. -/

namespace Blocklist.Text

variable {α : Type}

/-- The list without the longest run of `p`-elements at its end. -/
def trimEnd (p : α → Bool) (xs : List α) : List α :=
  (xs.reverse.dropWhile p).reverse

/-- The list without the longest runs of `p`-elements at its two ends. -/
def trim (p : α → Bool) (xs : List α) : List α :=
  trimEnd p (xs.dropWhile p)

@[simp] theorem trimEnd_nil (p : α → Bool) : trimEnd p [] = [] := rfl

theorem trimEnd_append_singleton (p : α → Bool) (xs : List α) (x : α) :
    trimEnd p (xs ++ [x]) = if p x then trimEnd p xs else xs ++ [x] := by
  simp only [trimEnd, List.reverse_append, List.reverse_cons, List.reverse_nil, List.nil_append,
    List.cons_append, List.dropWhile_cons]
  split <;> simp

end Blocklist.Text

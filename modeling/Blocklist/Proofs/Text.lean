import Blocklist.Text.Lines
import Blocklist.Text.Trim
import Mathlib.Data.List.Induction
import Mathlib.Data.List.TakeWhile

set_option autoImplicit false

/-! # Trimmed texts and lines

Trimming takes a run off an end and nothing else, so what it takes first and what it takes later
can be told apart by the class of the characters. Lines that are written one by one, each ended by
a newline, are the lines that are read (`lines_unlines`). -/

namespace Blocklist.Text

/-! ## Trimming -/

section

variable {α : Type} {p q : α → Bool}

theorem exists_eq_trimEnd_append (p : α → Bool) (xs : List α) :
    ∃ run, xs = trimEnd p xs ++ run ∧ ∀ x ∈ run, p x = true := by
  refine ⟨(xs.reverse.takeWhile p).reverse, ?_, fun x hx => ?_⟩
  · rw [trimEnd, ← List.reverse_append, List.takeWhile_append_dropWhile, List.reverse_reverse]
  · exact List.mem_takeWhile_imp (List.mem_reverse.1 hx)

theorem isPrefix_trimEnd (p : α → Bool) (xs : List α) : trimEnd p xs <+: xs := by
  obtain ⟨run, hxs, -⟩ := exists_eq_trimEnd_append p xs
  exact ⟨run, hxs.symm⟩

/-- A run at the end goes first. -/
theorem trimEnd_append_of_forall {run : List α} (h : ∀ x ∈ run, p x = true) (xs : List α) :
    trimEnd p (xs ++ run) = trimEnd p xs := by
  rw [trimEnd, List.reverse_append, List.dropWhile_append_of_pos, trimEnd]
  exact fun x hx => h x (List.mem_reverse.1 hx)

theorem trimEnd_eq_self {xs : List α} (h : ∀ x, xs.getLast? = some x → p x = false) :
    trimEnd p xs = xs := by
  cases xs using List.reverseRecOn with
  | nil => rfl
  | append_singleton xs x =>
    rw [trimEnd_append_singleton, if_neg]
    rw [h x (by simp)]
    exact Bool.false_ne_true

theorem dropWhile_append_cons {x : α} (h : p x = false) (xs ys : List α) :
    (xs ++ x :: ys).dropWhile p = xs.dropWhile p ++ x :: ys := by
  induction xs with
  | nil => rw [List.nil_append, List.dropWhile_cons, h]; rfl
  | cons y xs ih =>
    rw [List.cons_append, List.dropWhile_cons, List.dropWhile_cons, ih]
    split <;> rfl

/-- An element that stays keeps everything before it. -/
theorem trimEnd_append_cons {x : α} (h : p x = false) (xs ys : List α) :
    trimEnd p (xs ++ x :: ys) = xs ++ x :: trimEnd p ys := by
  have hreverse : (xs ++ x :: ys).reverse = ys.reverse ++ x :: xs.reverse := by simp
  rw [trimEnd, hreverse, dropWhile_append_cons h, trimEnd]
  simp

theorem dropWhile_eq_self {xs : List α} (h : ∀ x, xs.head? = some x → p x = false) :
    xs.dropWhile p = xs := by
  cases xs with
  | nil => rfl
  | cons x rest => rw [List.dropWhile_cons, h x rfl]; rfl

/-- Where no run begins before the second part, only that is trimmed. -/
theorem trimEnd_append {xs ys : List α} (hxs : ∀ x, xs.getLast? = some x → p x = false)
    (hys : ∀ y, ys.head? = some y → p y = false) : trimEnd p (xs ++ ys) = xs ++ trimEnd p ys := by
  cases ys with
  | nil => rw [List.append_nil, trimEnd_eq_self hxs, trimEnd_nil, List.append_nil]
  | cons y ys =>
    have hy := hys y rfl
    rw [trimEnd_append_cons hy, ← List.nil_append (y :: ys), trimEnd_append_cons hy,
      List.nil_append]

theorem getLast?_trimEnd {xs : List α} {x : α} (h : (trimEnd p xs).getLast? = some x) :
    p x = false := by
  rw [trimEnd, List.getLast?_reverse] at h
  have hnot := List.head?_dropWhile_not p xs.reverse
  rw [h] at hnot
  exact hnot

theorem trim_eq_self {xs : List α} (hfirst : ∀ x, xs.head? = some x → p x = false)
    (hlast : ∀ x, xs.getLast? = some x → p x = false) : trim p xs = xs := by
  rw [trim, dropWhile_eq_self hfirst, trimEnd_eq_self hlast]

/-- Runs at the two ends go first. -/
theorem trim_append_of_forall {first last : List α} (hfirst : ∀ x ∈ first, p x = true)
    (hlast : ∀ x ∈ last, p x = true) (xs : List α) :
    trim p (first ++ xs ++ last) = trim p xs := by
  rw [trim, List.append_assoc, List.dropWhile_append_of_pos hfirst, List.dropWhile_append, trim]
  by_cases hall : (xs.dropWhile p).isEmpty = true
  · rw [if_pos hall, List.isEmpty_iff.1 hall, List.dropWhile_eq_nil_iff.2 hlast]
  · rw [if_neg hall, trimEnd_append_of_forall hlast]

/-- A map that keeps the class of every element goes through trimming. -/
theorem trimEnd_map {f : α → α} (h : ∀ x, p (f x) = p x) (xs : List α) :
    trimEnd p (xs.map f) = (trimEnd p xs).map f := by
  have hsame : p ∘ f = p := funext h
  rw [trimEnd, ← List.map_reverse, List.dropWhile_map, hsame, ← List.map_reverse, trimEnd]

theorem trim_map {f : α → α} (h : ∀ x, p (f x) = p x) (xs : List α) :
    trim p (xs.map f) = (trim p xs).map f := by
  have hsame : p ∘ f = p := funext h
  rw [trim, List.dropWhile_map, hsame, trimEnd_map h, trim]

/-- What was trimmed off one end before makes no difference. -/
theorem trim_trimEnd (h : ∀ x, p x = true → q x = true) (xs : List α) :
    trim q (trimEnd p xs) = trim q xs := by
  obtain ⟨run, hxs, hrun⟩ := exists_eq_trimEnd_append p xs
  conv_rhs => rw [hxs, ← List.nil_append (trimEnd p xs)]
  exact (trim_append_of_forall (List.forall_mem_nil _) (fun x hx => h x (hrun x hx)) _).symm

end

/-! ## Lines -/

theorem not_mem_of_mem_splitOn {a : Char} {cs l : List Char} (h : l ∈ cs.splitOn a) : a ∉ l := by
  induction cs generalizing l with
  | nil => simp_all
  | cons c cs ih =>
    obtain ⟨first, more, hsplit⟩ := List.exists_cons_of_ne_nil (List.splitOn_ne_nil a cs)
    rw [hsplit, List.forall_mem_cons] at ih
    rw [List.splitOn_cons_eq_if_modifyHead, hsplit] at h
    by_cases hc : c = a
    · rw [if_pos (beq_iff_eq.2 hc), List.mem_cons, List.mem_cons] at h
      rcases h with rfl | rfl | h
      · exact List.not_mem_nil
      · exact ih.1
      · exact ih.2 l h
    · rw [if_neg (by simpa using hc), List.modifyHead_cons, List.mem_cons] at h
      rcases h with rfl | h
      · rw [List.mem_cons, not_or]
        exact ⟨Ne.symm hc, ih.1⟩
      · exact ih.2 l h

theorem isPrefix_dropReturn (line : List Char) : dropReturn line <+: line := by
  rw [dropReturn]
  split
  · exact List.dropLast_prefix line
  · exact List.prefix_refl line

theorem newline_not_mem_of_mem_lines {text line : List Char} (h : line ∈ lines text) :
    '\n' ∉ line := by
  rw [lines, List.mem_append, List.mem_map] at h
  rcases h with ⟨piece, hpiece, rfl⟩ | hline
  · exact fun hmem => not_mem_of_mem_splitOn (List.dropLast_subset _ hpiece)
      ((isPrefix_dropReturn piece).subset hmem)
  · have hlast := Option.mem_toList.1 (List.mem_filter.1 hline).1
    exact not_mem_of_mem_splitOn (List.mem_of_getLast? hlast)

theorem splitOn_unlines {ls : List (List Char)} (h : ∀ line ∈ ls, '\n' ∉ line) :
    (unlines ls).splitOn '\n' = ls ++ [[]] := by
  induction ls with
  | nil => rfl
  | cons line rest ih =>
    rw [List.forall_mem_cons] at h
    rw [unlines_cons, List.splitOn_append_cons_self, List.splitOn_eq_singleton h.1, ih h.2]
    rfl

/-- Lines that hold no newline and end in no carriage return are read as they were written. -/
theorem lines_unlines {ls : List (List Char)} (hnewline : ∀ line ∈ ls, '\n' ∉ line)
    (hreturn : ∀ line ∈ ls, line.getLast? ≠ some '\r') : lines (unlines ls) = ls := by
  have hkept : ls.map dropReturn = ls :=
    (List.map_congr_left fun line hline => if_neg (hreturn line hline)).trans (List.map_id ls)
  simp [lines, splitOn_unlines hnewline, hkept]

end Blocklist.Text

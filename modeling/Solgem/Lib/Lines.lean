import Mathlib.Data.List.TakeWhile

set_option autoImplicit false

namespace Solgem.Lib

variable {A B : Type} [DecidableEq A]

-- The segments of a text that an end mark closes; the last one may be open, an
-- open empty one does not count.
def segments (mark : A) : List A → List (List A)
  | [] => []
  | a :: rest =>
      if a = mark then [] :: segments mark rest
      else
        match segments mark rest with
        | [] => [[a]]
        | line :: lines => (a :: line) :: lines

-- What a reader finds that takes the text up to the next mark.
theorem segments_step (mark : A) (text : List A) :
    segments mark text =
      match text.dropWhile (fun a => decide (a ≠ mark)) with
      | [] => if text = [] then [] else [text]
      | _ :: rest => text.takeWhile (fun a => decide (a ≠ mark)) :: segments mark rest := by
  induction text with
  | nil => rfl
  | cons a rest ih =>
      by_cases closed : a = mark
      · subst closed
        simp [segments]
      · rw [segments, if_neg closed, ih, List.dropWhile_cons_of_pos (by simpa using closed),
          List.takeWhile_cons_of_pos (by simpa using closed)]
        cases remaining : rest.dropWhile (fun a => decide (a ≠ mark)) with
        | nil => cases rest with
          | nil => rfl
          | cons b rest => rfl
        | cons b later => rfl

omit [DecidableEq A] in
theorem drop_while_shorter (p : A → Bool) (text rest : List A) (a : A) (found : text.dropWhile p = a :: rest) :
    rest.length < text.length := by
  have suffix := (List.dropWhile_suffix p : text.dropWhile p <:+ text).length_le
  rw [found, List.length_cons] at suffix
  exact suffix

-- A search through a list that ends at the first answer, seen from the entry
-- that gives it.
omit [DecidableEq A] in
theorem find_some_of_find (p : A → Bool) (f : A → Option B) (g : A → B) (answer : ∀ a, f a = if p a then some (g a) else none)
    (xs : List A) : xs.findSome? f = (xs.find? p).map g := by
  induction xs with
  | nil => rfl
  | cons x rest ih =>
      rw [List.findSome?_cons, List.find?_cons, answer]
      cases p x with
      | false => simpa using ih
      | true => rfl

end Solgem.Lib

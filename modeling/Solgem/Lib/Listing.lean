import Mathlib.Algebra.BigOperators.Group.List.Basic
import Mathlib.Algebra.Ring.Nat
import Mathlib.Data.List.Forall2
import Mathlib.Data.List.Nodup
import Mathlib.Data.List.Range

set_option autoImplicit false

namespace Solgem.Lib

variable {A B : Type}

theorem forall₂_mem_left (rel : A → B → Prop) (as : List A) (bs : List B) (all : List.Forall₂ rel as bs) (a : A)
    (member : a ∈ as) : ∃ b ∈ bs, rel a b := by
  induction all with
  | nil => cases member
  | cons related _ ih =>
      rcases List.mem_cons.mp member with rfl | rest
      · exact ⟨_, List.mem_cons_self .., related⟩
      · obtain ⟨b, listed, found⟩ := ih rest
        exact ⟨b, List.mem_cons_of_mem _ listed, found⟩

theorem forall₂_mem_right (rel : A → B → Prop) (as : List A) (bs : List B) (all : List.Forall₂ rel as bs) (b : B)
    (member : b ∈ bs) : ∃ a ∈ as, rel a b :=
  forall₂_mem_left (flip rel) bs as all.flip b member

theorem get_append_singleton (xs : List A) (x y : A) (i : Nat) :
    (xs ++ [x])[i]? = some y ↔ xs[i]? = some y ∨ i = xs.length ∧ x = y := by
  rw [List.getElem?_append, List.getElem?_singleton]
  split
  · grind
  · grind

theorem traversal_length (f : A → Option B) (xs : List A) (ys : List B) (all : xs.mapM f = some ys) : ys.length = xs.length := by
  induction xs generalizing ys with
  | nil =>
      cases all
      rfl
  | cons x rest ih =>
      rw [List.mapM_cons] at all
      obtain ⟨y, _, tail⟩ := Option.bind_eq_some_iff.mp all
      obtain ⟨later, listed, result⟩ := Option.bind_eq_some_iff.mp tail
      cases result
      rw [List.length_cons, List.length_cons, ih later listed]

-- A loop that moves the elements it keeps to the front.
theorem compact_loop (keep : A → Prop) [DecidablePred keep] (f : A → B) (xs : List A) (front blank : List B)
    (room : xs.length ≤ blank.length) :
    let moved := xs.foldl (fun (acc : List B × Nat) x => if keep x then (acc.1.set acc.2 (f x), acc.2 + 1) else acc)
      (front ++ blank, front.length)
    moved.1.take moved.2 = front ++ (xs.filter (fun x => decide (keep x))).map f := by
  induction xs generalizing front blank with
  | nil => simp
  | cons x rest ih =>
      rw [List.length_cons] at room
      rw [List.foldl_cons, List.filter_cons]
      by_cases kept : keep x
      · cases blank with
        | nil => exact absurd room (Nat.not_succ_le_zero _)
        | cons old blank =>
            have next := ih (front ++ [f x]) blank (Nat.le_of_succ_le_succ room)
            rw [if_pos kept, if_pos (decide_eq_true kept), List.set_append_right _ _ (Nat.le_refl _), Nat.sub_self,
              List.set_cons_zero, List.map_cons]
            simpa using next
      · rw [if_neg kept, decide_eq_false kept, if_neg Bool.false_ne_true]
        exact ih front blank (Nat.le_of_succ_le room)

theorem map_range_entries (xs : List A) (f : Nat → B) (g : A → B) (same : ∀ (i : Nat) (x : A), xs[i]? = some x → f i = g x) :
    (List.range xs.length).map f = xs.map g := by
  apply List.ext_getElem
  · rw [List.length_map, List.length_range, List.length_map]
  · intro i _ inside
    rw [List.length_map] at inside
    rw [List.getElem_map, List.getElem_range, List.getElem_map]
    exact same i xs[i] (List.getElem?_eq_getElem inside)

-- A loop that writes a run of consecutive entries.
theorem write_run (v : Nat → A) (zero : A) (base n : Nat) (xs : List A) (room : base + n ≤ xs.length) :
    ((List.range n).foldl (fun xs b => xs.set (base + b) (v b)) xs).length = xs.length ∧
      ∀ q, ((List.range n).foldl (fun xs b => xs.set (base + b) (v b)) xs).getD q zero =
        if base ≤ q ∧ q < base + n then v (q - base) else xs.getD q zero := by
  induction n with
  | zero =>
      refine ⟨rfl, fun q => ?_⟩
      rw [List.range_zero, List.foldl_nil, if_neg (by omega)]
  | succ n ih =>
      obtain ⟨length, entries⟩ := ih (by omega)
      rw [List.range_succ, List.foldl_append, List.foldl_cons, List.foldl_nil]
      refine ⟨by rw [List.length_set, length], fun q => ?_⟩
      rw [List.getD_eq_getElem?_getD, List.getElem?_set]
      by_cases last : base + n = q
      · rw [if_pos last, if_pos (by omega), if_pos (by omega), Option.getD_some]
        congr 1
        omega
      · rw [if_neg last, ← List.getD_eq_getElem?_getD, entries]
        by_cases before : base ≤ q ∧ q < base + n
        · rw [if_pos before, if_pos (by omega)]
        · rw [if_neg before, if_neg (by omega)]

-- A table of rows of one width, laid one after another: writing a row.
theorem write_row (v : Nat → A) (zero : A) (width row : Nat) (xs : List A) (room : row * width + width ≤ xs.length) :
    ((List.range width).foldl (fun xs b => xs.set (row * width + b) (v b)) xs).length = xs.length ∧
      ∀ i b, b < width → ((List.range width).foldl (fun xs b => xs.set (row * width + b) (v b)) xs).getD (i * width + b) zero =
        if i = row then v b else xs.getD (i * width + b) zero := by
  obtain ⟨length, entries⟩ := write_run v zero (row * width) width xs room
  refine ⟨length, fun i b within => ?_⟩
  rw [entries]
  cases Nat.lt_trichotomy i row with
  | inl before =>
      have apart := Nat.mul_le_mul_right width (Nat.succ_le_of_lt before)
      rw [Nat.succ_mul] at apart
      rw [if_neg (by omega), if_neg (Nat.ne_of_lt before)]
  | inr other =>
      cases other with
      | inl same =>
          subst same
          rw [if_pos ⟨Nat.le_add_right _ _, Nat.add_lt_add_left within _⟩, if_pos rfl, Nat.add_sub_cancel_left]
      | inr after =>
          have apart := Nat.mul_le_mul_right width (Nat.succ_le_of_lt after)
          rw [Nat.succ_mul] at apart
          rw [if_neg (by omega), if_neg (Nat.ne_of_gt after)]

-- Picking related pairs by the right element picks the left ones by a property
-- that says the same of them.
theorem zip_filter_left (rel : A → B → Prop) (p : A → B → Bool) (q : A → Bool) (same : ∀ a b, rel a b → p a b = q a)
    (as : List A) (bs : List B) (all : List.Forall₂ rel as bs) :
    ((as.zip bs).filter (fun pair => p pair.1 pair.2)).map Prod.fst = as.filter q := by
  induction all with
  | nil => rfl
  | cons related _ ih =>
      rw [List.zip_cons_cons, List.filter_cons, List.filter_cons, same _ _ related]
      split
      · rw [List.map_cons, ih]
      · exact ih

-- Numbers in ascending order are what a counting loop that looks for them finds.
theorem range_filter_ascending (strips : List Nat) (ascending : strips.Pairwise (· < ·)) (n : Nat) (inside : ∀ s ∈ strips, s < n) :
    (List.range n).filter (fun s => decide (s ∈ strips)) = strips := by
  have distinct : strips.Nodup := ascending.imp Nat.ne_of_lt
  have same : ((List.range n).filter (fun s => decide (s ∈ strips))).Perm strips := by
    refine (List.perm_ext_iff_of_nodup (List.nodup_range.filter _) distinct).mpr (fun s => ?_)
    rw [List.mem_filter, List.mem_range, decide_eq_true_iff]
    exact ⟨fun both => both.2, fun member => ⟨inside s member, member⟩⟩
  refine same.eq_of_pairwise (fun a b _ _ below above => absurd below (Nat.lt_asymm above)) ?_ ascending
  exact List.pairwise_lt_range.filter _

theorem flat_map_only (f : A → List B) (a : A) (xs : List A) (distinct : xs.Nodup) (member : a ∈ xs)
    (others : ∀ b ∈ xs, b ≠ a → f b = []) : xs.flatMap f = f a := by
  induction xs with
  | nil => cases member
  | cons x rest ih =>
      rw [List.nodup_cons] at distinct
      rw [List.flatMap_cons]
      by_cases here : x = a
      · subst here
        have tail : rest.flatMap f = [] := by
          rw [List.flatMap_eq_nil_iff]
          intro b listed
          exact others b (List.mem_cons_of_mem x listed) (fun same => distinct.1 (same ▸ listed))
        rw [tail, List.append_nil]
      · have later := (List.mem_cons.mp member).resolve_left (fun same => here same.symm)
        rw [others x (List.mem_cons_self ..) here, List.nil_append]
        exact ih distinct.2 later (fun b listed => others b (List.mem_cons_of_mem x listed))

-- The entries with a property stand in front exactly when none of them comes
-- after an entry without it.
theorem take_count_filter (p : A → Bool) (xs : List A) :
    xs.take (xs.countP p) = xs.filter p ↔ xs.Pairwise (fun earlier later => p later = true → p earlier = true) := by
  induction xs with
  | nil => simp
  | cons x rest ih =>
      rw [List.pairwise_cons, ← ih]
      cases holds : p x with
      | true => simp [holds]
      | false =>
          rw [List.countP_cons_of_neg (by simp [holds]), List.filter_cons_of_neg (by simp [holds])]
          constructor
          · intro front
            cases count : rest.countP p with
            | zero =>
                have fails := List.countP_eq_zero.mp count
                exact ⟨fun y member found => absurd found (fails y member), by rw [List.take_zero, List.filter_eq_nil_iff.mpr fails]⟩
            | succ n =>
                -- The entry would be one of those with the property.
                have member : x ∈ rest.filter p := by
                  rw [← front, count, List.take_succ_cons]
                  exact List.mem_cons_self
                rw [(List.mem_filter.mp member).2] at holds
                cases holds
          · intro ordered
            have fails : ∀ y ∈ rest, ¬ p y = true := fun y member found =>
              Bool.noConfusion (ordered.1 y member found)
            rw [List.countP_eq_zero.mpr fails, List.take_zero, List.filter_eq_nil_iff.mpr fails]

-- A loop that reads the entries by their index.
theorem entries_loop (f : B → A → B) (xs : List A) (start : B) :
    (List.range xs.length).foldlM (fun s i => (xs[i]?).map (f s)) start = some (xs.foldl f start) := by
  have front : ∀ n ≤ xs.length, (List.range n).foldlM (fun s i => (xs[i]?).map (f s)) start = some ((xs.take n).foldl f start) := by
    intro n
    induction n with
    | zero => exact fun _ => rfl
    | succ n ih =>
        intro room
        rw [List.range_succ, List.foldlM_append, ih (Nat.le_of_succ_le room), List.take_succ_eq_append_getElem room, List.foldl_append,
          Option.bind_eq_bind, Option.bind_some, List.foldlM_cons, List.getElem?_eq_getElem room]
        rfl
  rw [front xs.length (Nat.le_refl _), List.take_length]

-- Rows laid one after another: where an entry of a row stands, and the row an
-- entry of the whole belongs to.
theorem rows_length (c : Nat → Nat) (f : Nat → Nat → B) (n : Nat) :
    ((List.range n).flatMap (fun i => (List.range (c i)).map (f i))).length = ((List.range n).map c).sum := by
  simp [List.length_flatMap]

theorem rows_entry (c : Nat → Nat) (f : Nat → Nat → B) (n i j : Nat) (row : i < n) (column : j < c i) :
    ((List.range n).flatMap (fun i => (List.range (c i)).map (f i)))[((List.range i).map c).sum + j]? = some (f i j) := by
  induction n with
  | zero => cases row
  | succ n ih =>
      rw [List.range_succ, List.flatMap_append, List.flatMap_singleton]
      cases Nat.lt_succ_iff_lt_or_eq.mp row with
      | inl before =>
          have entry := ih before
          have inside := (List.getElem?_eq_some_iff.mp entry).1
          rw [List.getElem?_append_left inside]
          exact entry
      | inr last =>
          subst last
          rw [List.getElem?_append_right (by rw [rows_length]; exact Nat.le_add_right _ _), rows_length,
            Nat.add_sub_cancel_left]
          simp [column]

theorem rows_cover (c : Nat → Nat) (n g : Nat) (below : g < ((List.range n).map c).sum) :
    ∃ i j, i < n ∧ j < c i ∧ g = ((List.range i).map c).sum + j := by
  induction n with
  | zero => cases below
  | succ n ih =>
      by_cases before : g < ((List.range n).map c).sum
      · obtain ⟨i, j, row, column, place⟩ := ih before
        exact ⟨i, j, Nat.lt_succ_of_lt row, column, place⟩
      · have split : ((List.range (n + 1)).map c).sum = ((List.range n).map c).sum + c n := by
          rw [List.range_succ, List.map_append, List.sum_append, List.map_singleton, List.sum_singleton]
        exact ⟨n, g - ((List.range n).map c).sum, Nat.lt_succ_self n, by omega, by omega⟩

-- In a sorted list the element that comes next in the order comes next.
theorem pairwise_neighbours (before : A → A → Prop) (asymm : ∀ a b, before a b → ¬ before b a) (xs : List A)
    (sorted : xs.Pairwise before) (m n : Nat) (a b : A) (first : xs[m]? = some a) (second : xs[n]? = some b) (ordered : before a b)
    (nothing : ∀ x ∈ xs, before a x → ¬ before x b) : n = m + 1 := by
  obtain ⟨insidem, rfl⟩ := List.getElem?_eq_some_iff.mp first
  obtain ⟨insiden, rfl⟩ := List.getElem?_eq_some_iff.mp second
  have pairs := List.pairwise_iff_getElem.mp sorted
  rcases Nat.lt_trichotomy n (m + 1) with earlier | next | later
  · rcases Nat.lt_or_ge n m with less | least
    · exact absurd (pairs n m insiden insidem less) (asymm _ _ ordered)
    · have same : n = m := by omega
      subst same
      exact absurd ordered (asymm _ _ ordered)
  · exact next
  · have inside : m + 1 < xs.length := by omega
    exact absurd (pairs (m + 1) n inside insiden later)
      (nothing _ (List.getElem_mem inside) (pairs m (m + 1) insidem inside (Nat.lt_succ_self m)))

end Solgem.Lib

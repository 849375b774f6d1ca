import Mathlib.Tactic.Linarith
import Solgem.Lib.Fueled

set_option autoImplicit false

namespace Solgem

open Lib

-- The counters of the loop that adds background files to an event: the file
-- tried next, the number to stop at, and the file the event started from.
structure BackgroundLoop where
  Nfile : Int
  N_bg_file_g_post : Int
  N_bg_file_g : Int

namespace BackgroundLoop

def start (nbacktoadd : Nat) (N_bg_file_g : Int) : BackgroundLoop := ⟨N_bg_file_g, N_bg_file_g + nbacktoadd, N_bg_file_g⟩

def next (l : BackgroundLoop) : BackgroundLoop := { l with Nfile := l.Nfile + 1 }

-- A file that does not open moves both bounds; at the limit the loop starts
-- over. Nfile is incremented after either.
def missing (limit nbacktoadd : Nat) (l : BackgroundLoop) : BackgroundLoop :=
  let post := l.N_bg_file_g_post + 1
  let g := l.N_bg_file_g + 1
  if limit ≤ g then next ⟨post - l.Nfile, nbacktoadd, 0⟩ else next ⟨l.Nfile, post, g⟩

-- One pass of the loop, with the number of the file it opened.
def attempt (opens : Int → Bool) (limit nbacktoadd : Nat) (l : BackgroundLoop) : Option (List Int × BackgroundLoop) :=
  if l.Nfile < l.N_bg_file_g_post then
    if opens l.Nfile then some ([l.Nfile], l.next) else some ([], l.missing limit nbacktoadd)
  else none

-- N_bg_file_g after the loop, for the next event.
def nextFile (limit : Nat) (l : BackgroundLoop) : Int := if limit ≤ l.N_bg_file_g_post then 0 else l.N_bg_file_g_post

def remaining (l : BackgroundLoop) : Int := l.N_bg_file_g_post - l.Nfile

end BackgroundLoop

open BackgroundLoop

-- The background files of one event, and the counters the loop ends with.
def backgroundFiles (opens : Int → Bool) (limit nbacktoadd : Nat) (fuel : Nat) (N_bg_file_g : Int) :
    Option (List Int × BackgroundLoop) :=
  fueled (attempt opens limit nbacktoadd) fuel (start nbacktoadd N_bg_file_g)

section
variable (opens : Int → Bool) (limit nbacktoadd : Nat)

theorem attempt_cases (l l' : BackgroundLoop) (out : List Int) (passed : attempt opens limit nbacktoadd l = some (out, l')) :
    l.Nfile < l.N_bg_file_g_post ∧ (opens l.Nfile = true ∧ out = [l.Nfile] ∧ l' = l.next ∨
      opens l.Nfile = false ∧ out = [] ∧ l' = l.missing limit nbacktoadd) := by
  rw [attempt] at passed
  split at passed
  · rename_i below
    cases opened : opens l.Nfile with
    | true =>
        rw [opened, if_pos rfl] at passed
        cases passed
        exact ⟨below, .inl ⟨rfl, rfl, rfl⟩⟩
    | false =>
        rw [opened, if_neg Bool.false_ne_true] at passed
        cases passed
        exact ⟨below, .inr ⟨rfl, rfl, rfl⟩⟩
  · cases passed

theorem attempt_done (l : BackgroundLoop) : attempt opens limit nbacktoadd l = none ↔ l.N_bg_file_g_post ≤ l.Nfile := by
  rw [attempt]
  split
  · rename_i below
    split <;> simp [below]
  · rename_i above
    simpa using above

theorem attempt_opened (l : BackgroundLoop) (below : l.Nfile < l.N_bg_file_g_post) (opened : opens l.Nfile = true) :
    attempt opens limit nbacktoadd l = some ([l.Nfile], l.next) := by
  rw [attempt, if_pos below, if_pos opened]

theorem attempt_missing (l : BackgroundLoop) (below : l.Nfile < l.N_bg_file_g_post) (missed : opens l.Nfile = false) :
    attempt opens limit nbacktoadd l = some ([], l.missing limit nbacktoadd) := by
  rw [attempt, if_pos below, missed, if_neg Bool.false_ne_true]

theorem missing_below (l : BackgroundLoop) (room : l.N_bg_file_g + 1 < limit) :
    l.missing limit nbacktoadd = ⟨l.Nfile + 1, l.N_bg_file_g_post + 1, l.N_bg_file_g + 1⟩ := by
  rw [missing, if_neg (by omega)]
  rfl

-- At the limit with r files still to add, the loop goes back to file r + 2 and
-- asks for nbacktoadd - r - 2 more.
theorem missing_wraps (l : BackgroundLoop) (full : (limit : Int) ≤ l.N_bg_file_g + 1) :
    l.missing limit nbacktoadd = ⟨l.remaining + 2, nbacktoadd, 0⟩ := by
  rw [missing, if_pos full, remaining, next]
  congr 1
  dsimp only
  omega

end

-- The files numbered from g on that open, n numbers in all.
def openFiles (opens : Int → Bool) (g : Int) : Nat → List Int
  | 0 => []
  | n + 1 => if opens g then g :: openFiles opens (g + 1) n else openFiles opens (g + 1) n

theorem open_files_length (opens : Int → Bool) (g : Int) (n : Nat) : (openFiles opens g n).length ≤ n := by
  induction n generalizing g with
  | zero => exact Nat.le_refl 0
  | succ n ih =>
      rw [openFiles]
      have rest := ih (g + 1)
      split
      · rw [List.length_cons]
        omega
      · omega

theorem mem_open_files (opens : Int → Bool) (g file : Int) (n : Nat) :
    file ∈ openFiles opens g n ↔ opens file = true ∧ g ≤ file ∧ file < g + n := by
  induction n generalizing g with
  | zero => simp [openFiles]
  | succ n ih =>
      rw [openFiles]
      split
      · rename_i opened
        rw [List.mem_cons, ih]
        constructor
        · rintro (rfl | ⟨found, low, high⟩)
          · exact ⟨opened, by omega, by omega⟩
          · exact ⟨found, by omega, by omega⟩
        · rintro ⟨found, low, high⟩
          by_cases same : file = g
          · exact .inl same
          · exact .inr ⟨found, by omega, by omega⟩
      · rename_i closed
        rw [ih]
        constructor
        · rintro ⟨found, low, high⟩
          exact ⟨found, by omega, by omega⟩
        · rintro ⟨found, low, high⟩
          have different : file ≠ g := fun same => closed (same ▸ found)
          exact ⟨found, by omega, by omega⟩

theorem open_files_all (opens : Int → Bool) (g : Int) (n : Nat) (all : ∀ file, g ≤ file → file < g + n → opens file = true) :
    openFiles opens g n = (List.range n).map (fun i : Nat => g + i) := by
  induction n generalizing g with
  | zero => rfl
  | succ n ih =>
      rw [openFiles, if_pos (all g (by omega) (by omega)), List.range_succ_eq_map, List.map_cons, List.map_map,
        ih (g + 1) (fun file low high => all file (by omega) (by omega))]
      have shifted : ∀ i : Nat, g + 1 + (i : Int) = g + (i + 1 : Nat) := fun i => by omega
      simp [Function.comp_def, shifted]

-- Away from the limit the loop opens the next files there are, up to the last
-- one it needs.
theorem background_loop_from (opens : Int → Bool) (limit nbacktoadd n : Nat) (g file post : Int)
    (last : n = 0 ∨ opens (file + n - 1) = true) (needed : post = file + (openFiles opens file n).length)
    (room : g + n < limit + (openFiles opens file n).length) :
    fueled (attempt opens limit nbacktoadd) (n + 1) ⟨file, post, g⟩ =
      some (openFiles opens file n, ⟨file + n, file + n, g + n - (openFiles opens file n).length⟩) := by
  induction n generalizing g file post with
  | zero =>
      rw [fueled_done _ _ _ ((attempt_done _ _ _ _).mpr (by simp [needed, openFiles]))]
      simp [needed, openFiles]
  | succ n ih =>
      have later : n = 0 ∨ opens (file + 1 + n - 1) = true := by
        cases last with
        | inl empty => cases empty
        | inr opened => exact .inr (by rwa [show file + 1 + (n : Int) - 1 = file + (n + 1 : Nat) - 1 by omega])
      have short := open_files_length opens (file + 1) n
      cases opened : opens file with
      | true =>
          rw [openFiles, if_pos opened, List.length_cons] at needed room ⊢
          rw [fueled_step _ _ _ _ _ (attempt_opened opens limit nbacktoadd _ (by simp only; omega) opened), next,
            ih g (file + 1) post later (by omega) (by omega), Option.map_some]
          simp only [List.singleton_append, Option.some.injEq, Prod.mk.injEq, BackgroundLoop.mk.injEq, true_and]
          omega
      | false =>
          have more : 0 < (openFiles opens (file + 1) n).length := by
            refine List.length_pos_of_mem ((mem_open_files opens (file + 1) (file + n) n).mpr ?_)
            cases last with
            | inl empty => cases empty
            | inr found =>
                have top : file + ((n + 1 : Nat) : Int) - 1 = file + n := by omega
                rw [top] at found
                refine ⟨found, ?_, by omega⟩
                by_contra low
                have same : file + n = file := by omega
                rw [same, opened] at found
                cases found
          rw [openFiles, opened, if_neg Bool.false_ne_true] at needed room ⊢
          rw [fueled_step _ _ _ _ _ (attempt_missing opens limit nbacktoadd _ (by simp only; omega) opened),
            missing_below _ _ _ (by simp only; omega), ih (g + 1) (file + 1) (post + 1) later (by omega) (by omega),
            Option.map_some]
          simp only [List.nil_append, Option.some.injEq, Prod.mk.injEq, BackgroundLoop.mk.injEq, true_and]
          omega

theorem background_files_next (opens : Int → Bool) (limit nbacktoadd n fuel : Nat) (g : Int)
    (last : n = 0 ∨ opens (g + n - 1) = true) (counted : (openFiles opens g n).length = nbacktoadd)
    (room : g + n < limit + nbacktoadd) (enough : n < fuel) :
    backgroundFiles opens limit nbacktoadd fuel g = some (openFiles opens g n, ⟨g + n, g + n, g + n - nbacktoadd⟩) := by
  have looped := background_loop_from opens limit nbacktoadd n g g (g + nbacktoadd) last (by omega) (by omega)
  have more := fueled_more _ _ (fuel - (n + 1)) _ _ looped
  rw [counted, show n + 1 + (fuel - (n + 1)) = fuel by omega] at more
  exact more

-- The background files of the next events, and the file the one after starts from.
def backgroundRun (opens : Int → Bool) (limit nbacktoadd fuel : Nat) : Nat → Int → Option (List (List Int) × Int)
  | 0, g => some ([], g)
  | events + 1, g =>
      match backgroundFiles opens limit nbacktoadd fuel g with
      | none => none
      | some (files, l) =>
          (backgroundRun opens limit nbacktoadd fuel events (l.nextFile limit)).map (fun rest => (files :: rest.1, rest.2))

section
variable (opens : Int → Bool) (limit nbacktoadd fuel : Nat)

theorem background_run_cons (events : Nat) (g : Int) (files : List Int) (l : BackgroundLoop)
    (found : backgroundFiles opens limit nbacktoadd fuel g = some (files, l)) :
    backgroundRun opens limit nbacktoadd fuel (events + 1) g =
      (backgroundRun opens limit nbacktoadd fuel events (l.nextFile limit)).map (fun rest => (files :: rest.1, rest.2)) := by
  rw [backgroundRun, found]

theorem background_run_snoc (events : Nat) (g last : Int) (shares : List (List Int)) (files : List Int) (l : BackgroundLoop)
    (ran : backgroundRun opens limit nbacktoadd fuel events g = some (shares, last))
    (found : backgroundFiles opens limit nbacktoadd fuel last = some (files, l)) :
    backgroundRun opens limit nbacktoadd fuel (events + 1) g = some (shares ++ [files], l.nextFile limit) := by
  induction events generalizing g shares with
  | zero =>
      cases ran
      rw [background_run_cons _ _ _ _ _ _ _ _ found]
      rfl
  | succ events ih =>
      rw [backgroundRun] at ran
      cases first : backgroundFiles opens limit nbacktoadd fuel g with
      | none =>
          rw [first] at ran
          cases ran
      | some result =>
          obtain ⟨files', l'⟩ := result
          rw [first] at ran
          obtain ⟨rest, later, same⟩ := Option.map_eq_some_iff.mp ran
          cases same
          rw [background_run_cons _ _ _ _ _ _ _ _ first, ih _ rest.1 later]
          rfl

-- Where the nbacktoadd-th of many open files is.
theorem open_files_split (g : Int) (n : Nat) (many : nbacktoadd ≤ (openFiles opens g n).length) :
    ∃ first ≤ n, (first = 0 ∨ opens (g + first - 1) = true) ∧ (openFiles opens g first).length = nbacktoadd ∧
      openFiles opens g n = openFiles opens g first ++ openFiles opens (g + first) (n - first) := by
  induction n generalizing g nbacktoadd with
  | zero => exact ⟨0, Nat.le_refl 0, .inl rfl, (Nat.le_zero.mp many).symm, rfl⟩
  | succ n ih =>
      cases nbacktoadd with
      | zero => exact ⟨0, Nat.zero_le _, .inl rfl, rfl, by simp [openFiles]⟩
      | succ needed =>
          rw [openFiles] at many
          cases opened : opens g with
          | true =>
              rw [if_pos opened, List.length_cons] at many
              obtain ⟨first, bound, last, counted, split⟩ := ih needed (g + 1) (by omega)
              refine ⟨first + 1, by omega, .inr ?_, ?_, ?_⟩
              · cases last with
                | inl none_more =>
                    rw [none_more]
                    simpa using opened
                | inr found => rwa [show g + ((first + 1 : Nat) : Int) - 1 = g + 1 + first - 1 by omega]
              · rw [openFiles, if_pos opened, List.length_cons, counted]
              · rw [openFiles, openFiles, if_pos opened, if_pos opened, split, List.cons_append,
                  show g + 1 + (first : Int) = g + (first + 1 : Nat) by omega, show n + 1 - (first + 1) = n - first by omega]
          | false =>
              rw [opened, if_neg Bool.false_ne_true] at many
              obtain ⟨first, bound, last, counted, split⟩ := ih (needed + 1) (g + 1) many
              refine ⟨first + 1, by omega, .inr ?_, ?_, ?_⟩
              · cases last with
                | inl none_more =>
                    rw [none_more] at counted
                    cases counted
                | inr found => rwa [show g + ((first + 1 : Nat) : Int) - 1 = g + 1 + first - 1 by omega]
              · rw [openFiles, opened, if_neg Bool.false_ne_true, counted]
              · rw [openFiles, openFiles, opened, if_neg Bool.false_ne_true, if_neg Bool.false_ne_true, split,
                  show g + 1 + (first : Int) = g + (first + 1 : Nat) by omega, show n + 1 - (first + 1) = n - first by omega]

-- Below the limit the events share out the files there are: nbacktoadd to
-- each, every file once, in order.
theorem background_files_shared_out (events n : Nat) (g : Int) (last : n = 0 ∨ opens (g + n - 1) = true)
    (counted : (openFiles opens g n).length = events * nbacktoadd) (below : g + n < limit) (enough : n < fuel) :
    ∃ shares, backgroundRun opens limit nbacktoadd fuel events g = some (shares, g + n) ∧
      shares.flatten = openFiles opens g n ∧ ∀ files ∈ shares, files.length = nbacktoadd := by
  induction events generalizing g n with
  | zero =>
      have empty : n = 0 := by
        cases last with
        | inl none_tried => exact none_tried
        | inr opened =>
            by_contra some_tried
            have member := (mem_open_files opens g (g + n - 1) n).mpr ⟨opened, by omega, by omega⟩
            have positive := List.length_pos_of_mem member
            omega
      subst empty
      exact ⟨[], by simp [backgroundRun], rfl, fun files member => nomatch member⟩
  | succ events ih =>
      have many : nbacktoadd ≤ (openFiles opens g n).length := by
        rw [counted, Nat.succ_mul]
        exact Nat.le_add_left _ _
      obtain ⟨first, bound, first_last, first_count, split⟩ := open_files_split opens nbacktoadd g n many
      have found := background_files_next opens limit nbacktoadd first fuel g first_last first_count (by omega) (by omega)
      have rest_count : (openFiles opens (g + first) (n - first)).length = events * nbacktoadd := by
        have total := congrArg List.length split
        rw [List.length_append, counted, first_count, Nat.succ_mul] at total
        omega
      have rest_last : n - first = 0 ∨ opens (g + first + (n - first : Nat) - 1) = true := by
        by_cases done : n - first = 0
        · exact .inl done
        · cases last with
          | inl none_tried => omega
          | inr opened => exact .inr (by rwa [show g + first + ((n - first : Nat) : Int) - 1 = g + n - 1 by omega])
      obtain ⟨shares, ran, shared, lengths⟩ := ih (n - first) (g + first) rest_last rest_count (by omega) (by omega)
      refine ⟨openFiles opens g first :: shares, ?_, ?_, ?_⟩
      · rw [background_run_cons _ _ _ _ _ _ _ _ found, nextFile, if_neg (by simp only; omega), ran, Option.map_some,
          show g + (first : Int) + (n - first : Nat) = g + n by omega]
      · rw [List.flatten_cons, shared, split]
      · intro files member
        cases member with
        | head => exact first_count
        | tail _ later => exact lengths files later

omit opens fuel in
theorem next_file_mod (g : Nat) (inside : g + nbacktoadd ≤ limit) :
    (if (limit : Int) ≤ g + nbacktoadd then (0 : Int) else g + nbacktoadd) = ((g + nbacktoadd) % limit : Nat) := by
  by_cases round : g + nbacktoadd = limit
  · rw [if_pos (by omega), round, Nat.mod_self]
    rfl
  · rw [if_neg (by omega), Nat.mod_eq_of_lt (by omega)]
    omega

theorem background_files_shared_out_sparse :
    ∃ shares : List (List Int), backgroundRun (fun file => file % 2 = 0) 1000 2 8 2 0 = some (shares, (0 : Int) + (7 : Nat)) ∧
      shares.flatten = openFiles (fun file => file % 2 = 0) 0 7 ∧ ∀ files ∈ shares, files.length = 2 :=
  background_files_shared_out (fun file => file % 2 = 0) 1000 2 8 2 7 0 (.inr (by decide)) (by decide) (by decide) (by decide)

-- With every file below the limit there, and a limit that is a multiple of
-- nbacktoadd, the events go round the files.
theorem background_files_rotate (positive : 0 < nbacktoadd) (divides : nbacktoadd ∣ limit) (limited : 0 < limit)
    (all : ∀ file : Int, 0 ≤ file → file < limit → opens file = true) (enough : nbacktoadd < fuel) (events k : Nat) :
    backgroundRun opens limit nbacktoadd fuel events (k * nbacktoadd % limit : Nat) =
      some ((List.range events).map (fun j => (List.range nbacktoadd).map (fun i => (((k + j) * nbacktoadd % limit + i : Nat) : Int))),
        (((k + events) * nbacktoadd % limit : Nat) : Int)) := by
  induction events generalizing k with
  | zero => rfl
  | succ events ih =>
      obtain ⟨rounds, whole⟩ := divides
      have aligned : k * nbacktoadd % limit = (k % rounds) * nbacktoadd := by
        rw [whole, Nat.mul_comm nbacktoadd rounds, Nat.mul_mod_mul_right]
      have some_rounds : 0 < rounds := by
        by_contra none_left
        rw [whole, Nat.eq_zero_of_not_pos none_left] at limited
        exact absurd limited (Nat.lt_irrefl 0)
      have inside : k * nbacktoadd % limit + nbacktoadd ≤ limit := by
        have bound := Nat.mul_le_mul_right nbacktoadd (Nat.succ_le_of_lt (Nat.mod_lt k some_rounds))
        rw [aligned, whole, Nat.mul_comm nbacktoadd rounds]
        rw [Nat.succ_mul] at bound
        exact bound
      have opened := open_files_all opens (k * nbacktoadd % limit : Nat) nbacktoadd
        (fun file low high => all file (by omega) (by omega))
      have found := background_files_next opens limit nbacktoadd nbacktoadd fuel (k * nbacktoadd % limit : Nat)
        (.inr (all _ (by omega) (by omega))) (by rw [opened, List.length_map, List.length_range]) (by omega) enough
      have moved : (k + 1) * nbacktoadd % limit = (k * nbacktoadd % limit + nbacktoadd) % limit := by
        rw [Nat.succ_mul, Nat.mod_add_mod]
      have advanced := next_file_mod limit nbacktoadd _ inside
      rw [← moved] at advanced
      rw [background_run_cons _ _ _ _ _ _ _ _ found, nextFile, advanced, ih (k + 1), opened, List.range_succ_eq_map, Option.map_some]
      simp [Function.comp_def, Nat.add_assoc, Nat.add_comm 1]

theorem background_files_rotate_pairs :
    backgroundRun (fun file => decide (0 ≤ file ∧ file < 4)) 4 2 3 3 (1 * 2 % 4 : Nat) =
      some ((List.range 3).map (fun j => (List.range 2).map (fun i => (((1 + j) * 2 % 4 + i : Nat) : Int))),
        (((1 + 3) * 2 % 4 : Nat) : Int)) :=
  background_files_rotate (fun file => decide (0 ≤ file ∧ file < 4)) 4 2 3 (by decide) (by decide) (by decide)
    (fun _ low high => decide_eq_true ⟨low, high⟩) (by decide) 3 1

-- At most three files to an event: the loop is over at the latest when it
-- reaches the limit.
theorem background_loop_ends (few : nbacktoadd ≤ 3) (g : Int) (below : g < limit) :
    ∃ result, backgroundFiles opens limit nbacktoadd (nbacktoadd + (limit - g).toNat + 1) g = some result := by
  refine fueled_ends _ (fun l : BackgroundLoop => l.N_bg_file_g < limit ∨ l.remaining ≤ 0)
    (fun l : BackgroundLoop => l.remaining.toNat + (if l.remaining ≤ 0 then 0 else (limit - l.N_bg_file_g).toNat)) ?_ _ _ (.inl below) ?_
  · intro l out l' room passed
    obtain ⟨more, moved⟩ := attempt_cases opens limit nbacktoadd l l' out passed
    have some_left : 0 < l.remaining := by
      rw [remaining]
      omega
    have started : l.N_bg_file_g < limit := room.resolve_right (by omega)
    cases moved with
    | inl opened =>
        obtain ⟨_, _, rfl⟩ := opened
        have left : l.next.remaining = l.remaining - 1 := by
          simp only [remaining, next]
          omega
        refine ⟨.inl started, ?_⟩
        rw [left, if_neg (show ¬ l.remaining ≤ 0 by omega), next]
        dsimp only
        split <;> omega
    | inr missed =>
        obtain ⟨_, _, rfl⟩ := missed
        by_cases full : (limit : Int) ≤ l.N_bg_file_g + 1
        · have left : (l.missing limit nbacktoadd).remaining ≤ 0 := by
            rw [missing_wraps _ _ _ full, remaining]
            dsimp only
            omega
          refine ⟨.inr left, ?_⟩
          rw [if_pos left, if_neg (show ¬ l.remaining ≤ 0 by omega)]
          omega
        · rw [missing_below _ _ _ (by omega)]
          have left : remaining ⟨l.Nfile + 1, l.N_bg_file_g_post + 1, l.N_bg_file_g + 1⟩ = l.remaining := by
            simp only [remaining]
            omega
          refine ⟨.inl (by dsimp only; omega), ?_⟩
          simp only [left, if_neg (not_le.mpr some_left)]
          omega
  · have left : (start nbacktoadd g).remaining = nbacktoadd := by
      simp only [remaining, start]
      omega
    rw [left, start]
    dsimp only
    split <;> omega

-- More than three, and only the files 0, 1 and 2 there: they are added first,
-- and from then on the loop goes round between file 3 and file nbacktoadd - 1.
def Stuck (l : BackgroundLoop) : Prop :=
  l.N_bg_file_g < limit ∧
    (3 ≤ l.Nfile ∧ 1 ≤ l.remaining ∧ l.remaining + 3 ≤ nbacktoadd ∨ 0 ≤ l.Nfile ∧ l.Nfile < 3 ∧ l.remaining + l.Nfile = nbacktoadd)

theorem background_loop_stuck (many : 3 < nbacktoadd) (limited : 0 < limit) :
    backgroundFiles (fun file => decide (0 ≤ file ∧ file < 3)) limit nbacktoadd fuel 0 = none := by
  refine fueled_diverges _ (Stuck limit nbacktoadd) ?_ fuel _ ⟨by simp only [start]; omega, .inr ?_⟩
  · rintro l ⟨started, place⟩
    cases place with
    | inl outside =>
        obtain ⟨file, left, most⟩ := outside
        refine ⟨[], _, attempt_missing _ _ _ l ?_ (decide_eq_false (by omega)), ?_⟩
        · rw [remaining] at left
          omega
        · by_cases full : (limit : Int) ≤ l.N_bg_file_g + 1
          · rw [missing_wraps _ _ _ full, Stuck]
            simp only [remaining] at left most ⊢
            omega
          · rw [missing_below _ _ _ (by omega), Stuck]
            simp only [remaining] at left most ⊢
            omega
    | inr inside =>
        obtain ⟨low, high, whole⟩ := inside
        refine ⟨[l.Nfile], _, attempt_opened _ _ _ l ?_ (decide_eq_true ⟨low, high⟩), ?_⟩
        · rw [remaining] at whole
          omega
        · simp only [Stuck, next, remaining] at whole ⊢
          omega
  · simp only [start, remaining]
    omega

end

end Solgem

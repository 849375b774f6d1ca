import Solgem.Lib.Lines

set_option autoImplicit false

namespace Solgem

open Lib

-- std::ifstream on an open file: the text, what is left to read of it, and
-- the two state bits.
structure IFStream where
  content : List Char
  rest : List Char
  eofbit : Bool
  failbit : Bool

namespace IFStream

def opened (content : List Char) : IFStream := ⟨content, content, false, false⟩

-- seekg clears the eofbit and does nothing more to a stream that has failed.
def seekg (inp : IFStream) : IFStream :=
  if inp.failbit then { inp with eofbit := false } else { inp with rest := inp.content, eofbit := false }

def getline (inp : IFStream) : Option (List Char) × IFStream :=
  if inp.eofbit || inp.failbit then (none, { inp with failbit := true })
  else
    match inp.rest.dropWhile (fun c => decide (c ≠ '\n')) with
    | _ :: after => (some (inp.rest.takeWhile (fun c => decide (c ≠ '\n'))), { inp with rest := after })
    | [] =>
        if inp.rest = [] then (none, { inp with eofbit := true, failbit := true })
        else (some inp.rest, { inp with rest := [], eofbit := true })

def lines (inp : IFStream) : List (List Char) := segments '\n' inp.content

theorem getline_shorter (inp inp' : IFStream) (line : List Char) (read : inp.getline = (some line, inp')) :
    inp'.rest.length < inp.rest.length := by
  rw [getline] at read
  split at read
  · cases read
  · split at read
    · rename_i after found
      cases read
      exact drop_while_shorter _ _ _ _ found
    · split at read
      · cases read
      · rename_i more
        cases read
        exact List.length_pos_iff.mpr more

-- A stream that no read has failed on yet.
structure Readable (inp : IFStream) : Prop where
  good : inp.failbit = false
  ended : inp.eofbit = true → inp.rest = []

theorem readable_seekg (inp : IFStream) (good : inp.failbit = false) : Readable inp.seekg ∧ inp.seekg.rest = inp.content := by
  rw [seekg, if_neg (by rw [good]; exact Bool.false_ne_true)]
  exact ⟨⟨good, fun eof => by cases eof⟩, rfl⟩

theorem getline_cases (inp : IFStream) (readable : Readable inp) :
    (segments '\n' inp.rest = [] ∧ inp.getline.1 = none ∧ inp.getline.2.failbit = true ∧
      inp.getline.2.content = inp.content) ∨
    ∃ line inp', inp.getline = (some line, inp') ∧ segments '\n' inp.rest = line :: segments '\n' inp'.rest ∧
      Readable inp' ∧ inp'.content = inp.content := by
  by_cases eof : inp.eofbit = true
  · have nothing : inp.rest = [] := readable.ended eof
    have stopped : inp.getline = (none, { inp with failbit := true }) := by rw [getline, eof, Bool.true_or, if_pos rfl]
    exact .inl ⟨by rw [nothing]; rfl, by rw [stopped], by rw [stopped], by rw [stopped]⟩
  · have more : (inp.eofbit || inp.failbit) = false := by rw [Bool.eq_false_iff.mpr eof, readable.good, Bool.or_false]
    have step := segments_step '\n' inp.rest
    rw [getline, more, if_neg Bool.false_ne_true]
    cases found : inp.rest.dropWhile (fun c => decide (c ≠ '\n')) with
    | cons mark after =>
        rw [found] at step
        exact .inr ⟨_, _, rfl, step, ⟨readable.good, fun set => absurd set eof⟩, rfl⟩
    | nil =>
        rw [found] at step
        dsimp only at step ⊢
        by_cases nothing : inp.rest = []
        · rw [if_pos nothing] at step ⊢
          exact .inl ⟨step, rfl, rfl, rfl⟩
        · rw [if_neg nothing] at step ⊢
          exact .inr ⟨_, _, rfl, step, ⟨readable.good, fun _ => rfl⟩, rfl⟩

end IFStream

def isSep (c : Char) : Bool := c = ' ' || c = '\t' || c = '='

def valueText (n : Nat) (line : List Char) : List Char := (line.drop n).dropWhile isSep

def matchesKey (key line : List Char) : Bool := decide (key.length < line.length ∧ line.take key.length = key)

-- The body of the loop in FindKey: a line that is passed over has no answer;
-- the break gives the empty string, which is the text past the last separator.
def lineValue (key line : List Char) : Option (List Char) :=
  if line.length ≤ key.length then none
  else if line.take key.length = key then some (valueText key.length line)
  else none

def findKeyLoop (key : List Char) (inp : IFStream) : List Char × IFStream :=
  match _read : inp.getline with
  | (none, inp') => ([], inp')
  | (some line, inp') =>
      match lineValue key line with
      | some value => (value, inp')
      | none => findKeyLoop key inp'
termination_by inp.rest.length
decreasing_by exact IFStream.getline_shorter inp inp' line _read

def findKey (inp : IFStream) (key : List Char) : List Char × IFStream := findKeyLoop key inp.seekg

-- The answer for the lines of a file, and whether a line has stopped the search.
def searchLines (key : List Char) (lines : List (List Char)) : Option (List Char) := lines.findSome? (lineValue key)

theorem find_key_loop_lines (key : List Char) (inp : IFStream) (readable : inp.Readable) :
    (findKeyLoop key inp).1 = (searchLines key (segments '\n' inp.rest)).getD [] ∧
      (findKeyLoop key inp).2.failbit = (searchLines key (segments '\n' inp.rest)).isNone ∧
      (findKeyLoop key inp).2.content = inp.content := by
  induction size : inp.rest.length using Nat.strongRecOn generalizing inp with
  | ind n ih =>
      rw [findKeyLoop]
      cases IFStream.getline_cases inp readable with
      | inl last =>
          obtain ⟨nothing, stopped, failed, same⟩ := last
          split
          · rename_i read
            rw [read] at failed same
            rw [nothing]
            exact ⟨rfl, failed, same⟩
          · rename_i read
            rw [read] at stopped
            cases stopped
      | inr next =>
          obtain ⟨line, inp', read, listed, later, same⟩ := next
          split
          · rename_i none
            rw [read] at none
            cases none
          · rename_i read'
            rw [read] at read'
            cases read'
            rw [listed, searchLines, List.findSome?_cons]
            cases lineValue key line with
            | some value => exact ⟨rfl, later.good, same⟩
            | none =>
                obtain ⟨value, failed, kept⟩ := ih _ (size ▸ IFStream.getline_shorter inp inp' line read) inp' later rfl
                exact ⟨value, failed, kept.trans same⟩

-- What a search leaves: its answer is that of the lines, and it fails the
-- stream when it runs to the end.
theorem find_key_lines (inp : IFStream) (key : List Char) (good : inp.failbit = false) :
    (findKey inp key).1 = (searchLines key inp.lines).getD [] ∧
      (findKey inp key).2.failbit = (searchLines key inp.lines).isNone ∧ (findKey inp key).2.content = inp.content := by
  obtain ⟨readable, start⟩ := IFStream.readable_seekg inp good
  obtain ⟨value, failed, same⟩ := find_key_loop_lines key inp.seekg readable
  rw [start] at value failed
  refine ⟨value, failed, same.trans ?_⟩
  rw [IFStream.seekg]
  split <;> rfl

theorem find_key_failed (inp : IFStream) (key : List Char) (failed : inp.failbit = true) :
    (findKey inp key).1 = [] ∧ (findKey inp key).2.failbit = true := by
  have read : inp.seekg.getline = (none, { inp with eofbit := false, failbit := true }) := by
    rw [IFStream.seekg, if_pos failed, IFStream.getline]
    simp [failed]
  rw [findKey, findKeyLoop]
  split
  · rename_i inp' read'
    rw [read] at read'
    cases read'
    exact ⟨rfl, rfl⟩
  · rename_i read'
    rw [read] at read'
    cases read'

def keyField (line : List Char) : List Char := line.takeWhile (fun c => !isSep c)

def exactLines (key : List Char) (lines : List (List Char)) : List (List Char) :=
  lines.filter (fun line => decide (keyField line = key))

def exactValue (key : List Char) (lines : List (List Char)) : List Char :=
  ((exactLines key lines).head?.map (valueText key.length)).getD []

-- The first line that is longer than the key and starts with it: the key field
-- of that line is the key, and no line before it is the bare key unless the
-- value is empty anyway; or the text after the key in that other line happens
-- to be the value.
def Unshadowed (key : List Char) (lines : List (List Char)) : Prop :=
  ∀ line ∈ lines.find? (matchesKey key),
    if keyField line = key then key ∈ lines.takeWhile (fun l => !matchesKey key l) → valueText key.length line = []
    else valueText key.length line = exactValue key lines

instance decidable_unshadowed (key : List Char) (lines : List (List Char)) : Decidable (Unshadowed key lines) :=
  inferInstanceAs (Decidable (∀ line ∈ lines.find? (matchesKey key),
    if keyField line = key then key ∈ lines.takeWhile (fun l => !matchesKey key l) → valueText key.length line = []
    else valueText key.length line = exactValue key lines))

theorem search_lines_eq (key : List Char) (lines : List (List Char)) :
    searchLines key lines = (lines.find? (matchesKey key)).map (valueText key.length) := by
  apply find_some_of_find
  intro line
  rw [lineValue, matchesKey]
  by_cases short : line.length ≤ key.length
  · rw [if_pos short, decide_eq_false (fun both => absurd both.1 (Nat.not_lt.mpr short)), if_neg Bool.false_ne_true]
  · rw [if_neg short]
    by_cases starts : line.take key.length = key
    · rw [if_pos starts, decide_eq_true ⟨Nat.not_le.mp short, starts⟩, if_pos rfl]
    · rw [if_neg starts, decide_eq_false (fun both => starts both.2), if_neg Bool.false_ne_true]

theorem exact_line_cases (key line : List Char) (exactly : keyField line = key) :
    line = key ∨ matchesKey key line = true := by
  have starts : line.take key.length = key := by
    have pfx : key <+: line := exactly ▸ List.takeWhile_prefix _
    exact (List.prefix_iff_eq_take.mp pfx).symm
  by_cases long : key.length < line.length
  · exact .inr (decide_eq_true ⟨long, starts⟩)
  · rw [List.take_of_length_le (Nat.not_lt.mp long)] at starts
    exact .inl starts

theorem bare_value (key : List Char) : valueText key.length key = [] := by
  rw [valueText, List.drop_length, List.dropWhile_nil]

theorem key_field_twice (line : List Char) : keyField (keyField line) = keyField line := by
  rw [keyField, keyField, List.takeWhile_eq_self_iff]
  exact fun c member => List.mem_takeWhile_imp (p := fun c => !isSep c) member

theorem exact_value_without (key : List Char) (lines : List (List Char)) (unmatched : ∀ line ∈ lines, matchesKey key line = false) :
    exactValue key lines = [] := by
  rw [exactValue]
  cases first : (exactLines key lines).head? with
  | none => rfl
  | some line =>
      obtain ⟨listed, exactly⟩ := List.mem_filter.mp (List.mem_of_mem_head? first)
      cases exact_line_cases key line (of_decide_eq_true exactly) with
      | inl bare => rw [bare, Option.map_some, Option.getD_some, bare_value]
      | inr matched =>
          rw [unmatched line listed] at matched
          cases matched

-- The lines before the one the search stops at have the key only as bare keys.
theorem exact_value_split (key line : List Char) (before after : List (List Char))
    (unmatched : ∀ l ∈ before, matchesKey key l = false) (exactly : keyField line = key) :
    exactValue key (before ++ line :: after) = if key ∈ before then [] else valueText key.length line := by
  by_cases bare : key ∈ before
  · have field : keyField key = key := by rw [← exactly, key_field_twice]
    have member : key ∈ exactLines key before := List.mem_filter.mpr ⟨bare, decide_eq_true field⟩
    have early := exact_value_without key before unmatched
    rw [if_pos bare, ← early, exactValue, exactLines, List.filter_append, exactValue, ← exactLines]
    cases listed : exactLines key before with
    | nil =>
        rw [listed] at member
        cases member
    | cons first rest => rfl
  · have nothing : exactLines key before = [] := by
      rw [exactLines, List.filter_eq_nil_iff]
      intro l member exactly'
      cases exact_line_cases key l (of_decide_eq_true exactly') with
      | inl same => exact bare (same ▸ member)
      | inr matched =>
          rw [unmatched l member] at matched
          cases matched
    rw [if_neg bare, exactValue, exactLines, List.filter_append, ← exactLines, nothing, List.nil_append,
      List.filter_cons, if_pos (decide_eq_true exactly)]
    rfl

theorem search_exact_iff (key : List Char) (lines : List (List Char)) :
    (searchLines key lines).getD [] = exactValue key lines ↔ Unshadowed key lines := by
  rw [search_lines_eq]
  cases found : lines.find? (matchesKey key) with
  | none =>
      have unmatched : ∀ line ∈ lines, matchesKey key line = false := by
        intro line member
        exact Bool.eq_false_iff.mpr (List.find?_eq_none.mp found line member)
      rw [exact_value_without key lines unmatched]
      refine iff_of_true rfl (fun line found' => ?_)
      rw [found] at found'
      cases found'
  | some line =>
      obtain ⟨matched, before, after, split, unmatched⟩ := List.find?_eq_some_iff_append.mp found
      have skipped : ∀ l ∈ before, matchesKey key l = false := fun l member => by simpa using unmatched l member
      have prefixed : lines.takeWhile (fun l => !matchesKey key l) = before := by
        rw [split, List.takeWhile_append_of_pos (fun l member => by rw [skipped l member]; rfl),
          List.takeWhile_cons_of_neg (by rw [matched]; exact Bool.false_ne_true), List.append_nil]
      have unfolded : Unshadowed key lines ↔ if keyField line = key then key ∈ before → valueText key.length line = []
          else valueText key.length line = exactValue key lines := by
        rw [Unshadowed, found, prefixed]
        exact ⟨fun all => all line rfl, fun one l same => by cases same; exact one⟩
      rw [unfolded, Option.map_some, Option.getD_some]
      by_cases exactly : keyField line = key
      · have value := exact_value_split key line before after skipped exactly
        rw [← split] at value
        rw [if_pos exactly, value]
        by_cases bare : key ∈ before
        · rw [if_pos bare]
          exact ⟨fun same _ => same, fun same => same bare⟩
        · rw [if_neg bare]
          exact iff_of_true rfl (fun member => absurd member bare)
      · rw [if_neg exactly]

-- FindKey against the first line with exactly the key, on any stream; and two
-- files with the same lines for the key give the same answer where it holds.
theorem find_key_exact_iff (inp inp' : IFStream) (key : List Char) :
    ((findKey inp key).1 = exactValue key inp.lines ↔
      if inp.failbit then exactValue key inp.lines = [] else Unshadowed key inp.lines) ∧
    (inp.failbit = false → inp'.failbit = false → exactLines key inp.lines = exactLines key inp'.lines →
      Unshadowed key inp.lines → Unshadowed key inp'.lines → (findKey inp key).1 = (findKey inp' key).1) := by
  have single : ∀ inp : IFStream, (findKey inp key).1 = exactValue key inp.lines ↔
      if inp.failbit then exactValue key inp.lines = [] else Unshadowed key inp.lines := by
    intro inp
    cases good : inp.failbit with
    | true =>
        rw [(find_key_failed inp key good).1, if_pos rfl]
        exact eq_comm
    | false =>
        rw [(find_key_lines inp key good).1, if_neg Bool.false_ne_true]
        exact search_exact_iff key inp.lines
  refine ⟨single inp, fun good good' same clear clear' => ?_⟩
  have first := (single inp).mpr (by rw [good, if_neg Bool.false_ne_true]; exact clear)
  have second := (single inp').mpr (by rw [good', if_neg Bool.false_ne_true]; exact clear')
  rw [first, second, exactValue, exactValue, same]

theorem other_key_moved :
    (findKey (.opened "dx = 5\ndy = 2\n".toList) "dx".toList).1 = (findKey (.opened "dy = 2\ndx = 5\n".toList) "dx".toList).1 :=
  (find_key_exact_iff _ _ _).2 rfl rfl (by decide) (by decide) (by decide)

-- The line of another key that starts with the requested one is taken for it.
theorem longer_key_taken :
    (findKey (.opened "dxx = 5\ndx = 1\n".toList) "dx".toList).1 = "x = 5".toList ∧
      exactValue "dx".toList (IFStream.opened "dxx = 5\ndx = 1\n".toList).lines = "1".toList ∧
      (findKey (.opened "dx = 1\n".toList) "dx".toList).1 = "1".toList := by
  refine ⟨?_, by decide, ?_⟩
  · rw [(find_key_lines _ _ rfl).1]
    decide
  · rw [(find_key_lines _ _ rfl).1]
    decide

end Solgem

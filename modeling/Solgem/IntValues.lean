import Solgem.LoadDB

set_option autoImplicit false

namespace Solgem

open Lib

def isBlank (c : Char) : Prop := c = ' ' ∨ c = '\t'

theorem blank_space (c : Char) (blank : isBlank c) : isSpace c = true ∧ c.isDigit = false := by
  cases blank with
  | inl same => subst same; decide
  | inr same => subst same; decide

-- The texts that write a list of integers with blanks between them.
inductive ListText : List Int → List Char → Prop where
  | last (n : Int) (w : List Char) (spelled : Spells w n) : ListText [n] w
  | next (n : Int) (w gap : List Char) (ns : List Int) (text : List Char) (spelled : Spells w n) (some_blanks : gap ≠ [])
      (blanks : ∀ c ∈ gap, isBlank c) (rest : ListText ns text) : ListText (n :: ns) (w ++ (gap ++ text))

theorem spaces_of_blanks (text : List Char) (blanks : ∀ c ∈ text, isBlank c) : ∀ c ∈ text, isSpace c = true :=
  fun c member => (blank_space c (blanks c member)).1

theorem head_of_blanks (text rest : List Char) (some_blanks : text ≠ []) (blanks : ∀ c ∈ text, isBlank c) :
    ∀ c ∈ (text ++ rest).head?, c.isDigit = false := by
  cases text with
  | nil => exact absurd rfl some_blanks
  | cons b later =>
      intro c first
      cases first
      exact (blank_space b (blanks b (List.mem_cons_self ..))).2

theorem next_int_v (sv sv' : IStringStream) (tempval n : Int) (vec : List Int) (good : sv.good = true)
    (read : sv.readInt tempval = (n, sv')) : readIntV sv tempval vec = readIntV sv' n (vec ++ [n]) := by
  rw [read_int_v_test, if_pos good, read]

theorem stopped_int_v (rest : List Char) (fails : Bool) (tempval : Int) (vec : List Int) :
    readIntV ⟨rest, true, fails⟩ tempval vec = (vec, ⟨rest, true, fails⟩) := by
  rw [read_int_v_test, if_neg (by simp [IStringStream.good])]

-- Reading a list: to its end when the last number closes the text; blanks
-- after it lead to one more read that fails and repeats the last number.
theorem read_int_v_list (xs : List Int) (text trailing : List Char) (listed : ListText xs text)
    (range : ∀ x ∈ xs, -2147483648 ≤ x ∧ x ≤ 2147483647) (blanks : ∀ c ∈ trailing, isBlank c) (lead : List Char)
    (spaces : ∀ c ∈ lead, isBlank c) (tempval : Int) (vec : List Int) :
    readIntV (IStringStream.opened (lead ++ (text ++ trailing))) tempval vec =
      if trailing = [] then (vec ++ xs, ⟨[], true, false⟩) else (vec ++ (xs ++ [xs.getLastD tempval]), ⟨[], true, true⟩) := by
  induction listed generalizing lead tempval vec with
  | last n w spelled =>
      obtain ⟨low, high⟩ := range n (List.mem_singleton_self n)
      by_cases closed : trailing = []
      · subst closed
        have read := read_int_spelled lead w [] n tempval (spaces_of_blanks lead spaces) spelled (fun c first => (by cases first)) low high
        rw [next_int_v _ _ tempval n vec rfl read, if_pos rfl]
        exact stopped_int_v [] false n (vec ++ [n])
      · have stop := head_of_blanks trailing [] closed blanks
        rw [List.append_nil] at stop
        have read := read_int_spelled lead w trailing n tempval (spaces_of_blanks lead spaces) spelled stop low high
        have nothing : trailing.dropWhile isSpace = [] := List.dropWhile_eq_nil_iff.mpr (spaces_of_blanks trailing blanks)
        have fails : IStringStream.readInt ⟨trailing, false, false⟩ n = (n, ⟨[], true, true⟩) :=
          (IStringStream.read_int_text _ n rfl).trans (if_pos nothing)
        rw [decide_eq_false closed] at read
        rw [next_int_v _ _ tempval n vec rfl read, next_int_v _ _ n n (vec ++ [n]) rfl fails, stopped_int_v, if_neg closed,
          List.append_assoc]
        rfl
  | next n w gap ns text' spelled some_blanks between rest ih =>
      obtain ⟨low, high⟩ := range n (List.mem_cons_self ..)
      have stop := head_of_blanks gap (text' ++ trailing) some_blanks between
      have more : gap ++ (text' ++ trailing) ≠ [] := fun nothing => some_blanks (List.append_eq_nil_iff.mp nothing).1
      have read := read_int_spelled lead w (gap ++ (text' ++ trailing)) n tempval (spaces_of_blanks lead spaces) spelled stop low high
      have later := ih (fun x member => range x (List.mem_cons_of_mem n member)) gap between n (vec ++ [n])
      rw [decide_eq_false more] at read
      rw [List.append_assoc, List.append_assoc, next_int_v _ _ tempval n vec rfl read]
      refine later.trans ?_
      by_cases closed : trailing = []
      · rw [if_pos closed, if_pos closed, List.append_assoc]
        rfl
      · rw [if_neg closed, if_neg closed, List.append_assoc]
        cases rest <;> rfl

theorem list_text_start (xs : List Int) (text : List Char) (listed : ListText xs text) : text ≠ [] := by
  have filled : ∀ (w : List Char) (n : Int) (after : List Char), Spells w n → w ++ after ≠ [] := by
    intro w n after spelled
    obtain ⟨c, rest, start, _⟩ := spelled_start w n spelled after
    rw [start]
    exact List.cons_ne_nil c rest
  cases listed with
  | last n w spelled => simpa using filled text n [] spelled
  | next n w gap ns rest spelled => exact filled w n _ spelled

section
variable {F : Type} [Arith F] (tempval : DBRequest → Int) (pfx : String)

theorem list_value (item : DBRequest) (vector : item.type = .kIntV) (lines : List (List Char)) (xs : List Int)
    (text trailing : List Char) (listed : ListText xs text) (range : ∀ x ∈ xs, -2147483648 ≤ x ∧ x ≤ 2147483647)
    (blanks : ∀ c ∈ trailing, isBlank c) (line : fileText lines pfx item = text ++ trailing) :
    (fileValue tempval lines pfx item : Option (Value F)) = if trailing = [] then some (.intV xs) else none := by
  have filled : fileText lines pfx item ≠ [] := by
    rw [line]
    exact fun nothing => list_text_start xs text listed (List.append_eq_nil_iff.mp nothing).1
  have read := read_int_v_list xs text trailing listed range blanks [] (fun c member => (by cases member)) (tempval item) []
  rw [List.nil_append] at read
  rw [fileValue, if_neg filled, line, vector]
  simp only [readValue]
  rw [read]
  by_cases closed : trailing = []
  · rw [if_pos closed, if_pos closed]
    rfl
  · rw [if_neg closed, if_neg closed]
    rfl

theorem assign_other (type : VarType) (other : type ≠ .kIntV) (start : Int) (val : List Char) (v : Value F)
    (read : readValue type start val = some v) (vars : Vars F) (var : String) : (vars.assign var v).intVs = vars.intVs := by
  cases type with
  | kDouble => rw [(successful_cases _ _).1 v read |>.1]; rfl
  | kInt => rw [(successful_cases _ _).1 v read |>.1]; rfl
  | kIntV => exact absurd rfl other
  | kString => rw [(successful_cases _ _).1 v read |>.1]; rfl
  | kOther => cases read

theorem stored_others (lines : List (List Char)) (request : List DBRequest) (others : ∀ item ∈ request, item.type ≠ .kIntV)
    (vars : Vars F) : (stored tempval lines pfx request vars).intVs = vars.intVs := by
  induction request generalizing vars with
  | nil => rfl
  | cons item rest ih =>
      rw [stored, List.foldl_cons]
      refine (ih (fun item' member => others item' (List.mem_cons_of_mem item member)) _).trans ?_
      cases value : (fileValue tempval lines pfx item : Option (Value F)) with
      | none => rfl
      | some v =>
          rw [fileValue] at value
          split at value
          · cases value
          · exact assign_other item.type (others item (List.mem_cons_self ..)) (tempval item) _ v value vars item.var

theorem stored_list (lines : List (List Char)) (before after : List DBRequest) (item : DBRequest) (xs : List Int)
    (others : ∀ other ∈ before ++ after, other.type ≠ .kIntV)
    (value : (fileValue tempval lines pfx item : Option (Value F)) = some (.intV xs)) (vars : Vars F) :
    (stored tempval lines pfx (before ++ item :: after) vars).intVs item.var = vars.intVs item.var ++ xs := by
  obtain ⟨early, late⟩ := List.forall_mem_append.mp others
  have first := stored_others tempval pfx lines before early vars
  have last := stored_others tempval pfx lines after late ((stored tempval lines pfx before vars).assign item.var (.intV xs))
  have split : stored tempval lines pfx (before ++ item :: after) vars =
      stored tempval lines pfx after ((stored tempval lines pfx before vars).assign item.var (.intV xs)) := by
    simp only [stored, List.foldl_append, List.foldl_cons, value]
    rfl
  rw [split, last]
  simp [Vars.assign, first]

def nmoduleRequest : DBRequest := ⟨"nmodule", "NModule", .kIntV, false⟩

theorem general_info_lists : ∃ before after, generalInfoRequest = before ++ nmoduleRequest :: after ∧
    ∀ other ∈ before ++ after, other.type ≠ .kIntV :=
  ⟨generalInfoRequest.take 6, generalInfoRequest.drop 7, rfl, by decide⟩

-- The number of planes is compared with the length of the list in the file,
-- when the list is read at all.
theorem general_info_count (inp : IFStream) (good : inp.failbit = false) (xs : List Int)
    (text trailing : List Char) (listed : ListText xs text) (range : ∀ x ∈ xs, -2147483648 ≤ x ∧ x ≤ 2147483647)
    (blanks : ∀ c ∈ trailing, isBlank c) (line : fileText inp.lines "generalinfo." nmoduleRequest = text ++ trailing) (vars : Vars F) :
    (trailing = [] → ∀ info, readGeneralInfo tempval inp vars = some info →
      info.nmodule = xs ∧ ((DBManager.loadGeneralInfo info : Option (DBManager F)).isSome ↔ info.nplane = xs.length)) ∧
    (trailing ≠ [] → readGeneralInfo tempval inp vars = none) := by
  have value := list_value (F := F) tempval "generalinfo." nmoduleRequest rfl inp.lines xs text trailing listed range blanks line
  obtain ⟨before, after, table, others⟩ := general_info_lists
  have loads := load_db_err_iff tempval "generalinfo." generalInfoRequest inp
    { vars with intVs := Function.update vars.intVs "NModule" [] } good
  rw [readGeneralInfo]
  refine ⟨fun closed info read => ?_, fun more => ?_⟩
  · split at read
    · rename_i loaded
      obtain ⟨_, vars', _⟩ := load_db_all tempval "generalinfo." generalInfoRequest inp _ good (loads.mp loaded)
      rw [if_pos closed] at value
      have list := stored_list tempval "generalinfo." inp.lines before after nmoduleRequest xs others value
        { vars with intVs := Function.update vars.intVs "NModule" [] }
      rw [← table, ← vars'] at list
      have counts : info.nmodule = xs := by
        rw [← Option.some.inj read]
        exact list.trans (by simp [nmoduleRequest])
      refine ⟨counts, ?_⟩
      rw [DBManager.loadGeneralInfo, counts]
      split
      · rename_i matched
        exact iff_of_true rfl matched
      · rename_i differs
        exact iff_of_false Bool.false_ne_true differs
    · cases read
  · rw [if_neg more] at value
    refine if_neg (fun loaded => ?_)
    have found := loads.mp loaded nmoduleRequest (by rw [table]; exact List.mem_append_right before (List.mem_cons_self ..))
    rw [value] at found
    cases found

-- A text that lists integers is read back exactly when no blank follows the
-- last number.
theorem int_list_read_iff (item : DBRequest) (vector : item.type = .kIntV) (inp : IFStream) (good : inp.failbit = false)
    (xs : List Int) (text trailing : List Char) (listed : ListText xs text)
    (range : ∀ x ∈ xs, -2147483648 ≤ x ∧ x ≤ 2147483647) (blanks : ∀ c ∈ trailing, isBlank c)
    (line : (findKey inp (requestKey pfx item)).1 = text ++ trailing) (vars : Vars F) :
    ((loadDB tempval pfx [item] inp vars).err = 0 ∧
      (loadDB tempval pfx [item] inp vars).vars.intVs item.var = vars.intVs item.var ++ xs ↔ trailing = []) ∧
    (pfx = "generalinfo." → item = nmoduleRequest →
      (trailing = [] → ∀ info, readGeneralInfo tempval inp vars = some info →
        info.nmodule = xs ∧ ((DBManager.loadGeneralInfo info : Option (DBManager F)).isSome ↔ info.nplane = xs.length)) ∧
      (trailing ≠ [] → readGeneralInfo tempval inp vars = none)) := by
  have file : fileText inp.lines pfx item = text ++ trailing := (find_key_lines inp _ good).1.symm.trans line
  have value := list_value (F := F) tempval pfx item vector inp.lines xs text trailing listed range blanks file
  refine ⟨⟨fun loaded => ?_, fun closed => ?_⟩, fun general nmodule => ?_⟩
  · by_contra more
    rw [if_neg more] at value
    exact load_db_missing tempval pfx [item] inp vars good ⟨item, List.mem_singleton_self item, value⟩ loaded.1
  · rw [if_pos closed] at value
    have all : ∀ other ∈ [item], (fileValue (F := F) tempval inp.lines pfx other).isSome := by
      intro other member
      rw [List.mem_singleton.mp member, value]
      rfl
    obtain ⟨err, vars', _⟩ := load_db_all tempval pfx [item] inp vars good all
    refine ⟨err, ?_⟩
    rw [vars']
    exact stored_list tempval pfx inp.lines [] [] item xs (fun other member => (by cases member)) value vars
  · subst general nmodule
    exact general_info_count tempval inp good xs text trailing listed range blanks file vars

end

theorem two_numbers : ListText [3, -2] "3 \t-2".toList :=
  .next 3 ['3'] [' ', '\t'] [-2] ['-', '2'] (.plain ['3'] (by decide) (List.forall_mem_singleton.mpr rfl)) (by decide) (by simp [isBlank])
    (.last (-2) ['-', '2'] (.minus ['2'] (by decide) (List.forall_mem_singleton.mpr rfl)))

theorem two_numbers_read :
    let vars : Vars ℝ := ⟨fun _ => 0, fun _ => 0, fun _ => [], fun _ => []⟩
    (loadDB (fun _ => 7) "generalinfo." [nmoduleRequest] (.opened "generalinfo.nmodule = 3 \t-2\n".toList) vars).err = 0 := by
  intro vars
  have line : (findKey (.opened "generalinfo.nmodule = 3 \t-2\n".toList) (requestKey "generalinfo." nmoduleRequest)).1 =
      "3 \t-2".toList ++ [] := by
    rw [(find_key_lines _ _ rfl).1]
    decide
  exact ((int_list_read_iff (fun _ => 7) "generalinfo." nmoduleRequest rfl _ rfl [3, -2] _ [] two_numbers (by decide)
    (fun c member => (by cases member)) line vars).1.mpr rfl).1

-- One blank after the last number: the number is appended twice and the load
-- fails.
theorem trailing_blank_fails :
    let vars : Vars ℝ := ⟨fun _ => 0, fun _ => 0, fun _ => [], fun _ => []⟩
    (readIntV (.opened "3 \t-2 ".toList) 7 []).1 = [3, -2, -2] ∧
      (loadDB (fun _ => 7) "generalinfo." [nmoduleRequest] (.opened "generalinfo.nmodule = 3 \t-2 \n".toList) vars).err ≠ 0 := by
  intro vars
  have blanks : ∀ c ∈ [' '], isBlank c := fun c member => .inl (List.mem_singleton.mp member)
  have line : fileText (IFStream.opened "generalinfo.nmodule = 3 \t-2 \n".toList).lines "generalinfo." nmoduleRequest =
      "3 \t-2".toList ++ [' '] := by decide
  have read := read_int_v_list [3, -2] _ [' '] two_numbers (by decide) blanks [] (fun c member => (by cases member)) 7 []
  have value := list_value (F := ℝ) (fun _ => 7) "generalinfo." nmoduleRequest rfl _ [3, -2] _ [' '] two_numbers (by decide)
    blanks line
  refine ⟨congrArg Prod.fst read, ?_⟩
  exact load_db_missing _ _ _ _ vars rfl ⟨nmoduleRequest, List.mem_singleton_self _, value⟩

end Solgem

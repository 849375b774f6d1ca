import Solgem.ShowerProfiles

set_option autoImplicit false

namespace Solgem

open Lib

-- The ways to write a decimal number.
inductive SpellsSign : List Char → Bool → Prop where
  | plain : SpellsSign [] false
  | plus : SpellsSign ['+'] false
  | minus : SpellsSign ['-'] true

inductive SpellsFraction : List Char → List Char → Prop where
  | whole : SpellsFraction [] []
  | point (ds : List Char) (digits : ∀ d ∈ ds, d.isDigit = true) : SpellsFraction ('.' :: ds) ds

inductive SpellsPower : List Char → Int → Prop where
  | plain : SpellsPower [] 0
  | power (mark : Char) (letter : mark = 'e' ∨ mark = 'E') (w : List Char) (n : Int) (spelled : Spells w n) :
      SpellsPower (mark :: w) n

section
variable {F : Type} [Arith F]

def decimalNumber (negative : Bool) (ds : List Char) (e : Int) : F :=
  let x : F := OfScientific.ofScientific (decimalValue ds) (decide (e < 0)) e.natAbs
  if negative then -x else x

inductive SpellsDouble : List Char → F → Prop where
  | number (sign whole point power ds : List Char) (negative : Bool) (exponent : Int) (signed : SpellsSign sign negative)
      (digits : ∀ d ∈ whole, d.isDigit = true) (fraction : SpellsFraction point ds) (scaled : SpellsPower power exponent)
      (some_digits : whole ++ ds ≠ []) :
      SpellsDouble (sign ++ (whole ++ (point ++ power))) (decimalNumber negative (whole ++ ds) (exponent - ds.length))

end

theorem space_not_digit (c : Char) (space : isSpace c = true) : c.isDigit = false := by
  cases digit : c.isDigit with
  | false => rfl
  | true =>
      rw [(digit_plain c digit).2.2] at space
      cases space

theorem space_other (c d : Char) (space : isSpace c = true) (solid : isSpace d = false) : c ≠ d := by
  rintro rfl
  rw [space] at solid
  cases solid

section
variable {F : Type} [Arith F] {after : List Char} (stop : ∀ c ∈ after.head?, isSpace c = true)
include stop

theorem power_head (power : List Char) (exponent : Int) (scaled : SpellsPower power exponent) :
    ∀ c ∈ (power ++ after).head?, c.isDigit = false ∧ c ≠ '.' := by
  cases scaled with
  | plain => exact fun c first => ⟨space_not_digit c (stop c first), space_other c '.' (stop c first) (by decide)⟩
  | power mark letter w n spelled =>
      intro c first
      cases first
      rcases letter with rfl | rfl <;> decide

theorem take_exponent_spelled (power : List Char) (exponent : Int) (scaled : SpellsPower power exponent) :
    IStringStream.takeExponent (power ++ after) = (some exponent, after) := by
  cases scaled with
  | plain =>
      cases after with
      | nil => rfl
      | cons c rest =>
          have space := stop c rfl
          have letter : ¬ (c = 'e' ∨ c = 'E') := by
            rintro (rfl | rfl) <;> cases space
          exact if_neg letter
  | power mark letter w n spelled =>
      have ended : ∀ c ∈ after.head?, c.isDigit = false := fun c first => space_not_digit c (stop c first)
      have read (negative : Bool) (ds : List Char) (some_digits : ds ≠ []) (digits : ∀ d ∈ ds, d.isDigit = true)
          (signed : takeSign (w ++ after) = (negative, ds ++ after)) :
          IStringStream.takeExponent (mark :: w ++ after) = (some (signedValue negative ds), after) := by
        obtain ⟨dropped, taken⟩ := drop_while_all Char.isDigit ds after digits ended
        rw [List.cons_append, IStringStream.takeExponent]
        simp only [if_pos letter, signed, dropped, taken, if_neg some_digits]
      cases spelled with
      | plain ds some_digits digits => exact read false w some_digits digits (take_sign_digits w after some_digits digits)
      | plus ds some_digits digits => exact read false ds some_digits digits rfl
      | minus ds some_digits digits => exact read true ds some_digits digits rfl

theorem take_fraction_spelled (point ds power : List Char) (exponent : Int) (fraction : SpellsFraction point ds)
    (scaled : SpellsPower power exponent) :
    IStringStream.takeFraction (point ++ (power ++ after)) = (ds, power ++ after) := by
  have heads := power_head stop power exponent scaled
  cases fraction with
  | whole =>
      rw [List.nil_append]
      cases text : power ++ after with
      | nil => rfl
      | cons c rest =>
          have other := (heads c (by rw [text]; rfl)).2
          rw [IStringStream.takeFraction.eq_def]
          split
          · rename_i same
            cases same
            exact absurd rfl other
          · rfl
  | point ds digits =>
      obtain ⟨dropped, taken⟩ := drop_while_all Char.isDigit ds (power ++ after) digits fun c first => (heads c first).1
      exact Prod.ext taken dropped

theorem get_double_spelled (w : List Char) (x : F) (spelled : SpellsDouble w x) :
    IStringStream.getDouble (w ++ after) = (x, ⟨after, decide (after = []), false⟩) := by
  cases spelled with
  | number sign whole point power ds negative exponent signed digits fraction scaled some_digits =>
      have heads := power_head stop power exponent scaled
      have pointHead : ∀ c ∈ (point ++ (power ++ after)).head?, c.isDigit = false := by
        cases fraction with
        | whole => exact fun c first => (heads c first).1
        | point ds digits =>
            intro c first
            cases first
            decide
      have signs : takeSign (sign ++ (whole ++ (point ++ (power ++ after)))) = (negative, whole ++ (point ++ (power ++ after))) := by
        cases signed with
        | plus => rfl
        | minus => rfl
        | plain =>
            cases whole with
            | nil =>
                cases fraction with
                | whole => exact absurd rfl some_digits
                | point ds _ => rfl
            | cons d rest => exact take_sign_digits (d :: rest) _ (List.cons_ne_nil d rest) digits
      obtain ⟨dropped, taken⟩ := drop_while_all Char.isDigit whole (point ++ (power ++ after)) digits pointHead
      have text : sign ++ (whole ++ (point ++ power)) ++ after = sign ++ (whole ++ (point ++ (power ++ after))) := by
        simp only [List.append_assoc]
      rw [text]
      simp only [IStringStream.getDouble, signs, dropped, taken, take_fraction_spelled stop point ds power exponent fraction scaled,
        take_exponent_spelled stop power exponent scaled, if_neg some_digits]
      rfl

end

def Blanks (text : List Char) : Prop := ∀ c ∈ text, isSpace c = true

instance (text : List Char) : Decidable (Blanks text) := decidable_of_iff (text.all isSpace = true) List.all_eq_true

-- A word has no blank in it and is not empty.
structure Word (w : List Char) : Prop where
  filled : w ≠ []
  solid : ∀ c ∈ w, isSpace c = false

-- The letters of a number.
def isNumeric (c : Char) : Bool := c.isDigit || c = '+' || c = '-' || c = '.' || c = 'e' || c = 'E'

theorem digit_numeric (c : Char) (digit : c.isDigit = true) : isNumeric c = true := by
  rw [isNumeric, digit]
  rfl

theorem numeric_plain (c : Char) (numeric : isNumeric c = true) : isSpace c = false ∧ c ≠ 'C' ∧ c ≠ '\x00' ∧ c ≠ '\n' := by
  simp only [isNumeric, Bool.or_eq_true, decide_eq_true_eq] at numeric
  rcases numeric with ((((digit | rfl) | rfl) | rfl) | rfl) | rfl
  · refine ⟨(digit_plain c digit).2.2, ?_, ?_, ?_⟩ <;> rintro rfl <;> exact absurd digit (by decide)
  all_goals decide

theorem spells_numeric (w : List Char) (n : Int) (spelled : Spells w n) : w ≠ [] ∧ ∀ c ∈ w, isNumeric c = true := by
  cases spelled with
  | plain ds some_digits digits => exact ⟨some_digits, fun c member => digit_numeric c (digits c member)⟩
  | plus ds some_digits digits =>
      exact ⟨List.cons_ne_nil _ _, List.forall_mem_cons.mpr ⟨rfl, fun c member => digit_numeric c (digits c member)⟩⟩
  | minus ds some_digits digits =>
      exact ⟨List.cons_ne_nil _ _, List.forall_mem_cons.mpr ⟨rfl, fun c member => digit_numeric c (digits c member)⟩⟩

section
variable {F : Type} [Arith F]

theorem spells_double_numeric (w : List Char) (x : F) (spelled : SpellsDouble w x) : w ≠ [] ∧ ∀ c ∈ w, isNumeric c = true := by
  cases spelled with
  | number sign whole point power ds negative exponent signed digits fraction scaled some_digits =>
      have signs : ∀ c ∈ sign, isNumeric c = true := by
        cases signed <;> simp [isNumeric]
      have powers : ∀ c ∈ power, isNumeric c = true := by
        cases scaled with
        | plain => exact fun c member => absurd member List.not_mem_nil
        | power mark letter w _ spelled =>
            refine List.forall_mem_cons.mpr ⟨?_, (spells_numeric w _ spelled).2⟩
            rcases letter with rfl | rfl <;> rfl
      have points : (∀ c ∈ point, isNumeric c = true) ∧ (point = [] → ds = []) := by
        cases fraction with
        | whole => exact ⟨fun c member => absurd member List.not_mem_nil, fun _ => rfl⟩
        | point ds digits =>
            exact ⟨List.forall_mem_cons.mpr ⟨rfl, fun c member => digit_numeric c (digits c member)⟩, fun empty => nomatch empty⟩
      constructor
      · intro empty
        simp only [List.append_eq_nil_iff] at empty
        exact some_digits (by rw [empty.2.1, points.2 empty.2.2.1]; rfl)
      · intro c member
        simp only [List.mem_append] at member
        rcases member with inSign | inWhole | inPoint | inPower
        · exact signs c inSign
        · exact digit_numeric c (digits c inWhole)
        · exact points.1 c inPoint
        · exact powers c inPower

theorem numeric_word (w : List Char) (numeric : w ≠ [] ∧ ∀ c ∈ w, isNumeric c = true) : Word w :=
  ⟨numeric.1, fun c member => (numeric_plain c (numeric.2 c member)).1⟩

theorem read_double_lead (lead text : List Char) (blanks : Blanks lead) (old : F) :
    (IStringStream.opened (lead ++ text)).readDouble old = (IStringStream.opened text).readDouble old := by
  have same : (IStringStream.opened (lead ++ text)).sentry = (IStringStream.opened text).sentry := by
    have rests : (lead ++ text).dropWhile isSpace = text.dropWhile isSpace := List.dropWhile_append_of_pos blanks
    simp only [IStringStream.sentry, IStringStream.opened, IStringStream.good, rests]
    rfl
  rw [IStringStream.readDouble, IStringStream.readDouble, same]

theorem read_double_spelled (lead w after : List Char) (x old : F) (blanks : Blanks lead) (spelled : SpellsDouble w x)
    (stop : ∀ c ∈ after.head?, isSpace c = true) :
    (IStringStream.opened (lead ++ (w ++ after))).readDouble old = (x, ⟨after, decide (after = []), false⟩) := by
  have word := numeric_word w (spells_double_numeric w x spelled)
  rw [read_double_lead lead _ blanks]
  have solid : ∀ c ∈ (w ++ after).head?, isSpace c = false := by
    intro c first
    cases w with
    | nil => exact absurd rfl word.filled
    | cons d w =>
        cases first
        exact word.solid c List.mem_cons_self
  have skipped : (w ++ after).dropWhile isSpace = w ++ after := by
    have none_dropped := (drop_while_all isSpace [] (w ++ after) (fun _ member => absurd member List.not_mem_nil) solid).1
    exact none_dropped
  have filled : w ++ after ≠ [] := by
    intro empty
    exact word.filled (List.append_eq_nil_iff.mp empty).1
  rw [IStringStream.readDouble, IStringStream.sentry_text _ rfl, IStringStream.opened, skipped, if_neg filled]
  exact get_double_spelled stop w x spelled

theorem more_opened (after : List Char) (more : after ≠ []) :
    (⟨after, decide (after = []), false⟩ : IStringStream) = .opened after := by
  rw [decide_eq_false more]
  rfl

-- Numbers with blanks between them, after blanks or none.
inductive NumbersText : List F → List Char → Prop where
  | nil (trail : List Char) (blanks : Blanks trail) : NumbersText [] trail
  | cons (lead w rest : List Char) (x : F) (xs : List F) (blanks : Blanks lead) (spelled : SpellsDouble w x)
      (numbers : NumbersText xs rest) (apart : ∀ c ∈ rest.head?, isSpace c = true) : NumbersText (x :: xs) (lead ++ (w ++ rest))

-- The count and the two limits of a table, on what is left of a line.
inductive LimitsText : ProfileLimits F → List Char → Prop where
  | limits (lead w lead' w' lead'' w'' trail : List Char) (n : Int) (lo hi : F) (blanks : Blanks lead) (blanks' : Blanks lead')
      (blanks'' : Blanks lead'') (blanksTrail : Blanks trail) (apart : lead ≠ []) (apart' : lead' ≠ []) (apart'' : lead'' ≠ [])
      (spelled : Spells w n) (spelled' : SpellsDouble w' lo) (spelled'' : SpellsDouble w'' hi)
      (low : -2147483648 ≤ n) (high : n ≤ 2147483647)
      (one_line : '\n' ∉ lead ++ lead' ++ lead'' ++ trail) :
      LimitsText ⟨n, lo, hi⟩ (lead ++ (w ++ (lead' ++ (w' ++ (lead'' ++ (w'' ++ trail))))))

theorem numbers_plain (xs : List F) (text : List Char) (numbers : NumbersText xs text) :
    ∀ c ∈ text, isNumeric c = true ∨ isSpace c = true := by
  induction numbers with
  | nil trail blanks => exact fun c member => .inr (blanks c member)
  | cons lead w rest x xs blanks spelled _ _ ih =>
      intro c member
      simp only [List.mem_append] at member
      rcases member with inLead | inWord | inRest
      · exact .inr (blanks c inLead)
      · exact .inl ((spells_double_numeric w x spelled).2 c inWord)
      · exact ih c inRest

theorem limits_plain (limits : ProfileLimits F) (line : List Char) (written : LimitsText limits line) :
    (∀ c ∈ line, isNumeric c = true ∨ isSpace c = true) ∧ '\n' ∉ line ∧ ∃ c rest, line = c :: rest ∧ isSpace c = true := by
  cases written with
  | limits lead w lead' w' lead'' w'' trail n lo hi blanks blanks' blanks'' blanksTrail apart apart' apart'' spelled spelled'
      spelled'' low high one_line =>
      have first := (spells_numeric w n spelled).2
      have second := (spells_double_numeric w' lo spelled').2
      have third := (spells_double_numeric w'' hi spelled'').2
      refine ⟨fun c member => ?_, fun member => ?_, ?_⟩
      · simp only [List.mem_append] at member
        rcases member with h | h | h | h | h | h | h
        · exact .inr (blanks c h)
        · exact .inl (first c h)
        · exact .inr (blanks' c h)
        · exact .inl (second c h)
        · exact .inr (blanks'' c h)
        · exact .inl (third c h)
        · exact .inr (blanksTrail c h)
      · simp only [List.mem_append] at member one_line
        rcases member with h | h | h | h | h | h | h
        · exact one_line (by simp [h])
        · exact (numeric_plain _ (first _ h)).2.2.2 rfl
        · exact one_line (by simp [h])
        · exact (numeric_plain _ (second _ h)).2.2.2 rfl
        · exact one_line (by simp [h])
        · exact (numeric_plain _ (third _ h)).2.2.2 rfl
        · exact one_line (by simp [h])
      · cases lead with
        | nil => exact absurd rfl apart
        | cons c lead => exact ⟨c, _, rfl, blanks c List.mem_cons_self⟩

theorem read_fractions_next (lead w rest : List Char) (x old : F) (olds : List F) (blanks : Blanks lead) (spelled : SpellsDouble w x)
    (apart : ∀ c ∈ rest.head?, isSpace c = true) (more : rest ≠ []) :
    readFractions (old :: olds) (.opened (lead ++ (w ++ rest))) = x :: readFractions olds (.opened rest) := by
  rw [readFractions, read_double_spelled lead w rest x old blanks spelled apart, more_opened rest more]

theorem read_fractions_text (xs : List F) (text : List Char) (numbers : NumbersText xs text) (olds : List F)
    (size : olds.length = xs.length) : readFractions olds (.opened text) = xs := by
  induction numbers generalizing olds with
  | nil trail blanks =>
      rw [List.eq_nil_of_length_eq_zero size]
      rfl
  | cons lead w rest x xs blanks spelled numbers apart ih =>
      cases olds with
      | nil => cases size
      | cons old olds =>
          rw [List.length_cons, List.length_cons, Nat.add_right_cancel_iff] at size
          by_cases more : rest = []
          · cases numbers with
            | nil =>
                rw [readFractions, read_double_spelled lead w _ x old blanks spelled apart, List.eq_nil_of_length_eq_zero size]
                rfl
            | cons lead' w' rest' x' xs' _ spelled' =>
                simp only [List.append_eq_nil_iff] at more
                exact absurd more.2.1 (spells_double_numeric w' x' spelled').1
          · rw [read_fractions_next lead w rest x old olds blanks spelled apart more, ih olds size]

-- The last number of a text, what stands before it, and what the numbers are
-- with any other word in its place.
structure LastNumber (F : Type) where
  front : List Char
  w : List Char
  trail : List Char
  x : F

structure LastNumber.Of (last : LastNumber F) (text : List Char) : Prop where
  whole : text = last.front ++ (last.w ++ last.trail)
  spelled : SpellsDouble last.w last.x
  blanks : Blanks last.trail
  apart : ∀ c ∈ last.front.getLast?, isSpace c = true

theorem last_filled (last : LastNumber F) (text : List Char) (of : last.Of text) : last.w ++ last.trail ≠ [] :=
  fun empty => (spells_double_numeric last.w last.x of.spelled).1 (List.append_eq_nil_iff.mp empty).1

-- Without its last letter a text loses it from the last number or the blanks.
theorem last_cut (last : LastNumber F) (text : List Char) (of : last.Of text) :
    text.dropLast = last.front ++ (last.w ++ last.trail).dropLast := by
  rw [of.whole, List.dropLast_append_of_ne_nil (last_filled last text of)]

theorem last_apart (last : LastNumber F) (text : List Char) (of : last.Of text) (pre : List Char)
    (apart : ∀ c ∈ pre.getLast?, isSpace c = true) : ∀ c ∈ (pre ++ last.front).getLast?, isSpace c = true := by
  intro c ends
  cases front : last.front with
  | nil =>
      rw [front, List.append_nil] at ends
      exact apart c ends
  | cons d rest =>
      refine of.apart c ?_
      rwa [List.getLast?_append_of_ne_nil _ (by rw [front]; exact List.cons_ne_nil d rest)] at ends

theorem last_front_filled (last : LastNumber F) (text : List Char) (of : last.Of text)
    (blank_first : ∀ c ∈ text.head?, isSpace c = true) : ∃ b front, last.front = b :: front := by
  have word := numeric_word _ (spells_double_numeric last.w last.x of.spelled)
  cases found : last.front with
  | cons b front => exact ⟨b, front, rfl⟩
  | nil =>
      obtain ⟨c, w', letters⟩ := List.exists_cons_of_ne_nil word.filled
      have space := blank_first c (by rw [of.whole, found, letters]; rfl)
      rw [word.solid c (by rw [letters]; exact List.mem_cons_self)] at space
      cases space

theorem numbers_last (xs : List F) (text : List Char) (numbers : NumbersText xs text) (some_numbers : xs ≠ []) :
    ∃ (last : LastNumber F) (xs' : List F), last.Of text ∧ xs = xs' ++ [last.x] ∧
      ∀ (v : List Char) (olds : List F) (old : F), olds.length = xs'.length →
        readFractions (olds ++ [old]) (.opened (last.front ++ v)) = xs' ++ [((IStringStream.opened v).readDouble old).1] := by
  induction numbers with
  | nil => exact absurd rfl some_numbers
  | cons lead w rest x xs blanks spelled numbers apart ih =>
      cases xs with
      | nil =>
          cases numbers with
          | nil _ trail =>
              refine ⟨⟨lead, w, rest, x⟩, [], ⟨rfl, spelled, trail, ?_⟩, rfl, fun v olds old size => ?_⟩
              · exact fun c last => blanks c (List.mem_of_mem_getLast? last)
              · rw [List.eq_nil_of_length_eq_zero size, List.nil_append, List.nil_append, readFractions,
                  read_double_lead lead v blanks old]
                rfl
      | cons x' xs =>
          obtain ⟨last, xs', of, same, reads⟩ := ih (List.cons_ne_nil x' xs)
          obtain ⟨b, front, begins⟩ := last_front_filled last rest of apart
          have starts (v : List Char) : ∀ c ∈ (last.front ++ v).head?, isSpace c = true := by
            intro c first
            rw [begins] at first
            exact apart c (by rw [of.whole, begins]; exact first)
          refine ⟨⟨lead ++ (w ++ last.front), last.w, last.trail, last.x⟩, x :: xs', ⟨?_, of.spelled, of.blanks, ?_⟩, ?_, ?_⟩
          · rw [of.whole]
            simp only [List.append_assoc]
          · intro c ends
            refine of.apart c ?_
            rw [begins] at ends ⊢
            rw [List.getLast?_append_of_ne_nil _ (by simp), List.getLast?_append_of_ne_nil _ (List.cons_ne_nil b front)] at ends
            exact ends
          · rw [same]
            rfl
          · intro v olds old size
            cases olds with
            | nil => cases size
            | cons old' olds =>
                rw [List.length_cons, List.length_cons, Nat.add_right_cancel_iff] at size
                have more : last.front ++ v ≠ [] := by rw [begins]; exact List.cons_ne_nil _ _
                rw [List.append_assoc, List.append_assoc, List.cons_append,
                  read_fractions_next lead w (last.front ++ v) x old' _ blanks spelled (starts v) more, reads v olds old size]
                rfl

theorem read_int_first (lead w after : List Char) (n old : Int) (blanks : Blanks lead) (spelled : Spells w n)
    (some_after : after ≠ [])
    (stop : ∀ c ∈ after.head?, isSpace c = true) (low : -2147483648 ≤ n) (high : n ≤ 2147483647) :
    (IStringStream.opened (lead ++ (w ++ after))).readInt old = (n, .opened after) := by
  rw [read_int_spelled lead w after n old blanks spelled (fun c first => space_not_digit c (stop c first)) low high,
    more_opened after some_after]

theorem data_stream_plain (text : List Char) (plain : ∀ c ∈ text, c ≠ '\x00') : dataStream text = .opened text := by
  have whole : text.takeWhile (fun c => decide (c ≠ '\x00')) = text :=
    List.takeWhile_eq_self_iff.mpr fun c member => decide_eq_true (plain c member)
  rw [dataStream, whole]

theorem limits_last (limits : ProfileLimits F) (line : List Char) (written : LimitsText limits line) :
    ∃ last : LastNumber F, last.Of line ∧ last.front ≠ [] ∧ limits.max = last.x ∧
      ∀ (v : List Char) (old : ProfileLimits F), (∀ c ∈ last.front ++ v, c ≠ '\x00') →
        readLimits (last.front ++ v) old = ⟨limits.nbins, limits.min, ((IStringStream.opened v).readDouble old.max).1⟩ := by
  cases written with
  | limits lead w lead' w' lead'' w'' trail n lo hi blanks blanks' blanks'' blanksTrail apart apart' apart'' spelled spelled'
      spelled'' low high one_line =>
      have starts (text rest : List Char) (some_text : text ≠ []) (blank : Blanks text) :
          ∀ c ∈ (text ++ rest).head?, isSpace c = true := by
        intro c first
        obtain ⟨b, text', rfl⟩ := List.exists_cons_of_ne_nil some_text
        cases first
        exact blank c List.mem_cons_self
      refine ⟨⟨lead ++ (w ++ (lead' ++ (w' ++ lead''))), w'', trail, hi⟩, ⟨?_, spelled'', blanksTrail, ?_⟩, ?_, rfl, ?_⟩
      · simp only [List.append_assoc]
      · intro c ends
        obtain ⟨b, text, rfl⟩ := List.exists_cons_of_ne_nil apart''
        simp only [← List.append_assoc] at ends
        rw [List.getLast?_append_of_ne_nil _ (List.cons_ne_nil b text)] at ends
        exact blanks'' c (List.mem_of_mem_getLast? ends)
      · exact fun empty => apart (List.append_eq_nil_iff.mp empty).1
      · intro v old plain
        have text : lead ++ (w ++ (lead' ++ (w' ++ lead''))) ++ v = lead ++ (w ++ (lead' ++ (w' ++ (lead'' ++ v)))) := by
          simp only [List.append_assoc]
        have more : lead' ++ (w' ++ (lead'' ++ v)) ≠ [] := fun empty => apart' (List.append_eq_nil_iff.mp empty).1
        have more' : lead'' ++ v ≠ [] := fun empty => apart'' (List.append_eq_nil_iff.mp empty).1
        dsimp only at plain ⊢
        rw [readLimits, data_stream_plain _ plain, text,
          read_int_first lead w _ n old.nbins blanks spelled more (starts _ _ apart' blanks') low high]
        dsimp only
        rw [read_double_spelled lead' w' _ lo old.min blanks' spelled' (starts _ _ apart'' blanks''), more_opened _ more',
          read_double_lead lead'' v blanks'' old.max]

-- The last word of a file, and whether the file can lose its last letter.
def lastWord (text : List Char) : List Char := ((text.reverse.dropWhile isSpace).takeWhile (fun c => !isSpace c)).reverse

def KeepsLast (text : List Char) (old : F) : Prop :=
  (∃ c, text.getLast? = some c ∧ isSpace c = true) ∨
    ((IStringStream.opened (lastWord text).dropLast).readDouble old).1 = ((IStringStream.opened (lastWord text)).readDouble old).1

theorem last_word (front w trail : List Char) (word : Word w) (blanks : Blanks trail)
    (apart : ∀ c ∈ front.getLast?, isSpace c = true) : lastWord (front ++ (w ++ trail)) = w := by
  have trailing : ∀ c ∈ trail.reverse, isSpace c = true := fun c member => blanks c (List.mem_reverse.mp member)
  have solid : ∀ c ∈ w.reverse, (!isSpace c) = true := by
    intro c member
    rw [word.solid c (List.mem_reverse.mp member)]
    rfl
  have stops : ∀ c ∈ front.reverse.head?, (!isSpace c) = false := by
    intro c first
    rw [List.head?_reverse] at first
    rw [apart c first]
    rfl
  have begins : ∀ c ∈ (w.reverse ++ front.reverse).head?, isSpace c = false := by
    intro c first
    obtain ⟨b, rest, letters⟩ := List.exists_cons_of_ne_nil (List.reverse_eq_nil_iff.not.mpr word.filled)
    rw [letters] at first
    cases first
    exact word.solid c (List.mem_reverse.mp (by rw [letters]; exact List.mem_cons_self))
  rw [lastWord, List.reverse_append, List.reverse_append, List.append_assoc, (drop_while_all isSpace _ _ trailing begins).1,
    (drop_while_all (fun c => !isSpace c) _ _ solid stops).2, List.reverse_reverse]

theorem keeps_last_iff (last : LastNumber F) (pre text : List Char) (of : last.Of text)
    (apart : ∀ c ∈ (pre ++ last.front).getLast?, isSpace c = true) (old : F) :
    KeepsLast (pre ++ text) old ↔ ((IStringStream.opened (last.w ++ last.trail).dropLast).readDouble old).1 = last.x := by
  have word := numeric_word _ (spells_double_numeric last.w last.x of.spelled)
  have whole : pre ++ text = pre ++ last.front ++ (last.w ++ last.trail) := by rw [of.whole, List.append_assoc]
  have letters : lastWord (pre ++ text) = last.w := by
    rw [whole]
    exact last_word _ _ _ word of.blanks apart
  have reads (after : List Char) (blanks : Blanks after) : ((IStringStream.opened (last.w ++ after)).readDouble old).1 = last.x := by
    have read := read_double_spelled [] last.w after last.x old (fun c member => absurd member List.not_mem_nil) of.spelled
      fun c first => blanks c (List.mem_of_mem_head? first)
    rw [List.nil_append] at read
    rw [read]
  rw [KeepsLast, letters]
  by_cases ended : last.trail = []
  · have solid : ¬ ∃ c, (pre ++ text).getLast? = some c ∧ isSpace c = true := by
      rintro ⟨c, ends, space⟩
      rw [whole, ended, List.append_nil, List.getLast?_append_of_ne_nil _ word.filled] at ends
      rw [word.solid c (List.mem_of_mem_getLast? ends)] at space
      cases space
    have read := reads [] (fun c member => absurd member List.not_mem_nil)
    rw [List.append_nil] at read
    rw [ended, List.append_nil, read]
    exact ⟨fun keeps => keeps.resolve_left solid, .inr⟩
  · have ends : ∃ c, (pre ++ text).getLast? = some c ∧ isSpace c = true := by
      refine ⟨last.trail.getLast ended, ?_, of.blanks _ (List.getLast_mem ended)⟩
      rw [whole, ← List.append_assoc, List.getLast?_append_of_ne_nil _ ended, List.getLast?_eq_getLast_of_ne_nil ended]
    rw [List.dropLast_append_of_ne_nil ended]
    exact ⟨fun _ => reads _ fun c member => of.blanks c (List.mem_of_mem_dropLast member), fun _ => .inl ends⟩

end

end Solgem

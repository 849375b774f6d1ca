import Solgem.Arith
import Solgem.Lib.Lines

set_option autoImplicit false

namespace Solgem

open Lib

-- std::istringstream: what is left to read, and the two state bits.
structure IStringStream where
  rest : List Char
  eofbit : Bool
  failbit : Bool
deriving DecidableEq

def isSpace (c : Char) : Bool := c = ' ' || c = '\t' || c = '\n' || c = '\r' || c = '\x0b' || c = '\x0c'

def decimalValue (ds : List Char) : Nat := ds.foldl (fun n d => 10 * n + (d.toNat - 48)) 0

def signedValue (negative : Bool) (ds : List Char) : Int := if negative then -(decimalValue ds : Int) else decimalValue ds

def takeSign : List Char → Bool × List Char
  | '-' :: rest => (true, rest)
  | '+' :: rest => (false, rest)
  | text => (false, text)

namespace IStringStream

def opened (text : List Char) : IStringStream := ⟨text, false, false⟩

def good (sv : IStringStream) : Bool := !sv.eofbit && !sv.failbit

-- The sentry of a formatted read: it passes over blanks, and fails the stream
-- when nothing is left after them.
def sentry (sv : IStringStream) : Bool × IStringStream :=
  if sv.good then
    match sv.rest.dropWhile isSpace with
    | [] => (false, ⟨[], true, true⟩)
    | rest => (true, { sv with rest := rest })
  else (false, { sv with failbit := true })

-- std::num_get for an Int_t: a number out of range is limited and fails the
-- stream, and so does a text that is not a number.
def getInt (text : List Char) : Int × IStringStream :=
  let signed := takeSign text
  let ds := signed.2.takeWhile Char.isDigit
  let after := signed.2.dropWhile Char.isDigit
  let n := signedValue signed.1 ds
  let read (n : Int) (fails : Bool) : Int × IStringStream := (n, ⟨after, decide (after = []), fails⟩)
  if ds = [] then read 0 true
  else if n < -2147483648 then read (-2147483648) true
  else if 2147483647 < n then read 2147483647 true
  else read n false

-- operator>> into an Int_t that holds old.
def readInt (sv : IStringStream) (old : Int) : Int × IStringStream :=
  if sv.sentry.1 then getInt sv.sentry.2.rest else (old, sv.sentry.2)

def readString (sv : IStringStream) (old : List Char) : List Char × IStringStream :=
  if sv.sentry.1 then
    let after := sv.sentry.2.rest.dropWhile (fun c => !isSpace c)
    (sv.sentry.2.rest.takeWhile (fun c => !isSpace c), ⟨after, decide (after = []), false⟩)
  else (old, sv.sentry.2)

section
variable {F : Type} [Arith F]

def takeFraction : List Char → List Char × List Char
  | '.' :: rest => (rest.takeWhile Char.isDigit, rest.dropWhile Char.isDigit)
  | text => ([], text)

-- The power of ten of a number; no value when its digits are missing.
def takeExponent (text : List Char) : Option Int × List Char :=
  match text with
  | [] => (some 0, [])
  | c :: rest =>
      if c = 'e' ∨ c = 'E' then
        let (negative, power) := takeSign rest
        let ds := power.takeWhile Char.isDigit
        let after := power.dropWhile Char.isDigit
        (if ds = [] then none else some (signedValue negative ds), after)
      else (some 0, text)

-- std::num_get for a double; the decimal value is rounded as the arithmetic
-- rounds a literal.
def getDouble (text : List Char) : F × IStringStream :=
  let signed := takeSign text
  let whole := signed.2.takeWhile Char.isDigit
  let fraction := takeFraction (signed.2.dropWhile Char.isDigit)
  let power := takeExponent fraction.2
  let fail (after : List Char) : F × IStringStream := (0.0, ⟨after, decide (after = []), true⟩)
  if whole ++ fraction.1 = [] then fail fraction.2
  else
    match power.1 with
    | none => fail power.2
    | some exponent =>
        let e := exponent - fraction.1.length
        let x : F := OfScientific.ofScientific (decimalValue (whole ++ fraction.1)) (decide (e < 0)) e.natAbs
        (if signed.1 then -x else x, ⟨power.2, decide (power.2 = []), false⟩)

def readDouble (sv : IStringStream) (old : F) : F × IStringStream :=
  if sv.sentry.1 then getDouble sv.sentry.2.rest else (old, sv.sentry.2)

end

-- The measure of the reading loops: a read that leaves the stream good has
-- taken something from it.
def todo (sv : IStringStream) : Nat := if sv.good then sv.rest.length + 1 else 0

theorem sentry_text (sv : IStringStream) (good : sv.good = true) :
    sv.sentry = if sv.rest.dropWhile isSpace = [] then (false, ⟨[], true, true⟩)
      else (true, ⟨sv.rest.dropWhile isSpace, false, false⟩) := by
  obtain ⟨eof, fail⟩ : sv.eofbit = false ∧ sv.failbit = false := by simpa [IStringStream.good] using good
  rw [sentry, if_pos good]
  cases sv.rest.dropWhile isSpace with
  | nil => rfl
  | cons c rest =>
      rw [if_neg (List.cons_ne_nil c rest)]
      exact congrArg (Prod.mk true) (by rw [eof, fail])

theorem take_sign_suffix (text : List Char) : (takeSign text).2 <:+ text := by
  rw [takeSign.eq_def]
  split
  · exact List.suffix_cons ..
  · exact List.suffix_cons ..
  · exact List.suffix_rfl

theorem read_int_text (sv : IStringStream) (old : Int) (good : sv.good = true) :
    sv.readInt old = if sv.rest.dropWhile isSpace = [] then (old, ⟨[], true, true⟩) else getInt (sv.rest.dropWhile isSpace) := by
  rw [readInt, sentry_text sv good]
  by_cases nothing : sv.rest.dropWhile isSpace = []
  · rw [if_pos nothing, if_pos nothing, if_neg Bool.false_ne_true]
  · rw [if_neg nothing, if_neg nothing, if_pos rfl]

theorem todo_failed (rest : List Char) (eof : Bool) : todo ⟨rest, eof, true⟩ = 0 := if_neg (by simp [IStringStream.good])

theorem todo_le (sv : IStringStream) : sv.todo ≤ sv.rest.length + 1 := by
  rw [todo]
  split
  · exact Nat.le_refl _
  · exact Nat.zero_le _

theorem get_int_todo (text : List Char) : (getInt text).2.todo ≤ text.length := by
  have signs := (take_sign_suffix text).length_le
  have parts := congrArg List.length (List.takeWhile_append_dropWhile (p := Char.isDigit) (l := (takeSign text).2))
  rw [List.length_append] at parts
  simp only [getInt]
  by_cases digits : (takeSign text).2.takeWhile Char.isDigit = []
  · rw [if_pos digits, todo_failed]
    exact Nat.zero_le _
  · have some_digits := List.length_pos_iff.mpr digits
    rw [if_neg digits]
    split
    · rw [todo_failed]
      exact Nat.zero_le _
    · split
      · rw [todo_failed]
        exact Nat.zero_le _
      · refine (todo_le _).trans ?_
        dsimp only
        omega

theorem read_int_todo (sv : IStringStream) (old : Int) (good : sv.good = true) : (sv.readInt old).2.todo < sv.todo := by
  have size : sv.todo = sv.rest.length + 1 := if_pos good
  rw [read_int_text sv old good, size]
  split
  · rw [todo_failed]
    exact Nat.succ_pos _
  · have spaces := (List.dropWhile_suffix isSpace : sv.rest.dropWhile isSpace <:+ sv.rest).length_le
    exact Nat.lt_succ_of_le ((get_int_todo _).trans spaces)

end IStringStream

-- The ways to write an integer: digits, with or without a sign before them.
inductive Spells : List Char → Int → Prop where
  | plain (ds : List Char) (some_digits : ds ≠ []) (digits : ∀ d ∈ ds, d.isDigit = true) : Spells ds (decimalValue ds)
  | plus (ds : List Char) (some_digits : ds ≠ []) (digits : ∀ d ∈ ds, d.isDigit = true) : Spells ('+' :: ds) (decimalValue ds)
  | minus (ds : List Char) (some_digits : ds ≠ []) (digits : ∀ d ∈ ds, d.isDigit = true) : Spells ('-' :: ds) (-(decimalValue ds))

theorem digit_plain (d : Char) (digit : d.isDigit = true) : d ≠ '-' ∧ d ≠ '+' ∧ isSpace d = false := by
  have other : ∀ c : Char, c.isDigit = false → d ≠ c := by
    intro c no_digit same
    rw [← same, digit] at no_digit
    cases no_digit
  have blank : ¬ isSpace d = true := by
    simp only [isSpace, Bool.or_eq_true, decide_eq_true_eq]
    rintro (((((rfl | rfl) | rfl) | rfl) | rfl) | rfl) <;> exact absurd digit (by decide)
  exact ⟨other '-' (by decide), other '+' (by decide), Bool.eq_false_iff.mpr blank⟩

theorem drop_while_all (p : Char → Bool) (front rest : List Char) (all : ∀ c ∈ front, p c = true)
    (stop : ∀ c ∈ rest.head?, p c = false) : (front ++ rest).dropWhile p = rest ∧ (front ++ rest).takeWhile p = front := by
  cases rest with
  | nil => simpa using all
  | cons c rest =>
      have stopped : ¬ p c = true := by rw [stop c rfl]; exact Bool.false_ne_true
      rw [List.dropWhile_append_of_pos all, List.takeWhile_append_of_pos all, List.dropWhile_cons_of_neg stopped,
        List.takeWhile_cons_of_neg stopped, List.append_nil]
      exact ⟨rfl, rfl⟩

theorem get_int_digits (negative : Bool) (text ds after : List Char) (signed : takeSign text = (negative, ds ++ after))
    (some_digits : ds ≠ []) (digits : ∀ d ∈ ds, d.isDigit = true) (stop : ∀ c ∈ after.head?, c.isDigit = false)
    (low : -2147483648 ≤ signedValue negative ds) (high : signedValue negative ds ≤ 2147483647) :
    IStringStream.getInt text = (signedValue negative ds, ⟨after, decide (after = []), false⟩) := by
  obtain ⟨dropped, taken⟩ := drop_while_all Char.isDigit ds after digits stop
  simp only [IStringStream.getInt, signed, dropped, taken]
  rw [if_neg some_digits, if_neg (by omega), if_neg (by omega)]

theorem take_sign_digits (ds after : List Char) (some_digits : ds ≠ []) (digits : ∀ d ∈ ds, d.isDigit = true) :
    takeSign (ds ++ after) = (false, ds ++ after) := by
  cases ds with
  | nil => exact absurd rfl some_digits
  | cons d rest =>
      obtain ⟨minus, plus, _⟩ := digit_plain d (digits d (List.mem_cons_self ..))
      simp [takeSign, minus, plus]

theorem spelled_start (w : List Char) (n : Int) (spelled : Spells w n) (after : List Char) :
    ∃ c rest, w ++ after = c :: rest ∧ isSpace c = false := by
  have first : ∀ ds : List Char, ds ≠ [] → (∀ d ∈ ds, d.isDigit = true) → ∃ c rest, ds ++ after = c :: rest ∧ isSpace c = false := by
    intro ds some_digits digits
    cases ds with
    | nil => exact absurd rfl some_digits
    | cons d rest => exact ⟨d, rest ++ after, rfl, (digit_plain d (digits d (List.mem_cons_self ..))).2.2⟩
  cases spelled with
  | plain ds some_digits digits => exact first w some_digits digits
  | plus ds some_digits digits => exact ⟨'+', ds ++ after, rfl, by decide⟩
  | minus ds some_digits digits => exact ⟨'-', ds ++ after, rfl, by decide⟩

theorem read_int_spelled (lead w after : List Char) (n old : Int) (blanks : ∀ c ∈ lead, isSpace c = true) (spelled : Spells w n)
    (stop : ∀ c ∈ after.head?, c.isDigit = false) (low : -2147483648 ≤ n) (high : n ≤ 2147483647) :
    (IStringStream.opened (lead ++ (w ++ after))).readInt old = (n, ⟨after, decide (after = []), false⟩) := by
  obtain ⟨c, rest, start, solid⟩ := spelled_start w n spelled after
  have skipped : (lead ++ (w ++ after)).dropWhile isSpace = w ++ after := by
    refine (drop_while_all isSpace lead (w ++ after) blanks (fun c' first => ?_)).1
    rw [start] at first
    cases first
    exact solid
  have filled : w ++ after ≠ [] := by rw [start]; exact List.cons_ne_nil c rest
  rw [IStringStream.read_int_text _ old rfl, IStringStream.opened, skipped, if_neg filled]
  cases spelled with
  | plain ds some_digits digits =>
      exact get_int_digits false _ w after (take_sign_digits w after some_digits digits) some_digits digits stop low high
  | plus ds some_digits digits => exact get_int_digits false _ ds after rfl some_digits digits stop low high
  | minus ds some_digits digits => exact get_int_digits true _ ds after rfl some_digits digits stop low high

end Solgem

import Solgem.ShowerTexts

set_option autoImplicit false

namespace Solgem

open Lib

-- The headers of ECAL_shower_profiles.txt.
inductive Header where
  | xdefault
  | ydefault
  | profilesx
  | profilesy
  | xbin (n : Nat)
  | ybin (n : Nat)
deriving DecidableEq

def headerWord : List Char :=
  ['E', 'C', 'A', 'L', '_', 's', 'h', 'o', 'w', 'e', 'r', '_', 'p', 'r', 'o', 'f', 'i', 'l', 'e']

def Header.ending : Header → List Char
  | .xdefault => ['_', 'x', '_', 'd', 'e', 'f', 'a', 'u', 'l', 't']
  | .ydefault => ['_', 'y', '_', 'd', 'e', 'f', 'a', 'u', 'l', 't']
  | .profilesx => ['s', '_', 'x']
  | .profilesy => ['s', '_', 'y']
  | .xbin n => ['_', 'x', '_', 'b', 'i', 'n', ' '] ++ Nat.toDigits 10 n
  | .ybin n => ['_', 'y', '_', 'b', 'i', 'n', ' '] ++ Nat.toDigits 10 n

def Header.text (h : Header) : List Char := headerWord ++ h.ending

-- The tables of one file one after the other, each a header and its body.
def sectionText (s : Header × List Char) : List Char := s.1.text ++ s.2

def tablesText (sections : List (Header × List Char)) : List Char := (sections.map sectionText).flatten

-- The numbers after a header: blanks and digits, and none of the letters that
-- mark a header.
structure Body (body : List Char) : Prop where
  begins : ∃ c rest, body = c :: rest ∧ isSpace c = true
  unmarked : ∀ c ∈ body, c ≠ 'C'

theorem digits_front (j k : Nat) (c : Char) (rest : List Char) (space : isSpace c = true)
    (here : Nat.toDigits 10 k <+: Nat.toDigits 10 j ++ c :: rest) : k ≤ j := by
  have room : (Nat.toDigits 10 k).length ≤ (Nat.toDigits 10 j).length := by
    by_contra long
    have member : c ∈ Nat.toDigits 10 k := by
      obtain ⟨after, same⟩ := here
      have entry : (Nat.toDigits 10 k ++ after)[(Nat.toDigits 10 j).length]? = some c := by rw [same]; simp
      rw [List.getElem?_append_left (Nat.not_le.mp long)] at entry
      exact List.mem_of_getElem? entry
    have digit := Nat.isDigit_of_mem_toDigits (by decide) (by decide) member
    rw [space_not_digit c space] at digit
    cases digit
  have front : Nat.toDigits 10 k <+: Nat.toDigits 10 j := List.prefix_of_prefix_length_le here (List.prefix_append _ _) room
  by_contra less
  have below : k < 10 ^ (Nat.toDigits 10 k).length :=
    (Nat.length_toDigits_le_iff (by decide) Nat.length_toDigits_pos).mp (Nat.le_refl _)
  have size : (Nat.toDigits 10 j).length ≤ (Nat.toDigits 10 k).length :=
    (Nat.length_toDigits_le_iff (by decide) Nat.length_toDigits_pos).mpr ((Nat.not_le.mp less).trans below)
  have same := congrArg (fun ds => Nat.ofDigitChars 10 ds 0) (front.eq_of_length (Nat.le_antisymm room size))
  simp only [Nat.ofDigitChars_ten_toDigits] at same
  omega

-- A header can be taken for an earlier one only as the shorter number of two.
theorem header_past (a b : Header) (c : Char) (rest : List Char) (space : isSpace c = true) (here : b.text <+: a.text ++ c :: rest) :
    a = b ∨ (∃ j k, a = .xbin j ∧ b = .xbin k ∧ k ≤ j) ∨ ∃ j k, a = .ybin j ∧ b = .ybin k ∧ k ≤ j := by
  rw [Header.text, Header.text, List.append_assoc, List.prefix_append_right_inj] at here
  cases a <;> cases b <;> simp [Header.ending] at here ⊢
  · exact .inr (digits_front _ _ c rest space here)
  · exact .inr (digits_front _ _ c rest space here)

structure Earlier (a b : Header) : Prop where
  other : a ≠ b
  xbins : ∀ j k, a = .xbin j → b = .xbin k → j < k
  ybins : ∀ j k, a = .ybin j → b = .ybin k → j < k

theorem earlier_apart (a b : Header) (earlier : Earlier a b) (body : List Char) (sound : Body body) (after : List Char) :
    ¬ b.text <+: sectionText (a, body) ++ after := by
  obtain ⟨c, rest, rfl, space⟩ := sound.begins
  intro here
  rw [sectionText, List.append_assoc, List.cons_append] at here
  rcases header_past a b c _ space here with same | ⟨j, k, rfl, rfl, less⟩ | ⟨j, k, rfl, rfl, less⟩
  · exact earlier.other same
  · exact absurd (earlier.xbins j k rfl rfl) (Nat.not_lt.mpr less)
  · exact absurd (earlier.ybins j k rfl rfl) (Nat.not_lt.mpr less)

def Header.rank : Header → Nat
  | .xdefault => 0
  | .ydefault => 1
  | .profilesx => 2
  | .xbin _ => 3
  | .profilesy => 4
  | .ybin _ => 5

theorem earlier_rank (a b : Header) (less : a.rank < b.rank) : Earlier a b := by
  refine ⟨?_, ?_, ?_⟩
  · rintro rfl
    exact Nat.lt_irrefl _ less
  · rintro j k rfl rfl
    exact absurd less (Nat.lt_irrefl 3)
  · rintro j k rfl rfl
    exact absurd less (Nat.lt_irrefl 5)

theorem earlier_xbin (j k : Nat) (less : j < k) : Earlier (.xbin j) (.xbin k) := by
  refine ⟨?_, ?_, ?_⟩
  · rintro ⟨⟩
    exact Nat.lt_irrefl _ less
  · rintro _ _ ⟨⟩ ⟨⟩
    exact less
  · rintro _ _ ⟨⟩

theorem earlier_ybin (j k : Nat) (less : j < k) : Earlier (.ybin j) (.ybin k) := by
  refine ⟨?_, ?_, ?_⟩
  · rintro ⟨⟩
    exact Nat.lt_irrefl _ less
  · rintro _ _ ⟨⟩
  · rintro _ _ ⟨⟩ ⟨⟩
    exact less

theorem ending_plain (h : Header) : ∀ c ∈ h.ending, c ≠ 'C' ∧ c ≠ '\n' ∧ c ≠ '\x00' := by
  have digits (n : Nat) : ∀ c ∈ Nat.toDigits 10 n, c ≠ 'C' ∧ c ≠ '\n' ∧ c ≠ '\x00' := by
    intro c member
    have digit := Nat.isDigit_of_mem_toDigits (by decide) (by decide) member
    refine ⟨?_, ?_, ?_⟩ <;> rintro rfl <;> exact absurd digit (by decide)
  have words : ∀ c, c ∈ ['_', 'x', '_', 'b', 'i', 'n', ' '] ∨ c ∈ ['_', 'y', '_', 'b', 'i', 'n', ' '] →
      c ≠ 'C' ∧ c ≠ '\n' ∧ c ≠ '\x00' := by
    simp only [List.mem_cons, List.not_mem_nil, or_false]
    rintro c (h | h) <;> rcases h with rfl | rfl | rfl | rfl | rfl | rfl | rfl <;> decide
  cases h with
  | xbin n =>
      intro c member
      cases List.mem_append.mp member with
      | inl word => exact words c (.inl word)
      | inr number => exact digits n c number
  | ybin n =>
      intro c member
      cases List.mem_append.mp member with
      | inl word => exact words c (.inr word)
      | inr number => exact digits n c number
  | _ => simp [Header.ending]

theorem section_marked (s : Header × List Char) (sound : Body s.2) : Marked 'E' 'C' (sectionText s) := by
  refine ⟨headerWord.drop 2 ++ s.1.ending ++ s.2, rfl, ?_⟩
  simp only [List.mem_append, not_or]
  exact ⟨⟨by decide, fun member => (ending_plain s.1 _ member).1 rfl⟩, fun member => sound.unmarked _ member rfl⟩

-- Where the search for a header stops.
theorem header_found (before : List (Header × List Char)) (h : Header) (rest : List Char)
    (sound : ∀ s ∈ before, Body s.2) (earlier : ∀ s ∈ before, Earlier s.1 h) :
    indexOf h.text (tablesText before ++ (h.text ++ rest)) = some (tablesText before).length := by
  refine index_sections (e := 'E') (m := 'C') (by decide) (before.map sectionText) _ (fun sec member => ?_)
    (fun sec member after => ?_) (List.prefix_append h.text rest)
  · obtain ⟨s, listed, rfl⟩ := List.mem_map.mp member
    exact section_marked s (sound s listed)
  · obtain ⟨s, listed, rfl⟩ := List.mem_map.mp member
    exact earlier_apart s.1 h (earlier s listed) s.2 (sound s listed) after

theorem sub_middle (pre middle post : List Char) : tSub (pre ++ (middle ++ post)) pre.length middle.length = middle := by
  rw [tSub]
  by_cases some_text : 0 < middle.length
  · rw [if_pos ⟨by omega, by simp only [List.length_append]; omega, by omega⟩, Int.toNat_natCast, Int.toNat_natCast, List.drop_left,
      List.take_left]
  · have empty : middle = [] := List.eq_nil_of_length_eq_zero (by omega)
    rw [if_neg (by omega), empty]

theorem index_start (before : Char) (text pat : List Char) (i : Nat) (found : indexOf pat text = some i) :
    tIndex before text pat 0 = i := by
  rw [tIndex, if_neg (by decide), Int.toNat_zero, List.drop_zero, found]
  exact Int.zero_add _

theorem newline_length (pre : List Char) : (pre.length : Int) + 1 = (pre ++ ['\n']).length := by
  rw [List.length_append]
  rfl

section
variable (before : Char) (pre : List Char) (h : Header) (line : List Char) (oneLine : '\n' ∉ line)
  (unmarked : ∀ c ∈ line, c ≠ 'C')
include oneLine unmarked

theorem header_one_line (text : List Char) (inside : ∀ c ∈ text, c ∈ line) :
    '\n' ∉ h.text ++ text ∧ removeAll h.text 0 (h.text ++ text) = text := by
  constructor
  · simp only [Header.text, List.mem_append, not_or]
    exact ⟨⟨by decide, fun member => (ending_plain h _ member).2.1 rfl⟩, fun member => oneLine (inside _ member)⟩
  · exact remove_all_front (e := 'E') (m := 'C') text fun member => unmarked _ (inside _ member) rfl

theorem header_line_found (rest : List Char) (found : indexOf h.text (pre ++ (h.text ++ line ++ '\n' :: rest)) = some pre.length) :
    headerLine before (pre ++ (h.text ++ line ++ '\n' :: rest)) h.text = (((pre ++ (h.text ++ line)).length : Int), line) := by
  obtain ⟨no_newline, removed⟩ := header_one_line h line oneLine unmarked line fun _ member => member
  have start := index_start before _ h.text pre.length found
  have newline : tIndex before (pre ++ (h.text ++ line ++ '\n' :: rest)) ['\n'] pre.length =
      ((pre ++ (h.text ++ line)).length : Int) := by
    rw [tIndex, if_neg (by omega), Int.toNat_natCast, List.drop_left, index_single '\n' _ rest no_newline,
      @List.length_append _ pre]
    exact (Int.natCast_add _ _).symm
  have length : ((pre ++ (h.text ++ line)).length : Int) - pre.length = (h.text ++ line).length := by
    rw [List.length_append]
    omega
  rw [headerLine]
  simp only [start, newline]
  rw [if_neg (by omega), length, sub_middle pre (h.text ++ line), removed]

-- Without a newline the line loses its last letter.
theorem header_line_last (some_line : line ≠ []) (found : indexOf h.text (pre ++ (h.text ++ line)) = some pre.length) :
    (headerLine before (pre ++ (h.text ++ line)) h.text).2 = line.dropLast := by
  obtain ⟨no_newline, _⟩ := header_one_line h line oneLine unmarked line fun _ member => member
  obtain ⟨_, removed⟩ := header_one_line h line oneLine unmarked line.dropLast fun _ member => List.mem_of_mem_dropLast member
  have start := index_start before _ h.text pre.length found
  have newline : tIndex before (pre ++ (h.text ++ line)) ['\n'] pre.length = -1 := by
    rw [tIndex, if_neg (by omega), Int.toNat_natCast, List.drop_left, index_single_none '\n' _ no_newline]
  have cut : pre ++ (h.text ++ line) = pre ++ (h.text ++ line.dropLast ++ [line.getLast some_line]) := by
    rw [List.append_assoc h.text, List.dropLast_append_getLast]
  have length : ((pre ++ (h.text ++ line)).length : Int) - 1 - pre.length = (h.text ++ line.dropLast).length := by
    rw [cut]
    simp only [List.length_append, List.length_singleton]
    omega
  rw [headerLine]
  simp only [start, newline]
  rw [if_pos (by decide), length]
  conv_lhs => rw [cut]
  rw [sub_middle pre (h.text ++ line.dropLast), removed]

end

section
variable (before : Char) (pre block : List Char) (unmarked : ∀ c ∈ block, c ≠ 'C')
include unmarked

theorem next_header (p rest : List Char) (next : rest.head? ≠ some 'C') :
    tIndex before (pre ++ '\n' :: (block ++ rest)) ('E' :: 'C' :: p) pre.length =
      match indexOf ('E' :: 'C' :: p) rest with
      | some i => ((pre ++ '\n' :: block).length : Int) + i
      | none => -1 := by
  have quiet := index_quiet (e := 'E') (m := 'C') (p := p) ('\n' :: block) rest
    (fun member => by
      cases List.mem_cons.mp member with
      | inl same => cases same
      | inr inside => exact unmarked _ inside rfl) next
  rw [List.cons_append] at quiet
  rw [tIndex, if_neg (by omega), Int.toNat_natCast, List.drop_left, quiet]
  cases indexOf ('E' :: 'C' :: p) rest with
  | none => rfl
  | some i =>
      simp only [Option.map_some, List.length_append, List.length_cons]
      push_cast
      omega

theorem profile_data_found (p rest : List Char) (here : 'E' :: 'C' :: p <+: rest) :
    profileData before (pre ++ '\n' :: (block ++ rest)) ('E' :: 'C' :: p) pre.length = block := by
  have first : rest.head? ≠ some 'C' := by
    obtain ⟨after, rfl⟩ := here
    exact fun same => absurd (Option.some.inj same) (by decide)
  have next := next_header before pre block unmarked p rest first
  rw [index_here _ _ here] at next
  have length : ((pre ++ '\n' :: block).length : Int) + (0 : Nat) - pre.length - 1 = block.length := by
    simp only [List.length_append, List.length_cons]
    push_cast
    omega
  have split : pre ++ '\n' :: (block ++ rest) = (pre ++ ['\n']) ++ (block ++ rest) := by
    rw [List.append_assoc]
    rfl
  rw [profileData]
  simp only [next]
  rw [if_neg (by omega), length, newline_length pre, split, sub_middle]

-- Without a next header the text loses its last letter.
theorem profile_data_last (p : List Char) :
    profileData before (pre ++ '\n' :: block) ('E' :: 'C' :: p) pre.length = block.dropLast := by
  have next := next_header before pre block unmarked p [] (by decide)
  rw [List.append_nil] at next
  have missing : tIndex before (pre ++ '\n' :: block) ('E' :: 'C' :: p) pre.length = -1 := next
  rw [profileData]
  simp only [missing]
  rw [if_pos (by decide)]
  by_cases some_block : block = []
  · subst some_block
    rw [tSub, if_neg]
    · rfl
    · simp only [List.length_append, List.length_singleton]
      omega
  · have split : pre ++ '\n' :: block = (pre ++ ['\n']) ++ (block.dropLast ++ [block.getLast some_block]) := by
      rw [List.dropLast_append_getLast, List.append_assoc]
      rfl
    have length : ((pre ++ '\n' :: block).length : Int) - 1 - pre.length - 1 = block.dropLast.length := by
      rw [split]
      simp only [List.length_append, List.length_singleton]
      push_cast
      omega
    rw [length, newline_length pre, split, sub_middle]

end

end Solgem

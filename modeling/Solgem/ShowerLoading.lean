import Mathlib.Tactic.NormNum
import Solgem.ShowerSections

set_option autoImplicit false

namespace Solgem

open Lib

section
variable {F : Type} [Arith F]

-- A table: its count and limits on the line of the header, and one fraction
-- more than it has bins.
structure WrittenProfile (p : ShowerProfile F) (line block : List Char) : Prop where
  limits : LimitsText ⟨p.nbins_mom, p.xmin, p.xmax⟩ line
  numbers : NumbersText p.frac block
  bins : 0 ≤ p.nbins_mom ∧ p.nbins_mom < 2147483647
  entries : (p.frac.length : Int) = p.nbins_mom + 1

-- A profile of the file, with what else stands between it and the next header.
structure HoldsProfile (file : List Char) (h : Header) (p : ShowerProfile F) : Prop where
  written : ∃ pre line block post, file = pre ++ (h.text ++ line ++ '\n' :: (block ++ post)) ∧ WrittenProfile p line block ∧
    ((∀ c ∈ post.head?, isSpace c = true) ∨ "ECAL".toList <+: post)

structure HoldsLimits (file : List Char) (h : Header) (limits : ProfileLimits F) : Prop where
  written : ∃ pre line post, file = pre ++ (h.text ++ line ++ post) ∧ LimitsText limits line ∧
    ((∀ c ∈ post.head?, isSpace c = true) ∨ "ECAL".toList <+: post)

-- Both default profiles, and every profile that is announced.
structure HoldsTables (file : List Char) (t : ShowerTables F) : Prop where
  xdefault : HoldsProfile file .xdefault t.profxdefault
  ydefault : HoldsProfile file .ydefault t.profydefault
  profilesx : HoldsLimits file .profilesx ⟨t.profx_nbins, t.profx_xmin, t.profx_xmax⟩
  profilesy : HoldsLimits file .profilesy ⟨t.profy_nbins, t.profy_ymin, t.profy_ymax⟩
  xcount : t.profx_nbins = t.profx.length
  ycount : t.profy_nbins = t.profy.length
  xbins : ∀ i p, t.profx[i]? = some p → HoldsProfile file (.xbin (i + 1)) p
  ybins : ∀ i p, t.profy[i]? = some p → HoldsProfile file (.ybin (i + 1)) p

def Complete (F : Type) [Arith F] (file : List Char) : Prop := ∃ t : ShowerTables F, HoldsTables file t

-- The bodies of numbered profiles.
inductive BinBodies : List (ShowerProfile F) → List (List Char) → Prop where
  | nil : BinBodies [] []
  | cons (p : ShowerProfile F) (ps : List (ShowerProfile F)) (line block : List Char) (bodies : List (List Char))
      (written : WrittenProfile p line block) (rest : BinBodies ps bodies) :
      BinBodies (p :: ps) ((line ++ '\n' :: block) :: bodies)

def numbered (kind : Nat → Header) (first : Nat) (bodies : List (List Char)) : List (Header × List Char) :=
  (bodies.zipIdx first).map (fun body => (kind (body.2 + 1), body.1))

-- The texts of the sections of some tables.
structure Sections (t : ShowerTables F) (xd xdblock yd ydblock px pxgap py pygap : List Char) (xbodies ybodies : List (List Char)) :
    Prop where
  xdefault : WrittenProfile t.profxdefault xd xdblock
  ydefault : WrittenProfile t.profydefault yd ydblock
  profilesx : LimitsText ⟨t.profx_nbins, t.profx_xmin, t.profx_xmax⟩ px
  gapx : Blanks pxgap
  profilesy : LimitsText ⟨t.profy_nbins, t.profy_ymin, t.profy_ymax⟩ py
  gapy : Blanks pygap
  xbins : BinBodies t.profx xbodies
  ybins : BinBodies t.profy ybodies
  xcount : t.profx_nbins = t.profx.length
  ycount : t.profy_nbins = t.profy.length

def layout (xd xdblock yd ydblock px pxgap py pygap : List Char) (xbodies ybodies : List (List Char)) :
    List (Header × List Char) :=
  (.xdefault, xd ++ '\n' :: xdblock) :: (.ydefault, yd ++ '\n' :: ydblock) :: (.profilesx, px ++ '\n' :: pxgap) ::
    (numbered .xbin 0 xbodies ++ (.profilesy, py ++ pygap) :: numbered .ybin 0 ybodies)

-- The tables in the order of the layout, the bins ascending. Only the line of
-- the last header may end without a newline, when no bin comes after it.
def Written (t : ShowerTables F) (text : List Char) : Prop :=
  ∃ xd xdblock yd ydblock px pxgap py pygap xbodies ybodies,
    Sections t xd xdblock yd ydblock px pxgap py pygap xbodies ybodies ∧
    ((∃ gap, pygap = '\n' :: gap) ∨ pygap = [] ∧ t.profy = []) ∧
    text = tablesText (layout xd xdblock yd ydblock px pxgap py pygap xbodies ybodies)

theorem plain_letter (c : Char) (plain : isNumeric c = true ∨ isSpace c = true) : c ≠ 'C' ∧ c ≠ '\x00' := by
  cases plain with
  | inl numeric => exact ⟨(numeric_plain c numeric).2.1, (numeric_plain c numeric).2.2.1⟩
  | inr space => exact ⟨space_other c 'C' space (by decide), space_other c '\x00' space (by decide)⟩

theorem limits_unmarked (limits : ProfileLimits F) (line : List Char) (written : LimitsText limits line) : ∀ c ∈ line, c ≠ 'C' :=
  fun c member => (plain_letter c ((limits_plain limits line written).1 c member)).1

theorem limits_no_nul (limits : ProfileLimits F) (line : List Char) (written : LimitsText limits line) : ∀ c ∈ line, c ≠ '\x00' :=
  fun c member => (plain_letter c ((limits_plain limits line written).1 c member)).2

theorem numbers_unmarked (xs : List F) (text : List Char) (numbers : NumbersText xs text) : ∀ c ∈ text, c ≠ 'C' :=
  fun c member => (plain_letter c (numbers_plain xs text numbers c member)).1

theorem numbers_no_nul (xs : List F) (text : List Char) (numbers : NumbersText xs text) : ∀ c ∈ text, c ≠ '\x00' :=
  fun c member => (plain_letter c (numbers_plain xs text numbers c member)).2

theorem limits_body (limits : ProfileLimits F) (line gap : List Char) (written : LimitsText limits line)
    (plain : ∀ c ∈ gap, isNumeric c = true ∨ isSpace c = true) : Body (line ++ gap) := by
  obtain ⟨letters, _, c, rest, begins, space⟩ := limits_plain limits line written
  refine ⟨⟨c, rest ++ gap, by rw [begins]; rfl, space⟩, fun c member => ?_⟩
  cases List.mem_append.mp member with
  | inl inLine => exact (plain_letter c (letters c inLine)).1
  | inr inGap => exact (plain_letter c (plain c inGap)).1

theorem profile_body (p : ShowerProfile F) (line block : List Char) (written : WrittenProfile p line block) :
    Body (line ++ '\n' :: block) :=
  limits_body _ line _ written.limits (List.forall_mem_cons.mpr ⟨.inr rfl, numbers_plain p.frac block written.numbers⟩)

theorem read_limits_text (limits : ProfileLimits F) (line : List Char) (written : LimitsText limits line) (old : ProfileLimits F) :
    readLimits line old = limits := by
  obtain ⟨last, of, _, same, reads⟩ := limits_last limits line written
  have plain : ∀ c ∈ last.front ++ (last.w ++ last.trail), c ≠ '\x00' := by
    rw [← of.whole]
    exact limits_no_nul limits line written
  have read := reads (last.w ++ last.trail) old plain
  have word := read_double_spelled [] last.w last.trail last.x old.max (fun _ member => absurd member List.not_mem_nil) of.spelled
    fun c first => of.blanks c (List.mem_of_mem_head? first)
  rw [List.nil_append] at word
  rw [← of.whole, word, ← same] at read
  exact read

-- The sections of a file that the searches find.
structure Laid (sections : List (Header × List Char)) : Prop where
  sound : ∀ s ∈ sections, Body s.2
  order : sections.Pairwise (fun a b => Earlier a.1 b.1)

omit [Arith F] in
theorem tables_append (sections sections' : List (Header × List Char)) :
    tablesText (sections ++ sections') = tablesText sections ++ tablesText sections' := by
  rw [tablesText, List.map_append, List.flatten_append]
  rfl

omit [Arith F] in
theorem tables_cons (s : Header × List Char) (sections : List (Header × List Char)) :
    tablesText (s :: sections) = s.1.text ++ (s.2 ++ tablesText sections) := by
  rw [tablesText, List.map_cons, List.flatten_cons, sectionText, List.append_assoc]
  rfl

omit [Arith F] in
theorem laid_found (before : List (Header × List Char)) (h : Header) (body : List Char) (after : List (Header × List Char))
    (laid : Laid (before ++ (h, body) :: after)) :
    indexOf h.text (tablesText (before ++ (h, body) :: after)) = some (tablesText before).length := by
  rw [tables_append, tables_cons]
  refine header_found before h _ (fun s member => laid.sound s (List.mem_append_left _ member)) fun s member => ?_
  exact (List.pairwise_append.mp laid.order).2.2 s member (h, body) List.mem_cons_self

omit [Arith F] in
theorem next_section (s : Header × List Char) (rest : List (Header × List Char)) (p : List Char)
    (here : 'E' :: 'C' :: p <+: headerWord) : 'E' :: 'C' :: p <+: tablesText (s :: rest) := by
  rw [tables_cons, Header.text, List.append_assoc]
  exact here.trans (List.prefix_append headerWord _)

theorem resize_fresh (n : Int) (bins : 0 ≤ n ∧ n < 2147483647) :
    resize (toInt32 (n + 1)) (0.0 : F) [] = some (List.replicate (n + 1).toNat 0.0) := by
  rw [int32_exact _ (by omega) (by omega), resize, if_neg (by omega)]
  simp

-- A profile with a header after it is read as it is written.
theorem read_profile_inner (b : Char) (before : List (Header × List Char)) (h : Header) (line block : List Char)
    (s : Header × List Char) (after : List (Header × List Char)) (laid : Laid (before ++ (h, line ++ '\n' :: block) :: s :: after))
    (p : ShowerProfile F) (written : WrittenProfile p line block) (next : List Char) (here : 'E' :: 'C' :: next <+: headerWord)
    (old : ShowerProfile F) (fresh : old.frac = []) :
    readProfile b (tablesText (before ++ (h, line ++ '\n' :: block) :: s :: after)) h.text ('E' :: 'C' :: next) old = some p := by
  have found := laid_found before h _ _ laid
  have one_line := (limits_plain _ line written.limits).2.1
  have unmarked := numbers_unmarked p.frac block written.numbers
  have text : tablesText (before ++ (h, line ++ '\n' :: block) :: s :: after) =
      tablesText before ++ (h.text ++ line ++ '\n' :: (block ++ tablesText (s :: after))) := by
    rw [tables_append, tables_cons]
    simp only [List.append_assoc, List.cons_append]
  rw [text] at found ⊢
  have header := header_line_found b (tablesText before) h line one_line (limits_unmarked _ line written.limits) _ found
  have data := profile_data_found b (tablesText before ++ (h.text ++ line)) block unmarked next (tablesText (s :: after))
    (next_section s after next here)
  rw [List.append_assoc (tablesText before)] at data
  have size : (List.replicate (p.nbins_mom + 1).toNat (0.0 : F)).length = p.frac.length := by
    have entries := written.entries
    rw [List.length_replicate]
    omega
  rw [readProfile]
  simp only [header, read_limits_text _ line written.limits, fresh, resize_fresh p.nbins_mom written.bins, data, Option.map_some,
    data_stream_plain block (numbers_no_nul p.frac block written.numbers)]
  rw [read_fractions_text p.frac block written.numbers _ size]

-- The fractions without the last letter of their text: all but the last one are
-- read as they are written.
theorem fractions_cut (p : ShowerProfile F) (line block : List Char) (written : WrittenProfile p line block) :
    ∃ (last : LastNumber F) (front : List F), last.Of block ∧ p.frac = front ++ [last.x] ∧
      readFractions (List.replicate (p.nbins_mom + 1).toNat 0.0) (dataStream block.dropLast) =
        front ++ [((IStringStream.opened (last.w ++ last.trail).dropLast).readDouble 0.0).1] := by
  have entries := written.entries
  have bins := written.bins
  have some_numbers : p.frac ≠ [] := by
    intro none_read
    rw [none_read] at entries
    simp only [List.length_nil] at entries
    omega
  obtain ⟨last, front, of, same, reads⟩ := numbers_last p.frac block written.numbers some_numbers
  have count : (p.nbins_mom + 1).toNat = front.length + 1 := by
    have size := congrArg List.length same
    rw [List.length_append, List.length_singleton] at size
    omega
  have noNul := numbers_no_nul p.frac block written.numbers
  refine ⟨last, front, of, same, ?_⟩
  rw [data_stream_plain _ fun c member => noNul c (List.mem_of_mem_dropLast member), last_cut last block of, count,
    List.replicate_succ', reads _ (List.replicate front.length 0.0) 0.0 List.length_replicate]

-- The profile at the end of the file.
theorem read_profile_last (b : Char) (before : List (Header × List Char)) (h : Header) (line block : List Char)
    (laid : Laid (before ++ [(h, line ++ '\n' :: block)])) (p : ShowerProfile F) (written : WrittenProfile p line block)
    (next : List Char) (old : ShowerProfile F) (fresh : old.frac = []) :
    ∃ p', readProfile b (tablesText (before ++ [(h, line ++ '\n' :: block)])) h.text ('E' :: 'C' :: next) old = some p' ∧
      (p' = p ↔ KeepsLast (tablesText (before ++ [(h, line ++ '\n' :: block)])) (0.0 : F)) := by
  have found := laid_found before h _ _ laid
  have one_line := (limits_plain _ line written.limits).2.1
  have unmarked := numbers_unmarked p.frac block written.numbers
  have text : tablesText (before ++ [(h, line ++ '\n' :: block)]) = tablesText before ++ (h.text ++ line ++ '\n' :: block) := by
    rw [tables_append, tables_cons]
    simp [tablesText]
  rw [text] at found ⊢
  have header := header_line_found b (tablesText before) h line one_line (limits_unmarked _ line written.limits) _ found
  have data := profile_data_last b (tablesText before ++ (h.text ++ line)) block unmarked next
  rw [List.append_assoc (tablesText before)] at data
  obtain ⟨last, front, of, same, reads⟩ := fractions_cut p line block written
  have newline : ∀ c ∈ (tablesText before ++ (h.text ++ line) ++ ['\n']).getLast?, isSpace c = true := by
    intro c ends
    rw [List.getLast?_concat] at ends
    cases ends
    rfl
  have keeps := keeps_last_iff last (tablesText before ++ (h.text ++ line) ++ ['\n']) block of (last_apart last block of _ newline)
    (0.0 : F)
  rw [List.append_assoc, List.append_assoc, List.singleton_append] at keeps
  refine ⟨⟨p.nbins_mom, p.xmin, p.xmax, front ++ [((IStringStream.opened (last.w ++ last.trail).dropLast).readDouble 0.0).1]⟩,
    ?_, ?_⟩
  · rw [readProfile]
    simp only [header, read_limits_text _ line written.limits, fresh, resize_fresh p.nbins_mom written.bins, data, Option.map_some,
      reads]
  · rw [keeps]
    constructor
    · intro equal
      have fracs := congrArg ShowerProfile.frac equal
      rw [same] at fracs
      exact List.cons_eq_cons.mp (List.append_cancel_left fracs) |>.1
    · intro equal
      rw [equal, ← same]

omit [Arith F] in
theorem laid_assoc (before : List (Header × List Char)) (s : Header × List Char) (rest : List (Header × List Char)) :
    before ++ s :: rest = before ++ [s] ++ rest := by
  rw [List.append_assoc, List.singleton_append]

omit [Arith F] in
theorem numbered_cons (kind : Nat → Header) (k : Nat) (body : List Char) (bodies : List (List Char)) :
    numbered kind k (body :: bodies) = (kind (k + 1), body) :: numbered kind (k + 1) bodies := rfl

theorem read_bins_inner (b : Char) (kind : Nat → Header) (ps : List (ShowerProfile F)) (bodies : List (List Char))
    (written : BinBodies ps bodies) (k : Nat) (before : List (Header × List Char)) (s : Header × List Char)
    (after : List (Header × List Char)) (laid : Laid (before ++ (numbered kind k bodies ++ s :: after))) (next : List Char)
    (here : 'E' :: 'C' :: next <+: headerWord) :
    ((List.replicate ps.length (blankProfile : ShowerProfile F)).zipIdx k).mapM (fun entry =>
      readProfile b (tablesText (before ++ (numbered kind k bodies ++ s :: after))) (kind (entry.2 + 1)).text ('E' :: 'C' :: next)
        entry.1) = some ps := by
  induction written generalizing k before with
  | nil => rfl
  | cons p ps line block bodies written _ ih =>
      rw [numbered_cons, List.cons_append] at laid ⊢
      have later := ih (k + 1) (before ++ [(kind (k + 1), line ++ '\n' :: block)]) (by rw [← laid_assoc]; exact laid)
      rw [← laid_assoc] at later
      have first : readProfile b (tablesText (before ++ (kind (k + 1), line ++ '\n' :: block) ::
          (numbered kind (k + 1) bodies ++ s :: after))) (kind (k + 1)).text ('E' :: 'C' :: next) (blankProfile : ShowerProfile F) =
          some p := by
        cases rest : numbered kind (k + 1) bodies ++ s :: after with
        | nil => exact absurd rest (by simp)
        | cons s' after' =>
            rw [rest] at laid
            exact read_profile_inner b before _ line block s' after' laid p written next here blankProfile rfl
      rw [List.length_cons, List.replicate_succ, List.zipIdx_cons, List.mapM_cons, first, Option.bind_eq_bind, Option.bind_some,
        later]
      rfl

theorem read_bins_last (b : Char) (kind : Nat → Header) (ps : List (ShowerProfile F)) (bodies : List (List Char))
    (written : BinBodies ps bodies) (some_bins : ps ≠ []) (k : Nat) (before : List (Header × List Char))
    (laid : Laid (before ++ numbered kind k bodies)) (next : List Char) (here : 'E' :: 'C' :: next <+: headerWord) :
    ∃ ps', ((List.replicate ps.length (blankProfile : ShowerProfile F)).zipIdx k).mapM (fun entry =>
      readProfile b (tablesText (before ++ numbered kind k bodies)) (kind (entry.2 + 1)).text ('E' :: 'C' :: next) entry.1) =
        some ps' ∧ (ps' = ps ↔ KeepsLast (tablesText (before ++ numbered kind k bodies)) (0.0 : F)) := by
  induction written generalizing k before with
  | nil => exact absurd rfl some_bins
  | cons p ps line block bodies written rest ih =>
      rw [numbered_cons] at laid ⊢
      cases rest with
      | nil =>
          obtain ⟨p', read, keeps⟩ := read_profile_last b before (kind (k + 1)) line block laid p written next blankProfile rfl
          refine ⟨[p'], ?_, ?_⟩
          · change ([(blankProfile, k)] : List (ShowerProfile F × Nat)).mapM _ = _
            rw [List.mapM_cons]
            exact Option.bind_eq_some_iff.mpr ⟨p', read, rfl⟩
          · rw [List.cons_eq_cons]
            exact ⟨fun same => keeps.mp same.1, fun kept => ⟨keeps.mpr kept, rfl⟩⟩
      | cons p₂ ps line₂ block₂ bodies written₂ rest =>
          obtain ⟨ps', later, keeps⟩ := ih (List.cons_ne_nil _ _) (k + 1) (before ++ [(kind (k + 1), line ++ '\n' :: block)])
            (by rw [← laid_assoc]; exact laid)
          rw [← laid_assoc] at later keeps
          rw [numbered_cons] at laid later keeps ⊢
          have first := read_profile_inner b before (kind (k + 1)) line block _ _ laid p written next here blankProfile rfl
          refine ⟨p :: ps', ?_, ?_⟩
          · rw [List.length_cons, List.replicate_succ, List.zipIdx_cons, List.mapM_cons, first, Option.bind_eq_bind, Option.bind_some,
              later]
            rfl
          · rw [List.cons_eq_cons]
            exact ⟨fun same => keeps.mp same.2, fun kept => ⟨rfl, keeps.mpr kept⟩⟩

theorem read_limits_inner (b : Char) (before : List (Header × List Char)) (h : Header) (line gap : List Char)
    (after : List (Header × List Char)) (laid : Laid (before ++ (h, line ++ '\n' :: gap) :: after)) (limits : ProfileLimits F)
    (written : LimitsText limits line) (old : ProfileLimits F) :
    readLimits (headerLine b (tablesText (before ++ (h, line ++ '\n' :: gap) :: after)) h.text).2 old = limits := by
  have found := laid_found before h _ _ laid
  have one_line := (limits_plain _ line written).2.1
  have text : tablesText (before ++ (h, line ++ '\n' :: gap) :: after) =
      tablesText before ++ (h.text ++ line ++ '\n' :: (gap ++ tablesText after)) := by
    rw [tables_append, tables_cons]
    simp only [List.append_assoc, List.cons_append]
  rw [text] at found ⊢
  rw [header_line_found b (tablesText before) h line one_line (limits_unmarked limits line written) _ found]
  exact read_limits_text limits line written old

-- The line at the end of a file without a newline.
theorem read_limits_last (b : Char) (before : List (Header × List Char)) (h : Header) (line : List Char)
    (laid : Laid (before ++ [(h, line)])) (limits : ProfileLimits F) (written : LimitsText limits line) (old : ProfileLimits F) :
    ∃ max, readLimits (headerLine b (tablesText (before ++ [(h, line)])) h.text).2 old = ⟨limits.nbins, limits.min, max⟩ ∧
      (max = limits.max ↔ KeepsLast (tablesText (before ++ [(h, line)])) old.max) := by
  have found := laid_found before h _ _ laid
  obtain ⟨_, one_line, c, rest, begins, _⟩ := limits_plain _ line written
  have some_line : line ≠ [] := by
    rw [begins]
    exact List.cons_ne_nil c rest
  have text : tablesText (before ++ [(h, line)]) = tablesText before ++ (h.text ++ line) := by
    rw [tables_append, tables_cons]
    simp [tablesText]
  obtain ⟨last, of, some_front, same, reads⟩ := limits_last limits line written
  have plain : ∀ c ∈ last.front ++ (last.w ++ last.trail).dropLast, c ≠ '\x00' := by
    rw [← last_cut last line of]
    exact fun c member => limits_no_nul limits line written c (List.mem_of_mem_dropLast member)
  have keeps := keeps_last_iff last (tablesText before ++ h.text) line of
    (fun c ends => of.apart c (by rwa [List.getLast?_append_of_ne_nil _ some_front] at ends)) old.max
  rw [List.append_assoc] at keeps
  rw [text] at found ⊢
  refine ⟨((IStringStream.opened (last.w ++ last.trail).dropLast).readDouble old.max).1, ?_, ?_⟩
  · rw [header_line_last b (tablesText before) h line one_line (limits_unmarked limits line written) some_line found,
      last_cut last line of]
    exact reads _ old plain
  · rw [keeps, same]

omit [Arith F] in
theorem numbered_member (kind : Nat → Header) (k : Nat) (bodies : List (List Char)) (s : Header × List Char)
    (member : s ∈ numbered kind k bodies) : ∃ n, k < n ∧ s.1 = kind n := by
  obtain ⟨entry, listed, rfl⟩ := List.mem_map.mp member
  exact ⟨entry.2 + 1, Nat.lt_succ_of_le (List.mem_zipIdx listed).1, rfl⟩

omit [Arith F] in
theorem numbered_order (kind : Nat → Header) (steps : ∀ j k, j < k → Earlier (kind j) (kind k)) (k : Nat)
    (bodies : List (List Char)) : (numbered kind k bodies).Pairwise (fun a b => Earlier a.1 b.1) := by
  induction bodies generalizing k with
  | nil => exact List.Pairwise.nil
  | cons body bodies ih =>
      rw [numbered_cons]
      refine List.pairwise_cons.mpr ⟨fun s member => ?_, ih (k + 1)⟩
      obtain ⟨n, later, same⟩ := numbered_member kind (k + 1) bodies s member
      rw [same]
      exact steps (k + 1) n later

theorem numbered_sound (kind : Nat → Header) (ps : List (ShowerProfile F)) (bodies : List (List Char)) (written : BinBodies ps bodies)
    (k : Nat) : ∀ s ∈ numbered kind k bodies, Body s.2 := by
  induction written generalizing k with
  | nil => exact fun s member => absurd member List.not_mem_nil
  | cons p ps line block bodies written _ ih =>
      rw [numbered_cons]
      exact List.forall_mem_cons.mpr ⟨profile_body p line block written, ih (k + 1)⟩

omit [Arith F] in
theorem layout_order (xd xdblock yd ydblock px pxgap py pygap : List Char) (xbodies ybodies : List (List Char)) :
    (layout xd xdblock yd ydblock px pxgap py pygap xbodies ybodies).Pairwise (fun a b => Earlier a.1 b.1) := by
  have xrank : ∀ s ∈ numbered .xbin 0 xbodies, s.1.rank = 3 := by
    intro s member
    obtain ⟨n, _, same⟩ := numbered_member .xbin 0 xbodies s member
    rw [same, Header.rank]
  have yrank : ∀ s ∈ numbered .ybin 0 ybodies, s.1.rank = 5 := by
    intro s member
    obtain ⟨n, _, same⟩ := numbered_member .ybin 0 ybodies s member
    rw [same, Header.rank]
  have bins : ∀ s ∈ numbered .xbin 0 xbodies ++ (.profilesy, py ++ pygap) :: numbered .ybin 0 ybodies, 3 ≤ s.1.rank := by
    intro s member
    cases List.mem_append.mp member with
    | inl inX => exact (xrank s inX).ge
    | inr others =>
        cases List.mem_cons.mp others with
        | inl single => rw [single]; exact Nat.le_succ 3
        | inr inY => rw [yrank s inY]; decide
  rw [layout]
  refine List.pairwise_cons.mpr ⟨fun s member => ?_, List.pairwise_cons.mpr ⟨fun s member => ?_,
    List.pairwise_cons.mpr ⟨fun s member => ?_, List.pairwise_append.mpr ⟨numbered_order .xbin earlier_xbin 0 xbodies,
      List.pairwise_cons.mpr ⟨fun s member => ?_, numbered_order .ybin earlier_ybin 0 ybodies⟩, fun a member s member' => ?_⟩⟩⟩⟩
  · refine earlier_rank .xdefault s.1 ?_
    simp only [List.mem_cons] at member
    rcases member with rfl | rfl | member
    · exact Nat.zero_lt_one
    · exact Nat.zero_lt_two
    · exact Nat.lt_of_lt_of_le (by decide) (bins s member)
  · refine earlier_rank .ydefault s.1 ?_
    simp only [List.mem_cons] at member
    rcases member with rfl | member
    · exact Nat.one_lt_two
    · exact Nat.lt_of_lt_of_le (by decide) (bins s member)
  · exact earlier_rank .profilesx s.1 (Nat.lt_of_lt_of_le (by decide) (bins s member))
  · exact earlier_rank .profilesy s.1 (by rw [yrank s member]; decide)
  · refine earlier_rank a.1 s.1 ?_
    rw [xrank a member]
    cases List.mem_cons.mp member' with
    | inl single => rw [single]; exact Nat.lt_succ_self 3
    | inr inY => rw [yrank s inY]; decide

theorem layout_laid (t : ShowerTables F) (xd xdblock yd ydblock px pxgap py pygap : List Char) (xbodies ybodies : List (List Char))
    (sections : Sections t xd xdblock yd ydblock px pxgap py pygap xbodies ybodies) :
    Laid (layout xd xdblock yd ydblock px pxgap py pygap xbodies ybodies) := by
  refine ⟨?_, layout_order xd xdblock yd ydblock px pxgap py pygap xbodies ybodies⟩
  refine List.forall_mem_cons.mpr ⟨profile_body _ _ _ sections.xdefault, List.forall_mem_cons.mpr
    ⟨profile_body _ _ _ sections.ydefault, List.forall_mem_cons.mpr ⟨?_, List.forall_mem_append.mpr
      ⟨numbered_sound .xbin _ _ sections.xbins 0, List.forall_mem_cons.mpr ⟨?_, numbered_sound .ybin _ _ sections.ybins 0⟩⟩⟩⟩⟩
  · exact limits_body _ _ _ sections.profilesx (List.forall_mem_cons.mpr ⟨.inr rfl, fun c member => .inr (sections.gapx c member)⟩)
  · exact limits_body _ _ _ sections.profilesy fun c member => .inr (sections.gapy c member)

theorem read_bins_fresh (b : Char) (text : List Char) (pfx : String) (kind : Nat → Header) (name : ∀ n, form pfx n = (kind n).text)
    (n : Int) (ps : List (ShowerProfile F)) (count : n = ps.length) :
    readBins b text pfx n ([] : List (ShowerProfile F)) =
      ((List.replicate ps.length (blankProfile : ShowerProfile F)).zipIdx 0).mapM (fun entry =>
        readProfile b text (kind (entry.2 + 1)).text ['E', 'C', 'A', 'L'] entry.1) := by
  have mark : "ECAL".toList = ['E', 'C', 'A', 'L'] := by simp
  have fresh : resize n (blankProfile : ShowerProfile F) [] = some (List.replicate ps.length blankProfile) := by
    rw [resize, if_neg (by omega), count]
    simp
  rw [readBins, fresh, mark]
  simp only [Option.bind_eq_bind, Option.bind_some, name]

-- The members the constructor of the decoder leaves: empty vectors, and numbers
-- that nothing has written.
structure ShowerTables.Constructed (t : ShowerTables F) : Prop where
  xdefault : t.profxdefault.frac = []
  ydefault : t.profydefault.frac = []
  profx : t.profx = []
  profy : t.profy = []

-- What the variable of the last number of a file holds before it is read.
def lastOld (tables memory : ShowerTables F) : F := if tables.profy.isEmpty then memory.profy_ymax else 0.0

-- The texts the code searches for.
theorem x_default_name : "ECAL_shower_profile_x_default".toList = Header.text .xdefault := by
  simp [Header.text, headerWord, Header.ending]

theorem y_default_name : "ECAL_shower_profile_y_default".toList = Header.text .ydefault := by
  simp [Header.text, headerWord, Header.ending]

theorem profiles_x_name : "ECAL_shower_profiles_x".toList = Header.text .profilesx := by
  simp [Header.text, headerWord, Header.ending]

theorem profiles_y_name : "ECAL_shower_profiles_y".toList = Header.text .profilesy := by
  simp [Header.text, headerWord, Header.ending]

theorem x_bin_name (n : Nat) : form "ECAL_shower_profile_x_bin " n = Header.text (.xbin n) := by
  simp [form, Header.text, headerWord, Header.ending]

theorem y_bin_name (n : Nat) : form "ECAL_shower_profile_y_bin " n = Header.text (.ybin n) := by
  simp [form, Header.text, headerWord, Header.ending]

omit [Arith F] in
theorem layout_split (xd xdblock yd ydblock px pxgap py pygap : List Char) (xbodies ybodies : List (List Char)) :
    ∃ before, layout xd xdblock yd ydblock px pxgap py pygap xbodies ybodies =
      before ++ (.profilesy, py ++ pygap) :: numbered .ybin 0 ybodies := ⟨_ :: _ :: _ :: numbered .xbin 0 xbodies, rfl⟩

-- A file that ends in a blank keeps its last number.
theorem keeps_blank (text gap : List Char) (blanks : Blanks gap) (old : F) : KeepsLast (text ++ '\n' :: gap) old := by
  refine .inl ⟨('\n' :: gap).getLast (List.cons_ne_nil _ _), ?_, ?_⟩
  · rw [List.getLast?_append_of_ne_nil _ (List.cons_ne_nil _ _), List.getLast?_eq_getLast_of_ne_nil]
  · cases List.mem_cons.mp (List.getLast_mem (List.cons_ne_nil '\n' gap)) with
    | inl newline => rw [newline]; rfl
    | inr blank => exact blanks _ blank

-- The limits and the bins in y, the last tables of the file.
theorem load_y_tables (b : Char) (memory tables : ShowerTables F) (before : List (Header × List Char)) (py pygap : List Char)
    (ybodies : List (List Char)) (laid : Laid (before ++ (.profilesy, py ++ pygap) :: numbered .ybin 0 ybodies))
    (limits : LimitsText ⟨tables.profy_nbins, tables.profy_ymin, tables.profy_ymax⟩ py) (blanks : Blanks pygap)
    (bins : BinBodies tables.profy ybodies) (count : tables.profy_nbins = tables.profy.length)
    (ends : (∃ gap, pygap = '\n' :: gap) ∨ pygap = [] ∧ tables.profy = []) (text : List Char)
    (whole : text = tablesText (before ++ (.profilesy, py ++ pygap) :: numbered .ybin 0 ybodies)) :
    ∃ max profy,
      readLimits (headerLine b text Header.profilesy.text).2 ⟨memory.profy_nbins, memory.profy_ymin, memory.profy_ymax⟩ =
        ⟨tables.profy_nbins, tables.profy_ymin, max⟩ ∧
      readBins b text "ECAL_shower_profile_y_bin " tables.profy_nbins [] = some profy ∧
      (max = tables.profy_ymax ∧ profy = tables.profy ↔ KeepsLast text (lastOld tables memory)) := by
  subst whole
  cases empty : tables.profy with
  | nil =>
      rw [empty] at bins count
      cases bins
      have old : lastOld tables memory = memory.profy_ymax := by rw [lastOld, empty]; rfl
      have none_read := read_bins_fresh b (tablesText (before ++ (.profilesy, py ++ pygap) :: numbered .ybin 0 []))
        "ECAL_shower_profile_y_bin " .ybin y_bin_name _ ([] : List (ShowerProfile F)) count
      rw [old]
      cases ends with
      | inl newline =>
          obtain ⟨gap, rfl⟩ := newline
          refine ⟨tables.profy_ymax, [], read_limits_inner b before .profilesy py gap [] laid _ limits _, none_read,
            fun _ => ?_, fun _ => ⟨rfl, rfl⟩⟩
          have text : tablesText (before ++ [(.profilesy, py ++ '\n' :: gap)]) =
              tablesText before ++ (Header.profilesy.text ++ py) ++ '\n' :: gap := by
            rw [tables_append, tables_cons]
            simp [tablesText]
          change KeepsLast (tablesText (before ++ [(.profilesy, py ++ '\n' :: gap)])) _
          rw [text]
          exact keeps_blank _ gap (fun c member => blanks c (List.mem_cons_of_mem _ member)) _
      | inr ended =>
          obtain ⟨rfl, _⟩ := ended
          rw [List.append_nil] at laid none_read ⊢
          obtain ⟨max, read, keeps⟩ := read_limits_last b before .profilesy py laid _ limits
            ⟨memory.profy_nbins, memory.profy_ymin, memory.profy_ymax⟩
          exact ⟨max, [], read, none_read, fun both => keeps.mp both.1, fun kept => ⟨keeps.mpr kept, rfl⟩⟩
  | cons p ps =>
      have some_bins : tables.profy ≠ [] := by rw [empty]; exact List.cons_ne_nil p ps
      have old : lastOld tables memory = 0.0 := by rw [lastOld, empty]; rfl
      obtain ⟨gap, rfl⟩ := ends.resolve_right fun ended => some_bins ended.2
      have read := read_limits_inner b before .profilesy py gap _ laid _ limits
        ⟨memory.profy_nbins, memory.profy_ymin, memory.profy_ymax⟩
      rw [laid_assoc before] at laid read ⊢
      obtain ⟨profy, readBins, keeps⟩ := read_bins_last b .ybin tables.profy ybodies bins some_bins 0 _ laid ['A', 'L'] (by decide)
      rw [← read_bins_fresh b _ "ECAL_shower_profile_y_bin " .ybin y_bin_name _ _ count] at readBins
      rw [old, ← empty]
      exact ⟨tables.profy_ymax, profy, read, readBins, fun both => keeps.mp both.2, fun kept => ⟨rfl, keeps.mpr kept⟩⟩

theorem load_written (b : Char) (memory : ShowerTables F) (constructed : memory.Constructed) (tables : ShowerTables F)
    (text : List Char) (written : Written tables text) :
    ∃ t, loadShowerProfiles b text memory = some (true, t) ∧ (t = tables ↔ KeepsLast text (lastOld tables memory)) := by
  obtain ⟨xd, xdblock, yd, ydblock, px, pxgap, py, pygap, xbodies, ybodies, sections, ends, whole⟩ := written
  have laid := layout_laid tables xd xdblock yd ydblock px pxgap py pygap xbodies ybodies sections
  obtain ⟨before, split⟩ := layout_split xd xdblock yd ydblock px pxgap py pygap xbodies ybodies
  have mark : "ECAL_shower_profile".toList = 'E' :: 'C' :: headerWord.drop 2 := by simp [headerWord]
  have readXd : readProfile b text Header.xdefault.text ('E' :: 'C' :: headerWord.drop 2) memory.profxdefault =
      some tables.profxdefault := by
    rw [whole]
    exact read_profile_inner b [] .xdefault xd xdblock _ _ laid _ sections.xdefault _ (List.prefix_refl headerWord) _
      constructed.xdefault
  have readYd : readProfile b text Header.ydefault.text ('E' :: 'C' :: headerWord.drop 2) memory.profydefault =
      some tables.profydefault := by
    rw [whole]
    exact read_profile_inner b [_] .ydefault yd ydblock _ _ laid _ sections.ydefault _ (List.prefix_refl headerWord) _
      constructed.ydefault
  have readXs : readLimits (headerLine b text Header.profilesx.text).2 ⟨memory.profx_nbins, memory.profx_xmin, memory.profx_xmax⟩ =
      ⟨tables.profx_nbins, tables.profx_xmin, tables.profx_xmax⟩ := by
    rw [whole]
    exact read_limits_inner b [_, _] .profilesx px pxgap _ laid _ sections.profilesx _
  have readX : readBins b text "ECAL_shower_profile_x_bin " tables.profx_nbins [] = some tables.profx := by
    rw [whole, read_bins_fresh b _ _ .xbin x_bin_name _ _ sections.xcount]
    exact read_bins_inner b .xbin tables.profx xbodies sections.xbins 0 [_, _, _] _ _ laid ['A', 'L'] (by decide)
  rw [split] at laid whole
  obtain ⟨max, profy, readYs, readY, keeps⟩ := load_y_tables b memory tables before py pygap ybodies laid sections.profilesy
    sections.gapy sections.ybins sections.ycount ends text whole
  refine ⟨{ tables with profy_ymax := max, profy := profy }, ?_, ?_⟩
  · rw [loadShowerProfiles, mark, x_default_name, y_default_name, profiles_x_name, profiles_y_name, constructed.profx,
      constructed.profy, readXs, readYs]
    simp only [readXd, readYd, readX, readY, Option.bind_eq_bind, Option.bind_some]
    rfl
  · rw [← keeps]
    constructor
    · intro same
      exact ⟨congrArg ShowerTables.profy_ymax same, congrArg ShowerTables.profy same⟩
    · rintro ⟨sameMax, sameBins⟩
      rw [sameMax, sameBins]

omit [Arith F] in
theorem ends_apart (after : List (Header × List Char)) :
    (∀ c ∈ (tablesText after).head?, isSpace c = true) ∨ "ECAL".toList <+: tablesText after := by
  cases after with
  | nil => exact .inl fun _ first => nomatch first
  | cons s rest =>
      refine .inr ?_
      have mark : "ECAL".toList = 'E' :: 'C' :: ['A', 'L'] := by simp
      rw [mark]
      exact next_section s rest ['A', 'L'] (by decide)

theorem section_holds (before : List (Header × List Char)) (h : Header) (line block : List Char)
    (after : List (Header × List Char)) (p : ShowerProfile F) (written : WrittenProfile p line block) :
    HoldsProfile (tablesText (before ++ (h, line ++ '\n' :: block) :: after)) h p := by
  refine ⟨tablesText before, line, block, tablesText after, ?_, written, ends_apart after⟩
  rw [tables_append, tables_cons]
  simp only [List.append_assoc, List.cons_append]

theorem limits_hold (before : List (Header × List Char)) (h : Header) (line gap : List Char)
    (after : List (Header × List Char)) (limits : ProfileLimits F) (written : LimitsText limits line) (blanks : Blanks gap) :
    HoldsLimits (tablesText (before ++ (h, line ++ gap) :: after)) h limits := by
  refine ⟨tablesText before, line, gap ++ tablesText after, ?_, written, ?_⟩
  · rw [tables_append, tables_cons]
    simp only [List.append_assoc]
  · cases gap with
    | nil => exact ends_apart after
    | cons c gap =>
        refine .inl fun d first => ?_
        cases first
        exact blanks c List.mem_cons_self

theorem bin_split (kind : Nat → Header) (ps : List (ShowerProfile F)) (bodies : List (List Char)) (written : BinBodies ps bodies)
    (k i : Nat) (p : ShowerProfile F) (listed : ps[i]? = some p) :
    ∃ line block front rest, WrittenProfile p line block ∧
      numbered kind k bodies = front ++ (kind (k + i + 1), line ++ '\n' :: block) :: rest := by
  induction written generalizing k i with
  | nil => cases listed
  | cons p' ps line block bodies written _ ih =>
      rw [numbered_cons]
      cases i with
      | zero =>
          cases listed
          exact ⟨line, block, [], _, written, rfl⟩
      | succ i =>
          obtain ⟨line', block', front, rest, written', split⟩ := ih (k + 1) i listed
          have number : k + 1 + i + 1 = k + (i + 1) + 1 := by omega
          rw [split, number]
          exact ⟨line', block', _ :: front, rest, written', rfl⟩

-- What is written in the layout is complete.
theorem written_holds (tables : ShowerTables F) (text : List Char) (written : Written tables text) : HoldsTables text tables := by
  obtain ⟨xd, xdblock, yd, ydblock, px, pxgap, py, pygap, xbodies, ybodies, sections, ends, rfl⟩ := written
  refine ⟨?_, ?_, ?_, ?_, sections.xcount, sections.ycount, fun i p listed => ?_, fun i p listed => ?_⟩
  · exact section_holds [] .xdefault xd xdblock _ _ sections.xdefault
  · exact section_holds [_] .ydefault yd ydblock _ _ sections.ydefault
  · exact limits_hold [_, _] .profilesx px ('\n' :: pxgap) _ _ sections.profilesx
      (List.forall_mem_cons.mpr ⟨rfl, sections.gapx⟩)
  · exact limits_hold (_ :: _ :: _ :: numbered .xbin 0 xbodies) .profilesy py pygap (numbered .ybin 0 ybodies) _ sections.profilesy
      sections.gapy
  · obtain ⟨line, block, front, rest, written, split⟩ := bin_split .xbin tables.profx xbodies sections.xbins 0 i p listed
    have holds (first second third : Header × List Char) := section_holds (first :: second :: third :: front) (.xbin (i + 1)) line
      block (rest ++ (.profilesy, py ++ pygap) :: numbered .ybin 0 ybodies) p written
    rw [layout, split, Nat.zero_add, List.append_assoc]
    exact holds _ _ _
  · obtain ⟨line, block, front, rest, written, split⟩ := bin_split .ybin tables.profy ybodies sections.ybins 0 i p listed
    have holds (first second third : Header × List Char) := section_holds
      (first :: second :: third :: (numbered .xbin 0 xbodies ++ (.profilesy, py ++ pygap) :: front)) (.ybin (i + 1)) line block rest
      p written
    rw [layout, split, Nat.zero_add]
    simp only [List.cons_append, List.append_assoc] at holds ⊢
    exact holds _ _ _

theorem load_returns_true (b : Char) (file : List Char) (memory : ShowerTables F) (ok : Bool) (t : ShowerTables F)
    (loaded : loadShowerProfiles b file memory = some (ok, t)) : ok = true := by
  obtain ⟨_, _, loaded⟩ := Option.bind_eq_some_iff.mp loaded
  obtain ⟨_, _, loaded⟩ := Option.bind_eq_some_iff.mp loaded
  obtain ⟨_, _, loaded⟩ := Option.bind_eq_some_iff.mp loaded
  obtain ⟨_, _, loaded⟩ := Option.bind_eq_some_iff.mp loaded
  cases loaded
  rfl

theorem load_shower_profiles_exactly (b : Char) (memory : ShowerTables F) (constructed : memory.Constructed) :
    (∀ file ok t, loadShowerProfiles b file memory = some (ok, t) → ((ok = true → Complete F file) ↔ Complete F file)) ∧
      ∀ tables text, Written tables text →
        ∃ t, loadShowerProfiles b text memory = some (true, t) ∧ (t = tables ↔ KeepsLast text (lastOld tables memory)) := by
  refine ⟨fun file ok t loaded => ?_, load_written b memory constructed⟩
  rw [load_returns_true b file memory ok t loaded]
  exact ⟨fun holds => holds rfl, fun complete _ => complete⟩

end

-- Tables with one profile of one fraction in y; the text may end in a newline.
noncomputable def smallProfile (frac : ℝ) : ShowerProfile ℝ := ⟨0, 0, 1, [frac]⟩

noncomputable def smallTables : ShowerTables ℝ where
  profxdefault := smallProfile 1
  profydefault := smallProfile 1
  profx_nbins := 0
  profy_nbins := 1
  profx_xmin := 0
  profx_xmax := 1
  profy_ymin := 0
  profy_ymax := 1
  profx := []
  profy := [smallProfile 0.75]

def smallText (trail : List Char) : List Char :=
  tablesText (layout [' ', '0', ' ', '0', ' ', '1'] ['1', '\n'] [' ', '0', ' ', '0', ' ', '1'] ['1', '\n']
    [' ', '0', ' ', '0', ' ', '1'] [] [' ', '1', ' ', '0', ' ', '1'] ['\n'] []
    [[' ', '0', ' ', '0', ' ', '1'] ++ '\n' :: (['0', '.', '7', '5'] ++ trail)])

theorem spells_one (x : ℝ) (d : Char) (digit : d.isDigit = true) (value : (decimalNumber false [d] 0 : ℝ) = x) :
    SpellsDouble [d] x := by
  rw [← value]
  exact .number [] [d] [] [] [] false 0 .plain (by simpa using digit) .whole .plain (by simp)

theorem spells_zero_point (x : ℝ) (ds : List Char) (digits : ∀ d ∈ ds, d.isDigit = true)
    (value : (decimalNumber false ('0' :: ds) (0 - ds.length) : ℝ) = x) : SpellsDouble ('0' :: '.' :: ds) x := by
  have number := SpellsDouble.number (F := ℝ) [] ['0'] ('.' :: ds) [] ds false 0 .plain (by simp) (.point ds digits) .plain
    (by simp)
  simp only [List.nil_append, List.append_nil, List.singleton_append, value] at number
  exact number

theorem spells_0 : SpellsDouble ['0'] (0 : ℝ) := by
  have value : decimalValue ['0'] = 0 := by decide
  refine spells_one 0 '0' (by decide) ?_
  rw [decimalNumber, value]
  norm_num

theorem spells_1 : SpellsDouble ['1'] (1 : ℝ) := by
  have value : decimalValue ['1'] = 1 := by decide
  refine spells_one 1 '1' (by decide) ?_
  rw [decimalNumber, value]
  norm_num

theorem spells_0_75 : SpellsDouble ['0', '.', '7', '5'] (0.75 : ℝ) := by
  have value : decimalValue ['0', '7', '5'] = 75 := by decide
  refine spells_zero_point 0.75 ['7', '5'] (List.all_eq_true.mp rfl) ?_
  rw [decimalNumber, value]
  norm_num

theorem spells_0_7 : SpellsDouble ['0', '.', '7'] (0.7 : ℝ) := by
  have value : decimalValue ['0', '7'] = 7 := by decide
  refine spells_zero_point 0.7 ['7'] (List.all_eq_true.mp rfl) ?_
  rw [decimalNumber, value]
  norm_num

theorem small_limits (d : Char) (n : Int) (spelled : Spells [d] n) (low : -2147483648 ≤ n) (high : n ≤ 2147483647) :
    LimitsText ⟨n, (0 : ℝ), 1⟩ [' ', d, ' ', '0', ' ', '1'] :=
  .limits [' '] [d] [' '] ['0'] [' '] ['1'] [] n 0 1 (by decide) (by decide) (by decide) (by decide) (by decide) (by decide)
    (by decide) spelled spells_0 spells_1 low high (by decide)

theorem small_profile_written (frac : ℝ) (w trail : List Char) (spelled : SpellsDouble w frac) (blanks : Blanks trail) :
    WrittenProfile (smallProfile frac) [' ', '0', ' ', '0', ' ', '1'] (w ++ trail) where
  limits := small_limits '0' 0 (.plain ['0'] (by decide) (List.all_eq_true.mp rfl)) (by decide) (by decide)
  numbers := .cons [] w trail frac [] (by decide) spelled (.nil trail blanks) fun c first => blanks c (List.mem_of_mem_head? first)
  bins := ⟨Int.le_refl 0, by change (0 : Int) < _; decide⟩
  entries := rfl

theorem small_written (trail : List Char) (blanks : Blanks trail) : Written smallTables (smallText trail) := by
  refine ⟨_, _, _, _, _, _, _, _, _, _, ⟨?_, ?_, ?_, ?_, ?_, ?_, .nil, ?_, rfl, rfl⟩, .inl ⟨[], rfl⟩, rfl⟩
  · exact small_profile_written 1 ['1'] ['\n'] spells_1 (by decide)
  · exact small_profile_written 1 ['1'] ['\n'] spells_1 (by decide)
  · exact small_limits '0' 0 (.plain ['0'] (by decide) (List.all_eq_true.mp rfl)) (by decide) (by decide)
  · decide
  · exact small_limits '1' 1 (.plain ['1'] (by decide) (List.all_eq_true.mp rfl)) (by decide) (by decide)
  · decide
  · exact .cons (smallProfile 0.75) [] _ _ [] (small_profile_written 0.75 _ trail spells_0_75 blanks) .nil

noncomputable def blankTables : ShowerTables ℝ := ⟨blankProfile, blankProfile, 0, 0, 0, 0, 0, 0, [], []⟩

theorem small_text_loaded : Written smallTables (smallText ['\n']) ∧
    ∃ t, loadShowerProfiles '\x00' (smallText ['\n']) blankTables = some (true, t) ∧ t = smallTables := by
  have written := small_written ['\n'] (by decide)
  have ended : (smallText ['\n']).getLast? = some '\n' := by decide
  obtain ⟨t, loaded, same⟩ :=
    (load_shower_profiles_exactly '\x00' blankTables ⟨rfl, rfl, rfl, rfl⟩).2 smallTables (smallText ['\n']) written
  exact ⟨written, t, loaded, same.mpr (.inl ⟨'\n', ended, rfl⟩)⟩

theorem small_last_cut : ¬ KeepsLast (smallText []) (lastOld smallTables blankTables) := by
  have letters : lastWord (smallText []) = ['0', '.', '7', '5'] := by decide
  have ended : (smallText []).getLast? = some '5' := by decide
  have reads (w : List Char) (x old : ℝ) (spelled : SpellsDouble w x) : ((IStringStream.opened w).readDouble old).1 = x := by
    have read := read_double_spelled [] w [] x old (by decide) spelled (fun _ first => nomatch first)
    rw [List.nil_append, List.append_nil] at read
    rw [read]
  rintro (⟨c, last, space⟩ | same)
  · rw [ended] at last
    cases last
    cases space
  · have cut : (lastWord (smallText [])).dropLast = ['0', '.', '7'] := by
      rw [letters]
      rfl
    rw [cut, letters, reads _ _ _ spells_0_7, reads _ _ _ spells_0_75] at same
    norm_num at same

-- An empty file is loaded, and 0.75 at the end of a file is loaded as 0.7.
theorem empty_loaded_and_last_cut :
    ((∃ t, loadShowerProfiles '\x00' [] blankTables = some (true, t)) ∧ ¬ Complete ℝ []) ∧
      Written smallTables (smallText []) ∧
        ∃ t, loadShowerProfiles '\x00' (smallText []) blankTables = some (true, t) ∧ t ≠ smallTables := by
  have written := small_written [] (by decide)
  obtain ⟨t, loaded, same⟩ := load_written '\x00' blankTables ⟨rfl, rfl, rfl, rfl⟩ smallTables (smallText []) written
  refine ⟨⟨⟨_, rfl⟩, ?_⟩, written, t, loaded, fun equal => small_last_cut (same.mp equal)⟩
  rintro ⟨t, holds⟩
  obtain ⟨pre, line, block, post, whole, _⟩ := holds.xdefault.written
  simp only [List.nil_eq, List.append_eq_nil_iff] at whole
  exact absurd whole.2.2 (List.cons_ne_nil _ _)

end Solgem

import Solgem.ElasticKinematics
import Solgem.ShowerTexts

set_option autoImplicit false

namespace Solgem

open Lib

namespace IStringStream

-- TString::ReadLine passes over blanks, then over a line with its end.
def readLine (sv : IStringStream) : IStringStream :=
  if sv.good then
    let line := sv.rest.dropWhile isSpace
    match line.dropWhile (fun c => decide (c ≠ '\n')) with
    | [] => ⟨[], true, decide (line = [])⟩
    | _ :: after => .opened after
  else { sv with failbit := true }

-- operator>> into an Int_t that may hold nothing yet.
def readCount (sv : IStringStream) (old : Option Int) : Option Int × IStringStream :=
  if sv.sentry.1 then ((getInt sv.sentry.2.rest).1, (getInt sv.sentry.2.rest).2) else (old, sv.sentry.2)

end IStringStream

-- The variables LoadOptics reads a line into.
structure OpticsTerm (F : Type) where
  cxfp : F
  cyfp : F
  cxpfp : F
  cypfp : F
  i : Int
  j : Int
  k : Int
  l : Int
  m : Int

-- The map fOpticsCoeff is empty at every index LoadOptics does not fill.
structure Optics (F : Type) where
  fNOpticsTerms : Int
  fOpticsCoeff : Nat → List F

structure FocalPlane (F : Type) where
  xfp : F
  yfp : F
  xpfp : F
  ypfp : F

section
variable {F : Type} [Arith F]

def OpticsTerm.read (t : OpticsTerm F) (sv : IStringStream) : OpticsTerm F × IStringStream :=
  let cxfp := sv.readDouble t.cxfp
  let cyfp := cxfp.2.readDouble t.cyfp
  let cxpfp := cyfp.2.readDouble t.cxpfp
  let cypfp := cxpfp.2.readDouble t.cypfp
  let m := cypfp.2.readInt t.m
  let l := m.2.readInt t.l
  let k := l.2.readInt t.k
  let j := k.2.readInt t.j
  let i := j.2.readInt t.i
  (⟨cxfp.1, cyfp.1, cxpfp.1, cypfp.1, i.1, j.1, k.1, l.1, m.1⟩, i.2)

def readTerms : Nat → OpticsTerm F → IStringStream → List (OpticsTerm F)
  | 0, _, _ => []
  | n + 1, t, sv => (t.read sv).1 :: readTerms n (t.read sv).1 (t.read sv).2

def OpticsTerm.entries (t : OpticsTerm F) : List F :=
  [t.cxfp, t.cyfp, t.cxpfp, t.cypfp, Arith.ofInt t.i, Arith.ofInt t.j, Arith.ofInt t.k, Arith.ofInt t.l, Arith.ofInt t.m]

def Optics.ofTerms (n : Int) (terms : List (OpticsTerm F)) : Optics F := ⟨n, fun c => terms.filterMap (fun t => t.entries[c]?)⟩

-- No result when fNOpticsTerms is still unset after it was read: the loop has
-- no bound then. unset is what the variables of the loop hold at first.
def loadOptics (fNOpticsTerms : Option Int) (unset : OpticsTerm F) (file : Option (List Char)) : Option (Optics F) :=
  let sv : IStringStream := match file with
    | none => ⟨[], false, true⟩
    | some text => .opened text
  let count := sv.readLine.readCount fNOpticsTerms
  count.1.map (fun n => .ofTerms n (readTerms n.toNat unset count.2.readLine.readLine.readLine))

def Optics.getOpticsCoeff (o : Optics F) (i j : Nat) : F :=
  match (o.fOpticsCoeff i)[j]? with
  | some c => c
  | none => 1.0e38

end

section
variable {F : Type} [Libm F]

def Optics.fterm (o : Optics F) (t : TargetTrack F) (i_par : Nat) : F :=
  Libm.pow t.xptar (o.getOpticsCoeff 8 i_par) * Libm.pow t.yptar (o.getOpticsCoeff 7 i_par) *
    Libm.pow t.ytar (o.getOpticsCoeff 6 i_par) * Libm.pow (1.0 / t.pp) (o.getOpticsCoeff 5 i_par) *
    Libm.pow t.xtar (o.getOpticsCoeff 4 i_par)

def Optics.addTerm (o : Optics F) (t : TargetTrack F) (fp : FocalPlane F) (i_par : Nat) : FocalPlane F :=
  let fterm := o.fterm t i_par
  ⟨fp.xfp + fterm * o.getOpticsCoeff 0 i_par, fp.yfp + fterm * o.getOpticsCoeff 1 i_par,
    fp.xpfp + fterm * o.getOpticsCoeff 2 i_par, fp.ypfp + fterm * o.getOpticsCoeff 3 i_par⟩

def Optics.focalPlane (o : Optics F) (t : TargetTrack F) : FocalPlane F :=
  (List.range o.fNOpticsTerms.toNat).foldl (o.addTerm t) ⟨0.0, 0.0, 0.0, 0.0⟩

end

-- A line of the table, under the names of its header.
structure OpticsRow (F : Type) where
  Cxfp : F
  Cyfp : F
  Cxpfp : F
  Cypfp : F
  i : Nat
  j : Nat
  k : Nat
  l : Nat
  m : Nat

-- The first exponent of a line is read into m, the last into i.
def OpticsRow.term {F : Type} (r : OpticsRow F) : OpticsTerm F := ⟨r.Cxfp, r.Cyfp, r.Cxpfp, r.Cypfp, r.m, r.l, r.k, r.j, r.i⟩

noncomputable def OpticsRow.monomial (r : OpticsRow ℝ) (t : TargetTrack ℝ) : ℝ :=
  t.xptar ^ r.i * t.yptar ^ r.j * t.ytar ^ r.k * t.pp⁻¹ ^ r.l * t.xtar ^ r.m

-- The expansion the header of the file announces, for one of its columns.
noncomputable def expansion (u : OpticsRow ℝ → ℝ) (rows : List (OpticsRow ℝ)) (t : TargetTrack ℝ) : ℝ :=
  (rows.map (fun r => u r * r.monomial t)).sum

noncomputable def expansions (rows : List (OpticsRow ℝ)) (t : TargetTrack ℝ) : FocalPlane ℝ :=
  ⟨expansion OpticsRow.Cxfp rows t, expansion OpticsRow.Cyfp rows t, expansion OpticsRow.Cxpfp rows t, expansion OpticsRow.Cypfp rows t⟩

-- A line of the file that is not blank throughout.
structure Comment (line : List Char) : Prop where
  one_line : '\n' ∉ line
  filled : ¬ Blanks line

section
variable {F : Type} [Arith F]

-- Nine numbers in words, with blanks before them.
structure RowWords (r : OpticsRow F) (lead w : Nat → List Char) : Prop where
  blanks : ∀ c, Blanks (lead c)
  apart : ∀ c, c ≠ 0 → lead c ≠ []
  Cxfp : SpellsDouble (w 0) r.Cxfp
  Cyfp : SpellsDouble (w 1) r.Cyfp
  Cxpfp : SpellsDouble (w 2) r.Cxpfp
  Cypfp : SpellsDouble (w 3) r.Cypfp
  i : Spells (w 4) r.i
  j : Spells (w 5) r.j
  k : Spells (w 6) r.k
  l : Spells (w 7) r.l
  m : Spells (w 8) r.m
  small : ∀ e ∈ [r.i, r.j, r.k, r.l, r.m], e ≤ 2147483647

def rowText (lead w : Nat → List Char) (rest : List Char) : List Char :=
  lead 0 ++ (w 0 ++ (lead 1 ++ (w 1 ++ (lead 2 ++ (w 2 ++ (lead 3 ++ (w 3 ++ (lead 4 ++ (w 4 ++ (lead 5 ++ (w 5 ++
    (lead 6 ++ (w 6 ++ (lead 7 ++ (w 7 ++ (lead 8 ++ (w 8 ++ rest)))))))))))))))))

inductive RowsText : List (OpticsRow F) → List Char → Prop where
  | nil (rest : List Char) : RowsText [] rest
  | cons (r : OpticsRow F) (rows : List (OpticsRow F)) (lead w : Nat → List Char) (rest : List Char) (words : RowWords r lead w)
      (more : RowsText rows rest) (stop : ∀ c ∈ rest.head?, isSpace c = true) : RowsText (r :: rows) (rowText lead w rest)

-- A line that says what follows, the number of lines of the table, three
-- lines of comment, and the table.
inductive OpticsText : Int → List (OpticsRow F) → List Char → Prop where
  | file (title lead w gap first second third body : List Char) (n : Int) (rows : List (OpticsRow F)) (titled : Comment title)
      (blanks : Blanks lead) (spelled : Spells w n) (low : -2147483648 ≤ n) (high : n ≤ 2147483647) (spaced : Blanks gap)
      (apart : gap ≠ []) (comment : Comment first) (comment' : Comment second) (comment'' : Comment third)
      (table : RowsText rows body) :
      OpticsText n rows (title ++ '\n' :: (lead ++ (w ++ (gap ++ (first ++ '\n' :: (second ++ '\n' :: (third ++ '\n' :: body)))))))

omit [Arith F] in
theorem read_line_comment (gap line rest : List Char) (blanks : Blanks gap) (comment : Comment line) :
    (IStringStream.opened (gap ++ (line ++ '\n' :: rest))).readLine = .opened rest := by
  have skipped : (gap ++ (line ++ '\n' :: rest)).dropWhile isSpace = line.dropWhile isSpace ++ '\n' :: rest := by
    have some_left : line.dropWhile isSpace ≠ [] := fun empty => comment.filled (List.dropWhile_eq_nil_iff.mp empty)
    rw [List.dropWhile_append_of_pos blanks, List.dropWhile_append, if_neg (by simpa using some_left)]
  have plain : ∀ c ∈ line.dropWhile isSpace, decide (c ≠ '\n') = true := by
    intro c member
    refine decide_eq_true (fun same => comment.one_line ?_)
    rw [← same]
    exact (List.dropWhile_suffix isSpace).subset member
  have ended : (line.dropWhile isSpace ++ '\n' :: rest).dropWhile (fun c => decide (c ≠ '\n')) = '\n' :: rest := by
    rw [List.dropWhile_append_of_pos plain]
    rfl
  simp only [IStringStream.readLine, IStringStream.opened, IStringStream.good, Bool.not_false, Bool.and_self, if_true, skipped, ended]

-- Nothing but blanks and the next word stands after a word.
theorem next_word (lead rest : List Char) (blanks : Blanks lead) (apart : lead ≠ []) :
    (∀ c ∈ (lead ++ rest).head?, isSpace c = true) ∧ lead ++ rest ≠ [] := by
  cases lead with
  | nil => exact absurd rfl apart
  | cons c lead =>
      refine ⟨fun d first => ?_, List.cons_ne_nil _ _⟩
      cases first
      exact blanks c List.mem_cons_self

theorem read_double_next (lead w lead' : List Char) (x : F) (blanks : Blanks lead) (spelled : SpellsDouble w x)
    (blanks' : Blanks lead') (apart : lead' ≠ []) (rest : List Char) (old : F) :
    (IStringStream.opened (lead ++ (w ++ (lead' ++ rest)))).readDouble old = (x, .opened (lead' ++ rest)) := by
  obtain ⟨stop, filled⟩ := next_word lead' rest blanks' apart
  rw [read_double_spelled lead w (lead' ++ rest) x old blanks spelled stop, more_opened _ filled]

omit [Arith F] in
theorem read_int_next (lead w lead' : List Char) (n : Nat) (blanks : Blanks lead) (spelled : Spells w n) (small : n ≤ 2147483647)
    (blanks' : Blanks lead') (apart : lead' ≠ []) (rest : List Char) (old : Int) :
    (IStringStream.opened (lead ++ (w ++ (lead' ++ rest)))).readInt old = ((n : Int), .opened (lead' ++ rest)) := by
  obtain ⟨stop, filled⟩ := next_word lead' rest blanks' apart
  exact read_int_first lead w (lead' ++ rest) n old blanks spelled filled stop (by omega) (by omega)

theorem read_term_row (r : OpticsRow F) (lead w : Nat → List Char) (words : RowWords r lead w) (rest : List Char)
    (stop : ∀ c ∈ rest.head?, isSpace c = true) (t : OpticsTerm F) :
    t.read (.opened (rowText lead w rest)) = (r.term, ⟨rest, decide (rest = []), false⟩) := by
  obtain ⟨blanks, apart, Cxfp, Cyfp, Cxpfp, Cypfp, i, j, k, l, m, small⟩ := words
  simp only [List.forall_mem_cons] at small
  obtain ⟨smalli, smallj, smallk, smalll, smallm, _⟩ := small
  have last (old : Int) : (IStringStream.opened (lead 8 ++ (w 8 ++ rest))).readInt old = ((r.m : Int), ⟨rest, decide (rest = []), false⟩) :=
    read_int_spelled (lead 8) (w 8) rest r.m old (blanks 8) m (fun c first => space_not_digit c (stop c first)) (by omega) (by omega)
  simp only [OpticsTerm.read, rowText,
    read_double_next _ _ _ _ (blanks 0) Cxfp (blanks 1) (apart 1 (by decide)),
    read_double_next _ _ _ _ (blanks 1) Cyfp (blanks 2) (apart 2 (by decide)),
    read_double_next _ _ _ _ (blanks 2) Cxpfp (blanks 3) (apart 3 (by decide)),
    read_double_next _ _ _ _ (blanks 3) Cypfp (blanks 4) (apart 4 (by decide)),
    read_int_next _ _ _ _ (blanks 4) i smalli (blanks 5) (apart 5 (by decide)),
    read_int_next _ _ _ _ (blanks 5) j smallj (blanks 6) (apart 6 (by decide)),
    read_int_next _ _ _ _ (blanks 6) k smallk (blanks 7) (apart 7 (by decide)),
    read_int_next _ _ _ _ (blanks 7) l smalll (blanks 8) (apart 8 (by decide)), last]
  rfl

theorem rows_text_filled (r : OpticsRow F) (rows : List (OpticsRow F)) (body : List Char) (table : RowsText (r :: rows) body) :
    body ≠ [] := by
  cases table with
  | cons r rows lead w rest words more stop =>
      intro empty
      simp only [rowText, List.append_eq_nil_iff] at empty
      exact words.apart 1 (by decide) empty.2.2.1

theorem read_terms_rows (rows : List (OpticsRow F)) (body : List Char) (table : RowsText rows body) (n : Nat) (enough : n ≤ rows.length)
    (t : OpticsTerm F) : readTerms n t (.opened body) = (rows.take n).map OpticsRow.term := by
  induction table generalizing n t with
  | nil rest =>
      have none_read : n = 0 := Nat.le_zero.mp enough
      rw [none_read]
      rfl
  | cons r rows lead w rest words more stop ih =>
      cases n with
      | zero => rfl
      | succ n =>
          have fewer : n ≤ rows.length := Nat.le_of_succ_le_succ enough
          rw [readTerms, read_term_row r lead w words rest stop t, List.take_succ_cons, List.map_cons]
          refine congrArg (r.term :: ·) ?_
          cases rows with
          | nil =>
              have none_left : n = 0 := Nat.le_zero.mp fewer
              rw [none_left]
              rfl
          | cons r' rows =>
              rw [more_opened rest (rows_text_filled r' rows rest more)]
              exact ih n fewer r.term

omit [Arith F] in
theorem read_count_spelled (lead w gap rest : List Char) (n : Int) (blanks : Blanks lead) (spelled : Spells w n)
    (low : -2147483648 ≤ n) (high : n ≤ 2147483647) (spaced : Blanks gap) (apart : gap ≠ []) (old : Option Int) :
    (IStringStream.opened (lead ++ (w ++ (gap ++ rest)))).readCount old = (some n, .opened (gap ++ rest)) := by
  obtain ⟨stop, filled⟩ := next_word gap rest spaced apart
  have read (old : Int) := read_int_first lead w (gap ++ rest) n old blanks spelled filled stop low high
  cases passed : (IStringStream.opened (lead ++ (w ++ (gap ++ rest)))).sentry.1 with
  | true =>
      have taken := read 0
      rw [IStringStream.readInt, if_pos passed] at taken
      rw [IStringStream.readCount, if_pos passed, taken]
  | false =>
      -- A stream that lets nothing through keeps every old value.
      have kept := congrArg Prod.fst (read (n + 1))
      rw [IStringStream.readInt, if_neg (by rw [passed]; exact Bool.false_ne_true)] at kept
      have same : n + 1 = n := kept
      omega

theorem load_optics_terms (n : Int) (rows : List (OpticsRow F)) (text : List Char) (written : OpticsText n rows text)
    (enough : n ≤ rows.length) (old : Option Int) (unset : OpticsTerm F) :
    loadOptics old unset (some text) = some (.ofTerms n ((rows.take n.toNat).map OpticsRow.term)) := by
  cases written with
  | file title lead w gap first second third body n rows titled blanks spelled low high spaced apart comment comment' comment'' table =>
      have none_before (line rest : List Char) := read_line_comment [] line rest (fun _ member => absurd member List.not_mem_nil)
      have terms := read_terms_rows rows body table n.toNat (by omega) unset
      simp only [List.nil_append] at none_before
      simp only [loadOptics, none_before title _ titled, read_count_spelled lead w gap _ n blanks spelled low high spaced apart old,
        read_line_comment gap first _ spaced comment, none_before second _ comment', none_before third _ comment'', terms,
        Option.map_some]

end

theorem pow_count (x : ℝ) (n : Nat) : Libm.pow x (Arith.ofInt (n : Int)) = x ^ n := by
  change x ^ (((n : Int) : ℝ)) = x ^ n
  rw [Int.cast_natCast, Real.rpow_natCast]

theorem expansions_append (rows : List (OpticsRow ℝ)) (r : OpticsRow ℝ) (t : TargetTrack ℝ) :
    expansions (rows ++ [r]) t =
      ⟨(expansions rows t).xfp + r.Cxfp * r.monomial t, (expansions rows t).yfp + r.Cyfp * r.monomial t,
        (expansions rows t).xpfp + r.Cxpfp * r.monomial t, (expansions rows t).ypfp + r.Cypfp * r.monomial t⟩ := by
  simp only [expansions, expansion, List.map_append, List.map_singleton, List.sum_append, List.sum_singleton]

theorem coefficient_of_term (n : Int) (terms : List (OpticsTerm ℝ)) (i : Nat) (t : OpticsTerm ℝ) (here : terms[i]? = some t) (c : Nat)
    (u : OpticsTerm ℝ → ℝ) (column : ∀ t, t.entries[c]? = some (u t)) : (Optics.ofTerms n terms).getOpticsCoeff c i = u t := by
  have listed : (Optics.ofTerms n terms).fOpticsCoeff c = terms.map u := by
    simp only [Optics.ofTerms, column, List.filterMap_eq_map']
  rw [Optics.getOpticsCoeff, listed, List.getElem?_map, here]
  rfl

-- The terms done so far are the expansion over the lines done so far.
theorem focal_plane_terms (n : Int) (rows : List (OpticsRow ℝ)) (t : TargetTrack ℝ) (done : Nat) (inside : done ≤ rows.length) :
    (List.range done).foldl ((Optics.ofTerms n (rows.map OpticsRow.term)).addTerm t) ⟨0.0, 0.0, 0.0, 0.0⟩ =
      expansions (rows.take done) t := by
  induction done with
  | zero =>
      have zero : (0.0 : ℝ) = 0 := by norm_num
      rw [zero]
      rfl
  | succ done ih =>
      have here : (rows.map OpticsRow.term)[done]? = some rows[done].term := by
        rw [List.getElem?_map, List.getElem?_eq_getElem inside, Option.map_some]
      have one : (1.0 : ℝ) / t.pp = t.pp⁻¹ := by norm_num
      have coeff := coefficient_of_term n _ done rows[done].term here
      have monomial : (Optics.ofTerms n (rows.map OpticsRow.term)).fterm t done = rows[done].monomial t := by
        simp only [Optics.fterm, one, coeff 8 (fun t => Arith.ofInt t.m) (fun _ => rfl), coeff 7 (fun t => Arith.ofInt t.l) (fun _ => rfl),
          coeff 6 (fun t => Arith.ofInt t.k) (fun _ => rfl), coeff 5 (fun t => Arith.ofInt t.j) (fun _ => rfl),
          coeff 4 (fun t => Arith.ofInt t.i) (fun _ => rfl)]
        exact congrArg₂ _ (congrArg₂ _ (congrArg₂ _ (congrArg₂ _ (pow_count _ _) (pow_count _ _)) (pow_count _ _)) (pow_count _ _))
          (pow_count _ _)
      rw [List.range_succ, List.foldl_append, ih (by omega), List.take_succ_eq_append_getElem inside, expansions_append,
        List.foldl_cons, List.foldl_nil]
      simp only [Optics.addTerm, monomial, coeff 0 OpticsTerm.cxfp (fun _ => rfl), coeff 1 OpticsTerm.cyfp (fun _ => rfl),
        coeff 2 OpticsTerm.cxpfp (fun _ => rfl), coeff 3 OpticsTerm.cypfp (fun _ => rfl), mul_comm (rows[done].monomial t)]
      rfl

-- Whatever file is laid out as its header says holds the expansion its header
-- announces, over the lines its count takes in.
theorem optics_file_expansion (n : Int) (rows : List (OpticsRow ℝ)) (text : List Char) (written : OpticsText n rows text)
    (enough : n ≤ rows.length) (old : Option Int) (unset : OpticsTerm ℝ) :
    ∃ o, loadOptics old unset (some text) = some o ∧ ∀ t, o.focalPlane t = expansions (rows.take n.toNat) t := by
  refine ⟨_, load_optics_terms n rows text written enough old unset, fun t => ?_⟩
  have whole := focal_plane_terms n (rows.take n.toNat) t n.toNat (by rw [List.length_take]; omega)
  rw [List.take_take, Nat.min_self] at whole
  exact whole

-- A file of one line: 2 xptar / p in every column.
noncomputable def slantRow : OpticsRow ℝ :=
  let two := decimalNumber false ['2'] 0
  ⟨two, two, two, two, 1, 0, 0, 1, 0⟩

def slantWords (c : Nat) : List Char := (['2', '2', '2', '2', '1', '0', '0', '1', '0'][c]?).toList

def slantFile : List Char :=
  ['#'] ++ '\n' :: ([] ++ (['1'] ++ (['\n'] ++ (['#'] ++ '\n' :: (['#'] ++ '\n' :: (['#'] ++ '\n' ::
    rowText (fun _ => [' ']) slantWords []))))))

theorem slant_row_words : RowWords slantRow (fun _ => [' ']) slantWords := by
  have two : SpellsDouble ['2'] (decimalNumber false ['2'] 0 : ℝ) :=
    .number [] ['2'] [] [] [] false 0 .plain (List.forall_mem_singleton.mpr rfl) .whole .plain (by decide)
  have one : Spells ['1'] 1 := .plain ['1'] (by decide) (List.forall_mem_singleton.mpr rfl)
  have zero : Spells ['0'] 0 := .plain ['0'] (by decide) (List.forall_mem_singleton.mpr rfl)
  exact ⟨fun _ => by decide, fun _ _ => List.cons_ne_nil _ _, two, two, two, two, one, zero, zero, one, zero, by decide⟩

theorem optics_file_expansion_slant :
    ∃ o : Optics ℝ, loadOptics none ⟨0, 0, 0, 0, 0, 0, 0, 0, 0⟩ (some slantFile) = some o ∧
      ∀ t, o.focalPlane t = expansions (List.take (Int.toNat 1) [slantRow]) t :=
  have comment : Comment ['#'] := ⟨by decide, by decide⟩
  optics_file_expansion 1 [slantRow] slantFile
    (.file ['#'] [] ['1'] ['\n'] ['#'] ['#'] ['#'] _ 1 [slantRow] comment (by decide)
      (.plain ['1'] (by decide) (List.forall_mem_singleton.mpr rfl)) (by decide)
      (by decide) (by decide) (by decide) comment comment comment
      (.cons slantRow [] _ _ [] slant_row_words (.nil []) (fun _ none => nomatch none)))
    (by decide) none ⟨0, 0, 0, 0, 0, 0, 0, 0, 0⟩

end Solgem

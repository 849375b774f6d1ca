import Mathlib.Data.List.Basic

set_option autoImplicit false

namespace Solgem

variable {E : Type}

inductive ReadStatus where
  | readOK
  | readEOF
  | readFatal
  | readError
deriving DecidableEq

-- The tree of an input file: its entries, whether it has the event branch, and
-- the number of bytes GetEntry reports for an entry.
structure SimTree (E : Type) where
  entries : List E
  eventBranch : Bool
  getEntry : Nat → Int

structure InputFile (E : Type) where
  isZombie : Bool
  tree : Option (SimTree E)

-- TSBSSimFile with the flag of its base class. A null pointer is none, and so
-- is an event that has been cleared.
structure SimFile (E : Type) where
  fTree : Option (SimTree E)
  fEvent : Option E
  fNEntries : Nat
  fEntry : Nat
  fOpened : Bool

namespace SimFile

def new : SimFile E where
  fTree := none
  fEvent := none
  fNEntries := 0
  fEntry := 0
  fOpened := false

def close (s : SimFile E) : ReadStatus × SimFile E :=
  (.readOK, { s with fTree := none, fEvent := none, fOpened := false })

def openFile (file : InputFile E) (s : SimFile E) : ReadStatus × SimFile E :=
  if file.isZombie then (.readFatal, s.close.2)
  else
    match file.tree with
    | none => (.readFatal, s.close.2)
    | some tree =>
        if tree.eventBranch then
          (.readOK, { fTree := some tree, fEvent := none, fNEntries := tree.entries.length, fEntry := 0, fOpened := true })
        else (.readFatal, s.close.2)

-- The read on an open file; none when there is no tree to read from.
def getEntry (s : SimFile E) : Option (ReadStatus × SimFile E) :=
  s.fTree.map (fun tree =>
    let ret := tree.getEntry s.fEntry
    (if ret = 0 then .readEOF else if ret < 0 then .readError else .readOK,
      { s with fEvent := tree.entries[s.fEntry]?, fEntry := s.fEntry + 1 }))

def readEvent (file : InputFile E) (s : SimFile E) : Option (ReadStatus × SimFile E) :=
  if s.fNEntries ≤ s.fEntry then some (.readEOF, s)
  else
    let (ret, s) := if s.fOpened then (.readOK, s) else s.openFile file
    if ret ≠ .readOK then some (ret, s) else s.getEntry

end SimFile

inductive FileCall where
  | openFile
  | close
  | readEvent
deriving DecidableEq

-- What a caller sees of a call: the status, the event a successful read
-- delivers, and whether the file is open now.
structure Answer (E : Type) where
  status : ReadStatus
  event : Option E
  isOpen : Bool
deriving DecidableEq

def SimFile.call (file : InputFile E) (s : SimFile E) : FileCall → Option (Answer E × SimFile E)
  | .openFile => some (⟨(s.openFile file).1, none, (s.openFile file).2.fOpened⟩, (s.openFile file).2)
  | .close => some (⟨s.close.1, none, s.close.2.fOpened⟩, s.close.2)
  | .readEvent => (s.readEvent file).map (fun result =>
      (⟨result.1, if result.1 = .readOK then result.2.fEvent else none, result.2.fOpened⟩, result.2))

def SimFile.answers (file : InputFile E) : SimFile E → List FileCall → Option (List (Answer E))
  | _, [] => some []
  | s, c :: rest => (s.call file c).bind (fun result => (result.2.answers file rest).map (fun later => result.1 :: later))

-- A reader of the entries: the number of the next one, when it is open. A read
-- opens it if need be.
def readerCall (entries : List E) (reader : Option Nat) : FileCall → Answer E × Option Nat
  | .openFile => (⟨.readOK, none, true⟩, some 0)
  | .close => (⟨.readOK, none, false⟩, none)
  | .readEvent =>
      let next := reader.getD 0
      match entries[next]? with
      | some event => (⟨.readOK, some event, true⟩, some (next + 1))
      | none => (⟨.readEOF, none, true⟩, some next)

def readerAnswers (entries : List E) : Option Nat → List FileCall → List (Answer E)
  | _, [] => []
  | reader, c :: rest => (readerCall entries reader c).1 :: readerAnswers entries (readerCall entries reader c).2 rest

-- From any position on, reads deliver the remaining entries once each, in
-- order, and then the end of the file.
theorem reader_delivers (entries : List E) (position reads : Nat) (inside : position ≤ entries.length) :
    readerAnswers entries (some position) (List.replicate reads .readEvent) =
      ((entries.drop position).take reads).map (fun event => ⟨.readOK, some event, true⟩) ++
        List.replicate (reads - (entries.length - position)) ⟨.readEOF, none, true⟩ := by
  induction reads generalizing position with
  | zero => simp [readerAnswers]
  | succ reads ih =>
      rw [List.replicate_succ, readerAnswers, readerCall, Option.getD_some]
      by_cases left : position < entries.length
      · rw [List.getElem?_eq_getElem left, List.drop_eq_getElem_cons left, List.take_succ_cons, List.map_cons]
        have later := ih (position + 1) left
        rw [later, show reads + 1 - (entries.length - position) = reads - (entries.length - (position + 1)) by omega]
        rfl
      · have edge : position = entries.length := by omega
        have finished := ih position inside
        rw [edge, List.drop_length] at finished ⊢
        rw [List.getElem?_eq_none (Nat.le_refl _), finished]
        simp [List.replicate_succ]

namespace SimFile

-- The object after calls that left the reader at this position.
structure Follows (tree : SimTree E) (s : SimFile E) (reader : Option Nat) : Prop where
  isOpen : s.fOpened = reader.isSome
  count : s.fNEntries ≤ tree.entries.length
  position : ∀ next, reader = some next → s.fTree = some tree ∧ s.fNEntries = tree.entries.length ∧ s.fEntry = next

theorem new_follows (tree : SimTree E) : Follows tree new none := ⟨rfl, Nat.zero_le _, fun _ none_open => nomatch none_open⟩

-- A file that can be opened, with the tree in it.
structure Holds (file : InputFile E) (tree : SimTree E) : Prop where
  readable : file.isZombie = false
  found : file.tree = some tree
  branch : tree.eventBranch = true

theorem open_file_held (file : InputFile E) (tree : SimTree E) (held : Holds file tree) (s : SimFile E) :
    s.openFile file = (.readOK, ⟨some tree, none, tree.entries.length, 0, true⟩) := by
  rw [openFile, held.readable, held.found]
  exact if_pos held.branch

theorem get_entry_below (tree : SimTree E) (sizes : ∀ i < tree.entries.length, 0 < tree.getEntry i) (s : SimFile E)
    (opened : s.fTree = some tree) (below : s.fEntry < tree.entries.length) :
    s.getEntry = some (.readOK, { s with fEvent := some tree.entries[s.fEntry], fEntry := s.fEntry + 1 }) := by
  have size := sizes s.fEntry below
  have nonzero : ¬ tree.getEntry s.fEntry = 0 := by omega
  have nonneg : ¬ tree.getEntry s.fEntry < 0 := by omega
  rw [getEntry, opened, Option.map_some]
  simp only [nonzero, nonneg, if_false, List.getElem?_eq_getElem below]

-- The call the position test answers before the file is opened.
def AnsweredUnopened (s : SimFile E) (c : FileCall) : Prop :=
  c = .readEvent ∧ s.fOpened = false ∧ s.fNEntries ≤ s.fEntry

-- After the file is opened, if it is not open, the entry at the reader's
-- position is read.
theorem read_follows (file : InputFile E) (tree : SimTree E) (sizes : ∀ i < tree.entries.length, 0 < tree.getEntry i)
    (s opened : SimFile E) (reader : Option Nat) (pointer : opened.fTree = some tree)
    (count : opened.fNEntries = tree.entries.length) (flag : opened.fOpened = true) (entry : opened.fEntry = reader.getD 0)
    (below : reader.getD 0 < tree.entries.length) (result : s.readEvent file = opened.getEntry) :
    ∃ s', s.call file .readEvent = some ((readerCall tree.entries reader .readEvent).1, s') ∧
      Follows tree s' (readerCall tree.entries reader .readEvent).2 := by
  rw [call, result, get_entry_below tree sizes opened pointer (entry ▸ below), readerCall]
  simp only [entry, List.getElem?_eq_getElem below, Option.map_some, if_true, flag]
  refine ⟨_, rfl, rfl, Nat.le_of_eq count, fun next moved => ?_⟩
  exact ⟨pointer, count, Option.some.inj moved⟩

theorem call_follows (file : InputFile E) (tree : SimTree E) (held : Holds file tree)
    (sizes : ∀ i < tree.entries.length, 0 < tree.getEntry i) (s : SimFile E) (reader : Option Nat)
    (follows : Follows tree s reader) (c : FileCall) (in_time : ¬ s.AnsweredUnopened c) :
    ∃ s', s.call file c = some ((readerCall tree.entries reader c).1, s') ∧
      Follows tree s' (readerCall tree.entries reader c).2 := by
  cases c with
  | openFile =>
      rw [call, open_file_held file tree held]
      refine ⟨_, rfl, rfl, Nat.le_refl _, fun next started => ?_⟩
      cases started
      exact ⟨rfl, rfl, rfl⟩
  | close => exact ⟨_, rfl, rfl, follows.count, fun _ none_open => nomatch none_open⟩
  | readEvent =>
      cases reader with
      | some position =>
          obtain ⟨pointer, count, entry⟩ := follows.position position rfl
          have flag : s.fOpened = true := follows.isOpen
          by_cases left : position < tree.entries.length
          · refine read_follows file tree sizes s s (some position) pointer count flag entry left ?_
            rw [readEvent, if_neg (by omega), flag]
            rfl
          · have ended : s.readEvent file = some (.readEOF, s) := if_pos (by omega)
            rw [call, ended, readerCall]
            simp only [Option.getD_some, List.getElem?_eq_none (Nat.le_of_not_lt left), Option.map_some, flag]
            exact ⟨s, rfl, follows⟩
      | none =>
          have flag : s.fOpened = false := follows.isOpen
          have left : s.fEntry < s.fNEntries := Nat.lt_of_not_le fun early => in_time ⟨rfl, flag, early⟩
          have some_entry : 0 < tree.entries.length := Nat.lt_of_lt_of_le (Nat.zero_lt_of_lt left) follows.count
          refine read_follows file tree sizes s ⟨some tree, none, tree.entries.length, 0, true⟩ none rfl rfl rfl rfl some_entry ?_
          rw [readEvent, if_neg (by omega), flag, open_file_held file tree held]
          rfl

theorem answered_unopened (file : InputFile E) (entries : List E) (s : SimFile E) (reader : Option Nat) (c : FileCall)
    (early : s.AnsweredUnopened c) :
    s.call file c = some (⟨.readEOF, none, false⟩, s) ∧ (readerCall entries reader c).1.isOpen = true := by
  obtain ⟨rfl, closed, ended⟩ := early
  have answer : s.readEvent file = some (.readEOF, s) := if_pos ended
  refine ⟨by rw [call, answer, Option.map_some, closed]; rfl, ?_⟩
  rw [readerCall]
  cases entries[reader.getD 0]? with
  | none => rfl
  | some event => rfl

-- No call of the run is answered before the file is opened.
def InTime (file : InputFile E) : SimFile E → List FileCall → Prop
  | _, [] => True
  | s, c :: rest => ¬ s.AnsweredUnopened c ∧ ∀ answer s', s.call file c = some (answer, s') → InTime file s' rest

theorem answers_follow (file : InputFile E) (tree : SimTree E) (held : Holds file tree)
    (sizes : ∀ i < tree.entries.length, 0 < tree.getEntry i) (calls : List FileCall) (s : SimFile E) (reader : Option Nat)
    (follows : Follows tree s reader) :
    s.answers file calls = some (readerAnswers tree.entries reader calls) ↔ InTime file s calls := by
  induction calls generalizing s reader with
  | nil => exact ⟨fun _ => trivial, fun _ => rfl⟩
  | cons c rest ih =>
      rw [answers, readerAnswers, InTime]
      by_cases early : s.AnsweredUnopened c
      · obtain ⟨answer, opens⟩ := answered_unopened file tree.entries s reader c early
        refine ⟨fun same => ?_, fun in_time => absurd early in_time.1⟩
        rw [answer, Option.bind_some] at same
        obtain ⟨later, _, listed⟩ := Option.map_eq_some_iff.mp same
        rw [← (List.cons.inj listed).1] at opens
        cases opens
      · obtain ⟨s', answer, kept⟩ := call_follows file tree held sizes s reader follows c early
        rw [answer, Option.bind_some]
        have next := ih s' _ kept
        constructor
        · intro same
          obtain ⟨later, found, listed⟩ := Option.map_eq_some_iff.mp same
          refine ⟨early, fun answer' t called => ?_⟩
          cases called
          exact next.mp (found.trans (congrArg some (List.cons.inj listed).2))
        · intro in_time
          rw [next.mpr (in_time.2 _ s' rfl), Option.map_some]

-- The runs in which every event is read once, whoever opens the file.
theorem events_read_once_exactly (file : InputFile E) (tree : SimTree E) (held : Holds file tree)
    (sizes : ∀ i < tree.entries.length, 0 < tree.getEntry i) (calls : List FileCall) :
    (new : SimFile E).answers file calls = some (readerAnswers tree.entries none calls) ↔ InTime file new calls :=
  answers_follow file tree held sizes calls new none (new_follows tree)

def oneEvent : SimTree Nat := ⟨[7], true, fun _ => 1⟩

def oneEventFile : InputFile Nat := ⟨false, some oneEvent⟩

theorem one_event_read_once :
    (new : SimFile Nat).answers oneEventFile [.openFile, .readEvent, .readEvent] =
        some (readerAnswers oneEvent.entries none [.openFile, .readEvent, .readEvent]) ↔
      InTime oneEventFile new [.openFile, .readEvent, .readEvent] :=
  events_read_once_exactly oneEventFile oneEvent ⟨rfl, rfl, rfl⟩ (fun _ _ => Int.zero_lt_one) _

-- A read of a file that was never opened ends it without opening it, and so
-- does a read after the file was read to its end and closed.
theorem unopened_file_ends :
    Holds oneEventFile oneEvent ∧ (∀ i < oneEvent.entries.length, 0 < oneEvent.getEntry i) ∧
      (new : SimFile Nat).answers oneEventFile [.readEvent] = some [⟨.readEOF, none, false⟩] ∧
      readerAnswers oneEvent.entries none [.readEvent] = [⟨.readOK, some 7, true⟩] ∧
      (new : SimFile Nat).answers oneEventFile [.openFile, .readEvent, .readEvent, .close, .readEvent] =
        some [⟨.readOK, none, true⟩, ⟨.readOK, some 7, true⟩, ⟨.readEOF, none, true⟩, ⟨.readOK, none, false⟩,
          ⟨.readEOF, none, false⟩] ∧
      ¬ ∀ calls, (new : SimFile Nat).answers oneEventFile calls = some (readerAnswers oneEvent.entries none calls) := by
  refine ⟨⟨rfl, rfl, rfl⟩, fun _ _ => Int.zero_lt_one, by decide, by decide, by decide, fun all => ?_⟩
  exact absurd (all [.readEvent]) (by decide)

end SimFile

end Solgem

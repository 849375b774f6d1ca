import Solgem.SimFile
import Solgem.WrittenEvents

set_option autoImplicit false

namespace Solgem

open Lib Digitizer

namespace SimFile

variable {E : Type}

-- An open file is never answered as if it were not.
theorem reads_in_time (file : InputFile E) (tree : SimTree E) (held : Holds file tree)
    (sizes : ∀ i < tree.entries.length, 0 < tree.getEntry i) (reads : Nat) (s : SimFile E) (position : Nat)
    (follows : Follows tree s (some position)) : InTime file s (List.replicate reads .readEvent) := by
  induction reads generalizing s position with
  | zero => trivial
  | succ reads ih =>
      have in_time : ¬ s.AnsweredUnopened .readEvent := fun early => Bool.noConfusion (early.2.1.symm.trans follows.isOpen)
      obtain ⟨s', answer, kept⟩ := call_follows file tree held sizes s (some position) follows .readEvent in_time
      refine ⟨in_time, fun _ _ called => ?_⟩
      cases called.symm.trans answer
      rw [readerCall, Option.getD_some] at kept
      cases found : tree.entries[position]? with
      | none =>
          rw [found] at kept
          exact ih s' position kept
      | some event =>
          rw [found] at kept
          exact ih s' (position + 1) kept

-- Reading an opened file delivers its entries once each, in order, and then
-- the end of the file.
theorem opened_file_reads (file : InputFile E) (tree : SimTree E) (held : Holds file tree)
    (sizes : ∀ i < tree.entries.length, 0 < tree.getEntry i) (reads : Nat) :
    (new : SimFile E).answers file (.openFile :: List.replicate reads .readEvent) =
      some (⟨.readOK, none, true⟩ :: ((tree.entries.take reads).map (fun event => ⟨.readOK, some event, true⟩) ++
        List.replicate (reads - tree.entries.length) ⟨.readEOF, none, true⟩)) := by
  have opened : InTime file (new : SimFile E) (.openFile :: List.replicate reads .readEvent) := by
    have never : ¬ (new : SimFile E).AnsweredUnopened .openFile := fun early => nomatch early.1
    obtain ⟨s', answer, kept⟩ := call_follows file tree held sizes new none (new_follows tree) .openFile never
    refine ⟨never, fun _ _ called => ?_⟩
    cases called.symm.trans answer
    exact reads_in_time file tree held sizes reads s' 0 kept
  have delivered := reader_delivers tree.entries 0 reads (Nat.zero_le _)
  rw [List.drop_zero, Nat.sub_zero] at delivered
  rw [(answers_follow file tree held sizes _ new none (new_follows tree)).mpr opened, readerAnswers]
  exact congrArg (fun rest => some (_ :: rest)) delivered

end SimFile

section
variable {F S : Type} [Libm F] {rng : Rng F}

end

end Solgem

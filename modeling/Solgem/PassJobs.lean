import Solgem.PassEvents

set_option autoImplicit false

namespace Solgem

open Lib Digitizer

-- One call of DigiPass: its events, the directory of its background files and
-- the number of the first of them.
structure DigiJob where
  n0 : Nat
  n1 : Nat
  nbg : Nat
  fbgf : Nat

structure JobCounters where
  nbg : Nat
  fbgf : Nat

-- The arguments of makejobs_gemdig.py, and what its jobs find. The script stops
-- on bunches of no events.
structure JobSplit (F : Type) where
  su : Setup F
  fg4sbsZSpecOffset : F
  nmax : Nat
  ninsplit : Nat
  nbacktoadd : Nat
  background : Nat → Int → Option (List (FileEntry F))
  bunched : 0 < ninsplit

section
variable {F : Type}

namespace JobSplit

variable (split : JobSplit F)

-- In Python 2 both divisions are of integers: math.ceil has nothing to round.
def nsplits : Nat := split.nmax / split.ninsplit
def share : Nat := split.ninsplit * split.nbacktoadd / 2

def turn (counters : JobCounters) : JobCounters :=
  let counters := if 10000 < counters.fbgf + split.share then ⟨counters.nbg + 1, 0⟩ else counters
  if 4 < counters.nbg then { counters with nbg := 0 } else counters

def jobsFrom : Nat → Nat → JobCounters → List DigiJob
  | 0, _, _ => []
  | count + 1, i, counters =>
      let turned := split.turn counters
      ⟨i * split.ninsplit, (i + 1) * split.ninsplit, turned.nbg, turned.fbgf⟩ ::
        jobsFrom count (i + 1) { turned with fbgf := turned.fbgf + split.share }

def jobs : List DigiJob := split.jobsFrom split.nsplits 0 ⟨0, 0⟩

-- DigiPass reads the number of the first background file, but does not hand it
-- on to DigitizationPass.
def digiPass (job : DigiJob) : PassInput F :=
  ⟨split.su, split.fg4sbsZSpecOffset, job.n0, job.n1, split.nbacktoadd, 10000, split.background job.nbg⟩

-- The jobs that one directory serves before the next is taken.
def perDirectory : Nat := 10000 / split.share

end JobSplit

-- The bunches are the events from the first on, without gap or overlap.
theorem bunches_cover {α : Type} (split : JobSplit F) (xs : List α) (count i : Nat) (counters : JobCounters) :
    (split.jobsFrom count i counters).flatMap (fun job => (xs.drop job.n0).take (job.n1 - job.n0)) =
      (xs.drop (i * split.ninsplit)).take (count * split.ninsplit) := by
  induction count generalizing i counters with
  | zero => rw [Nat.zero_mul, List.take_zero, JobSplit.jobsFrom, List.flatMap_nil]
  | succ count ih =>
      have bunch : (i + 1) * split.ninsplit - i * split.ninsplit = split.ninsplit := by rw [Nat.succ_mul]; omega
      rw [JobSplit.jobsFrom, List.flatMap_cons, ih, Nat.succ_mul count, Nat.add_comm (count * split.ninsplit), List.take_add,
        List.drop_drop, ← Nat.succ_mul]
      dsimp only
      rw [bunch]

theorem job_bunch (split : JobSplit F) (count i : Nat) (counters : JobCounters) (job : DigiJob)
    (member : job ∈ split.jobsFrom count i counters) : job.n1 ≤ (i + count) * split.ninsplit := by
  induction count generalizing i counters with
  | zero => cases member
  | succ count ih =>
      rw [JobSplit.jobsFrom] at member
      cases List.mem_cons.mp member with
      | inl first =>
          rw [first]
          exact Nat.mul_le_mul_right _ (by omega)
      | inr later =>
          have bound := ih (i + 1) _ later
          rwa [show i + 1 + count = i + (count + 1) by omega] at bound

-- A stretch of a numbered list, numbered again from where it starts.
theorem stretch_numbered {α : Type} (xs : List α) (n k : Nat) :
    ((xs.zipIdx.drop n).take k).zipIdx n = ((xs.zipIdx.drop n).take k).map (fun x => (x, x.2)) := by
  refine List.ext_getElem? fun i => ?_
  rw [List.getElem?_zipIdx, List.getElem?_map]
  cases found : ((xs.zipIdx.drop n).take k)[i]? with
  | none => rfl
  | some x =>
      have inside : xs.zipIdx[n + i]? = some x := by
        rw [List.getElem?_take] at found
        split at found
        · rwa [List.getElem?_drop] at found
        · cases found
      rw [List.getElem?_zipIdx, Option.map_eq_some_iff] at inside
      obtain ⟨_, _, rfl⟩ := inside
      rw [Option.map_some, Option.map_some, Nat.zero_add]

theorem opened_files {α β : Type} (g : α → List β) (files : List (Option α)) :
    files.flatMap (fun file => file.elim [] g) = (files.filterMap id).flatMap g := by
  induction files with
  | nil => rfl
  | cons file files ih =>
      cases file with
      | none => exact ih
      | some entries => exact congrArg (g entries ++ ·) ih

-- What a job takes of the signal files, when it comes to its end within the
-- first file that opens.
theorem job_taken (split : JobSplit F) (job : DigiJob) (files : List (Option (List (FileEntry F)))) (entries : List (FileEntry F))
    (rest : List (List (FileEntry F))) (opened : files.filterMap id = entries :: rest)
    (enough : rest = [] ∨ job.n1 ≤ entries.length) :
    (split.digiPass job).taken ((split.digiPass job).stream files) =
      (((entries.zipIdx.drop job.n0).take (job.n1 - job.n0)).filter (fun entry => entry.1.taken)).map
        (fun entry => (entry, entry.2)) := by
  have first : ((split.digiPass job).stream files).take (job.n1 - job.n0) = (entries.zipIdx.drop job.n0).take (job.n1 - job.n0) := by
    rw [PassInput.stream, opened_files, opened, List.flatMap_cons]
    cases enough with
    | inl alone =>
        rw [alone, List.flatMap_nil, List.append_nil]
        rfl
    | inr long =>
        refine List.take_append_of_le_length ?_
        change _ ≤ (entries.zipIdx.drop job.n0).length
        rw [List.length_drop, List.length_zipIdx]
        omega
  have numbered := stretch_numbered entries job.n0 (job.n1 - job.n0)
  rw [PassInput.taken]
  change (((((split.digiPass job).stream files).take (job.n1 - job.n0)).zipIdx job.n0).filter _) = _
  rw [first, numbered, List.filter_map]
  rfl

theorem per_directory_bounds (split : JobSplit F) (some_added : 0 < split.share) (fits : split.share ≤ 10000) :
    0 < split.perDirectory ∧ split.perDirectory * split.share ≤ 10000 ∧ 10000 < (split.perDirectory + 1) * split.share := by
  refine ⟨Nat.div_pos fits some_added, Nat.div_mul_le_self _ _, ?_⟩
  have short := Nat.lt_div_mul_add some_added (a := 10000)
  rwa [Nat.succ_mul]

-- The script's counters at the next bunch.
theorem turn_next (split : JobSplit F) (some_added : 0 < split.share) (fits : split.share ≤ 10000) (i : Nat) :
    split.turn ⟨i / split.perDirectory % 5, i % split.perDirectory * split.share + split.share⟩ =
      ⟨(i + 1) / split.perDirectory % 5, (i + 1) % split.perDirectory * split.share⟩ := by
  obtain ⟨positive, within, beyond⟩ := per_directory_bounds split some_added fits
  have below := Nat.mod_lt i positive
  have parts := Nat.mod_add_div i split.perDirectory
  rw [JobSplit.turn, ← Nat.succ_mul]
  by_cases room : i % split.perDirectory + 1 < split.perDirectory
  · have stays : ¬ 10000 < (i % split.perDirectory + 1) * split.share + split.share := by
      rw [← Nat.succ_mul, not_lt]
      exact (Nat.mul_le_mul_right _ room).trans within
    obtain ⟨quotient, remainder⟩ := (Nat.div_mod_unique positive (a := i + 1)).mpr
      ⟨show i % split.perDirectory + 1 + split.perDirectory * (i / split.perDirectory) = i + 1 by omega, room⟩
    have inside : ¬ 4 < i / split.perDirectory % 5 := by omega
    rw [if_neg stays, quotient, remainder]
    exact if_neg inside
  · have last : i % split.perDirectory + 1 = split.perDirectory := by omega
    have leaves : 10000 < (i % split.perDirectory + 1) * split.share + split.share := by
      rw [last, ← Nat.succ_mul]
      exact beyond
    have whole : split.perDirectory * (i / split.perDirectory + 1) = split.perDirectory * (i / split.perDirectory) + split.perDirectory :=
      Nat.mul_succ _ _
    obtain ⟨quotient, remainder⟩ := (Nat.div_mod_unique positive (a := i + 1)).mpr
      ⟨show 0 + split.perDirectory * (i / split.perDirectory + 1) = i + 1 by omega, positive⟩
    rw [if_pos leaves, quotient, remainder, Nat.zero_mul]
    by_cases round : 4 < i / split.perDirectory % 5 + 1
    · rw [if_pos round]
      congr 1
      omega
    · have next : i / split.perDirectory % 5 + 1 = (i / split.perDirectory + 1) % 5 := by omega
      rw [if_neg round]
      exact congrArg (fun nbg => JobCounters.mk nbg 0) next

theorem jobs_from_directories (split : JobSplit F) (some_added : 0 < split.share) (fits : split.share ≤ 10000) (count i : Nat)
    (counters : JobCounters)
    (turned : split.turn counters = ⟨i / split.perDirectory % 5, i % split.perDirectory * split.share⟩) (n : Nat) (job : DigiJob)
    (here : (split.jobsFrom count i counters)[n]? = some job) :
    job.nbg = (i + n) / split.perDirectory % 5 ∧ job.fbgf = (i + n) % split.perDirectory * split.share := by
  induction count generalizing i counters n with
  | zero => cases here
  | succ count ih =>
      rw [JobSplit.jobsFrom, turned] at here
      cases n with
      | zero =>
          cases here
          exact ⟨rfl, rfl⟩
      | succ n =>
          have later := ih (i + 1) _ (turn_next split some_added fits i) n here
          rwa [show i + 1 + n = i + (n + 1) by omega] at later

theorem jobs_directories (split : JobSplit F) (some_added : 0 < split.share) (fits : split.share ≤ 10000) (i : Nat) (job : DigiJob)
    (here : split.jobs[i]? = some job) :
    job.nbg = i / split.perDirectory % 5 ∧ job.fbgf = i % split.perDirectory * split.share := by
  have first : split.turn ⟨0, 0⟩ = ⟨0 / split.perDirectory % 5, 0 % split.perDirectory * split.share⟩ := by
    have stays : ¬ 10000 < 0 + split.share := by omega
    rw [Nat.zero_div, Nat.zero_mod 5, Nat.zero_mod, Nat.zero_mul, JobSplit.turn, if_neg stays]
    rfl
  have found := jobs_from_directories split some_added fits split.nsplits 0 ⟨0, 0⟩ first i job here
  rwa [Nat.zero_add] at found

theorem background_run_prefix (opens : Int → Bool) (limit nbacktoadd fuel m n : Nat) (g last last' : Int)
    (shares shares' : List (List Int))
    (short : backgroundRun opens limit nbacktoadd fuel m g = some (shares, last))
    (long : backgroundRun opens limit nbacktoadd fuel (m + n) g = some (shares', last')) : shares <+: shares' := by
  induction m generalizing g shares shares' with
  | zero =>
      cases short
      exact List.nil_prefix
  | succ m ih =>
      rw [Nat.succ_add, backgroundRun] at long
      rw [backgroundRun] at short
      cases found : backgroundFiles opens limit nbacktoadd fuel g with
      | none =>
          rw [found] at short
          cases short
      | some answer =>
          rw [found, Option.map_eq_some_iff] at short long
          obtain ⟨⟨shares, _⟩, short, rfl, rfl⟩ := short
          obtain ⟨⟨shares', _⟩, long, rfl, rfl⟩ := long
          exact List.prefix_cons_inj _ |>.mpr (ih _ shares shares' short long)

-- The run of one job to its end.
def JobRan [Arith F] (rng : Rng F) (split : JobSplit F) (fuel : Nat) (files : List (Option (List (FileEntry F)))) (job : DigiJob)
    (p : Pass F) : Prop :=
  ∃ ion st st', (digitizationPass (split.digiPass job) fuel files ion : Draw rng _) st = .ok (some p, st')

variable [Arith F] {rng : Rng F}

theorem job_reads (split : JobSplit F) (fuel : Nat) (files : List (Option (List (FileEntry F)))) (job : DigiJob) (p : Pass F)
    (ran : JobRan rng split (fuel + 1) files job p) :
    ∃ written, PassRead rng (split.digiPass job) (fuel + 1) ((split.digiPass job).stream files) written p := by
  obtain ⟨ion, st, st', ran⟩ := ran
  exact pass_run_reads (split.digiPass job) fuel files ion p st st' ran

-- Events without hits between quiet ones, and background files without events.
def blankEntry : FileEntry ℝ := ⟨[], [], [], []⟩

noncomputable def splitFile : List (FileEntry ℝ) := [quietEntry, blankEntry, quietEntry, blankEntry, quietEntry]

noncomputable def benchSplit : JobSplit ℝ := ⟨bench 1 1, 0, 5, 2, 1, fun _ _ => some [], Nat.two_pos⟩

theorem split_event_runs (job : DigiJob) (n : Nat) :
    ∃ p, ((Pass.start (benchSplit.digiPass job) unwritten).event (benchSplit.digiPass job) 2 (quietEntry, n) :
      Draw (Rng.scripted ℝ) _) [] = .ok (some p, []) ∧ p.nevent = job.n0 + 1 := by
  have digitized : ∀ d : Digitizer ℝ, (d.digitize (bench 1 1) ((benchSplit.digiPass job).gemData 0 quietEntry n) :
      Draw (Rng.scripted ℝ) _) [] = .ok (d.clearAll, []) := by
    intro d
    rw [digitize, additiveDigitize, quiet_entry_hits]
    rfl
  exact ⟨_, (@draw_bind_of ℝ (Rng.scripted ℝ) _ _ _ _ _ [] [] rfl).trans
    ((@draw_bind_of ℝ (Rng.scripted ℝ) _ _ _ _ _ [] [] (digitized _)).trans rfl), rfl⟩

-- A pass at its last event reads on without a change.
theorem guarded_past (input : PassInput ℝ) (fuel : Nat) (entries : List (FileEntry ℝ × Nat)) (p : Pass ℝ)
    (done : input.Nmax ≤ p.nevent) :
    (proceedAll (Pass.guarded input fuel) entries p : Draw (Rng.scripted ℝ) _) [] = .ok (some p, []) := by
  induction entries with
  | nil => rfl
  | cons entry entries ih =>
      have passed : (p.guarded input fuel entry : Draw (Rng.scripted ℝ) _) [] = .ok (some p, []) := by
        rw [Pass.guarded, if_neg (not_lt.mpr done)]
        rfl
      exact (@draw_bind_of ℝ (Rng.scripted ℝ) _ _ _ _ (some p) [] [] passed).trans ih

theorem split_job_runs (job : DigiJob) (n n' : Nat) (rest : List (FileEntry ℝ × Nat)) (bunch : job.n1 = job.n0 + 2)
    (stream : (benchSplit.digiPass job).stream [some splitFile] = (quietEntry, n) :: (blankEntry, n') :: rest) :
    ∃ p, JobRan (Rng.scripted ℝ) benchSplit 2 [some splitFile] job p := by
  obtain ⟨p, event, count⟩ := split_event_runs job n
  have first : ((Pass.start (benchSplit.digiPass job) unwritten).guarded (benchSplit.digiPass job) 2 (quietEntry, n) :
      Draw (Rng.scripted ℝ) _) [] = .ok (some p, []) := by
    have inside : (Pass.start (benchSplit.digiPass job) unwritten).nevent < (benchSplit.digiPass job).Nmax := by
      change job.n0 < job.n1
      omega
    rw [Pass.guarded, if_pos inside, event]
  have second : (p.guarded (benchSplit.digiPass job) 2 (blankEntry, n') : Draw (Rng.scripted ℝ) _) [] = .ok (some p.skip, []) := by
    have inside : p.nevent < (benchSplit.digiPass job).Nmax := by
      change p.nevent < job.n1
      omega
    rw [Pass.guarded, if_pos inside]
    rfl
  refine ⟨p.skip, unwritten, [], [], ?_⟩
  rw [pass_stream, stream]
  refine (@draw_bind_of ℝ (Rng.scripted ℝ) _ _ _ _ (some p) [] [] first).trans ?_
  refine (@draw_bind_of ℝ (Rng.scripted ℝ) _ _ _ _ (some p.skip) [] [] second).trans ?_
  refine guarded_past _ 2 rest p.skip ?_
  change job.n1 ≤ p.nevent + 1
  omega

theorem split_jobs_run :
    ∃ p : DigiJob → Pass ℝ, ∀ job ∈ benchSplit.jobs, JobRan (Rng.scripted ℝ) benchSplit 2 [some splitFile] job (p job) := by
  have : Nonempty (Pass ℝ) := ⟨Pass.start benchPass unwritten⟩
  suffices runs : ∀ job ∈ benchSplit.jobs, ∃ p, JobRan (Rng.scripted ℝ) benchSplit 2 [some splitFile] job p by
    choose! p ran using runs
    exact ⟨p, ran⟩
  intro job member
  rw [show benchSplit.jobs = [⟨0, 2, 0, 0⟩, ⟨2, 4, 0, 1⟩] from rfl] at member
  cases List.mem_cons.mp member with
  | inl first =>
      subst first
      exact split_job_runs _ 0 1 _ rfl rfl
  | inr second =>
      rw [List.mem_singleton.mp second]
      exact split_job_runs _ 2 3 _ rfl rfl

-- The jobs together write one event for every entry with hits and a generated
-- track in the whole bunches of the signal file, in order and under its number.
-- What is left of the file after the last whole bunch goes to no job.
theorem split_jobs_write (split : JobSplit F) (files : List (Option (List (FileEntry F)))) (entries : List (FileEntry F))
    (rest : List (List (FileEntry F))) (opened : files.filterMap id = entries :: rest)
    (enough : rest = [] ∨ split.nsplits * split.ninsplit ≤ entries.length) (fuel : Nat) (p : DigiJob → Pass F)
    (ran : ∀ job ∈ split.jobs, JobRan rng split (fuel + 1) files job (p job)) :
    ∃ written : DigiJob → List (PassRecord F),
      (∀ job ∈ split.jobs, (p job).digitizer.fOTree = some ((written job).map PassRecord.event) ∧
        ∀ w ∈ written job, Produced rng (split.digiPass job) w) ∧
      (split.jobs.flatMap written).map (fun w => (w.entry, w.number)) =
        ((entries.zipIdx.take (split.nmax / split.ninsplit * split.ninsplit)).filter (fun entry => entry.1.taken)).map
          (fun entry => (entry, entry.2)) := by
  choose! written reads using fun job member => job_reads split fuel files job (p job) (ran job member)
  refine ⟨written, fun job member => ⟨(reads job member).state.tree, (reads job member).produced⟩, ?_⟩
  have shares : ∀ job ∈ split.jobs, (written job).map (fun w => (w.entry, w.number)) =
      (((entries.zipIdx.drop job.n0).take (job.n1 - job.n0)).filter (fun entry => entry.1.taken)).map
        (fun entry => (entry, entry.2)) := by
    intro job member
    rw [(reads job member).taken]
    refine job_taken split job files entries rest opened (enough.imp_right fun long => le_trans ?_ long)
    have bound := job_bunch split split.nsplits 0 ⟨0, 0⟩ job member
    rwa [Nat.zero_add] at bound
  calc (split.jobs.flatMap written).map (fun w => (w.entry, w.number))
      = split.jobs.flatMap (fun job => (written job).map (fun w => (w.entry, w.number))) := List.map_flatMap
    _ = split.jobs.flatMap (fun job => (((entries.zipIdx.drop job.n0).take (job.n1 - job.n0)).filter
          (fun entry => entry.1.taken)).map (fun entry => (entry, entry.2))) := List.flatMap_congr shares
    _ = ((split.jobs.flatMap (fun job => (entries.zipIdx.drop job.n0).take (job.n1 - job.n0))).filter
          (fun entry => entry.1.taken)).map (fun entry => (entry, entry.2)) := by rw [List.filter_flatMap, List.map_flatMap]
    _ = _ := by
        rw [JobSplit.jobs, bunches_cover, Nat.zero_mul, List.drop_zero]
        rfl

theorem split_jobs_write_bench :
    ∃ p : DigiJob → Pass ℝ, (∀ job ∈ benchSplit.jobs, JobRan (Rng.scripted ℝ) benchSplit 2 [some splitFile] job (p job)) ∧
      ∃ written : DigiJob → List (PassRecord ℝ),
        (∀ job ∈ benchSplit.jobs, (p job).digitizer.fOTree = some ((written job).map PassRecord.event) ∧
          ∀ w ∈ written job, Produced (Rng.scripted ℝ) (benchSplit.digiPass job) w) ∧
        (benchSplit.jobs.flatMap written).map (fun w => (w.entry, w.number)) = [((quietEntry, 0), 0), ((quietEntry, 2), 2)] := by
  obtain ⟨p, ran⟩ := split_jobs_run
  obtain ⟨written, produced, covered⟩ := @split_jobs_write ℝ _ (Rng.scripted ℝ) benchSplit [some splitFile] splitFile [] rfl
    (.inl rfl) 1 p ran
  exact ⟨p, ran, written, produced, covered⟩

-- Two jobs of a split, with what they have written.
structure SameBackground (split : JobSplit F) (i j : Nat) (job job' : DigiJob) (written written' : List (PassRecord F)) : Prop where
  directory : job.nbg = job'.nbg ↔ i / split.perDirectory % 5 = j / split.perDirectory % 5
  announced : job.fbgf = i % split.perDirectory * split.share
  shared : job.nbg = job'.nbg → ∀ (n : Nat) (w w' : PassRecord F), written[n]? = some w → written'[n]? = some w' →
    (w.dataSets (split.digiPass job)).tail = (w'.dataSets (split.digiPass job')).tail

theorem read_files_agree (split : JobSplit F) (fuel : Nat) (job job' : DigiJob) (directory : job.nbg = job'.nbg)
    (past past' : List (FileEntry F × Nat)) (written written' : List (PassRecord F)) (p p' : Pass F)
    (read : PassRead rng (split.digiPass job) fuel past written p) (read' : PassRead rng (split.digiPass job') fuel past' written' p')
    (fewer : written.length ≤ written'.length) (n : Nat) (w w' : PassRecord F) (here : written[n]? = some w)
    (here' : written'[n]? = some w') : w.files = w'.files := by
  have opens : (split.digiPass job).opens = (split.digiPass job').opens := by
    funext Nfile
    rw [PassInput.opens, PassInput.opens]
    exact congrArg (fun nbg => (split.background nbg Nfile).isSome) directory
  have long := read'.shared
  rw [← Nat.add_sub_cancel' fewer, ← opens] at long
  obtain ⟨more, joined⟩ := background_run_prefix _ _ _ _ _ _ _ _ _ _ _ read.shared long
  have files : (written.map PassRecord.files ++ more)[n]? = some w.files := by
    have inside : n < (written.map PassRecord.files).length := by
      rw [List.length_map]
      exact (List.getElem?_eq_some_iff.mp here).1
    rw [List.getElem?_append_left inside, List.getElem?_map, here, Option.map_some]
  rw [joined, List.getElem?_map, here', Option.map_some] at files
  exact (Option.some.inj files).symm

-- The script gives each job its own first background file, but every job
-- starts at the first: the n-th events that two jobs on one directory write
-- have the same background.
theorem split_jobs_share_background (split : JobSplit F) (some_added : 0 < split.share) (fits : split.share ≤ 10000)
    (files : List (Option (List (FileEntry F)))) (fuel : Nat) (p : DigiJob → Pass F)
    (ran : ∀ job ∈ split.jobs, JobRan rng split (fuel + 1) files job (p job)) :
    ∃ written : DigiJob → List (PassRecord F),
      (∀ job ∈ split.jobs, (p job).digitizer.fOTree = some ((written job).map PassRecord.event) ∧
        ∀ w ∈ written job, Produced rng (split.digiPass job) w) ∧
      ∀ i j job job', split.jobs[i]? = some job → split.jobs[j]? = some job' →
        SameBackground split i j job job' (written job) (written job') := by
  choose! written reads using fun job member => job_reads split fuel files job (p job) (ran job member)
  refine ⟨written, fun job member => ⟨(reads job member).state.tree, (reads job member).produced⟩, fun i j job job' here here' => ?_⟩
  obtain ⟨nbg, fbgf⟩ := jobs_directories split some_added fits i job here
  obtain ⟨nbg', _⟩ := jobs_directories split some_added fits j job' here'
  have read := reads job (List.mem_of_getElem? here)
  have read' := reads job' (List.mem_of_getElem? here')
  constructor
  · rw [nbg, nbg']
  · exact fbgf
  · intro directory n w w' found found'
    have same : w.files = w'.files := by
      cases le_total (written job).length (written job').length with
      | inl fewer => exact read_files_agree split _ job job' directory _ _ _ _ _ _ read read' fewer n w w' found found'
      | inr fewer => exact (read_files_agree split _ job' job directory.symm _ _ _ _ _ _ read' read fewer n w' w found' found).symm
    have data : (split.digiPass job).fileData = (split.digiPass job').fileData := by
      funext Nfile
      rw [PassInput.fileData, PassInput.fileData]
      exact congrArg (fun nbg => (split.background nbg Nfile).elim [] (split.digiPass job').backgroundData) directory
    rw [PassRecord.dataSets, PassRecord.dataSets, List.tail_cons, List.tail_cons, same, data]

theorem split_jobs_share_background_bench :
    ∃ p : DigiJob → Pass ℝ, (∀ job ∈ benchSplit.jobs, JobRan (Rng.scripted ℝ) benchSplit 2 [some splitFile] job (p job)) ∧
      ∃ written : DigiJob → List (PassRecord ℝ),
        (∀ job ∈ benchSplit.jobs, (p job).digitizer.fOTree = some ((written job).map PassRecord.event) ∧
          ∀ w ∈ written job, Produced (Rng.scripted ℝ) (benchSplit.digiPass job) w) ∧
        SameBackground benchSplit 1 0 ⟨2, 4, 0, 1⟩ ⟨0, 2, 0, 0⟩ (written ⟨2, 4, 0, 1⟩) (written ⟨0, 2, 0, 0⟩) := by
  obtain ⟨p, ran⟩ := split_jobs_run
  obtain ⟨written, produced, shared⟩ := @split_jobs_share_background ℝ _ (Rng.scripted ℝ) benchSplit (by decide) (by decide)
    [some splitFile] 1 p ran
  exact ⟨p, ran, written, produced, shared 1 0 _ _ rfl rfl⟩

end

end Solgem

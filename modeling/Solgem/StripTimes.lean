import Solgem.Lib.Least
import Solgem.Lib.Outcome
import Solgem.PlaneHistory

set_option autoImplicit false

namespace Solgem

open Lib DigitizedPlane

variable {F : Type} [Arith F] {rng : Rng F}

def directStrip (vv : GEMHit F) (j : Nat) : Nat := (vv.getIdx j).toNat
def inducedStrip (vv : GEMHit F) (shift : Int) (j : Nat) : Nat := (vv.getIdx j + shift).toNat

def directTimes (vv : GEMHit F) (times : Nat → F) : Nat → F :=
  (List.range vv.fSize.toNat).foldl (lower (directStrip vv) (directStrip vv) vv.fTime) times

def inducedTimes (nstrip : Nat) (vv : GEMHit F) (shift : Int) (times : Nat → F) : Nat → F :=
  ((List.range vv.fSize.toNat).filter (inReadout nstrip vv shift)).foldl
    (lower (directStrip vv) (inducedStrip vv shift) vv.fTime) times

theorem earlier_lesser (a b : F) : earlier a b = lesser a b := rfl

theorem accept_time (p : DigitizedPlane F) (c : Contribution F) (time charge : F) :
    (p.accept c time charge).fTime = Function.update p.fTime c.strip time := by
  rw [accept, absorbed_frame]
  rfl

theorem cumulate_direct_times (p p' : DigitizedPlane F) (vv : GEMHit F) (type : Nat) (clusterID : Int)
    (completed : p.cumulateDirect vv type clusterID = some p') :
    p'.fNStrips = p.fNStrips ∧ p'.fTime = directTimes vv p.fTime := by
  refine cumulate_direct_rule vv type clusterID
    (fun done q => q.fNStrips = p.fNStrips ∧ q.fTime = done.foldl (lower (directStrip vv) (directStrip vv) vv.fTime) p.fTime)
    ?_ p p' completed ⟨rfl, rfl⟩
  rintro done j q ⟨strips, times⟩ _ _ _
  rw [List.foldl_append, ← times, List.foldl_cons, List.foldl_nil, lower, directStrip, accept_strips, accept_time, direct_strip,
    earlier_lesser]
  exact ⟨strips, rfl⟩

theorem cumulate_induced_times (p p' : DigitizedPlane F) (vv : GEMHit F) (shift : Int) (factor : F)
    (completed : p.cumulateInduced vv (some (shift, factor)) = some p') :
    p'.fNStrips = p.fNStrips ∧ p'.fTime = inducedTimes p.fNStrips vv shift p.fTime := by
  refine cumulate_induced_rule vv shift factor
    (fun done q => q.fNStrips = p.fNStrips ∧ q.fTime = (done.filter (inReadout p.fNStrips vv shift)).foldl
      (lower (directStrip vv) (inducedStrip vv shift) vv.fTime) p.fTime)
    ?_ ?_ p p' completed ⟨rfl, rfl⟩
  · rintro done j q ⟨strips, times⟩ low high
    rw [List.filter_append, List.foldl_append, ← times, List.filter_singleton, inReadout, ← strips, decide_eq_true ⟨low, high⟩,
      cond_true, List.foldl_cons, List.foldl_nil, lower, directStrip, inducedStrip, accept_strips, accept_time, induced_strip,
      earlier_lesser]
    exact ⟨rfl, rfl⟩
  · rintro done j q ⟨strips, times⟩ outside
    rw [List.filter_append, List.foldl_append, ← times, List.filter_singleton, inReadout, ← strips, decide_eq_false outside]
    exact ⟨rfl, rfl⟩

def writtenTimes (nstrip : Nat) (vv : GEMHit F) (induced : Option (Int × F)) (times : Nat → F) : Nat → F :=
  match induced with
  | none => directTimes vv times
  | some (shift, _) => inducedTimes nstrip vv shift (directTimes vv times)

def touched (nstrip : Nat) (vv : GEMHit F) (induced : Option (Int × F)) : List Nat :=
  (List.range vv.fSize.toNat).map (directStrip vv) ++
    match induced with
    | none => []
    | some (shift, _) => ((List.range vv.fSize.toNat).filter (inReadout nstrip vv shift)).map (inducedStrip vv shift)

theorem cumulate_times (ct : CrossTalk F) (g : Gen) (p p' : DigitizedPlane F) (vv : GEMHit F) (type : Nat) (clusterID : Int)
    (st st' : rng.State) (completed : p.cumulate ct g vv type clusterID st = .ok (p', st')) :
    ∃ induced, drawCrossTalk ct g st = .ok (induced, st') ∧ p'.fNStrips = p.fNStrips ∧
      p'.fTime = writtenTimes p.fNStrips vv induced p.fTime := by
  obtain ⟨direct, induced, first, draws, second⟩ := cumulate_ok ct g p p' vv type clusterID st st' completed
  obtain ⟨strips, times⟩ := cumulate_direct_times p direct vv type clusterID first
  refine ⟨induced, draws, ?_⟩
  cases induced with
  | none =>
      have same : direct = p' := Option.some.inj second
      rw [← same]
      exact ⟨strips, times⟩
  | some pair =>
      obtain ⟨shift, factor⟩ := pair
      obtain ⟨strips', times'⟩ := cumulate_induced_times direct p' vv shift factor second
      rw [times', times, strips]
      exact ⟨strips'.trans strips, rfl⟩

-- An induced signal falls on a strip in time when, up to the time of the hit,
-- that strip and the one the signal comes from were reached alike.
def InTime (nstrip : Nat) (vv : GEMHit F) (shift : Int) (times : Nat → F) : Prop :=
  ∀ j < vv.fSize.toNat, inReadout nstrip vv shift j = true →
    earlier (times (directStrip vv j)) vv.fTime = earlier (times (inducedStrip vv shift j)) vv.fTime

theorem direct_times (vv : GEMHit F) (times : Nat → F) (s : Nat) :
    directTimes vv times s =
      if s ∈ (List.range vv.fSize.toNat).map (directStrip vv) then lesser (times s) vv.fTime else times s :=
  lower_loop (directStrip vv) (directStrip vv) vv.fTime times [] (List.range vv.fSize.toNat) (fun _ _ => rfl) times
    (fun _ => rfl) s

theorem written_times (nstrip : Nat) (vv : GEMHit F) (induced : Option (Int × F)) (times : Nat → F)
    (inTime : ∀ pair ∈ induced, InTime nstrip vv pair.1 times) (s : Nat) :
    writtenTimes nstrip vv induced times s = if s ∈ touched nstrip vv induced then lesser (times s) vv.fTime else times s := by
  cases induced with
  | none =>
      rw [writtenTimes, touched, List.append_nil]
      exact direct_times vv times s
  | some pair =>
      obtain ⟨shift, factor⟩ := pair
      have alike := inTime (shift, factor) rfl
      refine lower_loop (directStrip vv) (inducedStrip vv shift) vv.fTime times _ _ ?_ _ (direct_times vv times) s
      intro j member
      obtain ⟨listed, readout⟩ := List.mem_filter.mp member
      exact alike j (List.mem_range.mp listed) readout

def timesAt (s : Nat) (log : List (Nat × F)) : List F := (entriesAt Prod.fst s log).map Prod.snd

def touches (nstrip : Nat) (vv : GEMHit F) (induced : Option (Int × F)) : List (Nat × F) :=
  (touched nstrip vv induced).map (fun s => (s, vv.fTime))

omit [Arith F] in
theorem times_at_append (s : Nat) (log : List (Nat × F)) (strips : List Nat) (time : F) :
    timesAt s (log ++ strips.map (fun k => (k, time))) =
      timesAt s log ++ List.replicate (strips.count s) time := by
  rw [timesAt, entriesAt, List.filter_append, List.map_append]
  refine congrArg _ ?_
  induction strips with
  | nil => rfl
  | cons k rest ih =>
      by_cases here : k = s
      · simp [here, List.replicate_succ, ih]
      · simp [here, ih]

namespace PlaneCall

def timeLog (ct : CrossTalk F) (g : Gen) (nstrip : Nat) (log : List (Nat × F)) : PlaneCall F → Draw rng (List (Nat × F))
  | clear => pure []
  | cumulate vv _ _ => do
      let induced ← drawCrossTalk ct g
      pure (log ++ touches nstrip vv induced)
  | threshold _ => pure log

def InducedInTime (rng : Rng F) (ct : CrossTalk F) (g : Gen) (p : DigitizedPlane F) (call : PlaneCall F) (st : rng.State) : Prop :=
  match call with
  | cumulate vv _ _ => ∀ pair st', drawCrossTalk ct g st = .ok (some pair, st') → InTime p.fNStrips vv pair.1 p.fTime
  | _ => True

def NeverLater (rng : Rng F) (ct : CrossTalk F) (g : Gen) (p : DigitizedPlane F) (call : PlaneCall F) (st : rng.State) : Prop :=
  match call with
  | cumulate _ _ _ => ∀ p' st', call.apply ct g p st = .ok (p', st') → ∀ s, ¬ p.fTime s < p'.fTime s
  | _ => True

end PlaneCall

-- The times of a plane say when each strip was first touched.
structure Timed (nstrip : Nat) (p : DigitizedPlane F) (log : List (Nat × F)) : Prop where
  strips : p.fNStrips = nstrip
  least : ∀ s, Least (p.fTime s) (9999.0 :: timesAt s log)

section
variable [Std.Asymm (LT.lt : F → F → Prop)]

theorem in_time_never_later (ct : CrossTalk F) (g : Gen) (p : DigitizedPlane F) (call : PlaneCall F) (st : rng.State)
    (inTime : call.InducedInTime rng ct g p st) : call.NeverLater rng ct g p st := by
  cases call with
  | clear => trivial
  | threshold thr => trivial
  | cumulate vv type clusterID =>
      intro p' st' completed s
      obtain ⟨induced, draws, _, times⟩ := cumulate_times ct g p p' vv type clusterID st st' completed
      rw [times, written_times]
      · split
        · exact lesser_not_later _ _
        · exact irrefl_of LT.lt _
      · intro pair member
        rw [Option.mem_def.mp member] at draws
        exact inTime pair st' draws

theorem timed_step [IsOrderConnected F LT.lt] (ct : CrossTalk F) (g : Gen) (nstrip : Nat) (p p' : DigitizedPlane F) (log : List (Nat × F))
    (timed : Timed nstrip p log) (call : PlaneCall F) (st st' : rng.State) (inTime : call.InducedInTime rng ct g p st)
    (applied : call.apply ct g p st = .ok (p', st')) :
    ∃ log', call.timeLog ct g nstrip log st = .ok (log', st') ∧ Timed nstrip p' log' := by
  obtain ⟨strips, least⟩ := timed
  cases call with
  | clear =>
      obtain ⟨rfl, rfl⟩ := (draw_pure_ok _ _ _ _).mp applied
      exact ⟨[], rfl, strips, fun _ => least_singleton _⟩
  | threshold thr =>
      obtain ⟨rfl, rfl⟩ := (draw_pure_ok _ _ _ _).mp applied
      exact ⟨log, rfl, strips, least⟩
  | cumulate vv type clusterID =>
      obtain ⟨induced, draws, strips', times⟩ := cumulate_times ct g p p' vv type clusterID st st' applied
      refine ⟨log ++ touches nstrip vv induced, ?_, strips'.trans strips, fun s => ?_⟩
      · rw [PlaneCall.timeLog, draw_bind_of _ _ induced st st' draws]
        rfl
      · rw [times, written_times, touches, times_at_append, ← List.cons_append, strips]
        · split
          case isTrue here =>
            have again := List.count_pos_iff.mpr here
            refine least_append _ _ _ _ (least s) (fun y member => List.eq_of_mem_replicate member) ?_
            rw [ne_eq, List.replicate_eq_nil_iff]
            omega
          case isFalse away =>
            rw [List.count_eq_zero_of_not_mem away, List.replicate_zero, List.append_nil]
            exact least s
        · intro pair member
          rw [Option.mem_def.mp member] at draws
          exact inTime pair st' draws

theorem timed_run [IsOrderConnected F LT.lt] (ct : CrossTalk F) (g : Gen) (nstrip : Nat) (calls : List (PlaneCall F)) (p p' : DigitizedPlane F)
    (log : List (Nat × F)) (timed : Timed nstrip p log) (st st' : rng.State)
    (inTime : Along (PlaneCall.apply ct g) (fun p call st => call.InducedInTime rng ct g p st) calls p st)
    (ran : calls.foldlM (PlaneCall.apply ct g) p st = .ok (p', st')) :
    ∃ log', calls.foldlM (PlaneCall.timeLog ct g nstrip) log st = .ok (log', st') ∧ Timed nstrip p' log' := by
  induction calls generalizing p log st with
  | nil =>
      obtain ⟨rfl, rfl⟩ := (draw_pure_ok _ _ _ _).mp ran
      exact ⟨log, rfl, timed⟩
  | cons call rest ih =>
      obtain ⟨mid, stMid, applied, later⟩ := (draw_bind_ok _ _ _ _ _).mp ran
      obtain ⟨logMid, written, kept⟩ := timed_step ct g nstrip p mid log timed call st stMid inTime.1 applied
      obtain ⟨log', logged, final⟩ := ih mid logMid kept stMid (inTime.2 mid stMid applied) later
      refine ⟨log', ?_, final⟩
      rw [List.foldlM_cons, draw_bind_of _ _ logMid st stMid written]
      exact logged

end

-- Two strips: the strip above is hit at time 5, then the strip below it at a
-- time of choice, and the signal of the second hit is induced on the first.
def upper : GEMHit ℝ := ⟨[1], [10], [1], 5, 1, 1, 10, 1⟩
def below (time : ℝ) : GEMHit ℝ := ⟨[0], [10], [1], time, 1, 1, 10, 1⟩

noncomputable def neighbour : CrossTalk ℝ := ⟨true, 1, 0.1, 0⟩

noncomputable def twoHits (time : ℝ) : List (PlaneCall ℝ) := [.cumulate upper 1 1, .cumulate (below time) 1 2]

theorem neighbour_draws (st : List Int) :
    (drawCrossTalk neighbour (.ran 0 0) : Draw (Rng.scripted ℝ) _) st = .ok (some (1, 0.1), st) := by
  have middle : ¬ ((0.0 : ℝ) + 1.0) / 2.0 < 0.5 := by norm_num
  have large : ¬ (0.1 : ℝ) + 0.0 ≤ 0.0 := by norm_num
  refine (draw_cross_talk_eq (Rng.scripted ℝ) neighbour (.ran 0 0) rfl st).trans ?_
  simp only [Rng.scripted, neighbour, middle, large, if_false, one_mul]
  norm_num

theorem upper_times (times : Nat → ℝ) :
    writtenTimes 2 upper (some (1, 0.1)) times = Function.update times 1 (lesser (times 1) 5) := by
  rfl

theorem below_times (time : ℝ) (times : Nat → ℝ) :
    writtenTimes 2 (below time) (some (1, 0.1)) times =
      Function.update (Function.update times 0 (lesser (times 0) time)) 1 (lesser (lesser (times 0) time) time) := by
  rfl

theorem neighbour_step (p : DigitizedPlane ℝ) (ledger : List (Contribution ℝ)) (tracks : Tracks neighbour 2 1 p ledger)
    (vv : GEMHit ℝ) (fits : vv.Fits 2 1) (id : Int) :
    ∃ p' ledger', ((PlaneCall.cumulate vv 1 id).apply neighbour (.ran 0 0) p : Draw (Rng.scripted ℝ) _) [] = .ok (p', []) ∧
      Tracks neighbour 2 1 p' ledger' ∧ p'.fTime = writtenTimes 2 vv (some (1, 0.1)) p.fTime := by
  obtain ⟨p', ledger', st', applied, _, kept⟩ := @plane_call_step ℝ _ (Rng.scripted ℝ) neighbour (.ran 0 0) 2 1 (by decide) p ledger
    tracks (.cumulate vv 1 id) ⟨.inl rfl, fits⟩ []
  obtain ⟨induced, draws, _, times⟩ := @cumulate_times ℝ _ (Rng.scripted ℝ) neighbour (.ran 0 0) p p' vv 1 id [] st' applied
  rw [neighbour_draws] at draws
  cases draws
  rw [tracks.strips] at times
  exact ⟨p', ledger', applied, kept, times⟩

theorem upper_fits : upper.Fits 2 1 := by
  intro j listed
  have first : j = 0 := Nat.lt_one_iff.mp listed
  rw [first]
  decide

theorem below_fits (time : ℝ) : (below time).Fits 2 1 := by
  intro j listed
  have first : j = 0 := Nat.lt_one_iff.mp listed
  have strip : (below time).getIdx (0 : Nat) = 0 := rfl
  have count : (below time).getADC (0 : Nat) (0 : Nat) = 10 := rfl
  rw [first, strip]
  refine ⟨le_refl 0, by decide, fun k sample => ?_⟩
  rw [Nat.lt_one_iff.mp sample, count]
  decide

theorem two_hits_run (time : ℝ) :
    ∃ mid p, ((PlaneCall.cumulate upper 1 1).apply neighbour (.ran 0 0) (new 2 1 0) : Draw (Rng.scripted ℝ) _) [] = .ok (mid, []) ∧
      ((PlaneCall.cumulate (below time) 1 2).apply neighbour (.ran 0 0) mid : Draw (Rng.scripted ℝ) _) [] = .ok (p, []) ∧
      mid.fTime 0 = 9999 ∧ mid.fTime 1 = 5 ∧ p.fTime 1 = lesser (lesser 9999 time) time ∧ p.fNStrips = 2 := by
  have initial : Tracks neighbour 2 1 (new 2 1 0 : DigitizedPlane ℝ) [] := tracks_new neighbour 2 1 0 (le_refl 0)
  obtain ⟨mid, ledger, applied, kept, times⟩ := neighbour_step _ [] initial upper upper_fits 1
  obtain ⟨p, _, applied', kept', times'⟩ := neighbour_step mid ledger kept (below time) (below_fits time) 2
  have free : mid.fTime 0 = 9999 := by
    rw [times, upper_times, Function.update_of_ne (by decide)]
    norm_num [new]
  refine ⟨mid, p, applied, applied', free, ?_, ?_, kept'.strips⟩
  · rw [times, upper_times, Function.update_self]
    norm_num [new, lesser]
  · rw [times', below_times, Function.update_self, free]

theorem two_hits_ran (time : ℝ) (mid p : DigitizedPlane ℝ)
    (first : ((PlaneCall.cumulate upper 1 1).apply neighbour (.ran 0 0) (new 2 1 0) : Draw (Rng.scripted ℝ) _) [] = .ok (mid, []))
    (second : ((PlaneCall.cumulate (below time) 1 2).apply neighbour (.ran 0 0) mid : Draw (Rng.scripted ℝ) _) [] = .ok (p, [])) :
    ((twoHits time).foldlM (PlaneCall.apply neighbour (.ran 0 0)) (new 2 1 0) : Draw (Rng.scripted ℝ) _) [] = .ok (p, []) :=
  (@draw_bind_of ℝ (Rng.scripted ℝ) _ _ _ _ mid [] [] first).trans
    (@draw_bind_of ℝ (Rng.scripted ℝ) _ _ _ _ p [] [] second)

theorem two_hits_log (time : ℝ) :
    ((twoHits time).foldlM (PlaneCall.timeLog neighbour (.ran 0 0) 2) [] : Draw (Rng.scripted ℝ) _) [] =
      .ok ([(1, 5), (0, time), (1, time)], []) :=
  (@draw_bind_of ℝ (Rng.scripted ℝ) _ _ _ _ [(1, 5)] [] []
    (@draw_bind_of ℝ (Rng.scripted ℝ) _ _ _ _ _ [] [] (neighbour_draws []))).trans
      (@draw_bind_of ℝ (Rng.scripted ℝ) _ _ _ _ [(1, 5), (0, time), (1, time)] [] []
        (@draw_bind_of ℝ (Rng.scripted ℝ) _ _ _ _ _ [] [] (neighbour_draws [])))

theorem strip_times_earliest [Std.Asymm (LT.lt : F → F → Prop)] [IsOrderConnected F LT.lt] (rng : Rng F) (ct : CrossTalk F) (g : Gen) (nstrip nsample thr : Int) (calls : List (PlaneCall F))
    (p : DigitizedPlane F) (st st' : rng.State)
    (ran : calls.foldlM (PlaneCall.apply ct g) (new nstrip nsample thr) st = .ok (p, st'))
    (inTime : Along (PlaneCall.apply ct g) (fun p call st => call.InducedInTime rng ct g p st) calls (new nstrip nsample thr) st) :
    (∃ log, calls.foldlM (PlaneCall.timeLog ct g (toUInt16 nstrip)) [] st = .ok (log, st') ∧
      ∀ s < p.fNStrips, Least (p.fTime s) (9999.0 :: timesAt s log)) ∧
    Along (PlaneCall.apply ct g) (fun p call st => call.NeverLater rng ct g p st) calls (new nstrip nsample thr) st := by
  refine ⟨?_, along_mono _ _ _ (fun p call st => in_time_never_later ct g p call st) calls _ st inTime⟩
  have initial : Timed (toUInt16 nstrip) (new nstrip nsample thr : DigitizedPlane F) [] := ⟨rfl, fun _ => least_singleton _⟩
  obtain ⟨log, logged, timed⟩ := timed_run ct g (toUInt16 nstrip) calls _ p [] initial st st' inTime ran
  exact ⟨log, logged, fun s _ => timed.least s⟩


-- The second hit comes first: both strips keep its time.
theorem strip_times_earliest_second_earlier :
    ∃ p, ((twoHits 3).foldlM (PlaneCall.apply neighbour (.ran 0 0)) (new 2 1 0) : Draw (Rng.scripted ℝ) _) [] = .ok (p, []) ∧
      (∃ log, ((twoHits 3).foldlM (PlaneCall.timeLog neighbour (.ran 0 0) 2) [] : Draw (Rng.scripted ℝ) _) [] = .ok (log, []) ∧
        ∀ s < p.fNStrips, Least (p.fTime s) (9999.0 :: timesAt s log)) ∧
      Along (PlaneCall.apply neighbour (.ran 0 0))
        (fun p call st => call.NeverLater (Rng.scripted ℝ) neighbour (.ran 0 0) p st) (twoHits 3) (new 2 1 0) [] := by
  obtain ⟨mid, p, applied, applied', free, early, _⟩ := two_hits_run 3
  have ran := two_hits_ran 3 mid p applied applied'
  refine ⟨p, ran, strip_times_earliest (Rng.scripted ℝ) neighbour (.ran 0 0) 2 1 0 (twoHits 3) p [] [] ran ?_⟩
  refine ⟨?_, fun mid' st ran' => ⟨?_, fun _ _ _ => trivial⟩⟩
  · intro pair st draws j listed readout
    rw [neighbour_draws] at draws
    cases draws
    have first : j = 0 := Nat.lt_one_iff.mp listed
    rw [first] at readout
    exact absurd readout (by decide)
  · rw [applied] at ran'
    cases ran'
    intro pair st draws j listed readout
    rw [neighbour_draws] at draws
    cases draws
    have first : j = 0 := Nat.lt_one_iff.mp listed
    subst first
    change earlier (mid.fTime 0) 3 = earlier (mid.fTime 1) 3
    rw [free, early]
    norm_num [earlier]

-- The second hit comes later: its induced signal puts off the time of the
-- strip that was hit at 5.
theorem induced_signal_delays_strip :
    ∃ mid p, ((PlaneCall.cumulate (below 7) 1 2).apply neighbour (.ran 0 0) mid : Draw (Rng.scripted ℝ) _) [] = .ok (p, []) ∧
      mid.fTime 1 < p.fTime 1 ∧
      ((twoHits 7).foldlM (PlaneCall.apply neighbour (.ran 0 0)) (new 2 1 0) : Draw (Rng.scripted ℝ) _) [] = .ok (p, []) ∧
      ∃ log, ((twoHits 7).foldlM (PlaneCall.timeLog neighbour (.ran 0 0) 2) [] : Draw (Rng.scripted ℝ) _) [] = .ok (log, []) ∧
        ¬ ∀ s < p.fNStrips, Least (p.fTime s) (9999.0 :: timesAt s log) := by
  obtain ⟨mid, p, applied, applied', _, early, late, strips⟩ := two_hits_run 7
  have settled : p.fTime 1 = 7 := by
    rw [late]
    norm_num [lesser]
  refine ⟨mid, p, applied', ?_, two_hits_ran 7 mid p applied applied', _, two_hits_log 7, fun least => ?_⟩
  · rw [early, settled]
    norm_num
  · have bound := (least 1 (by rw [strips]; decide)).2 5 (by simp [timesAt, entriesAt])
    rw [settled] at bound
    exact bound (by norm_num)

end Solgem

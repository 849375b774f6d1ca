import Solgem.DigitizerStep
import Solgem.PlaneRuns
import Solgem.TreeEvent
import Solgem.TreeStrips

set_option autoImplicit false

namespace Solgem

open Lib

variable {F : Type} [Arith F] {rng : Rng F} {fails : Fault → Prop}

namespace DigitizedPlane

-- Some strip of the readout belongs to a cluster.
def Listed (p : DigitizedPlane F) : Prop := ∃ s < p.fNStrips, p.fStripClusters s ≠ []

theorem listed_accept (p : DigitizedPlane F) (c : Contribution F) (time charge : F) (listed : p.Listed) :
    (p.accept c time charge).Listed := by
  obtain ⟨s, below, some_cluster⟩ := listed
  refine ⟨s, by rwa [accept_strips], ?_⟩
  rw [accept_clusters]
  by_cases same : s = c.strip
  · rw [same, Function.update_self]
    rw [same] at some_cluster
    exact List.append_ne_nil_of_left_ne_nil some_cluster _
  · rwa [Function.update_of_ne same]

theorem cumulate_direct_listed (p p' : DigitizedPlane F) (vv : GEMHit F) (type : Nat) (clusterID : Int)
    (completed : p.cumulateDirect vv type clusterID = some p') : (vv.fSize.toNat = 0 ∧ p' = p) ∨ p'.Listed := by
  have loop := cumulate_direct_rule vv type clusterID (fun done q => (done.length = 0 ∧ q = p) ∨ q.Listed) ?_ p p' completed
    (.inl ⟨rfl, rfl⟩)
  · simpa only [List.length_range] using loop
  · intro done j q _ low high _
    refine .inr ⟨(vv.getIdx j).toNat, by rw [accept_strips]; omega, ?_⟩
    rw [accept_clusters, direct_strip, Function.update_self]
    exact List.append_ne_nil_of_right_ne_nil _ (List.cons_ne_nil _ _)

theorem cumulate_induced_listed (p p' : DigitizedPlane F) (vv : GEMHit F) (induced : Option (Int × F))
    (completed : p.cumulateInduced vv induced = some p') : (vv.fSize.toNat = 0 → p' = p) ∧ (p.Listed → p'.Listed) := by
  cases induced with
  | none =>
      cases completed
      exact ⟨fun _ => rfl, fun listed => listed⟩
  | some pair =>
      obtain ⟨shift, factor⟩ := pair
      have late : ∀ (done : List Nat) (j : Nat), (done ++ [j]).length ≠ 0 := fun done j => by simp
      have loop := cumulate_induced_rule vv shift factor (fun done q => (done.length = 0 → q = p) ∧ (p.Listed → q.Listed)) ?_ ?_ p p'
        completed ⟨fun _ => rfl, fun listed => listed⟩
      · simpa only [List.length_range] using loop
      · intro done j q before _ _
        exact ⟨fun empty => absurd empty (late done j), fun listed => listed_accept q _ _ _ (before.2 listed)⟩
      · intro done j q before _
        exact ⟨fun empty => absurd empty (late done j), before.2⟩

theorem cumulate_listed (ct : CrossTalk F) (g : Gen) (p : DigitizedPlane F) (vv : GEMHit F) (type : Nat) (clusterID : Int)
    (any : ∀ fault, fails fault) (st : rng.State) :
    Ensures fails (fun p' _ => SameShape p p' ∧ ((vv.fSize.toNat = 0 ∧ p' = p) ∨ p'.Listed))
      ((p.cumulate ct g vv type clusterID : Draw rng _) st) := by
  refine ensures_of_ok _ _ any (fun p' st' completed => ?_)
  have shape := cumulate_keeps (SameShape p) (fun q c time charge => same_shape_accept p q c time charge) ct g p p' vv type clusterID
    st st' completed ⟨rfl, rfl, rfl⟩
  obtain ⟨direct, induced, first, _, second⟩ := cumulate_ok ct g p p' vv type clusterID st st' completed
  obtain ⟨unchanged, kept⟩ := cumulate_induced_listed direct p' vv induced second
  refine ⟨shape, ?_⟩
  cases cumulate_direct_listed p direct vv type clusterID first with
  | inl empty => exact .inl ⟨empty.1, (unchanged empty.1).trans empty.2⟩
  | inr listed => exact .inr (kept listed)

end DigitizedPlane

open DigitizedPlane

theorem clear_of_shape (su : Setup F) (ic : Nat) (ip : Fin 2) (p : DigitizedPlane F)
    (shape : SameShape (su.freshPlane ic ip) p) : p.clear = su.freshPlane ic ip := by
  obtain ⟨samples, strips, level⟩ := shape
  rw [clear, samples, strips, level]
  rfl

-- What every call leaves true of a digitizer: no avalanche is kept, each plane
-- has its size, and a plane without a listed strip is as Initialize made it.
structure Steady (su : Setup F) (d : Digitizer F) : Prop where
  idle : d.fdh = none
  shape : ∀ ic ip, SameShape (su.freshPlane ic ip) (d.fDP ic ip)
  quiet : ∀ ic ip, d.fDP ic ip = su.freshPlane ic ip ∨ (d.fDP ic ip).Listed

theorem steady_new (su : Setup F) (ion : IonState F) (fOTree : Option (List (SimEvent F))) :
    Steady su (Digitizer.new su ion fOTree) :=
  ⟨rfl, fun _ _ => ⟨rfl, rfl, rfl⟩, fun _ _ => .inl rfl⟩

namespace Digitizer

theorem clear_all_planes (su : Setup F) (d : Digitizer F) (steady : Steady su d) : d.clearAll.fDP = su.freshPlane := by
  funext ic ip
  exact clear_of_shape su ic ip _ (steady.shape ic ip)

omit [Arith F] in
theorem update_plane_read (d : Digitizer F) (ic ic' : Nat) (ip ip' : Fin 2) (p : DigitizedPlane F) :
    (d.updatePlane ic ip p).fDP ic' ip' = if ic' = ic ∧ ip' = ip then p else d.fDP ic' ip' := by
  by_cases chamber : ic' = ic
  · subst chamber
    by_cases plane : ip' = ip <;> simp [updatePlane, plane]
  · simp [updatePlane, chamber]

theorem steady_update (su : Setup F) (d : Digitizer F) (steady : Steady su d) (ic : Nat) (ip : Fin 2)
    (p : DigitizedPlane F) (shape : SameShape (d.fDP ic ip) p) (changed : p = d.fDP ic ip ∨ p.Listed) :
    Steady su (d.updatePlane ic ip p) := by
  refine ⟨steady.idle, fun ic' ip' => ?_, fun ic' ip' => ?_⟩
  · rw [update_plane_read]
    by_cases here : ic' = ic ∧ ip' = ip
    · rw [if_pos here, here.1, here.2]
      exact same_shape_trans _ _ _ (steady.shape ic ip) shape
    · rw [if_neg here]
      exact steady.shape ic' ip'
  · rw [update_plane_read]
    by_cases here : ic' = ic ∧ ip' = ip
    · rw [if_pos here, here.1, here.2]
      cases changed with
      | inl same =>
          rw [same]
          exact steady.quiet ic ip
      | inr listed => exact .inr listed
    · rw [if_neg here]
      exact steady.quiet ic' ip'

theorem cumulate_hit_steady (su : Setup F) (d : Digitizer F) (h : GEMHitData F) (id : Int)
    (steady : Steady su { d with fdh := none }) (any : ∀ fault, fails fault) (st : rng.State) :
    Ensures fails (fun d' _ => Steady su d') ((d.cumulateHit su h id : Draw rng _) st) := by
  rw [cumulateHit]
  cases kept : d.fdh with
  | none => exact ⟨kept, steady.shape, steady.quiet⟩
  | some vv =>
      refine ensures_bind _ _ _ _ st (cumulate_listed su.ct _ (d.fDP h.fGem 0) (vv 0) _ id any st) ?_
      rintro first st1 ⟨shape, listed⟩
      refine ensures_bind _ _ _ _ st1 (cumulate_listed su.ct _ (d.fDP h.fGem 1) (vv 1) _ id any st1) ?_
      rintro second st2 ⟨shape', listed'⟩
      have once := steady_update su { d with fdh := none } steady h.fGem 0 first shape (listed.imp And.right (fun p => p))
      have untouched : (updatePlane { d with fdh := none } h.fGem 0 first).fDP h.fGem 1 = d.fDP h.fGem 1 := by
        rw [update_plane_read, if_neg (by simp)]
      exact steady_update su _ once h.fGem 1 second (by rw [untouched]; exact shape')
        (by rw [untouched]; exact listed'.imp And.right (fun p => p))

theorem digitize_hit_steady (su : Setup F) (fSource : Int) (trigger_jitter : F) (d : Digitizer F) (h : GEMHitData F)
    (steady : Steady su d) (any : ∀ fault, fails fault) (st : rng.State) :
    Ensures fails (fun d' _ => Steady su d') ((digitizeHit su fSource trigger_jitter d h : Draw rng _) st) := by
  refine digitize_hit_ensures su fSource trigger_jitter d h st _ (fun _ => steady) (fun ch _ => ?_)
  refine digitize_accepted_ensures su fSource trigger_jitter d h ch st _ (any _) (fun _ _ _ _ => any _) ?_
  intro ion _ time_zero fdh st' _ _
  refine cumulate_hit_steady su _ h _ ?_ any st'
  rw [set_tree_hit_state]
  exact ⟨rfl, steady.shape, steady.quiet⟩

theorem additive_digitize_steady (su : Setup F) (d : Digitizer F) (gdata : SimHitData F) (steady : Steady su d)
    (any : ∀ fault, fails fault) (st : rng.State) :
    Ensures fails (fun d' _ => Steady su d') ((d.additiveDigitize su gdata : Draw rng _) st) := by
  refine ensures_mono _ _ ?_ _ (additive_digitize_ensures su d gdata st (fun _ d => Steady su d) steady
    (fun trigger_jitter _ h d st _ kept => digitize_hit_steady su gdata.fSource trigger_jitter d h kept any st))
  rintro d' _ (⟨_, same⟩ | ⟨_, looped, kept, cleared⟩)
  · rw [same]
    exact steady
  · rw [cleared]
    exact ⟨kept.idle, kept.shape, kept.quiet⟩

theorem steady_clear_all (su : Setup F) (d : Digitizer F) (steady : Steady su d) : Steady su d.clearAll := by
  have planes := clear_all_planes su d steady
  refine ⟨steady.idle, fun ic ip => ?_, fun ic ip => .inl (by rw [planes])⟩
  rw [planes]
  exact ⟨rfl, rfl, rfl⟩

theorem record_tree_hits_frame (su : Setup F) (fSource : Int) (hits : List (GEMHitData F)) (d : Digitizer F) :
    (hits.foldl (recordTreeHit su fSource) d).fDP = d.fDP ∧ (hits.foldl (recordTreeHit su fSource) d).fdh = d.fdh := by
  refine foldl_invariant _ (fun _ acc => acc.fDP = d.fDP ∧ acc.fdh = d.fdh) [] hits ?_ d ⟨rfl, rfl⟩
  rintro _ h acc _ ⟨planes, avalanche⟩
  rw [recordTreeHit]
  cases su.spec[h.fGem]? with
  | none => exact ⟨planes, avalanche⟩
  | some ch =>
      simp only [set_tree_hit_state]
      exact ⟨planes, avalanche⟩

theorem set_tree_strips_steady (su : Setup F) (d : Digitizer F) (steady : Steady su d) (any : ∀ fault, fails fault)
    (st : rng.State) : Ensures fails (fun d' _ => Steady su d') ((d.setTreeStrips su : Draw rng _) st) := by
  refine ensures_mono _ _ ?_ _ (set_tree_strips_shows su d (fun _ => any _) st)
  rintro d' _ ⟨records, _, rfl⟩
  exact ⟨steady.idle, steady.shape, steady.quiet⟩

end Digitizer

open Digitizer

theorem call_keeps_steady (su : Setup F) (d : Digitizer F) (steady : Steady su d) (c : Call F)
    (any : ∀ fault, fails fault) (st : rng.State) :
    Ensures fails (fun d' _ => Steady su d') ((c.apply su d : Draw rng _) st) := by
  cases c with
  | digitize gdata => exact additive_digitize_steady su d.clearAll gdata (steady_clear_all su d steady) any st
  | additiveDigitize gdata => exact additive_digitize_steady su d gdata steady any st
  | noDigitize gdata =>
      obtain ⟨planes, avalanche⟩ := record_tree_hits_frame su gdata.fSource gdata.fHitData { d with fEvent := d.fEvent.clear }
      refine set_tree_strips_steady su _ ⟨avalanche.trans steady.idle, ?_, ?_⟩ any st
      · rw [planes]
        exact steady.shape
      · rw [planes]
        exact steady.quiet
  | setTreeEvent tsgd f evnum =>
      refine ensures_mono _ _ ?_ _ (set_tree_event_ensures su d tsgd f evnum st)
      rintro d' _ ⟨e, ecal, scint, rfl, _⟩
      exact ⟨steady.idle, steady.shape, steady.quiet⟩
  | setTreeStrips => exact set_tree_strips_steady su d steady any st
  | fillTree =>
      exact fill_tree_ensures su d (fun _ => any _) st _ (fun _ => ⟨steady.idle, steady.shape, steady.quiet⟩)
        (fun _ _ _ => ⟨steady.idle, steady.shape, steady.quiet⟩)

theorem reachable_steady (su : Setup F) (d : Digitizer F) (reachable : Reachable rng su d) : Steady su d := by
  induction reachable with
  | init ion fOTree => exact steady_new su ion fOTree
  | call d d' c st st' _ ran ih =>
      exact ensures_ok _ d' st' _ (call_keeps_steady su d ih c (fun _ => trivial) st) ran

end Solgem

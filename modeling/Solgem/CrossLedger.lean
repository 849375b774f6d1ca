import Solgem.AvaStrips
import Solgem.DigitizerShape

set_option autoImplicit false

namespace Solgem

open Lib DigitizedPlane Digitizer

def listedStrips {F : Type} (id : Int) (ledger : List (Contribution F)) : List Nat :=
  (entriesAt Contribution.cluster (some id) ledger).map Contribution.strip

theorem listed_strips_append {F : Type} (id : Int) (ledger extra : List (Contribution F)) :
    listedStrips id (ledger ++ extra) = listedStrips id ledger ++ listedStrips id extra := by
  simp only [listedStrips, entriesAt, List.filter_append, List.map_append]

theorem listed_cluster_count {F : Type} (s : Nat) (id : Int) (ledger : List (Contribution F)) :
    (listedAt Contribution.strip Contribution.cluster s ledger).count id = (listedStrips id ledger).count s :=
  listed_at_count Contribution.strip Contribution.cluster s id ledger

variable {F : Type} [Arith F] {rng : Rng F} {fails : Fault → Prop}

theorem listed_strips_direct (vv : GEMHit F) (type : Nat) (clusterID id : Int) (nsample : Nat) :
    listedStrips id (directLedger vv type clusterID nsample) = if id = clusterID then vv.strips.map Int.toNat else [] := by
  have cluster : ∀ j, (directContribution vv type clusterID nsample j).cluster = some clusterID := fun _ => rfl
  by_cases same : id = clusterID
  · simp [listedStrips, entriesAt, directLedger, same, GEMHit.strips, List.filter_map, Function.comp_def, cluster]
  · have other : ¬ clusterID = id := fun back => same back.symm
    simp [listedStrips, entriesAt, directLedger, same, other, List.filter_map, Function.comp_def, cluster]

theorem listed_strips_induced (id : Int) (nstrip : Nat) (vv : GEMHit F) (induced : Option (Int × F)) :
    listedStrips id (inducedLedger nstrip vv induced) = [] := by
  cases induced with
  | none => rfl
  | some pair =>
      have cluster : ∀ j, (inducedContribution vv pair.1 pair.2 j).cluster = none := fun _ => rfl
      simp [listedStrips, entriesAt, inducedLedger, List.filter_map, Function.comp_def, cluster]

-- The strips of one avalanche in the chamber ich, as its cluster describes them.
structure Struck (su : Setup F) (ich : Nat) (c : GEMCluster F) (strips : Fin 2 → List Nat) : Prop where
  ascending : ∀ ip, (strips ip).Pairwise (· < ·)
  inside : ∀ ip, ∀ s ∈ strips ip, s < (su.freshPlane ich ip).fNStrips
  size : ∀ ip, c.fSize ip = (strips ip).length
  start : ∀ ip, 0 < c.fSize ip → ∃ s : Nat, (strips ip).head? = some s ∧ c.fStart ip = s

-- The cluster with index i was recorded for the hit h; its strips are in the
-- chamber of h and nowhere else.
structure Placed (su : Setup F) (ledgers : Nat → Fin 2 → List (Contribution F)) (i : Nat) (c : GEMCluster F)
    (h : GEMHitData F) : Prop where
  hit : ∃ fSource ch fdh t0, su.spec[h.fGem]? = some ch ∧ c = su.treeHit fSource h ch fdh i t0
  away : ∀ ic ip, ic ≠ h.fGem → listedStrips (i + 1) (ledgers ic ip) = []
  struck : Struck su h.fGem c (fun ip => listedStrips (i + 1) (ledgers h.fGem ip))

structure Indexed (su : Setup F) (ledgers : Nat → Fin 2 → List (Contribution F)) (clusters : List (GEMCluster F)) : Prop where
  known : ∀ ic ip id, listedStrips id (ledgers ic ip) ≠ [] → 1 ≤ id ∧ id ≤ clusters.length
  placed : ∀ i c, clusters[i]? = some c → ∃ h, Placed su ledgers i c h

theorem indexed_append (su : Setup F) (ledgers later : Nat → Fin 2 → List (Contribution F)) (clusters : List (GEMCluster F))
    (indexed : Indexed su ledgers clusters) (fSource : Int) (h : GEMHitData F) (ch : GEMChamber F)
    (fdh : Option (Fin 2 → GEMHit F)) (t0 : F) (found : su.spec[h.fGem]? = some ch) (strips : Fin 2 → List Nat)
    (struck : Struck su h.fGem (su.treeHit fSource h ch fdh clusters.length t0) strips)
    (written : ∀ id ic ip, listedStrips id (later ic ip) =
      listedStrips id (ledgers ic ip) ++ if ic = h.fGem ∧ id = clusters.length + 1 then strips ip else []) :
    Indexed su later (clusters ++ [su.treeHit fSource h ch fdh clusters.length t0]) := by
  have fresh : ∀ ic ip, listedStrips (clusters.length + 1) (ledgers ic ip) = [] := by
    intro ic ip
    by_contra listed
    have bound := indexed.known ic ip _ listed
    omega
  refine ⟨fun ic ip id listed => ?_, fun i c recorded => ?_⟩
  · rw [List.length_append, List.length_singleton, Int.natCast_add, Int.natCast_one]
    by_cases here : ic = h.fGem ∧ id = clusters.length + 1
    · omega
    · rw [written, if_neg here, List.append_nil] at listed
      have bound := indexed.known ic ip id listed
      omega
  · rcases Nat.lt_trichotomy i clusters.length with old | last | beyond
    · rw [List.getElem?_append_left old] at recorded
      obtain ⟨h0, placed⟩ := indexed.placed i c recorded
      have kept : ∀ ic ip, listedStrips (i + 1) (later ic ip) = listedStrips (i + 1) (ledgers ic ip) := by
        intro ic ip
        rw [written, if_neg (by omega), List.append_nil]
      refine ⟨h0, placed.hit, fun ic ip other => (kept ic ip).trans (placed.away ic ip other), ?_⟩
      simp only [kept]
      exact placed.struck
    · subst last
      rw [List.getElem?_concat_length] at recorded
      rw [← Option.some.inj recorded]
      have here : (fun ip => listedStrips (clusters.length + 1) (later h.fGem ip)) = strips := by
        funext ip
        rw [written, fresh, if_pos ⟨rfl, rfl⟩, List.nil_append]
      refine ⟨h, ⟨fSource, ch, fdh, t0, found, rfl⟩, fun ic ip other => ?_, ?_⟩
      · rw [written, fresh, if_neg (fun both => other both.1), List.append_nil]
      · rw [here]
        exact struck
    · have outside := List.getElem?_eq_none (l := clusters ++ [su.treeHit fSource h ch fdh clusters.length t0])
        (i := i) (by rw [List.length_append, List.length_singleton]; omega)
      rw [outside] at recorded
      cases recorded

theorem cumulate_ledger (ct : CrossTalk F) (g : Gen) (p : DigitizedPlane F) (ledger : List (Contribution F))
    (represents : Represents p ledger) (small : p.fNStrips ≤ 32767) (vv : GEMHit F) (type : Nat) (clusterID : Int)
    (fits : vv.Fits p.fNStrips p.fNSamples) (st : rng.State) :
    Ensures fails (fun p' _ => SameShape p p' ∧ ∃ extra, Represents p' (ledger ++ extra) ∧
        ∀ id, listedStrips id extra = if id = clusterID then vv.strips.map Int.toNat else [])
      ((p.cumulate ct g vv type clusterID : Draw rng _) st) := by
  obtain ⟨induced, st', draws, _⟩ := draw_cross_talk_total rng ct g st
  obtain ⟨p', cumulated, shape, kept⟩ := cumulate_total ct g p ledger represents (by omega) vv type clusterID fits st st' induced draws
  rw [cumulated]
  refine ⟨shape, _, kept, fun id => ?_⟩
  rw [listed_strips_append, listed_strips_direct, listed_strips_induced, List.append_nil]

-- Both planes of the chamber take the avalanche; their ledgers grow by the
-- strips of its two hits.
theorem cumulate_hit_ledger (su : Setup F) (d : Digitizer F) (h : GEMHitData F) (id : Int) (vv : Fin 2 → GEMHit F)
    (struck : d.fdh = some vv) (ledgers : Nat → Fin 2 → List (Contribution F))
    (represents : ∀ ip, Represents (d.fDP h.fGem ip) (ledgers h.fGem ip)) (small : ∀ ip, (d.fDP h.fGem ip).fNStrips ≤ 32767)
    (fits : ∀ ip, (vv ip).Fits (d.fDP h.fGem ip).fNStrips (d.fDP h.fGem ip).fNSamples) (st : rng.State) :
    Ensures fails (fun d' _ => ∃ (planes : Fin 2 → DigitizedPlane F) (extra : Fin 2 → List (Contribution F)),
        d' = { d with fDP := Function.update d.fDP h.fGem planes, fdh := none } ∧
        ∀ ip, SameShape (d.fDP h.fGem ip) (planes ip) ∧ Represents (planes ip) (ledgers h.fGem ip ++ extra ip) ∧
          ∀ id', listedStrips id' (extra ip) = if id' = id then (vv ip).strips.map Int.toNat else [])
      ((d.cumulateHit su h id : Draw rng _) st) := by
  rw [cumulateHit, struck]
  refine ensures_bind _ _ _ _ st (cumulate_ledger su.ct _ _ _ (represents 0) (small 0) (vv 0) _ id (fits 0) st) ?_
  rintro first st1 ⟨shape, extra, kept, listed⟩
  refine ensures_bind _ _ _ _ st1 (cumulate_ledger su.ct _ _ _ (represents 1) (small 1) (vv 1) _ id (fits 1) st1) ?_
  rintro second st2 ⟨shape', extra', kept', listed'⟩
  refine ⟨fun ip => if ip = 0 then first else second, fun ip => if ip = 0 then extra else extra', ?_, fun ip => ?_⟩
  · have planes : Function.update (Function.update (d.fDP h.fGem) 0 first) 1 second = fun ip => if ip = 0 then first else second := by
      funext ip
      rcases projections ip with rfl | rfl
      · rfl
      · rfl
    simp only [updatePlane, Function.update_self, Function.update_idem, planes]
  · rcases projections ip with rfl | rfl
    · exact ⟨shape, kept, listed⟩
    · exact ⟨shape', kept', listed'⟩

-- The digitizer's planes and clusters, with ledgers that say how they arose.
-- Short_t cluster numbers are in order as long as they last.
structure Ledgered (su : Setup F) (ledgers : Nat → Fin 2 → List (Contribution F)) (d : Digitizer F) : Prop where
  idle : d.fdh = none
  shape : ∀ ic ip, SameShape (su.freshPlane ic ip) (d.fDP ic ip)
  represents : ∀ ic ip, Represents (d.fDP ic ip) (ledgers ic ip)
  indexed : d.fEvent.fGEMClust.length ≤ 32767 → Indexed su ledgers d.fEvent.fGEMClust

theorem ledgered_grows (su : Setup F) (d : Digitizer F) (ledgers : Nat → Fin 2 → List (Contribution F))
    (ledgered : Ledgered su ledgers d) (ich : Nat) (planes : Fin 2 → DigitizedPlane F) (extra : Fin 2 → List (Contribution F))
    (each : ∀ ip, SameShape (d.fDP ich ip) (planes ip) ∧ Represents (planes ip) (ledgers ich ip ++ extra ip))
    (ion : IonState F) (e : SimEvent F)
    (indexed : e.fGEMClust.length ≤ 32767 →
      Indexed su (Function.update ledgers ich (fun ip => ledgers ich ip ++ extra ip)) e.fGEMClust) :
    Ledgered su (Function.update ledgers ich (fun ip => ledgers ich ip ++ extra ip))
      { d with ion := ion, fDP := Function.update d.fDP ich planes, fEvent := e, fdh := none } := by
  refine ⟨rfl, fun ic ip => ?_, fun ic ip => ?_, indexed⟩
  · by_cases here : ic = ich
    · subst here
      simp only [Function.update_self]
      exact same_shape_trans _ _ _ (ledgered.shape ic ip) (each ip).1
    · simp only [Function.update_of_ne here]
      exact ledgered.shape ic ip
  · by_cases here : ic = ich
    · subst here
      simp only [Function.update_self]
      exact (each ip).2
    · simp only [Function.update_of_ne here]
      exact ledgered.represents ic ip

-- The ions drawn for a hit give avalanches whose bins have Short_t numbers.
def AvalancheFits (rng : Rng F) (su : Setup F) (d : Digitizer F) (h : GEMHitData F) (st : rng.State) : Prop :=
  ∀ ch ion st' r, su.accepts h = some ch →
    (ionModel su.par h.fXi h.fXo h.fEdep d.ion : Draw rng _) st = .ok (ion, st') → 0 < ion.fRNIon →
    activeRegion ch (diffusionArea su.par ion h.fXi h.fXo) = some r → ∀ ip, BinsFit su.par (ch.fPlanes ip) r

theorem fresh_plane_strips (su : Setup F) (ic : Nat) (ch : GEMChamber F) (found : su.spec[ic]? = some ch) (ip : Fin 2)
    (some_strip : 0 < (ch.fPlanes ip).fNStrips) (small : (ch.fPlanes ip).fNStrips ≤ 32767) :
    (su.freshPlane ic ip).fNStrips = (ch.fPlanes ip).fNStrips.toNat := by
  have exact := uint16_exact (ch.fPlanes ip).fNStrips (by omega) (by omega)
  have strips : (su.freshPlane ic ip).fNStrips = toUInt16 (ch.fPlanes ip).fNStrips := by rw [Setup.freshPlane, found]; rfl
  omega

theorem struck_none (su : Setup F) (fSource : Int) (h : GEMHitData F) (ch : GEMChamber F) (size : Nat) (t0 : F) :
    Struck su h.fGem (su.treeHit fSource h ch none size t0) (fun _ => []) where
  ascending _ := List.Pairwise.nil
  inside _ _ member := absurd member List.not_mem_nil
  size _ := rfl
  start _ positive := absurd positive (Int.lt_irrefl 0)

theorem struck_of_names (su : Setup F) (fSource : Int) (h : GEMHitData F) (ch : GEMChamber F) (vv : Fin 2 → GEMHit F)
    (size : Nat) (t0 : F) (strips : Fin 2 → List Nat)
    (names : ∀ ip, Names (su.freshPlane h.fGem ip).fNStrips (vv ip) (strips ip)) :
    Struck su h.fGem (su.treeHit fSource h ch (some vv) size t0) strips where
  ascending ip := (names ip).ascending
  inside ip := (names ip).inside
  size ip := by
    rw [Setup.treeHit]
    exact (names ip).size
  start ip positive := by
    rw [Setup.treeHit] at positive ⊢
    have positive : 0 < (vv ip).fSize := positive
    have count : 0 < (strips ip).length := by have size := (names ip).size; omega
    obtain ⟨s, rest, listed⟩ := List.exists_cons_of_length_pos count
    refine ⟨s, by rw [listed, List.head?_cons], ?_⟩
    have first : (vv ip).strips.head? = some ((vv ip).getIdx 0) := by
      rw [GEMHit.strips, List.head?_map, List.head?_range, if_neg (by omega), Option.map_some, Int.natCast_zero]
    rw [(names ip).indices, listed, List.map_cons, List.head?_cons] at first
    exact (if_pos positive).trans (Option.some.inj first).symm

theorem avalanche_names (su : Setup F) (small : ∀ ch ∈ su.spec, ∀ ip, (ch.fPlanes ip).fNStrips ≤ 32767) (d : Digitizer F)
    (h : GEMHitData F) (ch : GEMChamber F) (found : su.spec[h.fGem]? = some ch) (ion : IonState F) (t0 : F)
    (vv : Fin 2 → GEMHit F) (idle : d.fdh = none) (outcome : avalanche su { d with ion := ion } h ch t0 = .ok (some vv))
    (fit : ∀ r, 0 < ion.fRNIon → activeRegion ch (diffusionArea su.par ion h.fXi h.fXo) = some r →
      ∀ ip, BinsFit su.par (ch.fPlanes ip) r) (ip : Fin 2) :
    ∃ strips, (0 < (su.freshPlane h.fGem ip).fNStrips ∧ (su.freshPlane h.fGem ip).fNStrips ≤ 32767 ∧
      (vv ip).Within (su.freshPlane h.fGem ip).fNStrips) ∧ Names (su.freshPlane h.fGem ip).fNStrips (vv ip) strips := by
  rw [avalanche] at outcome
  by_cases drawn : 0 < ion.fRNIon
  · rw [if_pos drawn] at outcome
    obtain ⟨r, region, planes⟩ := ava_model_some _ _ _ _ _ _ _ outcome
    have width := small ch (List.mem_of_getElem? found) ip
    obtain ⟨some_strip, within, named⟩ := ava_plane_some _ _ _ _ _ _ width (planes ip)
    obtain ⟨strips, names⟩ := named (fit r drawn region ip)
    rw [fresh_plane_strips su h.fGem ch found ip some_strip width]
    exact ⟨strips, ⟨by omega, by omega, within⟩, names⟩
  · rw [if_neg drawn, idle] at outcome
    cases outcome

theorem digitize_hit_ledgered (su : Setup F) (small : ∀ ch ∈ su.spec, ∀ ip, (ch.fPlanes ip).fNStrips ≤ 32767) (fSource : Int)
    (trigger_jitter : F) (d : Digitizer F) (h : GEMHitData F) (st : rng.State) (fit : AvalancheFits rng su d h st)
    (ledgered : ∃ ledgers, Ledgered su ledgers d) :
    Ensures (fun fault => fault = .avaModel ∨ fault = .badAccess) (fun d' _ => ∃ ledgers, Ledgered su ledgers d')
      ((digitizeHit su fSource trigger_jitter d h : Draw rng _) st) := by
  obtain ⟨ledgers, idle, shape, represents, indexed⟩ := ledgered
  refine digitize_hit_ensures su fSource trigger_jitter d h st _ (fun _ => ⟨ledgers, idle, shape, represents, indexed⟩) ?_
  intro ch accepted
  have found := accepts_chamber su h ch accepted
  refine digitize_accepted_ensures su fSource trigger_jitter d h ch st _ (.inr rfl) (fun ion t0 fault failed => ?_) ?_
  · rw [avalanche] at failed
    split at failed
    · exact .inl (ava_model_error _ _ _ _ _ _ fault failed)
    · cases failed
  · intro ion st1 t0 fdh st' ions outcome
    rw [set_tree_hit_state, set_tree_hit_id]
    cases fdh with
    | none =>
        refine ⟨ledgers, rfl, shape, represents, fun room => ?_⟩
        simp only [SimEvent.recordHit, List.length_append, List.length_singleton] at room ⊢
        refine indexed_append su ledgers ledgers _ (indexed (by omega)) fSource h ch none t0 found (fun _ => [])
          (struck_none su fSource h ch _ t0) (fun id ic ip => ?_)
        rw [ite_self, List.append_nil]
    | some vv =>
        have named := avalanche_names su small d h ch found ion t0 vv idle outcome (fun r => fit ch ion st1 r accepted ions)
        choose strips within names using named
        have width : ∀ ip, (d.fDP h.fGem ip).fNStrips = (su.freshPlane h.fGem ip).fNStrips := fun ip => (shape h.fGem ip).strips
        let recorded : Digitizer F := { d with
          ion := ion
          fdh := some vv
          fEvent := d.fEvent.recordHit (su.treeHit fSource h ch (some vv) d.fEvent.fGEMClust.length t0) }
        refine ensures_mono _ _ ?_ _ (cumulate_hit_ledger su recorded h (toInt16 (d.fEvent.fGEMClust.length + 1)) vv rfl
          ledgers (represents h.fGem) (fun ip => ?_) (fun ip => ?_) st')
        · rintro d' _ ⟨planes, extra, rfl, each⟩
          refine ⟨_, ledgered_grows su d ledgers ⟨idle, shape, represents, indexed⟩ h.fGem planes extra
            (fun ip => ⟨(each ip).1, (each ip).2.1⟩) ion recorded.fEvent (fun room => ?_)⟩
          simp only [recorded, SimEvent.recordHit, List.length_append, List.length_singleton] at room ⊢
          refine indexed_append su ledgers _ _ (indexed (by omega)) fSource h ch (some vv) t0 found strips
            (struck_of_names su fSource h ch vv _ t0 strips names) (fun id ic ip => ?_)
          by_cases here : ic = h.fGem
          · subst here
            have listed := (each ip).2.2 id
            rw [int16_exact _ (by omega) (by omega), names_numbers _ _ _ (names ip)] at listed
            rw [Function.update_self, listed_strips_append, listed]
            simp only [true_and]
          · rw [Function.update_of_ne here, if_neg (fun both => here both.1), List.append_nil]
        · rw [width]
          exact (within ip).2.1
        · rw [width]
          exact GEMHit.fits_of_within _ _ (within ip).1 (vv ip) (within ip).2.2

end Solgem

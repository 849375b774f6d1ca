import Solgem.Lib.Journal

set_option autoImplicit false

namespace Solgem.Lib

variable {S E D K V : Type}

-- A store that keeps what it is given under the key of each datum, behind
-- what the key holds. It may refuse a datum, or pass over one.
structure Appending [DecidableEq K] (load : S → D → Except E S) (key : D → K) (value : D → V) (read : S → K → List V)
    (passes : S → D → Prop) : Prop where
  stored : ∀ s d s', load s d = .ok s' → ¬ passes s d → ∀ k, read s' k = read s k ++ if key d = k then [value d] else []
  passed : ∀ s d s', load s d = .ok s' → passes s d → ∀ k, read s' k = read s k

theorem foldlM_except_cons (load : S → D → Except E S) (s mid : S) (d : D) (ds : List D) (first : load s d = .ok mid) :
    (d :: ds).foldlM load s = ds.foldlM load mid := by
  rw [List.foldlM_cons, first]
  rfl

theorem foldlM_except_stop (load : S → D → Except E S) (s : S) (e : E) (d : D) (ds : List D) (first : load s d = .error e) :
    (d :: ds).foldlM load s = .error e := by
  rw [List.foldlM_cons, first]
  rfl

-- A computation that may end early ends in an allowed way, or returns what the
-- postcondition holds of.
def Settles {A : Type} (stops : E → Prop) (post : A → Prop) : Except E A → Prop
  | .error e => stops e
  | .ok a => post a

theorem settles_weaken {A : Type} (stops stops' : E → Prop) (post : A → Prop) (m : Except E A) (settles : Settles stops post m)
    (weaker : ∀ e, stops e → stops' e) : Settles stops' post m := by
  cases m with
  | error e => exact weaker e settles
  | ok a => exact settles

theorem settles_bind {A B : Type} (stops : E → Prop) (mid : A → Prop) (post : B → Prop) (m : Except E A) (f : A → Except E B)
    (first : Settles stops mid m) (next : ∀ a, mid a → Settles stops post (f a)) : Settles stops post (m >>= f) := by
  cases m with
  | error e => exact first
  | ok a => exact next a first

theorem settles_foldlM (stops : E → Prop) (inv : S → Prop) (step : S → D → Except E S) (ds : List D)
    (each : ∀ s, ∀ d ∈ ds, inv s → Settles stops inv (step s d)) (s : S) (initial : inv s) :
    Settles stops inv (ds.foldlM step s) := by
  induction ds generalizing s with
  | nil => exact initial
  | cons d ds ih =>
      rw [List.foldlM_cons]
      exact settles_bind stops inv inv _ _ (each s d List.mem_cons_self initial)
        (fun mid kept => ih (fun s d' member => each s d' (List.mem_cons_of_mem d member)) mid kept)

-- What holds of every step that does not end early holds of the whole loop.
theorem foldlM_ok_invariant (step : S → D → Except E S) (inv : List D → S → Prop) (past rest : List D)
    (each : ∀ past s d s', d ∈ rest → inv past s → step s d = .ok s' → inv (past ++ [d]) s') (s s' : S) (initial : inv past s)
    (ran : rest.foldlM step s = .ok s') : inv (past ++ rest) s' := by
  induction rest generalizing past s with
  | nil =>
      cases ran
      rwa [List.append_nil]
  | cons d rest ih =>
      cases first : step s d with
      | error e =>
          rw [foldlM_except_stop step s e d rest first] at ran
          cases ran
      | ok mid =>
          rw [foldlM_except_cons step s mid d rest first] at ran
          have later := ih (past ++ [d]) (fun past s d' s' member => each past s d' s' (List.mem_cons_of_mem d member)) mid
            (each past s d mid List.mem_cons_self initial first) ran
          rwa [List.append_assoc] at later

-- A load that fails has been given a datum the store refused, after others it
-- took.
theorem refused_load (load : S → D → Except E S) (ds : List D) (s : S) (e : E) (failed : ds.foldlM load s = .error e) :
    ∃ done d rest mid, ds = done ++ d :: rest ∧ done.foldlM load s = .ok mid ∧ load mid d = .error e := by
  induction ds generalizing s with
  | nil => cases failed
  | cons d ds ih =>
      cases first : load s d with
      | error e' =>
          rw [foldlM_except_stop load s e' d ds first] at failed
          cases failed
          exact ⟨[], d, ds, s, rfl, rfl, first⟩
      | ok mid =>
          rw [foldlM_except_cons load s mid d ds first] at failed
          obtain ⟨done, d', rest, mid', split, taken, refused⟩ := ih mid failed
          exact ⟨d :: done, d', rest, mid', by rw [split, List.cons_append], by rw [foldlM_except_cons load s mid d done first, taken],
            refused⟩

theorem loads_append (load : S → D → Except E S) (first second : List D) (s mid s' : S) (done : first.foldlM load s = .ok mid)
    (later : second.foldlM load mid = .ok s') : (first ++ second).foldlM load s = .ok s' := by
  rw [List.foldlM_append, done]
  exact later

theorem loads_append_error (load : S → D → Except E S) (first second : List D) (s mid : S) (e : E)
    (done : first.foldlM load s = .ok mid) (later : second.foldlM load mid = .error e) :
    (first ++ second).foldlM load s = .error e := by
  rw [List.foldlM_append, done]
  exact later

theorem loads_append_stop (load : S → D → Except E S) (first second : List D) (s : S) (e : E)
    (stopped : first.foldlM load s = .error e) : (first ++ second).foldlM load s = .error e := by
  rw [List.foldlM_append, stopped]
  rfl

section
variable [DecidableEq K] {load : S → D → Except E S} {key : D → K} {value : D → V} {read : S → K → List V} {passes : S → D → Prop}
  (appending : Appending load key value read passes)
include appending

-- What is read back is what was loaded under the key, in order, less what the
-- store passed over.
theorem loads_read_back (ds : List D) (s s' : S) (loaded : ds.foldlM load s = .ok s') (k : K) :
    ∃ kept, kept.Sublist (entriesAt key k ds) ∧ read s' k = read s k ++ kept.map value ∧
      ((∀ s, ∀ d ∈ ds, ¬ passes s d) → kept = entriesAt key k ds) := by
  induction ds generalizing s with
  | nil =>
      cases loaded
      exact ⟨[], List.Sublist.refl _, by simp, fun _ => rfl⟩
  | cons d ds ih =>
      cases first : load s d with
      | error e =>
          rw [foldlM_except_stop load s e d ds first] at loaded
          cases loaded
      | ok mid =>
          rw [foldlM_except_cons load s mid d ds first] at loaded
          obtain ⟨kept, sublist, later, whole⟩ := ih mid loaded
          by_cases skipped : passes s d
          · refine ⟨kept, ?_, by rw [later, appending.passed s d mid first skipped k], fun none_passed => ?_⟩
            · exact sublist.trans ((List.sublist_cons_self d ds).filter _)
            · exact absurd skipped (none_passed s d List.mem_cons_self)
          · rw [appending.stored s d mid first skipped k] at later
            by_cases here : key d = k
            · have listed : entriesAt key k (d :: ds) = d :: entriesAt key k ds := by
                simp only [entriesAt, List.filter_cons, decide_eq_true here, if_true]
              rw [listed]
              refine ⟨d :: kept, sublist.cons_cons d, ?_, fun none_passed => ?_⟩
              · rw [later, if_pos here, List.append_assoc, List.map_cons, List.singleton_append]
              · rw [whole fun s d' member => none_passed s d' (List.mem_cons_of_mem d member)]
            · have elsewhere : entriesAt key k (d :: ds) = entriesAt key k ds :=
                List.filter_cons_of_neg (by rw [decide_eq_true_eq]; exact here)
              rw [if_neg here, List.append_nil] at later
              rw [elsewhere]
              exact ⟨kept, sublist, later, fun none_passed => whole fun s d' member => none_passed s d' (List.mem_cons_of_mem d member)⟩

end

end Solgem.Lib

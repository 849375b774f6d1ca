import Mathlib.Data.List.Basic

set_option autoImplicit false

namespace Solgem.Lib

variable {S A : Type}

-- A run feeds a list of inputs, one after the other, to a step relation.
inductive Run (step : S → A → S → Prop) : S → List A → S → Prop
  | nil (s : S) : Run step s [] s
  | cons (s mid s' : S) (a : A) (rest : List A) :
      step s a mid → Run step mid rest s' → Run step s (a :: rest) s'

theorem run_invariant (step : S → A → S → Prop) (inv : List A → S → Prop)
    (preserved : ∀ past a s s', inv past s → step s a s' → inv (past ++ [a]) s')
    (past rest : List A) (s s' : S) (run : Run step s rest s') (initial : inv past s) : inv (past ++ rest) s' := by
  induction run generalizing past with
  | nil s => simpa only [List.append_nil] using initial
  | cons s mid s' a rest first _ ih =>
      have next := ih (past ++ [a]) (preserved past a s mid initial first)
      simpa only [List.append_assoc, List.singleton_append] using next

-- A function that follows every step of a run follows the run.
theorem run_simulated {T : Type} (step : S → A → S → Prop) (follow : T → A → Option T) (image : S → T) (inv : S → Prop)
    (each : ∀ s a s', inv s → step s a s' → follow (image s) a = some (image s') ∧ inv s')
    (rest : List A) (s s' : S) (run : Run step s rest s') (initial : inv s) : rest.foldlM follow (image s) = some (image s') := by
  induction run with
  | nil s => rfl
  | cons s mid s' a rest first _ ih =>
      obtain ⟨followed, kept⟩ := each s a mid initial first
      rw [List.foldlM_cons, followed]
      exact ih kept

theorem run_total (step : S → A → S → Prop) (inv : List A → S → Prop) (past rest : List A)
    (progress : ∀ past a s, a ∈ rest → inv past s → ∃ s', step s a s' ∧ inv (past ++ [a]) s')
    (s : S) (initial : inv past s) : ∃ s', Run step s rest s' ∧ inv (past ++ rest) s' := by
  induction rest generalizing past s with
  | nil => exact ⟨s, Run.nil s, by simpa only [List.append_nil] using initial⟩
  | cons a rest ih =>
      obtain ⟨mid, first, kept⟩ := progress past a s (List.mem_cons_self ..) initial
      obtain ⟨s', run, final⟩ :=
        ih (past ++ [a]) (fun past b s member => progress past b s (List.mem_cons_of_mem a member)) mid kept
      refine ⟨s', Run.cons s mid s' a rest first run, ?_⟩
      simpa only [List.append_assoc, List.singleton_append] using final

theorem foldlM_run (f : S → A → Option S) (xs : List A) (s s' : S) :
    xs.foldlM f s = some s' ↔ Run (fun s a s' => f s a = some s') s xs s' := by
  induction xs generalizing s with
  | nil =>
      constructor
      · intro result
        have same : s = s' := Option.some.inj result
        rw [same]
        exact Run.nil s'
      · rintro ⟨⟩
        rfl
  | cons a rest ih =>
      rw [List.foldlM_cons, Option.bind_eq_bind, Option.bind_eq_some_iff]
      constructor
      · rintro ⟨mid, first, result⟩
        exact Run.cons s mid s' a rest first ((ih mid).mp result)
      · rintro (_ | ⟨_, mid, _, _, _, first, run⟩)
        exact ⟨mid, first, (ih mid).mpr run⟩

-- A counting loop over a list: the counter is the number of elements done.
theorem foldlM_indexed (f : S → A × Nat → Option S) (inv : List A → S → Prop) (past rest : List A)
    (progress : ∀ past a s, a ∈ rest → inv past s → ∃ s', f s (a, past.length) = some s' ∧ inv (past ++ [a]) s')
    (s : S) (initial : inv past s) : ∃ s', (rest.zipIdx past.length).foldlM f s = some s' ∧ inv (past ++ rest) s' := by
  induction rest generalizing past s with
  | nil => exact ⟨s, rfl, by simpa only [List.append_nil] using initial⟩
  | cons a rest ih =>
      obtain ⟨mid, first, kept⟩ := progress past a s (List.mem_cons_self ..) initial
      obtain ⟨s', run, final⟩ :=
        ih (past ++ [a]) (fun past b s member => progress past b s (List.mem_cons_of_mem a member)) mid kept
      rw [List.length_append, List.length_singleton] at run
      refine ⟨s', ?_, ?_⟩
      · rw [List.zipIdx_cons, List.foldlM_cons, first]
        exact run
      · simpa only [List.append_assoc, List.singleton_append] using final

-- The same for a loop that cannot stop.
theorem foldl_invariant (f : S → A → S) (inv : List A → S → Prop) (past rest : List A)
    (step : ∀ past a s, a ∈ rest → inv past s → inv (past ++ [a]) (f s a)) (s : S) (initial : inv past s) :
    inv (past ++ rest) (rest.foldl f s) := by
  induction rest generalizing past s with
  | nil =>
      rw [List.append_nil]
      exact initial
  | cons a rest ih =>
      have kept := step past a s (List.mem_cons_self ..) initial
      have later := ih (past ++ [a]) (fun past b s member => step past b s (List.mem_cons_of_mem a member)) (f s a) kept
      simpa only [List.foldl_cons, List.append_assoc, List.singleton_append] using later

end Solgem.Lib

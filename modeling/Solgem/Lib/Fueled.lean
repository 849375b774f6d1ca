import Mathlib.Order.Basic
import Solgem.Lib.Outcome

set_option autoImplicit false

namespace Solgem.Lib

variable {S O : Type}

-- A loop of unknown length. A step gives outputs and the next state, or none
-- when the loop is done; a loop that needs more than its fuel has no result.
def fueled (step : S → Option (List O × S)) : Nat → S → Option (List O × S)
  | 0, _ => none
  | fuel + 1, s =>
      match step s with
      | none => some ([], s)
      | some (out, s') => (fueled step fuel s').map (fun rest => (out ++ rest.1, rest.2))

variable (step : S → Option (List O × S))

theorem fueled_done (fuel : Nat) (s : S) (done : step s = none) : fueled step (fuel + 1) s = some ([], s) := by
  rw [fueled, done]

theorem fueled_step (fuel : Nat) (s s' : S) (out : List O) (stepped : step s = some (out, s')) :
    fueled step (fuel + 1) s = (fueled step fuel s').map (fun rest => (out ++ rest.1, rest.2)) := by
  rw [fueled, stepped]

theorem fueled_more (fuel extra : Nat) (s : S) (result : List O × S) (ran : fueled step fuel s = some result) :
    fueled step (fuel + extra) s = some result := by
  induction fuel generalizing s result with
  | zero => cases ran
  | succ fuel ih =>
      rw [Nat.add_right_comm]
      cases stepped : step s with
      | none =>
          rw [fueled_done step _ s stepped] at ran ⊢
          exact ran
      | some next =>
          rw [fueled_step step _ s next.2 next.1 stepped, Option.map_eq_some_iff] at ran ⊢
          obtain ⟨rest, later, same⟩ := ran
          exact ⟨rest, ih next.2 rest later, same⟩

-- A loop that can always go on has no result.
theorem fueled_diverges (inv : S → Prop) (goes_on : ∀ s, inv s → ∃ out s', step s = some (out, s') ∧ inv s')
    (fuel : Nat) (s : S) (initial : inv s) : fueled step fuel s = none := by
  induction fuel generalizing s with
  | zero => rfl
  | succ fuel ih =>
      obtain ⟨out, s', stepped, kept⟩ := goes_on s initial
      rw [fueled_step step fuel s s' out stepped, ih s' kept, Option.map_none]

-- A loop whose steps lower a measure has a result.
theorem fueled_ends (inv : S → Prop) (measure : S → Nat)
    (lower : ∀ s out s', inv s → step s = some (out, s') → inv s' ∧ measure s' < measure s)
    (fuel : Nat) (s : S) (initial : inv s) (enough : measure s < fuel) : ∃ result, fueled step fuel s = some result := by
  induction fuel generalizing s with
  | zero => exact absurd enough (Nat.not_lt_zero _)
  | succ fuel ih =>
      cases stepped : step s with
      | none => exact ⟨_, fueled_done step fuel s stepped⟩
      | some next =>
          obtain ⟨out, s'⟩ := next
          obtain ⟨kept, less⟩ := lower s out s' initial stepped
          obtain ⟨rest, ran⟩ := ih s' kept (by omega)
          rw [fueled_step step fuel s s' out stepped, ran]
          exact ⟨_, rfl⟩

-- A computation with such a loop in it: what follows only runs when the loop
-- ended.
section
variable {E A B C : Type} {fails : E → Prop}

def proceed (m : StateT S (Except E) (Option A)) (f : A → StateT S (Except E) (Option B)) : StateT S (Except E) (Option B) :=
  m >>= fun ended =>
    match ended with
    | none => pure none
    | some a => f a

def Ended (post : A → S → Prop) (ended : Option A) (s : S) : Prop := ∀ a, ended = some a → post a s

theorem ended_some (post : A → S → Prop) (a : A) (s : S) (holds : post a s) : Ended post (some a) s := by
  intro a' same
  cases same
  exact holds

theorem ended_none (post : A → S → Prop) (s : S) : Ended post none s := fun _ same => nomatch same

theorem proceed_ensures (mid : A → S → Prop) (post : B → S → Prop) (m : StateT S (Except E) (Option A))
    (f : A → StateT S (Except E) (Option B)) (s : S) (first : Ensures fails (Ended mid) (m s))
    (next : ∀ a s', mid a s' → Ensures fails (Ended post) (f a s')) : Ensures fails (Ended post) (proceed m f s) := by
  refine ensures_bind (Ended mid) _ _ _ s first fun ended s' holds => ?_
  cases ended with
  | none => exact ended_none post s'
  | some a => exact next a s' (holds a rfl)

theorem proceed_assoc (m : StateT S (Except E) (Option A)) (f : A → StateT S (Except E) (Option B))
    (g : B → StateT S (Except E) (Option C)) : proceed (proceed m f) g = proceed m (fun a => proceed (f a) g) := by
  rw [proceed, proceed, proceed, bind_assoc]
  congr 1
  funext ended
  cases ended with
  | none => exact pure_bind none _
  | some a => rfl

-- A loop over a list that stops for good at the first element that does not end.
def proceedAll (f : A → C → StateT S (Except E) (Option A)) : List C → A → StateT S (Except E) (Option A)
  | [], a => pure (some a)
  | c :: rest, a => proceed (f a c) (proceedAll f rest)

theorem proceed_all_ensures (f : A → C → StateT S (Except E) (Option A)) (inv : List C → A → S → Prop)
    (step : ∀ past c a s, inv past a s → Ensures fails (Ended (inv (past ++ [c]))) (f a c s))
    (past rest : List C) (a : A) (s : S) (initial : inv past a s) :
    Ensures fails (Ended (inv (past ++ rest))) (proceedAll f rest a s) := by
  induction rest generalizing past a s with
  | nil =>
      rw [List.append_nil]
      exact ended_some _ a s initial
  | cons c rest ih =>
      refine proceed_ensures (inv (past ++ [c])) _ _ _ s (step past c a s initial) fun a' s' kept => ?_
      have later := ih (past ++ [c]) a' s' kept
      rwa [List.append_assoc, List.singleton_append] at later

theorem proceed_all_append (f : A → C → StateT S (Except E) (Option A)) (first rest : List C) (a : A) :
    proceedAll f (first ++ rest) a = proceed (proceedAll f first a) (proceedAll f rest) := by
  induction first generalizing a with
  | nil => rfl
  | cons c first ih =>
      rw [List.cons_append, proceedAll, proceedAll, proceed_assoc]
      congr 1
      funext a'
      exact ih a'

-- Loops in a loop are one loop.
theorem proceed_all_flat (f : A → B → StateT S (Except E) (Option A)) (g : A → C → StateT S (Except E) (Option A))
    (parts : B → List C) (inner : ∀ a b, f a b = proceedAll g (parts b) a) (bs : List B) (a : A) :
    proceedAll f bs a = proceedAll g (bs.flatMap parts) a := by
  induction bs generalizing a with
  | nil => rfl
  | cons b rest ih =>
      rw [List.flatMap_cons, proceed_all_append, proceedAll, inner]
      congr 1
      funext a'
      exact ih a'

end

end Solgem.Lib

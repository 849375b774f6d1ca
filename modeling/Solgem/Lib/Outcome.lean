import Mathlib.Data.List.Forall2

set_option autoImplicit false

namespace Solgem.Lib

variable {S E A B C : Type}

theorem except_bind_ok (m : Except E A) (f : A → Except E B) (b : B) : (m >>= f) = .ok b ↔ ∃ a, m = .ok a ∧ f a = .ok b := by
  cases m with
  | error e => simp [bind, Except.bind]
  | ok a => simp [bind, Except.bind]

-- A computation over a state may fail instead of returning. Its outcome is
-- acceptable when it fails in an allowed way, or returns a value and a state
-- the postcondition holds of.
def Ensures (fails : E → Prop) (post : A → S → Prop) : Except E (A × S) → Prop
  | .error e => fails e
  | .ok pair => post pair.1 pair.2

section
variable {fails : E → Prop}

theorem ensures_mono (post post' : A → S → Prop) (weaker : ∀ a s, post a s → post' a s) (outcome : Except E (A × S))
    (ensured : Ensures fails post outcome) : Ensures fails post' outcome := by
  cases outcome with
  | error e => exact ensured
  | ok pair => exact weaker pair.1 pair.2 ensured

theorem ensures_ok (post : A → S → Prop) (a : A) (s : S) (outcome : Except E (A × S)) (ensured : Ensures fails post outcome)
    (returned : outcome = .ok (a, s)) : post a s := by
  rw [returned] at ensured
  exact ensured

theorem ensures_and (post post' : A → S → Prop) (outcome : Except E (A × S)) (first : Ensures fails post outcome)
    (second : Ensures fails post' outcome) : Ensures fails (fun a s => post a s ∧ post' a s) outcome := by
  cases outcome with
  | error e => exact first
  | ok pair => exact ⟨first, second⟩

-- With no failure allowed the computation returns.
theorem ensures_total (post : A → S → Prop) (outcome : Except E (A × S)) (ensured : Ensures (fun _ => False) post outcome) :
    ∃ a s, outcome = .ok (a, s) ∧ post a s := by
  cases outcome with
  | error e => exact absurd ensured (fun impossible => impossible)
  | ok pair => exact ⟨pair.1, pair.2, rfl, ensured⟩

theorem ensures_of_ok (post : A → S → Prop) (outcome : Except E (A × S)) (any : ∀ e, fails e)
    (holds : ∀ a s, outcome = .ok (a, s) → post a s) : Ensures fails post outcome := by
  cases outcome with
  | error e => exact any e
  | ok pair => exact holds pair.1 pair.2 rfl

theorem ensures_pure (post : A → S → Prop) (a : A) (s : S) (holds : post a s) :
    Ensures fails post ((pure a : StateT S (Except E) A) s) := holds

theorem ensures_bind (mid : A → S → Prop) (post : B → S → Prop) (m : StateT S (Except E) A)
    (f : A → StateT S (Except E) B) (s : S) (first : Ensures fails mid (m s))
    (next : ∀ a s', mid a s' → Ensures fails post (f a s')) : Ensures fails post ((m >>= f) s) := by
  change Ensures fails post ((m s).bind (fun pair => f pair.1 pair.2))
  cases run : m s with
  | error e =>
      rw [run] at first
      exact first
  | ok pair =>
      rw [run] at first
      exact next pair.1 pair.2 first

theorem ensures_run (post : A → S → Prop) (outcome : Except E (A × S)) (ensured : Ensures fails post outcome) :
    Ensures fails (fun a s => post a s ∧ outcome = .ok (a, s)) outcome := by
  cases outcome with
  | error e => exact ensured
  | ok pair => exact ⟨ensured, rfl⟩

-- Every step of a loop starts in a state that meets a condition.
def Along (f : A → B → StateT S (Except E) A) (meets : A → B → S → Prop) : List B → A → S → Prop
  | [], _, _ => True
  | b :: rest, a, s => meets a b s ∧ ∀ a' s', f a b s = .ok (a', s') → Along f meets rest a' s'

theorem along_of_all (f : A → B → StateT S (Except E) A) (meets : A → B → S → Prop) (all : ∀ a b s, meets a b s)
    (bs : List B) (a : A) (s : S) : Along f meets bs a s := by
  induction bs generalizing a s with
  | nil => trivial
  | cons b rest ih => exact ⟨all a b s, fun a' s' _ => ih a' s'⟩

theorem along_mono (f : A → B → StateT S (Except E) A) (meets meets' : A → B → S → Prop)
    (weaker : ∀ a b s, meets a b s → meets' a b s) (bs : List B) (a : A) (s : S) (along : Along f meets bs a s) :
    Along f meets' bs a s := by
  induction bs generalizing a s with
  | nil => trivial
  | cons b rest ih => exact ⟨weaker a b s along.1, fun a' s' ran => ih a' s' (along.2 a' s' ran)⟩

-- A loop invariant is indexed by the list of elements that are done.
theorem ensures_foldlM_along (f : A → B → StateT S (Except E) A) (meets : A → B → S → Prop) (inv : List B → A → S → Prop)
    (past rest : List B) (step : ∀ past b a s, b ∈ rest → meets a b s → inv past a s →
      Ensures fails (inv (past ++ [b])) (f a b s))
    (a : A) (s : S) (along : Along f meets rest a s) (initial : inv past a s) :
    Ensures fails (inv (past ++ rest)) (rest.foldlM f a s) := by
  induction rest generalizing past a s with
  | nil =>
      rw [List.append_nil]
      exact initial
  | cons b rest ih =>
      rw [List.foldlM_cons]
      refine ensures_bind _ _ _ _ s (ensures_run _ _ (step past b a s (List.mem_cons_self ..) along.1 initial)) ?_
      rintro mid s' ⟨kept, ran⟩
      have later := ih (past ++ [b]) (fun past c a s member => step past c a s (List.mem_cons_of_mem b member)) mid s'
        (along.2 mid s' ran) kept
      simpa only [List.append_assoc, List.singleton_append] using later

theorem ensures_foldlM (f : A → B → StateT S (Except E) A) (inv : List B → A → S → Prop) (past rest : List B)
    (step : ∀ past b a s, b ∈ rest → inv past a s → Ensures fails (inv (past ++ [b])) (f a b s))
    (a : A) (s : S) (initial : inv past a s) : Ensures fails (inv (past ++ rest)) (rest.foldlM f a s) :=
  ensures_foldlM_along f (fun _ _ _ => True) inv past rest (fun past b a s member _ kept => step past b a s member kept) a s
    (along_of_all f _ (fun _ _ _ => trivial) rest a s) initial

theorem ensures_mapM (f : B → StateT S (Except E) A) (rel : B → A → Prop) (bs : List B)
    (each : ∀ b ∈ bs, ∀ s, Ensures fails (fun a _ => rel b a) (f b s)) (s : S) :
    Ensures fails (fun as _ => List.Forall₂ rel bs as) (bs.mapM f s) := by
  induction bs generalizing s with
  | nil => exact List.Forall₂.nil
  | cons b rest ih =>
      rw [List.mapM_cons]
      apply ensures_bind (fun a _ => rel b a) _ _ _ s (each b (List.mem_cons_self ..) s)
      intro a s' related
      apply ensures_bind (fun as _ => List.Forall₂ rel rest as) _ _ _ s'
        (ih (fun c member => each c (List.mem_cons_of_mem b member)) s')
      intro as s'' tail
      exact List.Forall₂.cons related tail

end

-- Two outcomes agree when both fail in the same way, or both return, with
-- related values and in the same state.
inductive Agree (rel : A → B → Prop) : Except E (A × S) → Except E (B × S) → Prop
  | error (e : E) : Agree rel (.error e) (.error e)
  | ok (a : A) (b : B) (s : S) : rel a b → Agree rel (.ok (a, s)) (.ok (b, s))

theorem agree_refl (rel : A → A → Prop) (reflexive : ∀ a, rel a a) (outcome : Except E (A × S)) :
    Agree rel outcome outcome := by
  cases outcome with
  | error e => exact Agree.error e
  | ok pair => exact Agree.ok pair.1 pair.1 pair.2 (reflexive pair.1)

theorem agree_mono (rel rel' : A → B → Prop) (weaker : ∀ a b, rel a b → rel' a b) (x : Except E (A × S))
    (y : Except E (B × S)) (agree : Agree rel x y) : Agree rel' x y := by
  cases agree with
  | error e => exact Agree.error e
  | ok a b s related => exact Agree.ok a b s (weaker a b related)

theorem agree_bind {D : Type} (rel : A → B → Prop) (rel' : C → D → Prop) (m : StateT S (Except E) A)
    (n : StateT S (Except E) B) (f : A → StateT S (Except E) C) (g : B → StateT S (Except E) D) (s : S)
    (first : Agree rel (m s) (n s)) (next : ∀ a b s', rel a b → Agree rel' (f a s') (g b s')) :
    Agree rel' ((m >>= f) s) ((n >>= g) s) := by
  change Agree rel' ((m s).bind (fun pair => f pair.1 pair.2)) ((n s).bind (fun pair => g pair.1 pair.2))
  cases left : m s with
  | error e =>
      rw [left] at first
      cases right : n s with
      | error e' =>
          rw [right] at first
          cases first
          exact Agree.error e
      | ok pair =>
          rw [right] at first
          cases first
  | ok pair =>
      rw [left] at first
      cases right : n s with
      | error e =>
          rw [right] at first
          cases first
      | ok pair' =>
          rw [right] at first
          cases first with
          | ok a b s' related => exact next a b s' related

theorem agree_foldlM (f : A → C → StateT S (Except E) A) (g : B → C → StateT S (Except E) B) (rel : A → B → Prop)
    (step : ∀ a b c s, rel a b → Agree rel (f a c s) (g b c s)) (cs : List C) (a : A) (b : B) (s : S)
    (initial : rel a b) : Agree rel (cs.foldlM f a s) (cs.foldlM g b s) := by
  induction cs generalizing a b s with
  | nil => exact Agree.ok a b s initial
  | cons c rest ih =>
      rw [List.foldlM_cons, List.foldlM_cons]
      exact agree_bind rel rel _ _ _ _ s (step a b c s initial) (fun a b s' related => ih a b s' related)

end Solgem.Lib

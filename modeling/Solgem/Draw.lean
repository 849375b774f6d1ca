import Solgem.Arith

set_option autoImplicit false

namespace Solgem

-- One generator per TRandom3 object: the digitizer's own, one in each plane,
-- and the one of the Geant4 file reader.
inductive Gen where
  | trnd
  | fR
  | ran (ich ip : Nat)
deriving DecidableEq

-- The random number library is a parameter: any generator state and any
-- outcome of a draw is allowed.
structure Rng (F : Type) where
  State : Type
  uniform : Gen → F → F → State → F × State
  gaus : Gen → F → F → State → F × State
  exp : Gen → F → State → F × State
  poisson : Gen → F → State → Int × State

-- A generator whose Poisson draws are read off a list and whose other draws
-- are the middle of their distribution.
def Rng.scripted (F : Type) [Arith F] : Rng F where
  State := List Int
  uniform _ a b st := ((a + b) / 2.0, st)
  gaus _ mean _ st := (mean, st)
  exp _ tau st := (tau, st)
  poisson _ _ st := (st.headD 0, st.tail)

-- How a run of the program can stop early: a failed assert of AvaModel or of
-- Cumulate, or a vector index out of range.
inductive Fault where
  | avaModel
  | cumulate
  | badAccess
deriving DecidableEq

abbrev Draw {F : Type} (rng : Rng F) (A : Type) := StateT rng.State (Except Fault) A

section
variable {F : Type} {rng : Rng F} {A B : Type}

def drawUniform (g : Gen) (a b : F) : Draw rng F := fun st => .ok (rng.uniform g a b st)
def drawGaus (g : Gen) (mean sigma : F) : Draw rng F := fun st => .ok (rng.gaus g mean sigma st)
def drawExp (g : Gen) (tau : F) : Draw rng F := fun st => .ok (rng.exp g tau st)
def drawPoisson (g : Gen) (mean : F) : Draw rng Int := fun st => .ok (rng.poisson g mean st)
def lift (a : Except Fault A) : Draw rng A := fun st => a.map (fun value => (value, st))

def check (fault : Fault) : Option A → Except Fault A
  | none => .error fault
  | some value => .ok value

theorem draw_pure_ok (a b : A) (st st' : rng.State) :
    (pure a : Draw rng A) st = .ok (b, st') ↔ b = a ∧ st' = st := by
  constructor
  · intro h
    have pair : (a, st) = (b, st') := Except.ok.inj h
    cases pair
    exact ⟨rfl, rfl⟩
  · rintro ⟨rfl, rfl⟩
    rfl

theorem draw_bind_ok (m : Draw rng A) (f : A → Draw rng B) (b : B) (st st' : rng.State) :
    (m >>= f) st = .ok (b, st') ↔ ∃ a mid, m st = .ok (a, mid) ∧ f a mid = .ok (b, st') := by
  change (m st).bind (fun pair => f pair.1 pair.2) = .ok (b, st') ↔ _
  cases run : m st with
  | error fault => simp [Except.bind]
  | ok pair =>
      obtain ⟨a, mid⟩ := pair
      simp [Except.bind]

theorem draw_bind_of (m : Draw rng A) (f : A → Draw rng B) (a : A) (st mid : rng.State) (run : m st = .ok (a, mid)) :
    (m >>= f) st = f a mid := by
  change (m st).bind (fun pair => f pair.1 pair.2) = _
  rw [run]
  rfl

theorem draw_bind_error (m : Draw rng A) (f : A → Draw rng B) (fault : Fault) (st : rng.State)
    (run : m st = .error fault) : (m >>= f) st = .error fault := by
  change (m st).bind (fun pair => f pair.1 pair.2) = _
  rw [run]
  rfl

theorem draw_lift_ok (a : Except Fault A) (b : A) (st st' : rng.State) :
    (lift a : Draw rng A) st = .ok (b, st') ↔ a = .ok b ∧ st' = st := by
  cases a with
  | error fault => simp [lift, Except.map]
  | ok value =>
      constructor
      · intro h
        have pair : (value, st) = (b, st') := Except.ok.inj h
        cases pair
        exact ⟨rfl, rfl⟩
      · rintro ⟨same, rfl⟩
        cases same
        rfl

theorem check_ok (fault : Fault) (a : Option A) (b : A) : check fault a = .ok b ↔ a = some b := by
  cases a with
  | none => simp [check]
  | some value => simp [check]

-- A check that passes neither stops the run nor draws.
theorem draw_checked (fault : Fault) (a : Option A) (value : A) (st : rng.State) (found : a = some value) :
    (lift (check fault a) : Draw rng A) st = .ok (value, st) :=
  (draw_lift_ok _ _ _ _).mpr ⟨(check_ok _ _ _).mpr found, rfl⟩

end

end Solgem

import PlantSim.Ode.Target

/-!
# The metacommunity and its collaborators

`Metacommunity<Individual>` (`metacommunity.h`) owns `parameters->n_patches` patches, a global age
and one ODE solver bound to itself. The patches, the solver and R's random generator are not part
of this source; the metacommunity reaches each only through the members it calls, so each is a
structure of operations here:

* `Patch α β σ`: the members of `Patch<Individual>` that the metacommunity calls, over a patch
  state `α`, ODE slots `β` and generator state `σ`;
* `Solver Θ β`: `ode::Solver`, whose `step()` is a `SolverRun`, a program that calls back
  `derivs` on state vectors of its choosing before it ends or fails;
* `Fault`: how a call ends when it does not return, by an exception of the source or at a point
  where the C++ behaviour is undefined.

This module also holds the members that need nothing else: the constructor and `initialise`,
`size`, `n_species`, `r_age`, `r_get_patches`, `deaths` and `r_clear`, each with the fact that it
keeps the number of patches.
-/

namespace PlantSim

/-- How a call of the model ends when it does not return. -/
inductive Fault where
  /-- `util::check_length(received, expected)` raised. -/
  | length (received expected : Nat)
  /-- The ODE solver raised (its step size fell below its floor, §4.2). -/
  | solver
  /-- A patch rejected its input. -/
  | patch
  /-- Undefined behaviour: `seeds[i]` read past the end of `seeds`. -/
  | seedsIndex (i : Nat)
  /-- Undefined behaviour: `(int)` of the NaN that `R::rbinom(n, 1.0/(double)j)` returns when
  `j = 0` (`p` is infinite) or `n < 0`. -/
  | rbinomNaN (n : Int) (j : Nat)
  /-- Undefined behaviour: a write past the end of a buffer. -/
  | overrun
  deriving DecidableEq, Repr

/-- The state a call leaves, whether it returned or raised: an exception does not undo what the call
had already changed, and R keeps the object. -/
def stateOf {ε σ α : Type} : EStateM.Result ε σ α → σ
  | .ok _ s => s
  | .error _ s => s

@[simp] theorem stateOf_ok {ε σ α : Type} (a : α) (s : σ) :
    stateOf (.ok a s : EStateM.Result ε σ α) = s := rfl

@[simp] theorem stateOf_error {ε σ α : Type} (e : ε) (s : σ) :
    stateOf (.error e s : EStateM.Result ε σ α) = s := rfl

/-- Modelled from the spec: `util::check_length(received, expected)`, which is not in this source,
raises when the two lengths differ (§7: an input of the wrong shape is rejected at the boundary). -/
def checkLength (received expected : Nat) : Except Fault Unit :=
  if received = expected then .ok () else .error (.length received expected)

@[simp] theorem checkLength_eq_ok {received expected : Nat} :
    checkLength received expected = .ok () ↔ received = expected := by
  unfold checkLength; split <;> simp_all

/-- `*it++ = v` for each `v` of `vals` from slot `pos` of `buf` (`std::copy`), undefined once a
write would pass the end of `buf`. -/
def writeAt {β : Type} (buf : List β) (pos : Nat) (vals : List β) : Except Fault (List β) :=
  if pos + vals.length ≤ buf.length then .ok (buf.take pos ++ vals ++ buf.drop (pos + vals.length))
  else .error .overrun

theorem writeAt_of_le {β : Type} {buf vals : List β} {pos : Nat}
    (h : pos + vals.length ≤ buf.length) :
    writeAt buf pos vals = .ok (buf.take pos ++ vals ++ buf.drop (pos + vals.length)) := by
  simp [writeAt, h]

theorem length_writeAt {β : Type} {buf vals out : List β} {pos : Nat}
    (h : writeAt buf pos vals = .ok out) : out.length = buf.length := by
  unfold writeAt at h
  split at h
  · cases h; simp; omega
  · cases h

theorem writeAt_zero_of_length {β : Type} (buf vals : List β) (h : vals.length = buf.length) :
    writeAt buf 0 vals = .ok vals := by
  simp [writeAt, h]

/-- The members of `Parameters` that the metacommunity reads: `n_patches` (an `int`) and the
number of strategies, `parameters->size()`. -/
structure Parameters where
  nPatches : Int
  size : Nat
  deriving DecidableEq, Repr

/-- The members of `Patch<Individual>` that the metacommunity calls. -/
structure Patch (α β σ : Type) where
  ode : OdeTarget α β
  create : Parameters → α
  births : α → List Int
  deaths : α → σ → α × σ
  addSeeds : α → List Int → α
  addSeedlings : List Int → EStateM Fault α Unit
  rNIndividuals : α → List Int
  rClear : α → α

/-- One `ode::Solver::step()` as its target sees it: it calls back `derivs(time, y, dydt)` on
state vectors it chooses, continuing with the rates it gets back, and ends with the solver's new
state or fails. Being inductive, a step makes finitely many calls (§5: the retry loop is bounded
by the step-size floor). -/
inductive SolverRun (Θ β : Type) where
  | done (solver : Θ)
  | fail
  | derivs (time : Float) (y : List β) (next : List β → SolverRun Θ β)

/-- Every state vector the solver step hands to `derivs`, whatever rates it gets back, has `n`
entries. -/
inductive SolverRun.Sized {Θ β : Type} (n : Nat) : SolverRun Θ β → Prop
  | done (solver : Θ) : SolverRun.Sized n (.done solver)
  | fail : SolverRun.Sized n .fail
  | derivs (time : Float) (y : List β) (next : List β → SolverRun Θ β) (hy : y.length = n)
      (hnext : ∀ dydt, SolverRun.Sized n (next dydt)) : SolverRun.Sized n (.derivs time y next)

/-- The members of `ode::Solver<Metacommunity>` that the metacommunity calls. `set_state` is
`load` behind the length check of `Solver.set_state`. -/
structure Solver (Θ β : Type) where
  create : Θ
  load : Θ → List β → Float → Θ
  step : Θ → SolverRun Θ β
  getTime : Θ → Float
  reset : Θ → Θ

/-- Modelled from the spec: `Solver::set_state(values, time)` (§4.2) fails when the vector's length
is not the target's `ode_size()`, and otherwise loads the vector and the time. -/
def Solver.setState {Θ β : Type} (S : Solver Θ β) (solver : Θ) (values : List β) (time : Float)
    (target_size : Nat) : Except Fault Θ := do
  checkLength values.length target_size
  return S.load solver values time

/-- A `Metacommunity<Individual>`, with the state of R's random generator, which the source keeps
process-wide and which every stochastic call advances. -/
structure Metacommunity (α Θ σ : Type) where
  parameters : Parameters
  patches : List α
  age : Float
  odeSolver : Θ
  rng : σ

namespace Metacommunity

variable {α β σ Θ : Type} (P : Patch α β σ) (S : Solver Θ β)

/-! ## Construction and simple interrogation -/

/-- `patches.clear(); for (int i = 0; i < n_patches; i++) patches.push_back(Patch(parameters));` -/
def initialise (m : Metacommunity α Θ σ) : Metacommunity α Θ σ :=
  { m with patches := List.replicate m.parameters.nPatches.toNat (P.create m.parameters) }

/-- `Metacommunity(Parameters p)`: `age(0.0)`, the solver bound to the new object, then
`initialise()`. -/
def create (p : Parameters) (rng : σ) : Metacommunity α Θ σ :=
  initialise P { parameters := p, patches := [], age := 0.0, odeSolver := S.create, rng := rng }

/-- `size()`: the number of patches. -/
def size (m : Metacommunity α Θ σ) : Nat := m.patches.length

/-- `n_species()`: `parameters->size()`. -/
def nSpecies (m : Metacommunity α Θ σ) : Nat := m.parameters.size

/-- `r_age()`. -/
def rAge (m : Metacommunity α Θ σ) : Float := m.age

/-- `r_get_patches()`: the patches, in order. -/
def rGetPatches (m : Metacommunity α Θ σ) : List α := m.patches

theorem size_create (p : Parameters) (rng : σ) :
    size (create (Θ := Θ) P S p rng) = p.nPatches.toNat := by
  simp [create, initialise, size]

/-- `m'` has the parameters and the number of patches of `m`: no member of `Metacommunity`
reassigns `parameters` or adds or removes a patch after `initialise()`. -/
structure SameShape (m m' : Metacommunity α Θ σ) : Prop where
  parameters : m'.parameters = m.parameters
  size : size m' = size m

@[refl] theorem SameShape.refl (m : Metacommunity α Θ σ) : SameShape m m := ⟨rfl, rfl⟩

theorem SameShape.trans {m₁ m₂ m₃ : Metacommunity α Θ σ} (h₁ : SameShape m₁ m₂)
    (h₂ : SameShape m₂ m₃) : SameShape m₁ m₃ :=
  ⟨h₂.parameters.trans h₁.parameters, h₂.size.trans h₁.size⟩

theorem SameShape.of_patches (m : Metacommunity α Θ σ) {ps : List α}
    (h : ps.length = m.patches.length) : SameShape m { m with patches := ps } := ⟨rfl, h⟩

/-! ## Deaths and clearing -/

/-- `for (patch ...) patch->deaths();`, each patch drawing from the generator in turn. -/
def deathsLoop : List α → σ → List α × σ
  | [], rng => ([], rng)
  | p :: ps, rng =>
    let r := P.deaths p rng
    let rs := deathsLoop ps r.2
    (r.1 :: rs.1, rs.2)

/-- `deaths()`. -/
def deaths (m : Metacommunity α Θ σ) : Metacommunity α Θ σ :=
  let r := deathsLoop P m.patches m.rng
  { m with patches := r.1, rng := r.2 }

theorem length_deathsLoop (ps : List α) (rng : σ) : (deathsLoop P ps rng).1.length = ps.length := by
  induction ps generalizing rng with
  | nil => rfl
  | cons p ps ih => simp [deathsLoop, ih]

@[simp] theorem size_deaths (m : Metacommunity α Θ σ) : size (deaths P m) = size m :=
  length_deathsLoop P m.patches m.rng

theorem sameShape_deaths (m : Metacommunity α Θ σ) : SameShape m (deaths P m) :=
  ⟨rfl, size_deaths P m⟩

/-- `r_clear()`: `age = 0.0`, every patch cleared, the solver's step-size history reset. -/
def rClear (m : Metacommunity α Θ σ) : Metacommunity α Θ σ :=
  { m with age := 0.0, patches := m.patches.map P.rClear, odeSolver := S.reset m.odeSolver }

@[simp] theorem size_rClear (m : Metacommunity α Θ σ) : size (rClear P S m) = size m := by
  simp [rClear, size]

theorem sameShape_rClear (m : Metacommunity α Θ σ) : SameShape m (rClear P S m) :=
  ⟨rfl, size_rClear P S m⟩

end Metacommunity

/-! ## A patch and a solver to run the model on -/

/-- A patch that is nothing but its per-species counts: no ODE state, no deaths, one seed per
individual, seeds and seedlings added to the counts, and a negative seedling count rejected. -/
def countingPatch : Patch (List Int) Float Unit where
  ode := ⟨fun _ => 0, fun a ys => (a, ys), fun _ => [], fun _ => []⟩
  create p := List.replicate p.size 0
  births := id
  deaths a rng := (a, rng)
  addSeeds a v := List.zipWith (· + ·) a v
  addSeedlings v a :=
    if ∀ x ∈ v, 0 ≤ x then .ok () (List.zipWith (· + ·) a v) else .error .patch a
  rNIndividuals := id
  rClear a := List.replicate a.length 0

/-- A patch that is its per-species counts, adding seeds and seedlings species by species and
ignoring entries past its species. -/
def speciesPatch : Patch (List Int) Float Unit where
  ode := ⟨fun _ => 0, fun a ys => (a, ys), fun _ => [], fun _ => []⟩
  create p := List.replicate p.size 0
  births := id
  deaths a rng := (a, rng)
  addSeeds a v := List.zipWith (· + ·) a (v ++ List.replicate a.length 0)
  addSeedlings v a := .ok () (List.zipWith (· + ·) a (v ++ List.replicate a.length 0))
  rNIndividuals := id
  rClear a := List.replicate a.length 0

/-- A patch with one state variable that decays, `dy/dt = -y`, and no individuals. -/
def decayPatch : Patch Float Float Unit where
  ode := ⟨fun _ => 1, fun a ys => (ys.headD a, ys.drop 1), fun a => [a], fun a => [-a]⟩
  create _ := 1.0
  births _ := []
  deaths a rng := (a, rng)
  addSeeds a _ := a
  addSeedlings _ a := .ok () a
  rNIndividuals _ := []
  rClear a := a

theorem decayPatch_ode_lawful : decayPatch.ode.Lawful where
  values_set_rest _ _ := rfl
  values_set_take _ ys := by cases ys <;> rfl
  size_values_set _ _ := rfl
  length_values _ := rfl
  length_rates _ := rfl
  values_values_set _ ys h := by
    obtain ⟨y, rfl⟩ := List.length_eq_one.mp h
    rfl
  values_set_values _ := rfl

/-- Two decaying patches, at `1` and at `2`. -/
def twoDecayPatches : Metacommunity Float Unit Unit := ⟨⟨2, 1⟩, [1.0, 2.0], 0.0, (), ()⟩

/-- A solver with no state of its own whose step calls no `derivs`. -/
def unitSolver : Solver Unit Float where
  create := ()
  load _ _ _ := ()
  step _ := .done ()
  getTime _ := 0.0
  reset _ := ()

end PlantSim

import PlantSim.Metacommunity.Ode
import PlantSim.Metacommunity.Seeds
import PlantSim.Metacommunity.Seedlings

/-!
# Runs of a metacommunity

`step_stochastic()` is `deaths(); add_seeds(births());` and `step()` is `step_deterministic();
step_stochastic();`. `r_step()` and `r_step_stochastic()` run them inside `Rcpp::RNGScope`, which
only hands R's generator state to the C++ side and back; the model threads that state already.

R drives the object by a sequence of `Call`s. A call that raises leaves the object as the
exception found it, and R may go on calling, so `runCalls` starts each call from the state the
last one left, returned or raised.

* `Invariant`: a property every member keeps holds after every run (`Invariant.runCalls`);
  having the parameters and the number of patches one started with is one, so every state R
  reaches from the constructor has `n_patches` patches (`reachable_shape`);
* `stepStochastic_faults`: with two patches or more, `step_stochastic()` never returns: `births()`
  raises, or `add_seeds` reads past `seeds` or draws with `p = 1.0/0.0`;
* `rStep_faults`, `rStepStochastic_faults`: so on a metacommunity built with `n_patches ≥ 2`,
  after any calls, neither `r_step()` nor `r_step_stochastic()` returns;
* `stepStochastic_one_patch`: with one patch it is that patch's `deaths()` and then its
  `add_seeds` of all the seeds it produced.
-/

namespace PlantSim

namespace Metacommunity

variable {α β σ Θ : Type} (P : Patch α β σ) (S : Solver Θ β) (R : Rbinom σ)
  (sum : List Int → List Int → Except Fault (List Int))

/-! ## The stochastic step and the full step -/

/-- `step_stochastic()`: `deaths(); add_seeds(births());`, with `sum` for `util::sum`. -/
def stepStochastic : EStateM Fault (Metacommunity α Θ σ) Unit := fun m =>
  let m₁ := deaths P m
  match births P sum m₁ with
  | .error e => .error e m₁
  | .ok seeds => addSeeds P R seeds m₁

/-- `step()`: `step_deterministic(); step_stochastic();`. -/
def step [Zero β] : EStateM Fault (Metacommunity α Θ σ) Unit := fun m =>
  match stepDeterministic P S m with
  | .ok () m₁ => stepStochastic P R sum m₁
  | .error e m₁ => .error e m₁

/-- `r_step()`: `Rcpp::RNGScope scope; step();`. -/
def rStep [Zero β] : EStateM Fault (Metacommunity α Θ σ) Unit := step P S R sum

/-- `r_step_stochastic()`: `Rcpp::RNGScope scope; step_stochastic();`. -/
def rStepStochastic : EStateM Fault (Metacommunity α Θ σ) Unit := stepStochastic P R sum

/-- The members of `MetacommunityBase` that change the object, as R calls them. -/
inductive Call where
  | step
  | stepDeterministic
  | stepStochastic
  | deaths
  | addSeeds (seeds : List Int)
  | rAddSeedlings (M : IntegerMatrix)
  | rClear
  | rStep
  | rStepStochastic

/-- What one call does to the object. -/
def Call.run [Zero β] : Call → EStateM Fault (Metacommunity α Θ σ) Unit
  | .step => Metacommunity.step P S R sum
  | .stepDeterministic => Metacommunity.stepDeterministic P S
  | .stepStochastic => Metacommunity.stepStochastic P R sum
  | .deaths => fun m => .ok () (Metacommunity.deaths P m)
  | .addSeeds seeds => Metacommunity.addSeeds P R seeds
  | .rAddSeedlings M => Metacommunity.rAddSeedlings P M
  | .rClear => fun m => .ok () (Metacommunity.rClear P S m)
  | .rStep => Metacommunity.rStep P S R sum
  | .rStepStochastic => Metacommunity.rStepStochastic P R sum

/-- The object after R's calls `cs`, each from the state the one before left, returned or
raised. -/
def runCalls [Zero β] : List Call → Metacommunity α Θ σ → Metacommunity α Θ σ
  | [], m => m
  | c :: cs, m => runCalls cs (stateOf (Call.run P S R sum c m))

/-! ## Invariants of runs -/

/-- A property of metacommunities that every member R can call keeps, piece by piece: the
`derivs` callbacks and the updates of the solver and of the age in a deterministic step, `deaths`,
`add_seeds`, `r_add_seedlings` and `r_clear`, each whether it returns or raises. -/
structure Invariant (Q : Metacommunity α Θ σ → Prop) : Prop where
  derivs : ∀ m time y, Q m → Q (derivs P m time y).1
  solver : ∀ m solver, Q m → Q { m with odeSolver := solver }
  age : ∀ m age, Q m → Q { m with age := age }
  deaths : ∀ m, Q m → Q (deaths P m)
  addSeeds : ∀ m seeds, Q m → Q (stateOf (addSeeds P R seeds m))
  rAddSeedlings : ∀ m M, Q m → Q (stateOf (rAddSeedlings P M m))
  rClear : ∀ m, Q m → Q (rClear P S m)

section Invariant

variable {P S R} {Q : Metacommunity α Θ σ → Prop} (hQ : Invariant P S R Q)
include hQ

theorem Invariant.stepStochastic (m : Metacommunity α Θ σ) (hm : Q m) :
    Q (stateOf (stepStochastic P R sum m)) := by
  dsimp only [Metacommunity.stepStochastic]
  split
  · exact hQ.deaths m hm
  · exact hQ.addSeeds _ _ (hQ.deaths m hm)

theorem Invariant.step [Zero β] (m : Metacommunity α Θ σ) (hm : Q m) :
    Q (stateOf (step P S R sum m)) := by
  have h := stepDeterministic_keeps P S Q hQ.derivs hQ.solver hQ.age m hm
  unfold Metacommunity.step
  split <;> rename_i hr <;> rw [hr] at h
  · exact hQ.stepStochastic sum _ h
  · exact h

theorem Invariant.call [Zero β] (c : Call) (m : Metacommunity α Θ σ) (hm : Q m) :
    Q (stateOf (Call.run P S R sum c m)) := by
  cases c with
  | step | rStep => exact hQ.step sum m hm
  | stepDeterministic => exact stepDeterministic_keeps P S Q hQ.derivs hQ.solver hQ.age m hm
  | stepStochastic | rStepStochastic => exact hQ.stepStochastic sum m hm
  | deaths => exact hQ.deaths m hm
  | addSeeds seeds => exact hQ.addSeeds m seeds hm
  | rAddSeedlings M => exact hQ.rAddSeedlings m M hm
  | rClear => exact hQ.rClear m hm

theorem Invariant.runCalls [Zero β] :
    ∀ (cs : List Call) (m : Metacommunity α Θ σ), Q m → Q (runCalls P S R sum cs m)
  | [], _, hm => hm
  | c :: cs, m, hm => Invariant.runCalls cs _ (hQ.call sum c m hm)

end Invariant

theorem sameShape_invariant (m₀ : Metacommunity α Θ σ) : Invariant P S R (SameShape m₀) where
  derivs _ _ _ h := h.trans (sameShape_derivs P _ _ _)
  solver _ _ h := ⟨h.parameters, h.size⟩
  age _ _ h := ⟨h.parameters, h.size⟩
  deaths _ h := h.trans (sameShape_deaths P _)
  addSeeds _ _ h := h.trans (sameShape_addSeeds P _ _)
  rAddSeedlings _ _ h := h.trans (sameShape_rAddSeedlings P _ _)
  rClear _ h := h.trans (sameShape_rClear P S _)

theorem sameShape_runCalls [Zero β] (cs : List Call) (m : Metacommunity α Θ σ) :
    SameShape m (runCalls P S R sum cs m) :=
  (sameShape_invariant P S R m).runCalls sum cs m (SameShape.refl m)

/-- Every state R reaches from the constructor has the parameters it was built with and
`n_patches` patches, none when `n_patches < 0`. -/
theorem reachable_shape [Zero β] (p : Parameters) (rng : σ) (cs : List Call) :
    (runCalls P S R sum cs (create P S p rng)).parameters = p ∧
      size (runCalls P S R sum cs (create P S p rng)) = p.nPatches.toNat := by
  have h := sameShape_runCalls P S R sum cs (create P S p rng)
  exact ⟨h.parameters, h.size.trans (size_create P S p rng)⟩

/-! ## Two patches or more -/

theorem stepStochastic_faults (m : Metacommunity α Θ σ) (hm : 2 ≤ size m) :
    ∃ e m', stepStochastic P R sum m = .error e m' := by
  dsimp only [stepStochastic]
  split
  · exact ⟨_, _, rfl⟩
  · rename_i seeds _
    obtain ⟨e, he⟩ := dispersal_faults (R := R) (deaths P m) seeds (by rw [size_deaths]; exact hm)
    exact ⟨e, addSeeds_of_error P he⟩

theorem step_faults [Zero β] (m : Metacommunity α Θ σ) (hm : 2 ≤ size m) :
    ∃ e m', step P S R sum m = .error e m' := by
  have h := sameShape_stepDeterministic P S m
  unfold step
  split
  · rename_i m₁ hr
    rw [hr] at h
    exact stepStochastic_faults P R sum m₁ (h.size ▸ hm)
  · exact ⟨_, _, rfl⟩

theorem rStepStochastic_faults [Zero β] (p : Parameters) (hp : 2 ≤ p.nPatches) (rng : σ)
    (cs : List Call) :
    ∃ e m', rStepStochastic P R sum (runCalls P S R sum cs (create P S p rng)) = .error e m' :=
  stepStochastic_faults P R sum _ (by
    rw [(sameShape_runCalls P S R sum cs _).size, size_create]; omega)

theorem rStepStochastic_faults_two_patches :
    (2 : Int) ≤ (⟨2, 1⟩ : Parameters).nPatches ∧
      ∃ e m', rStepStochastic decayPatch meanRbinom checkedSum
        (runCalls decayPatch unitSolver meanRbinom checkedSum
          [.rClear, .stepDeterministic] (create decayPatch unitSolver ⟨2, 1⟩ ())) = .error e m' :=
  ⟨by decide, rStepStochastic_faults decayPatch unitSolver _ checkedSum ⟨2, 1⟩ (by decide) () _⟩

/-- On a metacommunity built with `n_patches ≥ 2`, after any calls, `r_step()` raises or reaches
undefined behaviour. -/
theorem rStep_faults [Zero β] (p : Parameters) (hp : 2 ≤ p.nPatches) (rng : σ)
    (cs : List Call) :
    ∃ e m', rStep P S R sum (runCalls P S R sum cs (create P S p rng)) = .error e m' :=
  step_faults P S R sum _ (by rw [(sameShape_runCalls P S R sum cs _).size, size_create]; omega)

theorem rStep_faults_two_patches :
    (2 : Int) ≤ (⟨2, 1⟩ : Parameters).nPatches ∧
      ∃ e m', rStep decayPatch unitSolver meanRbinom checkedSum
        (runCalls decayPatch unitSolver meanRbinom checkedSum
          [.rClear, .stepDeterministic] (create decayPatch unitSolver ⟨2, 1⟩ ())) = .error e m' :=
  ⟨by decide, rStep_faults decayPatch unitSolver _ checkedSum ⟨2, 1⟩ (by decide) () _⟩

/-! ## One patch -/

/-- With one patch of one species, a valid generator and a `util::sum` that adds vectors of one
length entry by entry, `step_stochastic()` returns: the patch's `deaths()`, then its `add_seeds`
of every seed it produced after them. -/
theorem stepStochastic_one_patch (hR : R.Valid)
    (hsum : ∀ u v, u.length = v.length → sum u v = .ok (List.zipWith (· + ·) u v))
    (m : Metacommunity α Θ σ) (a : α) (hm : m.patches = [a]) (b : Int)
    (hbirths : P.births (P.deaths a m.rng).1 = [b]) (hb : 0 ≤ b) :
    stepStochastic P R sum m =
      .ok () { m with
        patches := [P.addSeeds (P.deaths a m.rng).1 (P.births (P.deaths a m.rng).1)]
        rng := (R.draw (P.deaths a m.rng).2 b 1).2 } := by
  have hdeaths : deaths P m =
      { m with patches := [(P.deaths a m.rng).1], rng := (P.deaths a m.rng).2 } := by
    simp [deaths, deathsLoop, hm]
  have hborn : births P sum (deaths P m) = .ok [b] := by
    simp [hdeaths, births, birthsLoop, size, hbirths, hsum [0] [b] rfl]
  have hdisp := dispersal_one_patch (R := R) (deaths P m) (by rw [hdeaths]; rfl) b [] hb
  rw [hR.certain _ b hb] at hdisp
  simp only [stepStochastic, hborn, addSeeds_of_ok P hdisp, hbirths]
  rw [hdeaths]
  rfl

theorem stepStochastic_one_patch_species :
    meanRbinom.Valid ∧
      (∀ u v : List Int, u.length = v.length → checkedSum u v = .ok (List.zipWith (· + ·) u v)) ∧
      (⟨⟨1, 1⟩, [[4]], 0.0, (), ()⟩ : Metacommunity (List Int) Unit Unit).patches = [[4]] ∧
      speciesPatch.births (speciesPatch.deaths [4] ()).1 = [4] ∧ (0 : Int) ≤ 4 ∧
      stepStochastic speciesPatch meanRbinom checkedSum
          (⟨⟨1, 1⟩, [[4]], 0.0, (), ()⟩ : Metacommunity (List Int) Unit Unit) =
        .ok () ⟨⟨1, 1⟩, [speciesPatch.addSeeds (speciesPatch.deaths [4] ()).1
          (speciesPatch.births (speciesPatch.deaths [4] ()).1)], 0.0, (),
          (meanRbinom.draw (speciesPatch.deaths [4] ()).2 4 1).2⟩ :=
  ⟨meanRbinom_valid, fun _ _ => checkedSum_of_length, rfl, rfl, by decide,
    stepStochastic_one_patch speciesPatch meanRbinom checkedSum meanRbinom_valid
      (fun _ _ => checkedSum_of_length) _ [4] rfl 4 rfl (by decide)⟩

end Metacommunity

end PlantSim

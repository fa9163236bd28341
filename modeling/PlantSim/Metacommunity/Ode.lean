import PlantSim.Metacommunity.Basic

/-!
# The metacommunity as one ODE system

`ode_size`, `ode_values_set`, `ode_values` and `ode_rates` of `Metacommunity` are the composite
`OdeTarget.list` over its patches in index order, and `derivs(time, y, dydt)` is
`ode_values_set(y); ode_rates(dydt);`. So when every patch keeps the State Vector Protocol's
get-after-set laws (`OdeTarget.GetSet`), and for the round trip the whole protocol:

* `odeTarget_getSet`, `odeTarget_lawful`: the metacommunity keeps them too;
* `derivs_slots_align`: `derivs` consumes exactly `ode_size()` slots of `y`, writes exactly
  `ode_size()` rates, leaves the metacommunity holding `y`, and gives patch `p` the same slice
  `[offset p, offset p + size p)` of `y` and of `dydt`, so each state variable lines up with its
  own derivative;
* `odeValues_round_trip`: `step_deterministic`'s buffer `y(ode_size())` is filled exactly by
  `ode_values`, and setting it back consumes all of it and changes no patch.

`step_deterministic` packs the state into that buffer, loads it into the solver, runs one solver
step against `derivs` (`runSolver`) and takes the solver's time as the new age.
`stepDeterministic_spec` says what it does with such patches, and `runSolver_sizes` that no
step changes the number of patches or the size of any of them. `odeValues_runSolver`: a solver
step, returned or raised, leaves the metacommunity holding the last state vector it evaluated.
-/

namespace PlantSim

namespace Metacommunity

variable {α β σ Θ : Type} (P : Patch α β σ) (S : Solver Θ β)

/-! ## The ODE interface -/

/-- `ode_size()`. -/
def odeSize (m : Metacommunity α Θ σ) : Nat := (OdeTarget.list P.ode).odeSize m.patches

/-- `ode_values_set(it)`: the metacommunity with its patches set, and the cursor handed back. -/
def odeValuesSet (m : Metacommunity α Θ σ) (it : List β) : Metacommunity α Θ σ × List β :=
  let r := (OdeTarget.list P.ode).odeValuesSet m.patches it
  ({ m with patches := r.1 }, r.2)

/-- `ode_values(it)`. -/
def odeValues (m : Metacommunity α Θ σ) : List β := (OdeTarget.list P.ode).odeValues m.patches

/-- `ode_rates(it)`. -/
def odeRates (m : Metacommunity α Θ σ) : List β := (OdeTarget.list P.ode).odeRates m.patches

/-- `derivs(time, y, dydt)`: `ode_values_set(y); ode_rates(dydt);`; the time is not read. -/
def derivs (m : Metacommunity α Θ σ) (_time : Float) (y : List β) :
    Metacommunity α Θ σ × List β :=
  let m' := (odeValuesSet P m y).1
  (m', odeRates P m')

/-- The metacommunity as a unit of the State Vector Protocol. -/
def odeTarget : OdeTarget (Metacommunity α Θ σ) β where
  odeSize := odeSize P
  odeValuesSet := odeValuesSet P
  odeValues := odeValues P
  odeRates := odeRates P

theorem odeTarget_getSet (hP : P.ode.GetSet) : (odeTarget (Θ := Θ) (σ := σ) P).GetSet := by
  have h := hP.list
  refine ⟨fun m ys => h.values_set_rest m.patches ys, fun m ys => ?_, fun m ys =>
    h.size_values_set m.patches ys, fun m => h.length_values m.patches,
    fun m => h.length_rates m.patches, fun m ys hys => h.values_values_set m.patches ys hys⟩
  simp only [odeTarget, odeValuesSet, odeSize, h.values_set_take]

theorem odeTarget_lawful (hP : P.ode.Lawful) : (odeTarget (Θ := Θ) (σ := σ) P).Lawful :=
  { odeTarget_getSet P hP.toGetSet with
    values_set_values := fun m => by
      simp only [odeTarget, odeValuesSet, odeValues, hP.list.values_set_values] }

theorem derivs_slots_align (hP : P.ode.GetSet) (m : Metacommunity α Θ σ) (time : Float)
    (y : List β) (hy : y.length = odeSize P m) :
    (odeValuesSet P m y).2 = y.drop (odeSize P m) ∧
      (derivs P m time y).2.length = odeSize P m ∧
      odeValues P (derivs P m time y).1 = y ∧
      ∀ p (hp : p < m.patches.length),
        (((derivs P m time y).2).drop (P.ode.offset m.patches p)).take
            (P.ode.odeSize m.patches[p]) =
          P.ode.odeRates (P.ode.odeValuesSet m.patches[p]
            ((y.drop (P.ode.offset m.patches p)).take (P.ode.odeSize m.patches[p]))).1 := by
  have h := odeTarget_getSet (Θ := Θ) (σ := σ) P hP
  exact ⟨h.values_set_rest m y, (h.length_rates _).trans (h.size_values_set m y),
    h.values_values_set m y hy, OdeTarget.rates_slice_valuesSetList hP m.patches y⟩

theorem derivs_slots_align_two_patches :
    decayPatch.ode.GetSet ∧ [3.0, 4.0].length = odeSize decayPatch twoDecayPatches ∧
      (odeValuesSet decayPatch twoDecayPatches [3.0, 4.0]).2 =
        [3.0, 4.0].drop (odeSize decayPatch twoDecayPatches) ∧
      (derivs decayPatch twoDecayPatches 0.0 [3.0, 4.0]).2.length =
        odeSize decayPatch twoDecayPatches ∧
      odeValues decayPatch (derivs decayPatch twoDecayPatches 0.0 [3.0, 4.0]).1 = [3.0, 4.0] ∧
      ∀ p (hp : p < twoDecayPatches.patches.length),
        (((derivs decayPatch twoDecayPatches 0.0 [3.0, 4.0]).2).drop
            (decayPatch.ode.offset twoDecayPatches.patches p)).take
            (decayPatch.ode.odeSize twoDecayPatches.patches[p]) =
          decayPatch.ode.odeRates (decayPatch.ode.odeValuesSet twoDecayPatches.patches[p]
            (([3.0, 4.0].drop (decayPatch.ode.offset twoDecayPatches.patches p)).take
              (decayPatch.ode.odeSize twoDecayPatches.patches[p]))).1 :=
  ⟨decayPatch_ode_lawful.toGetSet, rfl,
    derivs_slots_align decayPatch decayPatch_ode_lawful.toGetSet twoDecayPatches 0.0 _ rfl⟩

theorem odeValues_round_trip (hP : P.ode.Lawful) [Zero β] (m : Metacommunity α Θ σ) :
    odeSize P m = (m.patches.map P.ode.odeSize).sum ∧
      (odeValues P m).length = odeSize P m ∧
      writeAt (List.replicate (odeSize P m) 0) 0 (odeValues P m) = .ok (odeValues P m) ∧
      odeValuesSet P m (odeValues P m) = (m, []) := by
  have h := odeTarget_lawful (Θ := Θ) (σ := σ) P hP
  refine ⟨rfl, h.length_values m,
    writeAt_zero_of_length _ _ (by rw [List.length_replicate]; exact h.length_values m), ?_⟩
  have hset := OdeTarget.valuesSetList_values hP m.patches []
  simp only [List.append_nil] at hset
  simp [odeValuesSet, odeValues, hset]

theorem odeValues_round_trip_two_patches :
    decayPatch.ode.Lawful ∧
      odeSize decayPatch twoDecayPatches =
        (twoDecayPatches.patches.map decayPatch.ode.odeSize).sum ∧
      (odeValues decayPatch twoDecayPatches).length = odeSize decayPatch twoDecayPatches ∧
      writeAt (List.replicate (odeSize decayPatch twoDecayPatches) 0) 0
          (odeValues decayPatch twoDecayPatches) =
        .ok (odeValues decayPatch twoDecayPatches) ∧
      odeValuesSet decayPatch twoDecayPatches (odeValues decayPatch twoDecayPatches) =
        (twoDecayPatches, []) :=
  ⟨decayPatch_ode_lawful, odeValues_round_trip decayPatch decayPatch_ode_lawful _⟩

/-! ## One deterministic step -/

/-- `ode_solver.step()` against this metacommunity: each callback runs `derivs` and hands the rates
back; when the solver raises, the patches stay as the last callback set them. -/
def runSolver : SolverRun Θ β → EStateM Fault (Metacommunity α Θ σ) Unit
  | .done solver, m => .ok () { m with odeSolver := solver }
  | .fail, m => .error .solver m
  | .derivs time y next, m => runSolver (next (derivs P m time y).2) (derivs P m time y).1

/-- The rest of `step_deterministic()` once the solver holds `solver`: `ode_solver.step()`, then
`age = ode_solver.get_time()`. -/
def stepLoaded (solver : Θ) : EStateM Fault (Metacommunity α Θ σ) Unit := fun m =>
  match runSolver P (S.step solver) { m with odeSolver := solver } with
  | .ok () m' => .ok () { m' with age := S.getTime m'.odeSolver }
  | .error e m' => .error e m'

/-- `step_deterministic()`: `std::vector<double> y(ode_size()); ode_values(y.begin());`, then
`ode_solver.set_state(y, age)` and the rest of the step. -/
def stepDeterministic [Zero β] : EStateM Fault (Metacommunity α Θ σ) Unit := fun m =>
  match writeAt (List.replicate (odeSize P m) 0) 0 (odeValues P m) with
  | .error e => .error e m
  | .ok y =>
    match S.setState m.odeSolver y m.age (odeSize P m) with
    | .error e => .error e m
    | .ok solver => stepLoaded P S solver m

/-- With patches that keep the get-after-set laws, `y` is filled and loaded without fault, so the
step is the solver's. -/
theorem stepDeterministic_spec [Zero β] (hP : P.ode.GetSet) (m : Metacommunity α Θ σ) :
    stepDeterministic P S m = stepLoaded P S (S.load m.odeSolver (odeValues P m) m.age) m := by
  have hlen : (odeValues P m).length = odeSize P m :=
    (odeTarget_getSet (Θ := Θ) (σ := σ) P hP).length_values m
  rw [stepDeterministic, writeAt_zero_of_length _ _ (by rw [List.length_replicate, hlen])]
  simp only [Solver.setState, checkLength, hlen, ite_true]
  rfl

theorem stepDeterministic_spec_two_patches :
    decayPatch.ode.GetSet ∧
      stepDeterministic decayPatch unitSolver twoDecayPatches =
        stepLoaded decayPatch unitSolver (unitSolver.load twoDecayPatches.odeSolver
          (odeValues decayPatch twoDecayPatches) twoDecayPatches.age) twoDecayPatches :=
  ⟨decayPatch_ode_lawful.toGetSet,
    stepDeterministic_spec decayPatch unitSolver decayPatch_ode_lawful.toGetSet _⟩

theorem runSolver_keeps (Q : Metacommunity α Θ σ → Prop)
    (hderivs : ∀ m time y, Q m → Q (derivs P m time y).1)
    (hsolver : ∀ m solver, Q m → Q { m with odeSolver := solver }) :
    ∀ (run : SolverRun Θ β) (m : Metacommunity α Θ σ), Q m → Q (stateOf (runSolver P run m))
  | .done solver, m, hm => hsolver m solver hm
  | .fail, _, hm => hm
  | .derivs time y next, m, hm =>
    runSolver_keeps Q hderivs hsolver (next (derivs P m time y).2) _ (hderivs m time y hm)

theorem stepLoaded_keeps (Q : Metacommunity α Θ σ → Prop)
    (hderivs : ∀ m time y, Q m → Q (derivs P m time y).1)
    (hsolver : ∀ m solver, Q m → Q { m with odeSolver := solver })
    (hage : ∀ m age, Q m → Q { m with age := age }) (solver : Θ) (m : Metacommunity α Θ σ)
    (hm : Q m) : Q (stateOf (stepLoaded P S solver m)) := by
  have h := runSolver_keeps P Q hderivs hsolver (S.step solver) _ (hsolver m solver hm)
  unfold stepLoaded
  split <;> rename_i hr <;> rw [hr] at h
  · exact hage _ _ h
  · exact h

theorem sameShape_derivs (m : Metacommunity α Θ σ) (time : Float) (y : List β) :
    SameShape m (derivs P m time y).1 :=
  SameShape.of_patches m (by simp)

theorem stepDeterministic_keeps [Zero β] (Q : Metacommunity α Θ σ → Prop)
    (hderivs : ∀ m time y, Q m → Q (derivs P m time y).1)
    (hsolver : ∀ m solver, Q m → Q { m with odeSolver := solver })
    (hage : ∀ m age, Q m → Q { m with age := age }) (m : Metacommunity α Θ σ) (hm : Q m) :
    Q (stateOf (stepDeterministic P S m)) := by
  unfold stepDeterministic
  split
  · exact hm
  · split
    · exact hm
    · exact stepLoaded_keeps P S Q hderivs hsolver hage _ m hm

theorem sameShape_stepDeterministic [Zero β] (m : Metacommunity α Θ σ) :
    SameShape m (stateOf (stepDeterministic P S m)) :=
  stepDeterministic_keeps P S (SameShape m) (fun _ _ _ h => h.trans (sameShape_derivs P _ _ _))
    (fun _ _ h => ⟨h.parameters, h.size⟩) (fun _ _ h => ⟨h.parameters, h.size⟩) m (SameShape.refl m)

/-- With patches that keep the get-after-set laws, no solver step changes the size of any patch's
part of the state vector: what `derivs` sets is what the solver proposed, slot for slot. -/
theorem runSolver_sizes (hP : P.ode.GetSet) (run : SolverRun Θ β) (m : Metacommunity α Θ σ) :
    (stateOf (runSolver P run m)).patches.map P.ode.odeSize = m.patches.map P.ode.odeSize :=
  runSolver_keeps P (fun m' => m'.patches.map P.ode.odeSize = m.patches.map P.ode.odeSize)
    (fun m' _ y h => (OdeTarget.size_valuesSetList hP m'.patches y).trans h) (fun _ _ h => h)
    run m rfl

theorem runSolver_sizes_one_callback :
    decayPatch.ode.GetSet ∧
      (stateOf (runSolver decayPatch (.derivs 0.0 [3.0, 4.0] fun _ => .done ())
          twoDecayPatches)).patches.map decayPatch.ode.odeSize =
        twoDecayPatches.patches.map decayPatch.ode.odeSize :=
  ⟨decayPatch_ode_lawful.toGetSet, runSolver_sizes decayPatch decayPatch_ode_lawful.toGetSet _ _⟩

/-! ## What a solver step leaves in the patches -/

/-- The state vector of the last `derivs` callback that the solver step `run` makes against `m`,
if it makes one. -/
def lastDerivs : SolverRun Θ β → Metacommunity α Θ σ → Option (List β)
  | .done _, _ => none
  | .fail, _ => none
  | .derivs time y next, m =>
    some ((lastDerivs (next (derivs P m time y).2) (derivs P m time y).1).getD y)

/-- With patches that keep the get-after-set laws, a solver step whose state vectors all have
`ode_size()` entries leaves the metacommunity holding the last vector it handed to `derivs`,
whether it returns or raises; a step that makes no callback leaves the state vector as it was. -/
theorem odeValues_runSolver (hP : P.ode.GetSet) {run : SolverRun Θ β} {n : Nat}
    (hrun : run.Sized n) (m : Metacommunity α Θ σ) (hm : odeSize P m = n) :
    odeValues P (stateOf (runSolver P run m)) = (lastDerivs P run m).getD (odeValues P m) := by
  induction hrun generalizing m with
  | done solver => rfl
  | fail => rfl
  | derivs time y next hy _ ih =>
    have hlaw := odeTarget_getSet (Θ := Θ) (σ := σ) P hP
    have hsize : odeSize P (derivs P m time y).1 = n := (hlaw.size_values_set m y).trans hm
    have hvalues : odeValues P (derivs P m time y).1 = y :=
      hlaw.values_values_set m y (hy.trans hm.symm)
    simp only [runSolver, lastDerivs, Option.getD_some]
    rw [ih _ _ hsize, hvalues]

theorem odeValues_runSolver_one_callback :
    decayPatch.ode.GetSet ∧
      (SolverRun.derivs 0.0 [3.0, 4.0] fun _ => .done () : SolverRun Unit Float).Sized 2 ∧
      odeSize decayPatch twoDecayPatches = 2 ∧
      odeValues decayPatch (stateOf (runSolver decayPatch
          (.derivs 0.0 [3.0, 4.0] fun _ => .done ()) twoDecayPatches)) =
        (lastDerivs decayPatch (.derivs 0.0 [3.0, 4.0] fun _ => .done ()) twoDecayPatches).getD
          (odeValues decayPatch twoDecayPatches) :=
  ⟨decayPatch_ode_lawful.toGetSet, .derivs _ _ _ rfl fun _ => .done (), rfl,
    odeValues_runSolver decayPatch decayPatch_ode_lawful.toGetSet
      (.derivs _ _ _ rfl fun _ => .done ()) _ rfl⟩

end Metacommunity

end PlantSim

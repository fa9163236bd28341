import PlantSim.Metacommunity.Run

/-!
# Lineages of patches

After `initialise()` the metacommunity never builds, drops or moves a patch: every member changes
patch `p` in place, and only through patch `p`'s own members (`deaths`, `add_seeds`,
`add_seedlings`, `r_clear`, `ode_values_set`). `Patch.Step` is one such change, and `Evolves ps ps'`
says that each patch of `ps'` is the patch at its index in `ps` taken through some of them.

* `evolves_invariant`: evolving from the patches one started with is an invariant of runs, so patch
  `p` of every state R reaches from the constructor is `Patch(parameters)` taken through its own
  members (`evolves_reachable`);
* `reachable_patch_invariant`: whatever `Patch(parameters)` has and every member of a patch keeps
  holds of every patch of every reachable state;
* `rNIndividuals_reachable`: so when a patch's members keep its number of counts, every
  reachable state's `r_n_individuals()` is the full `n_species() × size()` matrix of the patches'
  counts, never running past its end and never leaving an entry unwritten.
-/

namespace PlantSim

/-- One change of a patch through one of its own members that the metacommunity calls. -/
inductive Patch.Step {α β σ : Type} (P : Patch α β σ) : α → α → Prop
  | deaths (a : α) (rng : σ) : Patch.Step P a (P.deaths a rng).1
  | addSeeds (a : α) (v : List Int) : Patch.Step P a (P.addSeeds a v)
  | addSeedlings (a : α) (v : List Int) : Patch.Step P a (stateOf (P.addSeedlings v a))
  | rClear (a : α) : Patch.Step P a (P.rClear a)
  | odeValuesSet (a : α) (ys : List β) : Patch.Step P a (P.ode.odeValuesSet a ys).1

namespace Metacommunity

variable {α β σ Θ : Type} (P : Patch α β σ) (S : Solver Θ β) (R : Rbinom σ)
  (sum : List Int → List Int → Except Fault (List Int))

/-- Each patch of `ps'` is the patch at its index in `ps` taken through some of its own members. -/
def Evolves (ps ps' : List α) : Prop :=
  List.Forall₂ (Relation.ReflTransGen (Patch.Step P)) ps ps'

theorem Evolves.refl (ps : List α) : Evolves P ps ps := List.forall₂_same.mpr fun _ _ => .refl

theorem Evolves.trans {ps₁ ps₂ ps₃ : List α} (h₁ : Evolves P ps₁ ps₂) (h₂ : Evolves P ps₂ ps₃) :
    Evolves P ps₁ ps₃ := by
  induction h₁ generalizing ps₃ with
  | nil => exact h₂
  | cons h _ ih =>
    cases h₂ with
    | cons h' hs => exact .cons (h.trans h') (ih hs)

theorem Evolves.of_steps {ps ps' : List α} (h : List.Forall₂ (Patch.Step P) ps ps') :
    Evolves P ps ps' :=
  h.imp fun _ _ => .single

/-! ## What each member does to the patches -/

theorem steps_deathsLoop : ∀ (ps : List α) (rng : σ),
    List.Forall₂ (Patch.Step P) ps (deathsLoop P ps rng).1
  | [], _ => .nil
  | a :: ps, rng => .cons (.deaths a rng) (steps_deathsLoop ps _)

theorem steps_valuesSetList : ∀ (ps : List α) (ys : List β),
    List.Forall₂ (Patch.Step P) ps (OdeTarget.valuesSetList P.ode ps ys).1
  | [], _ => .nil
  | a :: ps, ys => .cons (.odeValuesSet a ys) (steps_valuesSetList ps _)

theorem evolves_addSeedsLoop (size : Nat) : ∀ (ps : List α) (seeds : List Int) (j : Nat) (rng : σ),
    Evolves P ps (addSeedsLoop P R size ps seeds j rng).1
  | [], _, _, _ => .nil
  | a :: ps, seeds, j, rng => by
    unfold addSeedsLoop
    split
    · exact Evolves.refl P _
    · exact .cons (.single (.addSeeds a _)) (evolves_addSeedsLoop size ps _ _ _)

theorem evolves_addSeedlingsLoop (M : IntegerMatrix) : ∀ (i : Nat) (ps : List α),
    Evolves P ps (addSeedlingsLoop P M i ps).1
  | _, [] => .nil
  | i, a :: ps => by
    have hstep := Patch.Step.addSeedlings (P := P) a (M.column i)
    unfold addSeedlingsLoop
    split <;> rename_i h <;> rw [h] at hstep
    · exact .cons (.single hstep) (evolves_addSeedlingsLoop M (i + 1) ps)
    · exact .cons (.single hstep) (Evolves.refl P ps)

/-- Evolving from `ps₀` is an invariant of runs. -/
theorem evolves_invariant (ps₀ : List α) :
    Invariant P S R (fun m : Metacommunity α Θ σ => Evolves P ps₀ m.patches) where
  derivs m _ y h := Evolves.trans P h (Evolves.of_steps P (steps_valuesSetList P m.patches y))
  solver _ _ h := h
  age _ _ h := h
  deaths m h := Evolves.trans P h (Evolves.of_steps P (steps_deathsLoop P m.patches m.rng))
  addSeeds m seeds h := by
    dsimp only [addSeeds]
    split <;> exact Evolves.trans P h (evolves_addSeedsLoop P R _ m.patches _ _ _)
  rAddSeedlings m M h := by
    unfold rAddSeedlings
    split
    · dsimp only
      split <;> exact Evolves.trans P h (evolves_addSeedlingsLoop P M 0 m.patches)
    all_goals exact h
  rClear m h := Evolves.trans P h (Evolves.of_steps P
    (List.forall₂_map_right_iff.mpr (List.forall₂_same.mpr fun a _ => .rClear a)))

theorem evolves_reachable [Zero β] (p : Parameters) (rng : σ) (cs : List Call) :
    Evolves P (List.replicate p.nPatches.toNat (P.create p))
      (runCalls P S R sum cs (create P S p rng)).patches :=
  (evolves_invariant P S R _).runCalls sum cs _ (Evolves.refl P _)

theorem invariant_of_evolves (I : α → Prop) {a₀ : α} (h0 : I a₀)
    (hstep : ∀ a a', Patch.Step P a a' → I a → I a') :
    ∀ {n : Nat} {ps : List α}, Evolves P (List.replicate n a₀) ps → ∀ a ∈ ps, I a
  | 0, _, .nil, _, ha => by cases ha
  | n + 1, _, .cons hab hs, a, ha => by
    rcases List.mem_cons.mp ha with rfl | ha
    · clear ha
      induction hab with
      | refl => exact h0
      | tail _ hstep' ih => exact hstep _ _ hstep' ih
    · exact invariant_of_evolves I h0 hstep hs a ha

/-- Whatever `Patch(parameters)` has and every member of a patch keeps holds of every patch of
every state R reaches from the constructor. -/
theorem reachable_patch_invariant [Zero β] (I : α → Prop) (p : Parameters) (h0 : I (P.create p))
    (hstep : ∀ a a', Patch.Step P a a' → I a → I a') (rng : σ) (cs : List Call) :
    ∀ a ∈ (runCalls P S R sum cs (create P S p rng)).patches, I a :=
  invariant_of_evolves P I h0 hstep (evolves_reachable P S R sum p rng cs)

/-- When `Patch(parameters)` has `n_species()` counts and no member of a patch changes its number of
counts, `r_n_individuals()` of every state R reaches from the constructor is the full
`n_species() × size()` matrix of the patches' counts, in patch order. -/
theorem rNIndividuals_reachable [Zero β] (p : Parameters)
    (h0 : (P.rNIndividuals (P.create p)).length = p.size)
    (hstep : ∀ a a', Patch.Step P a a' →
      (P.rNIndividuals a').length = (P.rNIndividuals a).length) (rng : σ) (cs : List Call) :
    ∃ hlen, rNIndividuals P (runCalls P S R sum cs (create P S p rng)) =
      .ok ⟨nSpecies (runCalls P S R sum cs (create P S p rng)),
        size (runCalls P S R sum cs (create P S p rng)),
        ((runCalls P S R sum cs (create P S p rng)).patches.map P.rNIndividuals).flatten,
        hlen⟩ := by
  have hlens := invariant_of_evolves P (fun a => (P.rNIndividuals a).length = p.size) h0
    (fun a a' h ha => (hstep a a' h).trans ha) (evolves_reachable P S R sum p rng cs)
  have hspecies : nSpecies (runCalls P S R sum cs (create P S p rng)) = p.size :=
    congrArg Parameters.size (sameShape_runCalls P S R sum cs _).parameters
  exact rNIndividuals_of_counts P _ fun a ha => (hlens a ha).trans hspecies.symm

end Metacommunity

theorem speciesPatch_step_length {a a' : List Int} (h : Patch.Step speciesPatch a a') :
    a'.length = a.length := by
  cases h <;> simp [speciesPatch]

namespace Metacommunity

theorem reachable_patch_invariant_species :
    (speciesPatch.create ⟨2, 3⟩).length = 3 ∧
      ∀ a ∈ (runCalls speciesPatch unitSolver meanRbinom checkedSum [.rClear, .step]
        (create speciesPatch unitSolver ⟨2, 3⟩ ())).patches, a.length = 3 :=
  ⟨rfl, reachable_patch_invariant speciesPatch unitSolver meanRbinom checkedSum
    (fun a => a.length = 3) ⟨2, 3⟩ rfl (fun _ _ h ha => (speciesPatch_step_length h).trans ha) ()
    [.rClear, .step]⟩

theorem rNIndividuals_reachable_species :
    (speciesPatch.rNIndividuals (speciesPatch.create ⟨2, 3⟩)).length = 3 ∧
      ∃ hlen, rNIndividuals speciesPatch (runCalls speciesPatch unitSolver meanRbinom checkedSum
          [.rClear, .step] (create speciesPatch unitSolver ⟨2, 3⟩ ())) =
        .ok ⟨nSpecies (runCalls speciesPatch unitSolver meanRbinom checkedSum [.rClear, .step]
            (create speciesPatch unitSolver ⟨2, 3⟩ ())),
          size (runCalls speciesPatch unitSolver meanRbinom checkedSum [.rClear, .step]
            (create speciesPatch unitSolver ⟨2, 3⟩ ())),
          ((runCalls speciesPatch unitSolver meanRbinom checkedSum [.rClear, .step]
            (create speciesPatch unitSolver ⟨2, 3⟩ ())).patches.map
              speciesPatch.rNIndividuals).flatten, hlen⟩ :=
  ⟨rfl, rNIndividuals_reachable speciesPatch unitSolver meanRbinom checkedSum ⟨2, 3⟩ rfl
    (fun _ _ h => speciesPatch_step_length h) () [.rClear, .step]⟩

end Metacommunity

end PlantSim

import PlantSim.Metacommunity.Basic

/-!
# `PlantApprox`: small plants take their rates from a spline

`PlantApprox` (`plant_approx.cpp`) is a `Plant` that also points at a `PlantSpline`. While the
plant is taller than the spline's `height_max()` it is the exact plant. Otherwise `ode_rates` reads
the spline at the plant's height, and `compute_vars_phys` does nothing, the spline's own
`compute_vars_phys` having done the work for every height at once. `ode_size`, `ode_values_set`
and `ode_values` are the plant's.

Plants and splines are not in this source: `PlantParts` holds the members `PlantApprox` calls.
-/

namespace PlantSim

/-- The members of `Plant` (state `π`) and `PlantSpline` (state `ς`) that `PlantApprox` calls, in an
environment `ε`, with ODE slots `β`. -/
structure PlantParts (π ς ε β : Type) where
  ode : OdeTarget π β
  height : π → Float
  computeVarsPhys : ε → π → π
  heightMax : ς → Float
  splineOdeRates : ς → Float → List β
  splineComputeVarsPhys : ε → ς → ς

/-- A `PlantApprox`: the plant it is, and the state of the spline it points at. -/
structure PlantApprox (π ς : Type) where
  plant : π
  plantSpline : ς

namespace PlantApprox

variable {π ς ε β : Type} (P : PlantParts π ς ε β)

/-- `large_plant_do_exact()`: `height() > plant_spline->height_max()`. -/
def largePlantDoExact (x : PlantApprox π ς) : Bool :=
  P.heightMax x.plantSpline < P.height x.plant

/-- `compute_vars_phys(environment)`: the plant's, for a large plant only. -/
def computeVarsPhys (env : ε) (x : PlantApprox π ς) : PlantApprox π ς :=
  if largePlantDoExact P x then { x with plant := P.computeVarsPhys env x.plant } else x

/-- `ode_rates(it)`: the plant's for a large plant, the spline's at its height otherwise. -/
def odeRates (x : PlantApprox π ς) : List β :=
  if largePlantDoExact P x then P.ode.odeRates x.plant
  else P.splineOdeRates x.plantSpline (P.height x.plant)

/-- `r_compute_vars_phys_spline(environment)`: `plant_spline->compute_vars_phys(environment)`. -/
def rComputeVarsPhysSpline (env : ε) (x : PlantApprox π ς) : PlantApprox π ς :=
  { x with plantSpline := P.splineComputeVarsPhys env x.plantSpline }

/-- `PlantApprox` as a unit of the State Vector Protocol: the plant's, with `ode_rates`
overridden. -/
def ode : OdeTarget (PlantApprox π ς) β where
  odeSize x := P.ode.odeSize x.plant
  odeValuesSet x ys :=
    let r := P.ode.odeValuesSet x.plant ys
    ({ x with plant := r.1 }, r.2)
  odeValues x := P.ode.odeValues x.plant
  odeRates := odeRates P

end PlantApprox

end PlantSim

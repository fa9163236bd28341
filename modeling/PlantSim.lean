import PlantSim.Ode.Target
import PlantSim.Metacommunity.Basic
import PlantSim.Metacommunity.Ode
import PlantSim.Metacommunity.Seeds
import PlantSim.Metacommunity.Seedlings
import PlantSim.Metacommunity.Run
import PlantSim.Metacommunity.SeedRain
import PlantSim.Metacommunity.Lineage
import PlantSim.PlantApprox

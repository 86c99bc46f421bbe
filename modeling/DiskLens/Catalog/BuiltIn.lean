import DiskLens.Catalog.Parameter

/-!
# The built-in parameters

The reference for the most used parameters, for when no catalog file is given.

* **`builtInParameters`**: the list.
-/

namespace DiskLens

/-- **The built-in parameters**, by topic: the star, the disk, the dust, the grid, and what a run
solves for. -/
def builtInParameters : List Parameter :=
  [⟨"Mstar", "real", "2.2", "Msun", "stellar mass",
      ["StellarParameters.md"]⟩,
    ⟨"Lstar", "real", "32.0", "Lsun", "stellar luminosity",
      ["StellarParameters.md"]⟩,
    ⟨"Teff", "real", "8600.0", "K", "stellar effective temperature",
      ["StellarParameters.md"]⟩,
    ⟨"Mdisk", "real", "0.01", "Msun", "disk mass",
      ["DiskStructure.md", "DiskMass.md"]⟩,
    ⟨"Rin", "real", "0.45", "AU", "inner disk radius",
      ["DiskStructure.md"]⟩,
    ⟨"Rout", "real", "500.0", "AU", "outer disk radius",
      ["DiskStructure.md"]⟩,
    ⟨"epsilon", "real", "1.0", "-", "column density power index",
      ["DiskStructure.md"]⟩,
    ⟨"dust_to_gas", "real", "0.01", "-", "dust to gas mass ratio",
      ["DustOpacities.md"]⟩,
    ⟨"amin", "real", "0.05", "mic", "minimum dust particle radius",
      ["DustOpacities.md"]⟩,
    ⟨"amax", "real", "1000.0", "mic", "maximum dust particle radius",
      ["DustOpacities.md"]⟩,
    ⟨"NXX", "integer", "70", "-", "number of radial grid points",
      ["SpatialGrid.md"]⟩,
    ⟨"NZZ", "integer", "70", "-", "number of vertical grid points",
      ["SpatialGrid.md"]⟩,
    ⟨"solve_temp", "logical", ".true.", "",
      "solve the heating/cooling balance for the gas temperature", ["HeatingCooling.md"]⟩,
    ⟨"XRAYchem", "logical", ".false.", "", "include X-ray chemistry",
      ["XrayChemistry.md"]⟩,
    ⟨"chem_timescale", "real", "1.0E+6", "yr", "",
      []⟩]

end DiskLens

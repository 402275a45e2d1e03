/-
Variants of a material. A description is compiled with static parameters that
override its own, for a quality level and a tier; these together decide which
permutations are needed and what the identity of the resulting map is.
-/

import Shading.Lowering.Emission
import Shading.Map.Identity

namespace Shading

structure Variant where
  description : Description
  overrides : Option StaticParameters := none
  quality : Quality := .high
  tier : Tier := .desktop
deriving Inhabited

namespace Variant

def parameters (variant : Variant) : StaticParameters :=
  variant.description.effectiveParameters variant.overrides

def dependencies (variant : Variant) (catalog : Catalog) : Dependencies :=
  catalog.dependencies variant.description variant.tier

def permutations (variant : Variant) (catalog : Catalog) : List Permutation :=
  (variant.dependencies catalog).permutations

def identity (variant : Variant) (catalog : Catalog) : MapIdentity :=
  .ofDescription variant.description variant.parameters variant.quality variant.tier
    (variant.dependencies catalog)

def lower (variant : Variant) : Except LoweringError LoweredMaterial :=
  variant.description.lower variant.parameters variant.quality variant.tier

end Variant

end Shading

/-
The settings of a material system and their JSON form. Every setting has a
value of its own, so any of them may be left out.
-/

import Shading.Tier

namespace Shading

structure Settings where
  allowsAsyncCompilation : Bool := true
  defersUniformCaching : Bool := true
  requiresCookedData : Bool := false
  /-- In increasing order, each tier at most once. -/
  activeTiers : List Tier := [.desktop]
  activeQuality : Quality := .high
  waitLogInterval : UInt64 := 5000
deriving DecidableEq, Inhabited

namespace Settings

def standard : Settings := {}

def isActive (settings : Settings) (tier : Tier) : Bool := tier ∈ settings.activeTiers

def fieldNames : List String :=
  ["allow_async_compilation", "defer_uniform_expression_caching", "requires_cooked_data",
    "active_tiers", "active_quality", "compile_wait_log_interval_ms"]

def encode (settings : Settings) : Json :=
  .record [
    ("allow_async_compilation", .bool settings.allowsAsyncCompilation),
    ("defer_uniform_expression_caching", .bool settings.defersUniformCaching),
    ("requires_cooked_data", .bool settings.requiresCookedData),
    ("active_tiers", .array (settings.activeTiers.map Tier.encode)),
    ("active_quality", settings.activeQuality.encode),
    ("compile_wait_log_interval_ms", .natural settings.waitLogInterval.toNat)]

def decode : Json.Decoder Settings := fun depth document => do
  let fields ← Json.asFields fieldNames true depth document
  let tiers ← fields.defaulted "active_tiers" (Json.asList Tier.decode) standard.activeTiers
  some {
    allowsAsyncCompilation :=
      ← fields.defaulted "allow_async_compilation" Json.asBool standard.allowsAsyncCompilation
    defersUniformCaching :=
      ← fields.defaulted "defer_uniform_expression_caching" Json.asBool
        standard.defersUniformCaching
    requiresCookedData :=
      ← fields.defaulted "requires_cooked_data" Json.asBool standard.requiresCookedData
    activeTiers := Tier.all.filter (· ∈ tiers)
    activeQuality := ← fields.defaulted "active_quality" Quality.decode standard.activeQuality
    waitLogInterval :=
      ← fields.defaulted "compile_wait_log_interval_ms" Json.asLongWord standard.waitLogInterval }

/-- Reads settings from text. -/
def ofText? (text : String) : Option Settings := Json.decode? decode (Utf8.encode text)

def text (settings : Settings) : String := settings.encode.render

end Settings

end Shading

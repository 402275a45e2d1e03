import Shading.Compile.Bench
import Shading.Compile.Compiler
import Shading.Compile.Manager
import Shading.Compile.Workshop
import Shading.Digest.Stream
import Shading.Digest.Xxh3
import Shading.Fault
import Shading.Graph.Description
import Shading.Graph.Node
import Shading.Identifier
import Shading.Index
import Shading.Json.Access
import Shading.Json.Decoder
import Shading.Json.Reader
import Shading.Json.Syntax
import Shading.Lowering.Emission
import Shading.Lowering.Profile
import Shading.Map.Identity
import Shading.Map.Inline
import Shading.Map.Registry
import Shading.Map.ShaderMap
import Shading.Map.Store
import Shading.Map.Variant
import Shading.Material.Compilation
import Shading.Material.Library
import Shading.Material.Session
import Shading.Material.Summary
import Shading.Material.System
import Shading.Material.Update
import Shading.Notation.Description
import Shading.Notation.Map
import Shading.Notation.Render
import Shading.Number.Binary32
import Shading.Number.Decimal
import Shading.Number.Shortest
import Shading.Permutation.Catalog
import Shading.Proofs.Compile.Awaiting
import Shading.Proofs.Compile.Chronicle
import Shading.Proofs.Compile.Concluding
import Shading.Proofs.Compile.Delivery
import Shading.Proofs.Compile.Engaging
import Shading.Proofs.Compile.Evolving
import Shading.Proofs.Compile.Finishing
import Shading.Proofs.Compile.Managing
import Shading.Proofs.Compile.Orderly
import Shading.Proofs.Compile.Posting
import Shading.Proofs.Compile.Stowing
import Shading.Proofs.Compile.Telling
import Shading.Proofs.Digest.Legible
import Shading.Proofs.Graph.Content
import Shading.Proofs.Graph.Walking
import Shading.Proofs.Interning
import Shading.Proofs.Lowering.Folding
import Shading.Proofs.Lowering.Gathering
import Shading.Proofs.Lowering.Grounding
import Shading.Proofs.Lowering.Placing
import Shading.Proofs.Lowering.Reading
import Shading.Proofs.Lowering.Sampling
import Shading.Proofs.Lowering.Sharing
import Shading.Proofs.Lowering.Stacking
import Shading.Proofs.Lowering.Writing
import Shading.Proofs.Map.Genuine
import Shading.Proofs.Map.Naming
import Shading.Proofs.Material.Acting
import Shading.Proofs.Material.Agreeing
import Shading.Proofs.Material.Applying
import Shading.Proofs.Material.Committing
import Shading.Proofs.Material.Completeness
import Shading.Proofs.Material.Deriving
import Shading.Proofs.Material.Discarding
import Shading.Proofs.Material.Drawing
import Shading.Proofs.Material.Editing
import Shading.Proofs.Material.Enclosing
import Shading.Proofs.Material.Fallback
import Shading.Proofs.Material.Fitting
import Shading.Proofs.Material.Handover
import Shading.Proofs.Material.Housing
import Shading.Proofs.Material.Keeping
import Shading.Proofs.Material.Leaving
import Shading.Proofs.Material.Mirroring
import Shading.Proofs.Material.Moving
import Shading.Proofs.Material.Notifying
import Shading.Proofs.Material.Obtaining
import Shading.Proofs.Material.Offering
import Shading.Proofs.Material.Outstanding
import Shading.Proofs.Material.Permuting
import Shading.Proofs.Material.Persisting
import Shading.Proofs.Material.Proceeding
import Shading.Proofs.Material.Prompt
import Shading.Proofs.Material.Reached
import Shading.Proofs.Material.Readiness
import Shading.Proofs.Material.Reflecting
import Shading.Proofs.Material.Refusing
import Shading.Proofs.Material.Resolving
import Shading.Proofs.Material.Serving
import Shading.Proofs.Material.Soundness
import Shading.Proofs.Material.Staging
import Shading.Proofs.Material.Steady
import Shading.Proofs.Material.Supplying
import Shading.Proofs.Material.Thrift
import Shading.Proofs.Material.Using
import Shading.Proofs.Merging
import Shading.Proofs.Permutation.Requirements
import Shading.Proofs.Render.Answering
import Shading.Proofs.Render.Backing
import Shading.Proofs.Render.Building
import Shading.Proofs.Render.Casting
import Shading.Proofs.Render.Chain
import Shading.Proofs.Render.Commands
import Shading.Proofs.Render.Composing
import Shading.Proofs.Render.Consistency
import Shading.Proofs.Render.Diligence
import Shading.Proofs.Render.Emptying
import Shading.Proofs.Render.Freshness
import Shading.Proofs.Render.Furnishing
import Shading.Proofs.Render.Hazards
import Shading.Proofs.Render.Indices
import Shading.Proofs.Render.Membership
import Shading.Proofs.Render.Modes
import Shading.Proofs.Render.Outcome
import Shading.Proofs.Render.Ownership
import Shading.Proofs.Render.Promptness
import Shading.Proofs.Render.Providing
import Shading.Proofs.Render.Reckoning
import Shading.Proofs.Render.Refusal
import Shading.Proofs.Render.Renewal
import Shading.Proofs.Render.Runs
import Shading.Proofs.Render.Settling
import Shading.Proofs.Render.Stacking
import Shading.Proofs.Render.Streams
import Shading.Proofs.Render.Swapping
import Shading.Proofs.Render.Tidiness
import Shading.Proofs.Render.Tiling
import Shading.Proofs.Render.Upkeep
import Shading.Proofs.Render.Versions
import Shading.Proofs.Render.Warranty
import Shading.Proofs.Sequence
import Shading.Proofs.Slots
import Shading.Proofs.Uniform.Regions
import Shading.Proofs.Uniform.Sections
import Shading.Reachable
import Shading.Render.Cache
import Shading.Render.Command
import Shading.Render.Execution
import Shading.Render.Freshness
import Shading.Render.Proxy
import Shading.Render.Renderer
import Shading.Render.Streaming
import Shading.Render.World
import Shading.Report.Library
import Shading.Report.Map
import Shading.Report.Value
import Shading.Report.World
import Shading.Script.Compiling
import Shading.Script.Drawing
import Shading.Script.Scene.Rendering
import Shading.Script.Scene.Resources
import Shading.Script.Scene.State
import Shading.Script.Scene.Steps
import Shading.Script.Scene.Targets
import Shading.Script.Step
import Shading.Settings
import Shading.Slots
import Shading.StaticParameters
import Shading.Table
import Shading.Text.Codes
import Shading.Text.Quoted
import Shading.Text.Utf8
import Shading.Tier
import Shading.Uniform.Expression
import Shading.Uniform.ExpressionSet

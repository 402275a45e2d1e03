/-
Reports of shader maps and of compiles. Two maps with the same contents are
still different maps, so a report names maps by labels: `map1`, `map2` and so
on, given in the order in which maps are first mentioned. The labels given so
far are the state in which a report is made.
-/

import Shading.Compile.Manager
import Shading.Report.Value

namespace Shading.Report

/-! ### Labels -/

/-- Computations that may mention maps. -/
abbrev Labelled := StateM (List MapId)

/-- The label of a map, which is a new one if the map has not been mentioned. -/
def label (map : MapId) : Labelled Json := fun known =>
  match known.findIdx? (· = map) with
  | some position => (.text ("map" ++ toString (position + 1)), known)
  | none => (.text ("map" ++ toString (known.length + 1)), known ++ [map])

def label? : Option SharedMap → Labelled Json
  | some shared => label shared.id
  | none => pure .null

def listM {α : Type} (shown : α → Labelled Json) (values : List α) : Labelled Json :=
  return .array (← values.mapM shown)

/-! ### Maps -/

def permutation (permutation : Permutation) : Json := .text permutation.text

def dependency (dependency : Dependency) : Json :=
  .array [.text dependency.name, digest dependency.source]

def identity (identity : MapIdentity) : Json :=
  .record [("json", .text identity.jsonText), ("hash", digest identity.digest),
    ("key", .text identity.storeKey), ("text", .text identity.text)]

def binary (binary : Binary) : Json :=
  .array [bytes binary.code, digest binary.digest, .text binary.fingerprint, .bool true]

/-- Bytes that are text; others are shown as no text. -/
def textOf (bytes : List UInt8) : Json := .text ((Utf8.text? bytes).getD "")

/-- The digests of the code of all permutations. -/
def codeDigests (map : ShaderMap) : Json :=
  list (fun entry =>
    .array [permutation entry, option digest ((map.binary? entry).map Binary.digest)])
    map.permutations

/-- All about a map. Its permutations `asked` are shown with their code, and it
is tested for completeness against `required`. -/
def shaderMap (map : ShaderMap) (asked required : List Permutation) : Json :=
  .record [
    ("compiled", .bool map.isCompiled),
    ("name", .text map.name),
    ("n", .natural map.permutations.length),
    ("perms", list permutation map.permutations),
    ("describe", .text map.describe),
    ("report", .text map.permutationReport),
    ("flags", .natural map.flags.bits.toNat),
    ("layout", option layout map.layout?),
    ("exprs", option (fun expressions => .text expressions.describe) map.expressions?),
    ("samples", option (fun content => word content.profile.textureSamples) map.content),
    ("complete", .bool (map.isComplete required)),
    ("query", list (fun entry => option binary (map.binary? entry)) asked),
    ("bytes", match map.archive with
      | .ok bytes => textOf bytes
      | .error reason => failure reason)]

/-! ### Compiles -/

def compileFailure (reason : CompileFailure) : Json :=
  .record [("messages", texts reason.messages), ("sigil", failure reason.toFailure)]

def compileResult : Except CompileFailure SharedMap → Labelled Json
  | .ok map => label map.id
  | .error reason => pure (compileFailure reason)

def finished (finished : FinishedCompile) : Labelled Json :=
  return .record [("job", identifier finished.job), ("id", .text finished.identity.text),
    ("r", ← compileResult finished.result), ("res", list identifier finished.resources)]

def outcome : Except LoweringError CompileOutcome → Labelled Json
  | .error error => pure (lowering error)
  | .ok (.compiled map) => return .record [("compiled", ← label map.id)]
  | .ok (.failed reason) => pure (.record [("failed", compileFailure reason)])
  | .ok (.pending job) => pure (.record [("pending", identifier job)])
  | .ok (.attached job) => pure (.record [("attached", identifier job)])

/-- A job that the compiler keeps waiting. -/
def waiting (job : PermutationJob) : Json :=
  .array [identifier job.group, permutation job.permutation, .text job.name]

end Shading.Report

/-
Compilers. A job asks for the binary of one permutation. A compiler may answer
as soon as a job is submitted, or keep it waiting and answer later; jobs that
wait are kept in the order in which they came.
-/

import Shading.Map.ShaderMap

namespace Shading

/-- The request to compile one permutation of a map. -/
structure PermutationJob where
  group : JobId
  permutation : Permutation
  source : String
  tier : Tier
  name : String
deriving Inhabited

structure PermutationResult where
  group : JobId
  permutation : Permutation
  outcome : Except CompileError Binary

namespace PermutationJob

/-- Code that repeats the request: the permutation, the tier and the source,
with a zero byte between them. -/
def echo (job : PermutationJob) : Binary :=
  .ofCode (Utf8.encode job.permutation.text ++ 0 :: Utf8.encode job.tier.name ++
    0 :: Utf8.encode job.source)

end PermutationJob

structure Compiler where
  compile : PermutationJob → Except CompileError Binary := fun job => .ok job.echo
  /-- Whether a job submitted now is kept waiting. -/
  keeps : PermutationJob → Bool := fun _ => false
  waiting : List PermutationJob := []

namespace Compiler

def run (compiler : Compiler) (job : PermutationJob) : PermutationResult :=
  ⟨job.group, job.permutation, compiler.compile job⟩

/-- Takes a job; the results are those available at once. -/
def submit (compiler : Compiler) (job : PermutationJob) : List PermutationResult × Compiler :=
  if compiler.keeps job then ([], { compiler with waiting := compiler.waiting ++ [job] })
  else ([compiler.run job], compiler)

/-- Compiles everything that waits, in order. -/
def releaseAll (compiler : Compiler) : List PermutationResult × Compiler :=
  (compiler.waiting.map compiler.run, { compiler with waiting := [] })

/-- Compiles the waiting job at a position, if there is one. -/
def release? (compiler : Compiler) (position : Nat) : Option (PermutationJob × Compiler) :=
  compiler.waiting[position]?.map fun job =>
    (job, { compiler with waiting := compiler.waiting.eraseIdx position })

end Compiler

end Shading

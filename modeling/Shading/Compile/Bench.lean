/-
A bench for trying out how compiling goes. The compiler on the bench repeats
each request as its code. It can be told to refuse permutations, and to keep
jobs waiting until they are released; jobs for default materials are never
kept, because somebody always waits for those.
-/

import Shading.Compile.Workshop

namespace Shading

structure Bench where
  holding : Bool := false
  /-- The permutations that are refused, and what is said about them. -/
  refusals : Table String String := .empty
deriving Inhabited

namespace Bench

def compile (bench : Bench) (job : PermutationJob) : Except CompileError Binary :=
  match bench.refusals.get? job.permutation.text with
  | some reason => .error ⟨job.permutation.text, reason⟩
  | none => .ok job.echo

def keeps (bench : Bench) (job : PermutationJob) : Bool :=
  bench.holding && !job.name.startsWith "Default"

/-- Puts the compiler of a workshop on the bench. -/
def equip (bench : Bench) (workshop : Workshop) : Workshop :=
  { workshop with
    compiler := { workshop.compiler with compile := bench.compile, keeps := bench.keeps } }

/-- Puts the compiler on the bench for something that cannot wait: nothing is
kept, and whatever is waiting is released. -/
def hurry (bench : Bench) (workshop : Workshop) : Workshop :=
  ({ bench with holding := false }.equip workshop).releaseAll

end Bench

namespace Workshop

/-- Releases everything that waits, or the job at a position. Tells which jobs
those were. -/
def release (workshop : Workshop) (position : Option Nat) : List PermutationJob × Workshop :=
  match position with
  | none => (workshop.compiler.waiting, workshop.releaseAll)
  | some position =>
    match workshop.compiler.release? position with
    | none => ([], workshop)
    | some (job, compiler) => ([job], { workshop with compiler }.arrive [compiler.run job])

end Workshop

end Shading

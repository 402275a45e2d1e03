/-
Scripts drive the parts of the library from documents. A step is an array of
its name and its arguments and has one answer; a step that is not known, or
whose subject is not there, answers null. A script ends with its last step or
with the first fault, which is then the last answer. It ends in the same way
with a step that is refused as it is written.
-/

import Shading.Json.Access
import Shading.Report.Map

namespace Shading.Script

def nameOf (step : Json) : String := (step.item 0).toText

/-- What is said of a list of arguments that is none. -/
def unlisted? (document : Json) : Option String :=
  match document with
  | .array _ | .null => none
  | other => some ("bad input: array expected, got " ++ other.render)

/-- Answers to steps, one after another. -/
def answers {State : Type} (refusal? : State → Json → Option String)
    (perform : State → Json → Except Fault (Json × State)) (state : State) : List Json → List Json
  | [] => []
  | step :: rest =>
    match refusal? state step with
    | some reason => [Report.ended reason]
    | none =>
      match perform state step with
      | .error fault => [Report.fault fault]
      | .ok (answer, state) => answer :: answers refusal? perform state rest

/-- Runs a script of which some steps may be refused. -/
def runStrictly {State : Type} (refusal? : State → Json → Option String)
    (perform : State → Json → Except Fault (Json × State)) (start : State) (steps : List Json) :
    Json :=
  .array (answers refusal? perform start steps)

def run {State : Type} (perform : State → Json → Except Fault (Json × State)) (start : State)
    (steps : List Json) : Json :=
  runStrictly (fun _ _ => none) perform start steps

end Shading.Script

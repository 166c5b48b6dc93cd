import CircuitWitness.Log.Sink
import CircuitWitness.Hint.Function
import CircuitWitness.Text.Blank
import CircuitWitness.Text.Quoted

/-! # Options of a solve

    A solve can be forced past constraints that fail, can be given hint functions
    of its own, and can write its logs to a sink.
-/

namespace CircuitWitness

/-- How to solve. -/
structure SolverOptions where
  /-- Go on past constraints that fail. -/
  force : Bool
  /-- The functions of this solve, besides the registered ones. -/
  hintFunctions : List HintFunction
  /-- Where the logs go, if anywhere. -/
  logger : Option Sink

namespace SolverOptions

/-- Unforced, no functions, and logs written to an unlimited sink. -/
def standard : SolverOptions := ⟨false, [], some .unlimited⟩

instance : Inhabited SolverOptions := ⟨standard⟩

/-- The texts that leave a switch off. -/
def offTexts : List String := ["", "0", "false"]

/-- Whether the content of an environment variable turns a switch on.  A variable
    that is not set, or is no text, does not. -/
def isSwitchOn (content : Option ByteArray) : Bool :=
  match content.bind String.fromUTF8? with
  | none => false
  | some s => !offTexts.contains (String.ofList (Text.trim s.toList))

/-- The standard options, forced if the content of the environment variable for
    it says so. -/
def ofEnvironment (content : Option ByteArray) : SolverOptions :=
  { standard with force := isSwitchOn content }

/-- Forces the solve. -/
def forced (o : SolverOptions) : SolverOptions := { o with force := true }

/-- Adds hint functions. -/
def withHints (o : SolverOptions) (hints : List HintFunction) : SolverOptions :=
  { o with hintFunctions := o.hintFunctions ++ hints }

/-- Sends the logs to a sink. -/
def withOutput (o : SolverOptions) (sink : Sink) : SolverOptions :=
  { o with logger := some sink }

/-- Discards the logs. -/
def withoutOutput (o : SolverOptions) : SolverOptions := { o with logger := none }

/-- The options in one line. -/
def summary (o : SolverOptions) : String :=
  let names := ", ".intercalate (o.hintFunctions.map fun h => Text.quote h.name)
  s!"SolverOptions \x7b force: {o.force}, hint_functions: [{names}], "
    ++ s!"logger: {o.logger.isSome} \x7d"

end SolverOptions

end CircuitWitness

import SpecRecovery.Assembly.Basic
import SpecRecovery.Lifting.Idiom
import SpecRecovery.Verification.Basic

namespace SpecRecovery

structure Recovery where
  specification : Except FailureReport Specification
  events : List Event
  queries : List Query

structure Recovery.Settings where
  idioms : Idioms
  checkExhaustiveness : Bool

def Recovery.Settings.standard : Recovery.Settings := ⟨.all, true⟩

def Recovery.Settings.ofJson? (json : Json) : Option Settings := do
  match ← json.values? [.nullable "idioms", .nullable "check_exhaustiveness"] with
  | [idioms, checkExhaustiveness] =>
      return {
        idioms := ← Idioms.ofJson? idioms
        checkExhaustiveness :=
          ← checkExhaustiveness.orDefault standard.checkExhaustiveness Json.boolean? }
  | _ => none

namespace Exploration

def allEvents (explorations : List Exploration) : List Event := explorations.flatMap events

def allQueries (explorations : List Exploration) : List Query := explorations.map Exploration.query

end Exploration

namespace Contract

-- Summarizes, assembles, enriches and verifies. Failures to summarize show when the assembly is put
-- together, and failures to assemble end the recovery.
def recover (explorer : Explorer) (solver : Solver) (settings : Recovery.Settings)
    (contract : Contract) : Except AbsentStore Recovery := do
  let explorations := contract.explorations explorer
  let summary := contract.summarize explorer
  let assembly ← summary.assemble settings.idioms
  let events := Exploration.allEvents explorations ++ assembly.events
  match assembly.specification with
  | .error report => return ⟨.error report, events, Exploration.allQueries explorations⟩
  | .ok assembled =>
      let enriched := assembled.enrich
      let verification :=
        enriched.verify explorer solver settings.checkExhaustiveness contract summary
      return {
        specification := verification.outcome.map fun _ => enriched
        events := events ++ assembled.enrichmentEvents ++ verification.events
        queries := Exploration.allQueries (explorations ++ verification.explorations) }

end Contract

end SpecRecovery

import SpecRecovery.Json.Values
import SpecRecovery.Machine.ProgramCodec
import SpecRecovery.Verification.Basic
import SpecRecovery.Verification.Outcome

namespace SpecRecovery

namespace Outcome

def toJson (outcome : Outcome) : Json :=
  .object [("returned", .ofBytes outcome.returned), ("storage", slotsToJson outcome.storage)]

def ofJson? (json : Json) : Option Outcome := do
  match ← json.values? [.required "returned", .required "storage"] with
  | [returned, storage] => return ⟨← returned.bytes?, ← slotsOfJson? storage⟩
  | _ => none

end Outcome

namespace Counterexample

def toJson (counterexample : Counterexample) : Json :=
  .object [("assignment", counterexample.assignment.toJson),
    ("expected", .ofOption Outcome.toJson counterexample.expected),
    ("actual", .ofOption Outcome.toJson counterexample.actual),
    ("sample", .count counterexample.sample), ("text", .string counterexample.text)]

def ofJson? (json : Json) : Option Counterexample := do
  match ← json.values?
      [.required "assignment", .nullable "expected", .nullable "actual", .required "sample"] with
  | [assignment, expected, actual, sample] =>
      return {
        assignment := ← Assignment.ofJson? assignment
        expected := ← expected.option? Outcome.ofJson?
        actual := ← actual.option? Outcome.ofJson?
        sample := ← sample.count? }
  | _ => none

end Counterexample

def Coverage.toJson (coverage : Coverage) : Json :=
  .object [("covered", .boolean (coverage == .covered)),
    ("missing", .ofList Selector.toJson coverage.selectors)]

def VerificationReport.toJson (report : VerificationReport) : Json :=
  .object [("checked", .ofList EntryPoint.toJson report.checked),
    ("coverage", .ofOption Coverage.toJson report.coverage)]

end SpecRecovery

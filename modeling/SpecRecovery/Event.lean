import SpecRecovery.Contract

namespace SpecRecovery

inductive Event
  | explorationStarted (entry : EntryPoint)
  | explorationFinished (entry : EntryPoint) (states unfinished : Nat)
  | entryAssembled (entry : EntryPoint) (behaviours : Nat)
  | entryRejected (entry : EntryPoint) (reason : String)
  | preconditionsEnriched (entry : EntryPoint) (added : Nat)
  | equivalenceChecked (entry : EntryPoint) (equivalent : Bool)
  | exhaustivenessChecked (missing : Nat)
deriving DecidableEq

inductive Level
  | debug
  | info
  | warn
deriving DecidableEq

inductive Detail
  | entry (value : EntryPoint)
  | reason (text : String)
  | states (count : Nat)
  | unfinished (count : Nat)
  | behaviours (count : Nat)
  | added (count : Nat)
  | missing (count : Nat)
deriving DecidableEq

structure LogLine where
  level : Level
  message : String
  details : List Detail
deriving DecidableEq

-- How an event is logged. Rejections and failed checks are warnings, and a check that passes needs
-- no details but its entry point.
def Event.logLine : Event → LogLine
  | explorationStarted entry => ⟨.debug, "exploration started", [.entry entry]⟩
  | explorationFinished entry states unfinished =>
      ⟨.info, "exploration finished", [.entry entry, .states states, .unfinished unfinished]⟩
  | entryAssembled entry behaviours =>
      ⟨.info, "entry assembled", [.entry entry, .behaviours behaviours]⟩
  | entryRejected entry reason => ⟨.warn, "entry rejected", [.entry entry, .reason reason]⟩
  | preconditionsEnriched entry added =>
      ⟨.info, "preconditions enriched", [.entry entry, .added added]⟩
  | equivalenceChecked entry true => ⟨.info, "equivalence checked", [.entry entry]⟩
  | equivalenceChecked entry false => ⟨.warn, "counterexample found", [.entry entry]⟩
  | exhaustivenessChecked 0 => ⟨.info, "exhaustiveness checked", []⟩
  | exhaustivenessChecked missing => ⟨.warn, "selectors are not covered", [.missing missing]⟩

namespace Event

def members : Event → List (String × Json)
  | explorationStarted entry => [("event", .string "ExplorationStarted"), ("entry", entry.toJson)]
  | explorationFinished entry states unfinished =>
      [("event", .string "ExplorationFinished"), ("entry", entry.toJson),
        ("states", .count states), ("partial", .count unfinished)]
  | entryAssembled entry behaviours =>
      [("event", .string "EntryAssembled"), ("entry", entry.toJson),
        ("behaviours", .count behaviours)]
  | entryRejected entry reason =>
      [("event", .string "EntryRejected"), ("entry", entry.toJson), ("reason", .string reason)]
  | preconditionsEnriched entry added =>
      [("event", .string "PreconditionsEnriched"), ("entry", entry.toJson),
        ("added", .count added)]
  | equivalenceChecked entry equivalent =>
      [("event", .string "EquivalenceChecked"), ("entry", entry.toJson),
        ("equivalent", .boolean equivalent)]
  | exhaustivenessChecked missing =>
      [("event", .string "ExhaustivenessChecked"), ("missing", .count missing)]

def toJson (event : Event) : Json := .object event.members

def ofJson? (json : Json) : Option Event := do
  let members ← json.object?
  let member (name : String) : Option Json :=
    (members.find? fun member => member.1 == name).map Prod.snd
  let entry : Option EntryPoint := do EntryPoint.ofJson? (← member "entry")
  let count (name : String) : Option Nat := do (← member name).count?
  match ← (← member "event").string? with
  | "ExplorationStarted" => return explorationStarted (← entry)
  | "ExplorationFinished" =>
      return explorationFinished (← entry) (← count "states") (← count "partial")
  | "EntryAssembled" => return entryAssembled (← entry) (← count "behaviours")
  | "EntryRejected" => return entryRejected (← entry) (← (← member "reason").string?)
  | "PreconditionsEnriched" => return preconditionsEnriched (← entry) (← count "added")
  | "EquivalenceChecked" =>
      return equivalenceChecked (← entry) (← (← member "equivalent").boolean?)
  | "ExhaustivenessChecked" => return exhaustivenessChecked (← count "missing")
  | _ => none

end Event

def Level.name : Level → String
  | debug => "DEBUG"
  | info => "INFO"
  | warn => "WARN"

def Detail.member : Detail → String × Json
  | entry value => ("entry", .string value.text)
  | reason text => ("reason", .string text)
  | states count => ("states", .count count)
  | unfinished count => ("partial", .count count)
  | behaviours count => ("behaviours", .count count)
  | added count => ("added", .count count)
  | missing count => ("missing", .count count)

def LogLine.toJson (line : LogLine) : Json :=
  .object [("level", .string line.level.name),
    ("fields", .object (("message", .string line.message) :: line.details.map Detail.member))]

end SpecRecovery

/-
The repair of a violation together with what it brings about.

A round copies the neighbourhood of the pending violations, repairs them in the copy, checks the copy again and writes
it back. Pending afterwards is what was pending before and is still there, and what the round has brought about; a
violation that was there before the round and is not pending is left to its own repair. Rounds follow each other until
nothing is pending or the limit is reached.
-/
import RoadRules.Run.Config
import RoadRules.Run.Result
import RoadRules.Rule.Verify

namespace RoadRules

namespace Violations

def contains (v : Violations) (x : Violation) : Bool := ((v.at? x.rule).getD []).contains x.location

/-- the violations with a property; rules left without a location are dropped -/
def filter (v : Violations) (p : Violation → Bool) : Violations :=
  ⟨(v.entries.map fun e => (e.1, e.2.filter fun l => p ⟨e.1, l⟩)).filter fun e => !e.2.isEmpty⟩

def single (v : Violation) : Violations := ⟨[(v.rule, [v.location])]⟩

/-- all ids that occur in the locations -/
def ids (v : Violations) : IdSet := .ofList (v.toList.flatMap (·.location))

end Violations

namespace Plan

/-- a copy of the neighbourhood of some ids -/
def vicinity (p : Plan) (n : Network) (ids : List ElementId) : Network := n.extract (n.aroundAll p.config.radius ids)

/-- the violation, if the neighbourhood of its ids still shows it -/
def stillPresent (p : Plan) (n : Network) (v : Violation) : Violations :=
  if (p.catalog.verify (p.vicinity n v.location) [v.rule]).contains v then .single v else .empty

/-- what is pending after a round -/
def owned (after pending before : Violations) : Violations :=
  after.filter fun v => pending.contains v || !before.contains v

/-- one round: the network afterwards, and what is pending then -/
def round (p : Plan) (m : RoadMap) (pending : Violations) : RoadMap × Violations :=
  let scope := m.network.aroundAll p.config.radius pending.ids.toList
  let copy := m.network.extract scope
  let before := p.catalog.verify copy p.rules
  let (repaired, _) := RoadMap.repairAll ⟨copy, m.ids⟩ pending
  let after := p.catalog.verify repaired.network p.rules
  (RoadMap.merge ⟨m.network, repaired.ids⟩ scope repaired.network, owned after pending before)

/-- a network, what is pending in it, and how many rounds were spent -/
structure Progress where
  map : RoadMap
  pending : Violations
  iterations : Nat

/-- rounds until nothing is pending, but no more than `limit` -/
def rounds (p : Plan) : (limit : Nat) → Progress → Progress
  | 0, s => s
  | limit + 1, s =>
    if s.pending.isEmpty then s
    else
      let (map, pending) := p.round s.map s.pending
      rounds p limit ⟨map, pending, s.iterations + 1⟩

/-- all rounds that a violation takes -/
def closure (p : Plan) (m : RoadMap) (v : Violation) : Progress :=
  p.rounds p.config.maxIterations ⟨m, p.stillPresent m.network v, 0⟩

/-- a network on the way, and what has been noted so far -/
structure Course where
  map : RoadMap
  result : RunResult

/-- the repair of one violation, noted in the result: one check to see if it is still there, and two in each round -/
def repairOne (p : Plan) (c : Course) (v : Violation) : Course :=
  let s := p.closure c.map v
  let result := (c.result.addRuns (1 + 2 * s.iterations) s.iterations).recordResidual s.pending
  ⟨s.map, { result with chains := result.chains ++ [⟨v.rule, v.location, s.iterations, s.pending.isEmpty⟩] }⟩

/-- the repairs of some violations, one after the other -/
def repairAll (p : Plan) (c : Course) (found : Violations) : Course := found.toList.foldl p.repairOne c

end Plan

end RoadRules

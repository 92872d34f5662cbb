/-
Repairs of what signs, lights and intersections consist of.
-/
import RoadRules.Repair.Edit

namespace RoadRules

/-! ## Signs -/

namespace TrafficSign

/-- a sign without plates goes -/
def fixEmpty (s : TrafficSign) : Fix TrafficSign := if s.plates.isEmpty then .remove else .keep

/-- plates go that need a value and have none -/
def fixMissingValues (s : TrafficSign) : Fix TrafficSign :=
  let complete (p : SignPlate) := !needsValue p.code || !p.values.isEmpty
  if s.plates.all complete then .keep else .change { s with plates := s.plates.filter complete }

/-- speed limits that are not above zero go, and with them the plates that are left without one -/
def fixSpeedValues (s : TrafficSign) : Fix TrafficSign :=
  let isPositive (v : Float) : Bool := 0.0 < v
  let isValid (p : SignPlate) := !isSpeedLimitCode p.code || (!p.values.isEmpty && p.values.all isPositive)
  if s.plates.all isValid then .keep
  else
    let plates := s.plates.map fun p =>
      if isSpeedLimitCode p.code then { p with values := p.values.filter isPositive } else p
    .change { s with plates := plates.filter fun p => !isSpeedLimitCode p.code || !p.values.isEmpty }

end TrafficSign

/-! ## Lights -/

/-- the cycle that a light without one gets -/
def defaultCycle : List CycleStep := [⟨.red, 30⟩, ⟨.redYellow, 3⟩, ⟨.green, 30⟩, ⟨.yellow, 3⟩]

namespace TrafficLight

def fixEmpty (t : TrafficLight) : Fix TrafficLight :=
  if t.cycle.isEmpty then .change { t with cycle := defaultCycle } else .keep

/-- phases that last no time go -/
def fixDurations (t : TrafficLight) : Fix TrafficLight :=
  let lasts (c : CycleStep) : Bool := 0 < c.duration
  if t.cycle.all lasts then .keep else .change { t with cycle := t.cycle.filter lasts }

/-- a cycle without the steps whose phase has come before -/
def firstOfEachPhase (cycle : List CycleStep) : List CycleStep :=
  cycle.foldl (fun kept c => if kept.any (·.phase == c.phase) then kept else kept ++ [c]) []

/-- of the steps with one phase only the first stays -/
def fixRepeatedPhases (t : TrafficLight) : Fix TrafficLight :=
  let cycle := firstOfEachPhase t.cycle
  if cycle.length = t.cycle.length then .keep else .change { t with cycle }

end TrafficLight

/-! ## Networks -/

namespace Network

def removeEmptySigns (n : Network) (id : ElementId) : Edited := n.fixTrafficSigns id (·.fixEmpty)

def dropPlatesWithoutValues (n : Network) (id : ElementId) : Edited := n.fixTrafficSigns id (·.fixMissingValues)

def dropSpeedValues (n : Network) (id : ElementId) : Edited := n.fixTrafficSigns id (·.fixSpeedValues)

def installCycle (n : Network) (id : ElementId) : Edited := n.fixTrafficLights id (·.fixEmpty)

def dropZeroDurations (n : Network) (id : ElementId) : Edited := n.fixTrafficLights id (·.fixDurations)

def dropRepeatedPhases (n : Network) (id : ElementId) : Edited := n.fixTrafficLights id (·.fixRepeatedPhases)

/-- intersections with less than two incoming groups go -/
def removeUnderfull (n : Network) (id : ElementId) : Edited :=
  n.fixIntersections id fun _ i => if i.incomings.length < 2 then .remove else .keep

end Network

end RoadRules

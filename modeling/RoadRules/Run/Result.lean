/-
What a run has found and done.
-/
import RoadRules.Repair.Rule

namespace RoadRules

/-- the repair of one violation and of what came of it -/
structure RepairChain where
  rule : RuleId
  location : Location
  /-- rounds spent; none if the violation was gone before its turn came -/
  iterations : Nat
  success : Bool
  deriving DecidableEq, Repr

/-- `r` occurs `k` times more -/
def Tally.add (t : Tally) (r : RuleId) (k : Nat) : Tally :=
  RuleId.values.filterMap fun q =>
    if q = r then some (q, (t.lookup q).getD 0 + k) else (t.lookup q).map fun old => (q, old)

def Tally.total (t : Tally) : Nat := t.foldl (fun total e => total + e.2) 0

structure RunResult where
  rules : List RuleId
  /-- time spent on checks, in nanoseconds, as far as it was measured -/
  verificationTime : Nat := 0
  repairTime : Nat := 0
  /-- how many checks were made, of the network or a part of it -/
  verificationRuns : Nat := 0
  repairRuns : Nat := 0
  initialCounts : Tally := []
  initial : List Violation := []
  /-- violations that were still there when their repair was given up -/
  residual : List Violation := []
  chains : List RepairChain := []
  repairingPossible : Bool := true
  partitioned : Bool := false
  blockCount : Nat := 0
  deriving DecidableEq

namespace RunResult

/-- a list with the items of another one that it does not hold yet -/
def addNew {α : Type} [BEq α] (known added : List α) : List α :=
  added.foldl (fun l x => if l.contains x then l else l ++ [x]) known

/-- some checks and repairs more -/
def addRuns (r : RunResult) (verifications repairs : Nat) : RunResult :=
  { r with verificationRuns := r.verificationRuns + verifications, repairRuns := r.repairRuns + repairs }

def recordInitial (r : RunResult) (found : Violations) : RunResult :=
  { r with
    initialCounts := found.entries.foldl (fun t e => t.add e.1 e.2.length) r.initialCounts
    initial := r.initial ++ found.toList }

/-- violations that remain mark the run as failed -/
def recordResidual (r : RunResult) (found : Violations) : RunResult :=
  if found.isEmpty then r
  else { r with repairingPossible := false, residual := addNew r.residual found.toList }

/-- the result of another run taken into this one; violations that both have found count once -/
def absorb (r other : RunResult) : RunResult :=
  let initial := addNew r.initial other.initial
  let news := initial.drop r.initial.length
  { r with
    verificationTime := r.verificationTime + other.verificationTime
    repairTime := r.repairTime + other.repairTime
    verificationRuns := r.verificationRuns + other.verificationRuns
    repairRuns := r.repairRuns + other.repairRuns
    initialCounts := news.foldl (fun t v => t.add v.rule 1) r.initialCounts
    initial
    residual := addNew r.residual other.residual
    chains := r.chains ++ other.chains
    repairingPossible := r.repairingPossible && other.repairingPossible }

def initialCount (r : RunResult) : Nat := r.initialCounts.total

/-- was nothing found? -/
def isValid (r : RunResult) : Bool := r.initial.isEmpty

def repairedCount (r : RunResult) : Nat := (r.chains.filter (·.success)).length

end RunResult

end RoadRules

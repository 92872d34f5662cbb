/-
Rules grouped by topic, to be checked group by group.
-/
import RoadRules.Rule.RuleId

namespace RoadRules

/-- rules with one topic, in catalog order -/
structure RuleGroup where
  topic : Topic
  rules : List RuleId
  deriving DecidableEq

/-- the groups of some rules; topics without a rule are left out -/
def RuleGroup.ofRules (rules : List RuleId) : List RuleGroup :=
  (Topic.values.map fun t => (⟨t, RuleId.values.filter fun r => r.topic == t && rules.contains r⟩ : RuleGroup)).filter
    fun g => !g.rules.isEmpty

/-- a walk through the groups that can start again -/
structure Schedule where
  groups : List RuleGroup
  cursor : Nat

namespace Schedule

def ofRules (rules : List RuleId) : Schedule := ⟨RuleGroup.ofRules rules, 0⟩

def hasNext (s : Schedule) : Bool := s.cursor < s.groups.length

/-- the group at the cursor, and the walk behind it -/
def next (s : Schedule) : Option RuleGroup × Schedule :=
  match s.groups[s.cursor]? with
  | some g => (some g, { s with cursor := s.cursor + 1 })
  | none => (none, s)

def reset (s : Schedule) : Schedule := { s with cursor := 0 }

end Schedule

end RoadRules

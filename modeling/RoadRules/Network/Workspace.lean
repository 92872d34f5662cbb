/-
Networks under names, of which several may draw ids from one counter.

A part that is extracted from a network goes on with the counter of that network, so that an id drawn in one of them
is never drawn in the other. A full copy gets a counter of its own.
-/
import RoadRules.Network.Scope

namespace RoadRules

/-- a named network; `counter` is the position of its counter -/
structure Workspace.Entry where
  name : String
  network : Network
  counter : Nat

structure Workspace where
  counters : List IdAllocator
  entries : List Workspace.Entry

namespace Workspace

/-- one network, with its counter -/
def single (name : String) (m : RoadMap) : Workspace := ⟨[m.ids], [⟨name, m.network, 0⟩]⟩

def entry? (w : Workspace) (name : String) : Option Entry := w.entries.find? (·.name == name)

/-- a named network together with its counter -/
def map? (w : Workspace) (name : String) : Option RoadMap := do
  let e ← w.entry? name
  let ids ← w.counters[e.counter]?
  return ⟨e.network, ids⟩

def close (w : Workspace) (name : String) : Workspace := { w with entries := w.entries.filter (·.name != name) }

/-- a network under a name, in place of one with that name -/
def save (w : Workspace) (name : String) (n : Network) (counter : Nat) : Workspace :=
  { w with entries := ⟨name, n, counter⟩ :: (w.close name).entries }

/-- writes back a network and its counter; unknown names change nothing -/
def update (w : Workspace) (name : String) (m : RoadMap) : Workspace :=
  match w.entry? name with
  | none => w
  | some e => { w.save name m.network e.counter with counters := w.counters.set e.counter m.ids }

/-- a part of one network under another name, with the same counter -/
def extract (w : Workspace) (source : String) (scope : Scope) (name : String) : Workspace :=
  match w.entry? source with
  | none => w
  | some e => w.save name (e.network.extract scope) e.counter

/-- a copy of one network under another name, with a counter that goes on from the same watermark -/
def copy (w : Workspace) (source name : String) : Workspace :=
  match w.map? source with
  | none => w
  | some m => { w.save name m.network w.counters.length with counters := w.counters ++ [m.ids] }

end Workspace

end RoadRules

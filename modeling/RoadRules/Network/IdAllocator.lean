/-
The counter that fresh ids are drawn from. An id that was observed or drawn is never drawn again; at the top of the id
range the counter stops.
-/
import RoadRules.Network.Element

namespace RoadRules

/-- one more than the largest id -/
def idLimit : Nat := UInt32.size

/-- all ids from `watermark` on are free to be drawn -/
structure IdAllocator where
  watermark : Nat
  watermark_le : watermark ≤ idLimit
  deriving DecidableEq

namespace IdAllocator

def start : IdAllocator := ⟨0, Nat.zero_le _⟩

instance : Inhabited IdAllocator := ⟨start⟩

def observe (a : IdAllocator) (id : ElementId) : IdAllocator :=
  ⟨max a.watermark (id.toNat + 1), Nat.max_le.2 ⟨a.watermark_le, id.toNat_lt⟩⟩

def observeAll (a : IdAllocator) (ids : List ElementId) : IdAllocator := ids.foldl observe a

/-- the next free id, unless all are used up -/
def draw? (a : IdAllocator) : Option (ElementId × IdAllocator) :=
  if h : a.watermark < idLimit then some (UInt32.ofNat a.watermark, ⟨a.watermark + 1, h⟩) else none

end IdAllocator

end RoadRules

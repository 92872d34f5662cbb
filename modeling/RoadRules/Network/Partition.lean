/-
Cutting a network into blocks of connected lanelets.

Blocks are sets of ids. From the smallest lanelet id that is still free a block grows breadth first along the links,
in either direction, until it is full. Lanelet ids without a link to another one present go to the catch-all. Signs
and lights join the first block with a lanelet that refers to them, an intersection joins the block of the first of
its incoming lanelets that has one, and everything else goes to the catch-all too.
-/
import RoadRules.Network.Scope

namespace RoadRules

/-- ids of elements that are treated together -/
structure Block where
  lanelets : IdSet := ∅
  trafficSigns : IdSet := ∅
  trafficLights : IdSet := ∅
  intersections : IdSet := ∅
  deriving DecidableEq

namespace Block

def ofKind (b : Block) : Kind → IdSet
  | .lanelet => b.lanelets
  | .trafficSign => b.trafficSigns
  | .trafficLight => b.trafficLights
  | .intersection => b.intersections

def size (b : Block) : Nat := Kind.values.foldl (fun total k => total + (b.ofKind k).size) 0

def isEmpty (b : Block) : Bool := b.size == 0

end Block

structure Partition where
  blocks : List Block
  catchAll : Block
  deriving DecidableEq

namespace Partition

/-- the blocks, and the catch-all behind them if there is anything in it -/
def parts (p : Partition) : List Block := p.blocks ++ if p.catchAll.isEmpty then [] else [p.catchAll]

def size (p : Partition) : Nat := p.parts.length

/-- the position of the block that holds a lanelet id -/
def blockOf? (p : Partition) (id : ElementId) : Option Nat := p.blocks.findIdx? (·.lanelets.contains id)

/-- ids at both ends of the links that lead from one block to another, or to the catch-all -/
def boundary (p : Partition) (n : Network) : IdSet :=
  let present : IdSet := .ofList (n.ids .lanelet)
  .ofList (n.lanelets.values.flatMap fun l =>
    (l.linkedLanelets.filter fun id => present.contains id && p.blockOf? id != p.blockOf? l.id).flatMap fun id =>
      [l.id, id])

/-! ## Blocks of lanelets -/

/-- grows a block from the ids in the queue: takes the first free one until the block has `room` more of them, and
queues the free neighbours of each -/
def grow (neighbours : ElementId → List ElementId) :
    (room : Nat) → (queue : List ElementId) → (free block : IdSet) → IdSet × IdSet
  | 0, _, free, block => (block, free)
  | room + 1, queue, free, block =>
    match queue.dropWhile fun id => !free.contains id with
    | [] => (block, free)
    | id :: queue =>
      let free := free.erase id
      grow neighbours room (queue ++ (neighbours id).filter free.contains) free (block.insert id)

/-- blocks grown from the given ids one after the other, and the ids without neighbours -/
def split (neighbours : ElementId → List ElementId) (size : Nat) :
    (starts : List ElementId) → (free : IdSet) → List IdSet × List ElementId
  | [], _ => ([], [])
  | start :: rest, free =>
    if !free.contains start then split neighbours size rest free
    else if (neighbours start).isEmpty then
      let (blocks, lone) := split neighbours size rest (free.erase start)
      (blocks, start :: lone)
    else
      let (block, free) := grow neighbours size [start] free ∅
      let (blocks, lone) := split neighbours size rest free
      (block :: blocks, lone)

end Partition

namespace Network

/-- ids of the other lanelets present that are linked to an id, in either direction -/
def linkedIds (n : Network) (id : ElementId) : List ElementId :=
  let ends := n.lanelets.values.flatMap fun l =>
    if l.id = id then l.linkedLanelets else if l.linkedLanelets.contains id then [l.id] else []
  ((SortedSet.ofList (n.ids .lanelet)).inter (.ofList ends)).erase id |>.toList

/-- the position of the first group with a lanelet that has the property -/
def home? (n : Network) (groups : List IdSet) (p : Lanelet → Bool) : Option Nat :=
  groups.findIdx? fun g => n.lanelets.values.any fun l => g.contains l.id && p l

def signHome? (n : Network) (groups : List IdSet) (id : ElementId) : Option Nat :=
  n.home? groups (·.trafficSignRefs.contains id)

def lightHome? (n : Network) (groups : List IdSet) (id : ElementId) : Option Nat :=
  n.home? groups (·.trafficLightRefs.contains id)

end Network

/-- the position of the group of the first incoming lanelet that is in one -/
def Intersection.home? (groups : List IdSet) (i : Intersection) : Option Nat :=
  (i.incomings.flatMap (·.lanelets.toList)).findSome? fun id => groups.findIdx? (·.contains id)

namespace Network

/-- a block of lanelets with everything else that belongs to its position; the catch-all has none -/
def blockAt (n : Network) (groups : List IdSet) (lanelets : IdSet) (home : Option Nat) : Block where
  lanelets
  trafficSigns := .ofList ((n.ids .trafficSign).filter fun id => n.signHome? groups id == home)
  trafficLights := .ofList ((n.ids .trafficLight).filter fun id => n.lightHome? groups id == home)
  intersections := .ofList ((n.intersections.values.filter fun i => i.home? groups == home).map (·.id))

/-- groups of linked lanelets, with at most `size` ids each, but at least one, and the lanelet ids without a link -/
def groups (n : Network) (size : Nat) : List IdSet × List ElementId :=
  let present : IdSet := .ofList (n.ids .lanelet)
  Partition.split n.linkedIds (max size 1) present.toList present

/-- the blocks of a network, grown from groups of lanelets -/
def partition (n : Network) (size : Nat) : Partition :=
  let (groups, lone) := n.groups size
  { blocks := groups.zipIdx.map fun (lanelets, position) => n.blockAt groups lanelets (some position)
    catchAll := n.blockAt groups (.ofList lone) none }

/-- the elements whose ids are in a block -/
def blockScope (n : Network) (b : Block) : Scope :=
  let keys (kind : Kind) : SortedSet Nat := .ofList ((b.ofKind kind).toList.flatMap (n.keysWithId kind))
  ⟨keys .lanelet, keys .trafficSign, keys .trafficLight, keys .intersection⟩

end Network

end RoadRules

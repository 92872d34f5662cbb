/-
The document form of a network: its elements as four lists, and these as JSON.
-/
import RoadRules.Network.Basic
import RoadRules.Json.Decoder

namespace RoadRules

/-- the elements of a network, without keys -/
structure Document where
  lanelets : List Lanelet := []
  trafficSigns : List TrafficSign := []
  trafficLights : List TrafficLight := []
  intersections : List Intersection := []

namespace Document

/-- all elements, in the order in which they get their keys -/
def elements (d : Document) : List Element :=
  d.lanelets.map .lanelet ++ d.trafficSigns.map .trafficSign ++ d.trafficLights.map .trafficLight ++
    d.intersections.map .intersection

end Document

/-- a network with the document's elements, under keys from zero on -/
def RoadMap.ofDocument (d : Document) : RoadMap := d.elements.foldl RoadMap.add .empty

def Network.toDocument (n : Network) : Document :=
  ⟨n.lanelets.values, n.trafficSigns.values, n.trafficLights.values, n.intersections.values⟩

/-! ## Decoding -/

namespace Document

open Json.Decoder

variable {φ : Type}

def point : Json.Decoder φ Point :=
  record [required "x" float fun v p => { p with x := v }, required "y" float fun v p => { p with y := v }] ⟨0.0, 0.0⟩

def idSet : Json.Decoder φ IdSet := fun t => (list uint32 t).map SortedSet.ofList

def adjacency : Json.Decoder φ Adjacency :=
  record
    [required "id" uint32 fun v a => { a with id := v },
      required "same_direction" bool fun v a => { a with sameDirection := v }]
    ⟨0, false⟩

def stopLine : Json.Decoder φ StopLine :=
  record
    [required "start" point fun v s => { s with start := v },
      required "end" point fun v s => { s with stop := v },
      optional "traffic_sign_refs" idSet fun v s => { s with trafficSigns := v },
      optional "traffic_light_refs" idSet fun v s => { s with trafficLights := v }]
    ⟨⟨0.0, 0.0⟩, ⟨0.0, 0.0⟩, ∅, ∅⟩

def lanelet : Json.Decoder φ Lanelet :=
  record
    [required "id" uint32 fun v l => { l with id := v },
      optional "left_vertices" (list point) fun v l => { l with left := v },
      optional "right_vertices" (list point) fun v l => { l with right := v },
      optional "center_vertices" (list point) fun v l => { l with center := v },
      optional "predecessors" idSet fun v l => { l with predecessors := v },
      optional "successors" idSet fun v l => { l with successors := v },
      optional "adjacent_left" (option adjacency) fun v l => { l with adjacentLeft := v },
      optional "adjacent_right" (option adjacency) fun v l => { l with adjacentRight := v },
      optional "stop_line" (option stopLine) fun v l => { l with stopLine := v },
      optional "traffic_signs" idSet fun v l => { l with trafficSigns := v },
      optional "traffic_lights" idSet fun v l => { l with trafficLights := v },
      optional "lanelet_types" (fun t => (list str t).map SortedSet.ofList) fun v l => { l with types := v }]
    { id := 0 }

def signPlate : Json.Decoder φ SignPlate :=
  record
    [required "code" str fun v p => { p with code := v },
      optional "additional_values" (list float) fun v p => { p with values := v }]
    ⟨"", []⟩

def trafficSign : Json.Decoder φ TrafficSign :=
  record
    [required "id" uint32 fun v s => { s with id := v },
      optional "elements" (list signPlate) fun v s => { s with plates := v },
      optional "position" (option point) fun v s => { s with position := v },
      optional "virtual" bool fun v s => { s with isVirtual := v }]
    { id := 0 }

def cycleStep : Json.Decoder φ CycleStep :=
  record
    [required "phase" (word Phase.ofName?) fun v c => { c with phase := v },
      required "duration" uint32 fun v c => { c with duration := v }]
    ⟨.inactive, 0⟩

def trafficLight : Json.Decoder φ TrafficLight :=
  record
    [required "id" uint32 fun v t => { t with id := v },
      optional "cycle" (list cycleStep) fun v t => { t with cycle := v },
      optional "position" (option point) fun v t => { t with position := v }]
    { id := 0 }

def incomingGroup : Json.Decoder φ IncomingGroup :=
  record
    [optional "incoming_lanelets" idSet fun v g => { g with lanelets := v },
      optional "successors_left" idSet fun v g => { g with left := v },
      optional "successors_right" idSet fun v g => { g with right := v },
      optional "successors_straight" idSet fun v g => { g with straight := v }]
    {}

def intersection : Json.Decoder φ Intersection :=
  record
    [required "id" uint32 fun v i => { i with id := v },
      optional "incomings" (list incomingGroup) fun v i => { i with incomings := v },
      optional "crossings" idSet fun v i => { i with crossings := v }]
    { id := 0 }

def decoder : Json.Decoder φ Document :=
  record
    [optional "lanelets" (list lanelet) fun v d => { d with lanelets := v },
      optional "traffic_signs" (list trafficSign) fun v d => { d with trafficSigns := v },
      optional "traffic_lights" (list trafficLight) fun v d => { d with trafficLights := v },
      optional "intersections" (list intersection) fun v d => { d with intersections := v }]
    {}

/-- an element of the given kind -/
def element (kind : Kind) : Json.Decoder φ Element := fun t =>
  match kind with
  | .lanelet => (lanelet t).map .lanelet
  | .trafficSign => (trafficSign t).map .trafficSign
  | .trafficLight => (trafficLight t).map .trafficLight
  | .intersection => (intersection t).map .intersection

end Document

open Json.Decoder in
def ExternalIds.decoder {φ : Type} : Json.Decoder φ ExternalIds :=
  record
    [optional "lanelets" Document.idSet fun v e => { e with lanelets := v },
      optional "traffic_signs" Document.idSet fun v e => { e with trafficSigns := v },
      optional "traffic_lights" Document.idSet fun v e => { e with trafficLights := v },
      optional "intersections" Document.idSet fun v e => { e with intersections := v }]
    {}

/-! ## Encoding -/

def Vec2.toJson (p : Point) : Json := .object [("x", .ofFloat p.x), ("y", .ofFloat p.y)]

namespace Document

def pointsJson (ps : List Point) : Json := .list (ps.map Vec2.toJson)

def idsJson (ids : IdSet) : Json := .list (ids.toList.map fun id => .nat id.toNat)

def optionJson {α : Type} (f : α → Json) : Option α → Json
  | none => .null
  | some x => f x

end Document

open Document

def Adjacency.toJson (a : Adjacency) : Json :=
  .object [("id", .nat a.id.toNat), ("same_direction", .bool a.sameDirection)]

def StopLine.toJson (s : StopLine) : Json := .object
  [("start", s.start.toJson), ("end", s.stop.toJson), ("traffic_sign_refs", idsJson s.trafficSigns),
    ("traffic_light_refs", idsJson s.trafficLights)]

def Lanelet.toJson (l : Lanelet) : Json := .object
  [("id", .nat l.id.toNat),
    ("left_vertices", pointsJson l.left),
    ("right_vertices", pointsJson l.right),
    ("center_vertices", pointsJson l.center),
    ("predecessors", idsJson l.predecessors),
    ("successors", idsJson l.successors),
    ("adjacent_left", optionJson Adjacency.toJson l.adjacentLeft),
    ("adjacent_right", optionJson Adjacency.toJson l.adjacentRight),
    ("stop_line", optionJson StopLine.toJson l.stopLine),
    ("traffic_signs", idsJson l.trafficSigns),
    ("traffic_lights", idsJson l.trafficLights),
    ("lanelet_types", .list (l.types.toList.map .str))]

def SignPlate.toJson (p : SignPlate) : Json := .object
  [("code", .str p.code), ("additional_values", .list (p.values.map .ofFloat))]

def TrafficSign.toJson (s : TrafficSign) : Json := .object
  [("id", .nat s.id.toNat), ("elements", .list (s.plates.map SignPlate.toJson)),
    ("position", optionJson Vec2.toJson s.position), ("virtual", .bool s.isVirtual)]

def CycleStep.toJson (c : CycleStep) : Json := .object
  [("phase", .str c.phase.name), ("duration", .nat c.duration.toNat)]

def TrafficLight.toJson (t : TrafficLight) : Json := .object
  [("id", .nat t.id.toNat), ("cycle", .list (t.cycle.map CycleStep.toJson)),
    ("position", optionJson Vec2.toJson t.position)]

def IncomingGroup.toJson (g : IncomingGroup) : Json := .object
  [("incoming_lanelets", idsJson g.lanelets), ("successors_left", idsJson g.left),
    ("successors_right", idsJson g.right), ("successors_straight", idsJson g.straight)]

def Intersection.toJson (i : Intersection) : Json := .object
  [("id", .nat i.id.toNat), ("incomings", .list (i.incomings.map IncomingGroup.toJson)),
    ("crossings", idsJson i.crossings)]

def ExternalIds.toJson (e : ExternalIds) : Json := .object
  [("lanelets", idsJson e.lanelets), ("traffic_signs", idsJson e.trafficSigns),
    ("traffic_lights", idsJson e.trafficLights), ("intersections", idsJson e.intersections)]

def Element.toJson : Element → Json
  | .lanelet l => l.toJson
  | .trafficSign s => s.toJson
  | .trafficLight t => t.toJson
  | .intersection i => i.toJson

def Document.toJson (d : Document) : Json := .object
  [("lanelets", .list (d.lanelets.map Lanelet.toJson)),
    ("traffic_signs", .list (d.trafficSigns.map TrafficSign.toJson)),
    ("traffic_lights", .list (d.trafficLights.map TrafficLight.toJson)),
    ("intersections", .list (d.intersections.map Intersection.toJson))]

end RoadRules

/-
The document form of a network survives encoding.

Each kind of element is written as an object with all its fields, which is read back field by field. What is read is a
document with finite numbers whatever the value was, so that nothing a document was read from can tell it from the
document that is written again.

- `Document.Finite`: no number of a document is infinite or undefined; only such documents can be written.
- `Document.decoder_toJson`: a document with finite numbers is read as itself.
- `Document.yields_decoder`: a document that is read has finite numbers.
- `Document.decoder_of_text`: so a document that is read from a text is read again from what it is written as.
- `Document.encoding_faithful`: reading, writing and building a network are inverse to each other.
-/
import RoadRules.Network.Document
import RoadRules.Proofs.Json.Texts
import RoadRules.Proofs.Network.Rekeyed

namespace RoadRules

open Json Json.Decoder Document

/-! ## Documents with finite numbers -/

structure StopLine.Finite (s : StopLine) : Prop where
  start : s.start.isFinite = true
  stop : s.stop.isFinite = true

structure Lanelet.Finite (l : Lanelet) : Prop where
  left : ∀ p ∈ l.left, p.isFinite = true
  right : ∀ p ∈ l.right, p.isFinite = true
  center : ∀ p ∈ l.center, p.isFinite = true
  stopLine : ∀ s, l.stopLine = some s → s.Finite

structure TrafficSign.Finite (s : TrafficSign) : Prop where
  values : ∀ p ∈ s.plates, ∀ x ∈ p.values, x.isFinite = true
  position : ∀ p, s.position = some p → p.isFinite = true

def TrafficLight.Finite (t : TrafficLight) : Prop := ∀ p, t.position = some p → p.isFinite = true

/-- a document without infinite numbers -/
structure Document.Finite (d : Document) : Prop where
  lanelets : ∀ l ∈ d.lanelets, l.Finite
  trafficSigns : ∀ s ∈ d.trafficSigns, s.Finite
  trafficLights : ∀ t ∈ d.trafficLights, t.Finite

/-! ## What was written is read again -/

theorem Phase.ofName?_name (p : Phase) : ofName? p.name = some p := by
  cases p <;> rfl

namespace Document

/-- a set is written in ascending order, and read in any order and with repetitions -/
theorem set_toJson {α : Type} [LT α] [DecidableLT α] [StrictOrder α] {item : Json.Decoder Empty α} {encode : α → Json}
    (h : ∀ a, item (encode a) = .ok a) (s : SortedSet α) :
    (list item (Json.list (s.toList.map encode))).map SortedSet.ofList = .ok s := by
  rw [list_map fun a _ => h a]
  exact congrArg Except.ok (SortedSet.ext fun a => SortedSet.mem_ofList)

theorem idSet_toJson (ids : IdSet) : idSet (idsJson ids) = .ok ids := set_toJson uint32_nat ids

/-- `null` stands for nothing, so no value is written as it -/
theorem option_toJson {α : Type} {item : Json.Decoder Empty α} (encode : α → Json) (hnull : ∀ x, encode x ≠ .null)
    {x? : Option α} (h : ∀ x, x? = some x → item (encode x) = .ok x) :
    option item (optionJson encode x?) = .ok x? := by
  cases x? with
  | none => rfl
  | some x =>
    have hitem : option item (encode x) = (item (encode x)).map some := by
      unfold option
      split
      · next hx => exact absurd hx (hnull x)
      · rfl
    exact hitem.trans (congrArg (Except.map some) (h x rfl))

theorem point_toJson {p : Point} (h : p.isFinite = true) : point p.toJson = .ok p := by
  obtain ⟨hx, hy⟩ := (Bool.and_eq_true _ _).mp h
  refine (record_object (by decide) rfl _).trans ?_
  refine (positions_put (float_ofFloat hx)).trans ?_
  refine (positions_put (float_ofFloat hy)).trans ?_
  rfl

theorem points_toJson {ps : List Point} (h : ∀ p ∈ ps, p.isFinite = true) : list point (pointsJson ps) = .ok ps :=
  list_map fun p hp => point_toJson (h p hp)

theorem position_toJson {p? : Option Point} (h : ∀ p, p? = some p → p.isFinite = true) :
    option point (optionJson Vec2.toJson p?) = .ok p? :=
  option_toJson Vec2.toJson (fun _ h => nomatch h) fun p hp => point_toJson (h p hp)

theorem adjacency_toJson (a : Adjacency) : adjacency a.toJson = .ok a := by
  refine (record_object (by decide) rfl _).trans ?_
  refine (positions_put (uint32_nat a.id)).trans ?_
  refine (positions_put (v := a.sameDirection) rfl).trans ?_
  rfl

theorem neighbour_toJson (a? : Option Adjacency) : option adjacency (optionJson Adjacency.toJson a?) = .ok a? :=
  option_toJson Adjacency.toJson (fun _ h => nomatch h) fun a _ => adjacency_toJson a

theorem stopLine_toJson {s : StopLine} (h : s.Finite) : stopLine s.toJson = .ok s := by
  refine (record_object (by decide) rfl _).trans ?_
  refine (positions_put (point_toJson h.start)).trans ?_
  refine (positions_put (point_toJson h.stop)).trans ?_
  refine (positions_put (idSet_toJson s.trafficSigns)).trans ?_
  refine (positions_put (idSet_toJson s.trafficLights)).trans ?_
  rfl

theorem lanelet_toJson {l : Lanelet} (h : l.Finite) : lanelet l.toJson = .ok l := by
  have hstop : option stopLine (optionJson StopLine.toJson l.stopLine) = .ok l.stopLine :=
    option_toJson StopLine.toJson (fun _ h => nomatch h) fun s hs => stopLine_toJson (h.stopLine s hs)
  have htypes : (list str (Json.list (l.types.toList.map .str))).map SortedSet.ofList = .ok l.types :=
    set_toJson (fun s => (rfl : str (.str s : Json) = .ok s)) l.types
  refine (record_object (by decide) rfl _).trans ?_
  refine (positions_put (uint32_nat l.id)).trans ?_
  refine (positions_put (points_toJson h.left)).trans ?_
  refine (positions_put (points_toJson h.right)).trans ?_
  refine (positions_put (points_toJson h.center)).trans ?_
  refine (positions_put (idSet_toJson l.predecessors)).trans ?_
  refine (positions_put (idSet_toJson l.successors)).trans ?_
  refine (positions_put (neighbour_toJson l.adjacentLeft)).trans ?_
  refine (positions_put (neighbour_toJson l.adjacentRight)).trans ?_
  refine (positions_put hstop).trans ?_
  refine (positions_put (idSet_toJson l.trafficSigns)).trans ?_
  refine (positions_put (idSet_toJson l.trafficLights)).trans ?_
  refine (positions_put htypes).trans ?_
  rfl

theorem signPlate_toJson {p : SignPlate} (h : ∀ x ∈ p.values, x.isFinite = true) : signPlate p.toJson = .ok p := by
  refine (record_object (by decide) rfl _).trans ?_
  refine (positions_put (v := p.code) rfl).trans ?_
  refine (positions_put (list_map fun x hx => float_ofFloat (h x hx))).trans ?_
  rfl

theorem trafficSign_toJson {s : TrafficSign} (h : s.Finite) : trafficSign s.toJson = .ok s := by
  refine (record_object (by decide) rfl _).trans ?_
  refine (positions_put (uint32_nat s.id)).trans ?_
  refine (positions_put (list_map fun p hp => signPlate_toJson (h.values p hp))).trans ?_
  refine (positions_put (position_toJson h.position)).trans ?_
  refine (positions_put (v := s.isVirtual) rfl).trans ?_
  rfl

theorem cycleStep_toJson (c : CycleStep) : cycleStep c.toJson = .ok c := by
  refine (record_object (by decide) rfl _).trans ?_
  refine (positions_put (word_str c.phase.ofName?_name)).trans ?_
  refine (positions_put (uint32_nat c.duration)).trans ?_
  rfl

theorem trafficLight_toJson {t : TrafficLight} (h : t.Finite) : trafficLight t.toJson = .ok t := by
  refine (record_object (by decide) rfl _).trans ?_
  refine (positions_put (uint32_nat t.id)).trans ?_
  refine (positions_put (list_map fun c _ => cycleStep_toJson c)).trans ?_
  refine (positions_put (position_toJson h)).trans ?_
  rfl

theorem incomingGroup_toJson (g : IncomingGroup) : incomingGroup g.toJson = .ok g := by
  refine (record_object (by decide) rfl _).trans ?_
  refine (positions_put (idSet_toJson g.lanelets)).trans ?_
  refine (positions_put (idSet_toJson g.left)).trans ?_
  refine (positions_put (idSet_toJson g.right)).trans ?_
  refine (positions_put (idSet_toJson g.straight)).trans ?_
  rfl

theorem intersection_toJson (i : Intersection) : intersection i.toJson = .ok i := by
  refine (record_object (by decide) rfl _).trans ?_
  refine (positions_put (uint32_nat i.id)).trans ?_
  refine (positions_put (list_map fun g _ => incomingGroup_toJson g)).trans ?_
  refine (positions_put (idSet_toJson i.crossings)).trans ?_
  rfl

/-- **Writing.** A document with finite numbers is read as itself. -/
theorem decoder_toJson {d : Document} (h : d.Finite) : decoder d.toJson = .ok d := by
  refine (record_object (by decide) rfl _).trans ?_
  refine (positions_put (list_map fun l hl => lanelet_toJson (h.lanelets l hl))).trans ?_
  refine (positions_put (list_map fun s hs => trafficSign_toJson (h.trafficSigns s hs))).trans ?_
  refine (positions_put (list_map fun t ht => trafficLight_toJson (h.trafficLights t ht))).trans ?_
  refine (positions_put (list_map fun i _ => intersection_toJson i)).trans ?_
  rfl

/-! ## What is read has finite numbers -/

section Reading

variable {φ : Type}

theorem yields_point : (point (φ := φ)).Yields fun p => p.isFinite = true := by
  have hput : ∀ x y : Float, (⟨x, y⟩ : Point).isFinite = true ↔ x.isFinite = true ∧ y.isFinite = true := fun x y =>
    Bool.and_eq_true_iff
  refine yields_record ?_ (by decide +kernel)
  refine keeps_put yields_float (fun x hx p hp => (hput x p.y).2 ⟨hx, ((hput p.x p.y).1 hp).2⟩) ?_
  refine keeps_put yields_float (fun y hy p hp => (hput p.x y).2 ⟨((hput p.x p.y).1 hp).1, hy⟩) ?_
  exact keeps_nil

theorem yields_stopLine : (stopLine (φ := φ)).Yields StopLine.Finite := by
  refine yields_record ?_ ⟨by decide +kernel, by decide +kernel⟩
  refine keeps_put yields_point (fun p hp _ h => { h with start := hp }) ?_
  refine keeps_put yields_point (fun p hp _ h => { h with stop := hp }) ?_
  refine keeps_put (yields_any idSet) (fun _ _ _ h => { h with }) ?_
  refine keeps_put (yields_any idSet) (fun _ _ _ h => { h with }) ?_
  exact keeps_nil

theorem yields_lanelet : (lanelet (φ := φ)).Yields Lanelet.Finite := by
  refine yields_record ?_ ⟨nofun, nofun, nofun, nofun⟩
  refine keeps_put (yields_any uint32) (fun _ _ _ h => { h with }) ?_
  refine keeps_put (yields_list yields_point) (fun ps hps _ h => { h with left := hps }) ?_
  refine keeps_put (yields_list yields_point) (fun ps hps _ h => { h with right := hps }) ?_
  refine keeps_put (yields_list yields_point) (fun ps hps _ h => { h with center := hps }) ?_
  refine keeps_put (yields_any idSet) (fun _ _ _ h => { h with }) ?_
  refine keeps_put (yields_any idSet) (fun _ _ _ h => { h with }) ?_
  refine keeps_put (yields_any (option adjacency)) (fun _ _ _ h => { h with }) ?_
  refine keeps_put (yields_any (option adjacency)) (fun _ _ _ h => { h with }) ?_
  refine keeps_put (yields_option yields_stopLine) (fun s hs _ h => { h with stopLine := hs }) ?_
  refine keeps_put (yields_any idSet) (fun _ _ _ h => { h with }) ?_
  refine keeps_put (yields_any idSet) (fun _ _ _ h => { h with }) ?_
  refine keeps_put (yields_any _) (fun _ _ _ h => { h with }) ?_
  exact keeps_nil

theorem yields_signPlate : (signPlate (φ := φ)).Yields fun p => ∀ x ∈ p.values, x.isFinite = true := by
  refine yields_record ?_ nofun
  refine keeps_put (yields_any str) (fun _ _ _ h => h) ?_
  refine keeps_put (yields_list yields_float) (fun _ hxs _ _ => hxs) ?_
  exact keeps_nil

theorem yields_trafficSign : (trafficSign (φ := φ)).Yields TrafficSign.Finite := by
  refine yields_record ?_ ⟨nofun, nofun⟩
  refine keeps_put (yields_any uint32) (fun _ _ _ h => { h with }) ?_
  refine keeps_put (yields_list yields_signPlate) (fun ps hps _ h => { h with values := hps }) ?_
  refine keeps_put (yields_option yields_point) (fun p hp _ h => { h with position := hp }) ?_
  refine keeps_put (yields_any bool) (fun _ _ _ h => { h with }) ?_
  exact keeps_nil

theorem yields_trafficLight : (trafficLight (φ := φ)).Yields TrafficLight.Finite := by
  refine yields_record ?_ nofun
  refine keeps_put (yields_any uint32) (fun _ _ _ h => h) ?_
  refine keeps_put (yields_any (list cycleStep)) (fun _ _ _ h => h) ?_
  refine keeps_put (yields_option yields_point) (fun p hp _ _ => hp) ?_
  exact keeps_nil

/-- **Reading.** A document that is read from a proper value has finite numbers. -/
theorem yields_decoder : (decoder (φ := φ)).Yields Document.Finite := by
  refine yields_record ?_ ⟨nofun, nofun, nofun⟩
  refine keeps_put (yields_list yields_lanelet) (fun ls hls _ h => { h with lanelets := hls }) ?_
  refine keeps_put (yields_list yields_trafficSign) (fun ss hss _ h => { h with trafficSigns := hss }) ?_
  refine keeps_put (yields_list yields_trafficLight) (fun ts hts _ h => { h with trafficLights := hts }) ?_
  refine keeps_put (yields_any (list intersection)) (fun _ _ _ h => { h with }) ?_
  exact keeps_nil

end Reading

/-- **Texts.** A document that is read from a text can be written, and is then read again. -/
theorem decoder_of_text {text : String} {d : Document} (h : Json.decode decoder text = .ok d) :
    decoder d.toJson = .ok d := by
  have hread : decoder (read text).tree = .ok d := by
    unfold Json.decode at h
    dsimp only at h
    split at h
    · next hread =>
      split_ifs at h
      cases h
      exact hread
    · cases h
    · cases h
    · cases h
  exact decoder_toJson (yields_decoder _ (proper_read text) d hread)

/-- **Encoding.** A document with finite numbers is read as itself when it is written. Whatever proper value a document
is read from, the document is read again when it is written, and the network built from it has this document. -/
theorem encoding_faithful :
    (∀ d : Document, d.Finite → decoder (φ := Empty) d.toJson = .ok d) ∧
      ∀ v : Json, v.Proper → ∀ d, decoder v = .ok d →
        decoder d.toJson = decoder v ∧ (RoadMap.ofDocument d).network.toDocument = d := by
  refine ⟨fun d hd => decoder_toJson hd, fun v hv d hread => ⟨?_, RoadMap.toDocument_ofDocument d⟩⟩
  have hd : d.Finite := yields_decoder v hv d hread
  rw [hread, decoder_toJson hd]

/-- a value with members that are skipped, ids that are repeated and in no order, and records written as lists -/
theorem encoding_faithful_unsorted :
    let v := Json.object [("version", .null), ("lanelets", Json.list [
      Json.object [("successors", Json.list [Json.nat 9, Json.nat 3, Json.nat 9]), ("id", Json.nat 7)],
      Json.list [Json.nat 8, Json.list [Json.list [.float 0.5, .float 1.5]]]])]
    let d : Document :=
      { lanelets := [{ id := 7, successors := .ofList [3, 9] }, { id := 8, left := [⟨0.5, 1.5⟩] }] }
    d.Finite ∧ v.Proper ∧ decoder v = .ok d ∧ decoder (φ := Empty) d.toJson = .ok d ∧
      decoder d.toJson = decoder v ∧ (RoadMap.ofDocument d).network.toDocument = d := by
  intro v d
  have hleft : ∀ p ∈ [(⟨0.5, 1.5⟩ : Point)], p.isFinite = true := by decide +kernel
  have hd : d.Finite :=
    ⟨List.forall_mem_cons.2 ⟨⟨nofun, nofun, nofun, nofun⟩, List.forall_mem_singleton.2 ⟨hleft, nofun, nofun, nofun⟩⟩,
      nofun, nofun⟩
  have hfloat : (0.5 : Float).isFinite = true ∧ (1.5 : Float).isFinite = true := by decide +kernel
  have hv : v.Proper := by simp [v, hfloat]
  have hread : decoder v = .ok d := rfl
  exact ⟨hd, hv, hread, encoding_faithful.1 d hd, encoding_faithful.2 v hv d hread⟩

end Document

end RoadRules

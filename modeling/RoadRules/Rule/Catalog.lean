/-
The catalog of rules: formulas by rule, compiled against a table of subformulas. `standardSubformulas` and
`standardRules` are the texts of the full rule set.
-/
import RoadRules.Rule.RuleId
import RoadRules.Rule.Eval

namespace RoadRules

/-! ## The full rule set -/

/-- the texts of the subformulas, in the order in which they may call each other -/
def standardSubformulas : List String :=
  ["distinct_ids(x, y) := x = y | element_id(x) != element_id(y)",
    "links_to(a, b) := contains(successors(a), lanelet_id(b))",
    "links_from(a, b) := contains(predecessors(a), lanelet_id(b))",
    "nonempty_boundaries(l) := size(left_polyline(l)) > 0 & size(right_polyline(l)) > 0",
    "references_sign(l, t) := contains(traffic_signs(l), traffic_sign_id(t)) " ++
      "| contains(stop_line_traffic_signs(l), traffic_sign_id(t))",
    "references_light(l, t) := contains(traffic_lights(l), traffic_light_id(t)) " ++
      "| contains(stop_line_traffic_lights(l), traffic_light_id(t))"]

/-- the text of each rule -/
def RuleId.standardText : RuleId → String
  | uniqueIdLa => "A y in M. distinct_ids(x, y) || x in L"
  | uniqueIdTs => "A y in M. distinct_ids(x, y) || x in TS"
  | uniqueIdTl => "A y in M. distinct_ids(x, y) || x in TL"
  | uniqueIdIn => "A y in M. distinct_ids(x, y) || x in I"
  | sameVerticesSize => "size(left_polyline(l)) = size(right_polyline(l)) || l in L"
  | verticesMoreThanOne => "size(left_polyline(l)) > 1 & size(right_polyline(l)) > 1 || l in L"
  | polylinesSameDirection =>
    "nonempty_boundaries(l) -> " ++
      "distance(at(left_polyline(l), 0), at(right_polyline(l), 0)) " ++
      "<= distance(at(left_polyline(l), 0), at(reverse(right_polyline(l)), 0)) || l in L"
  | leftSelfIntersection => "!self_intersecting(left_polyline(l)) || l in L"
  | rightSelfIntersection => "!self_intersecting(right_polyline(l)) || l in L"
  | existenceLeftAdj => "A r in left_adjacency(l). lanelet_exists(r) || l in L"
  | existenceRightAdj => "A r in right_adjacency(l). lanelet_exists(r) || l in L"
  | existencePredecessor => "A r in predecessors(l). lanelet_exists(r) || l in L"
  | existenceSuccessor => "A r in successors(l). lanelet_exists(r) || l in L"
  | connectionsPredecessor => "A k in L. links_from(l, k) -> links_to(k, l) || l in L"
  | connectionsSuccessor => "A k in L. links_to(l, k) -> links_from(k, l) || l in L"
  | nonPredecessorAsSuccessor => "!(links_from(l, k) & links_to(l, k)) || l in L, k in L"
  | existenceTrafficSigns => "A r in traffic_signs(l). traffic_sign_exists(r) || l in L"
  | existenceTrafficLights => "A r in traffic_lights(l). traffic_light_exists(r) || l in L"
  | existenceStopLineTrafficSigns => "A r in stop_line_traffic_signs(l). traffic_sign_exists(r) || l in L"
  | existenceStopLineTrafficLights => "A r in stop_line_traffic_lights(l). traffic_light_exists(r) || l in L"
  | includedStopLineTrafficSigns => "A r in stop_line_traffic_signs(l). contains(traffic_signs(l), r) || l in L"
  | atLeastOneTrafficSignElement => "size(sign_elements(t)) >= 1 || t in TS"
  | referencedTrafficSign => "E l in L. references_sign(l, t) || t in TS"
  | givenAdditionalValue =>
    "A e in sign_elements(t). requires_additional_value(element_code(e)) " ++
      "-> size(additional_values(e)) > 0 || t in TS"
  | validAdditionalValueSpeedSign =>
    "A e in sign_elements(t). is_speed_sign(element_code(e)) " ++
      "-> (A v in additional_values(e). v > 0) || t in TS"
  | atLeastOneCycleElement => "size(phases(t)) >= 1 || t in TL"
  | nonZeroDuration => "A d in durations(t). d > 0 || t in TL"
  | uniqueStateInCycle =>
    "A p in phases(t). index(phases(t), p) " ++
      "= sub(sub(size(phases(t)), 1), index(reverse(phases(t)), p)) || t in TL"
  | referencedTrafficLight => "E l in L. references_light(l, t) || t in TL"
  | atLeastTwoIncomingElements => "size(incomings(i)) >= 2 || i in I"
  | existenceIncomingLanelets => "A g in incomings(i). A r in incoming_lanelets(g). lanelet_exists(r) || i in I"
  | existenceSuccessorLanelets => "A g in incomings(i). A r in all_successors(g). lanelet_exists(r) || i in I"
  | atLeastOneRoadConnection =>
    "A g in incomings(i). size(successors_left(g)) > 0 " ++
      "| size(successors_right(g)) > 0 | size(successors_straight(g)) > 0 || i in I"
  | existenceCrossings => "A r in crossings(i). lanelet_exists(r) || i in I"

def standardRules : List (RuleId × String) := RuleId.values.map fun r => (r, r.standardText)

/-! ## Catalogs -/

/-- a rule with its text and its compiled formula -/
structure CatalogEntry where
  rule : RuleId
  text : String
  formula : CompiledFormula

structure Catalog where
  subformulas : List CompiledSubformula
  /-- in catalog order, at most one for a rule -/
  entries : List CatalogEntry

namespace Catalog

/-- compiles subformulas one after the other; each may call the ones before it -/
def compileSubformulas : (compiled : List CompiledSubformula) → List String →
    Except CatalogError (List CompiledSubformula)
  | compiled, [] => .ok compiled
  | compiled, text :: rest =>
    match Subformula.parse text with
    | .error cause => .error (.parse s!"subformula `{text}`" cause)
    | .ok s =>
      match s.compile compiled with
      | .error e => .error e
      | .ok s => compileSubformulas (compiled ++ [s]) rest

def compileRules (subformulas : List CompiledSubformula) : List (RuleId × String) →
    Except CatalogError (List CatalogEntry)
  | [] => .ok []
  | (rule, text) :: rest =>
    let context := s!"formula `{rule.name}`"
    match Formula.parse text with
    | .error cause => .error (.parse context cause)
    | .ok f =>
      match f.compile subformulas context with
      | .error e => .error e
      | .ok formula => (compileRules subformulas rest).map (⟨rule, text, formula⟩ :: ·)

/-- a catalog from formula texts; of several texts for a rule the last one counts -/
def ofSources (subformulas : List String) (rules : List (RuleId × String)) : Except CatalogError Catalog :=
  match compileSubformulas [] subformulas with
  | .error e => .error e
  | .ok subformulas =>
    match compileRules subformulas rules with
    | .error e => .error e
    | .ok entries => .ok ⟨subformulas, RuleId.values.filterMap fun r => entries.reverse.find? (·.rule == r)⟩

/-- the full rule set -/
def standard : Except CatalogError Catalog := ofSources standardSubformulas standardRules

def entry? (c : Catalog) (rule : RuleId) : Option CatalogEntry := c.entries.find? (·.rule == rule)

def contains (c : Catalog) (rule : RuleId) : Bool := (c.entry? rule).isSome

/-- the requested rules in catalog order, or all rules of the catalog when none is requested -/
def select (c : Catalog) (requested : List RuleId) : Except CatalogError (List RuleId) :=
  let rules := c.entries.map (·.rule)
  if requested.isEmpty then .ok rules
  else
    match requested.find? fun r => !c.contains r with
    | some missing => .error (.unknownFormula missing.name)
    | none => .ok (rules.filter requested.contains)

/-- where the catalog's formulas are evaluated -/
def setting (c : Catalog) (v : NetworkView) : Setting := .load v c.subformulas

/-- the truth of a rule at a binding of its outer variables; a rule that the catalog lacks holds -/
def evaluate (c : Catalog) (rule : RuleId) (n : Network) (bindings : List Handle) : Except EvalError Bool :=
  match c.entry? rule with
  | none => .ok true
  | some e => (c.setting n.view).evaluate e.formula bindings

end Catalog

end RoadRules

/-
The full rule set, compiled.

Rules of one shape share their code: `Code.allOf` for the rules that look up every id of a list, `Code.answered` for
links that the other lanelet has to note too, and so on. `standard_eq` says that the texts of the full rule set parse
and compile to just these codes.
-/
import Mathlib.Tactic
import RoadRules.Rule.Catalog

namespace RoadRules

/-! ## Code -/

namespace Operand

/-- a function of one variable -/
def of (b : Builtin) (slot : Nat) : Operand := .call (.builtin b) [.slot slot]

/-- the number of items of a list that belongs to a variable -/
def sizeOf (b : Builtin) (slot : Nat) : Operand := .call (.builtin .size) [of b slot]

def number (i : Int64) : Operand := .const (.int i)

/-- the first item of a list -/
def first (t : Operand) : Operand := .call (.builtin .nth) [t, number 0]

def reversed (t : Operand) : Operand := .call (.builtin .reverse) [t]

end Operand

namespace Code

open Operand

/-- a subformula of two variables, by its position in the table -/
def pair (sub a b : Nat) : Code := .predicate (.subformula sub) [.slot a, .slot b]

/-- is the id of the variable in a list of the one before? -/
def listed (list id : Builtin) : Code := .predicate (.builtin .contains) [of list 0, of id 1]

/-- no other element has the id of the outer variable -/
def distinct : Code := .quantified .every 1 (.domain .all) (pair 0 0 1)

/-- all items of a list of the outer variable satisfy a predicate -/
def allOf (list predicate : Builtin) : Code :=
  .quantified .every 1 (.operand (of list 0)) (.predicate (.builtin predicate) [.slot 1])

/-- all items of a list of each incoming group name a lanelet -/
def allOfGroups (list : Builtin) : Code :=
  .quantified .every 1 (.operand (of .incomings 0))
    (.quantified .every 2 (.operand (of list 1)) (.predicate (.builtin .laneletExists) [.slot 2]))

/-- every lanelet linked to the outer one by one subformula is linked back to it by the other -/
def answered (there back : Code) : Code := .quantified .every 1 (.domain .lanelets) (.connected .implies there back)

/-- some lanelet stands in a relation to the outer variable -/
def someLanelet (sub : Nat) : Code := .quantified .some 1 (.domain .lanelets) (pair sub 1 0)

end Code

/-! ## The full rule set -/

open Operand Code in
def standardSubformulaCode : List CompiledSubformula :=
  [⟨"distinct_ids", 2,
      .connected .or (.compared .eq (.slot 0) (.slot 1)) (.compared .ne (of .elementId 0) (of .elementId 1))⟩,
    ⟨"links_to", 2, listed .successors .laneletId⟩,
    ⟨"links_from", 2, listed .predecessors .laneletId⟩,
    ⟨"nonempty_boundaries", 1,
      .connected .and (.compared .gt (sizeOf .leftPolyline 0) (number 0))
        (.compared .gt (sizeOf .rightPolyline 0) (number 0))⟩,
    ⟨"references_sign", 2,
      .connected .or (listed .trafficSigns .trafficSignId) (listed .stopLineTrafficSigns .trafficSignId)⟩,
    ⟨"references_light", 2,
      .connected .or (listed .trafficLights .trafficLightId) (listed .stopLineTrafficLights .trafficLightId)⟩]

namespace RuleId

/-- the outer variables of a rule -/
def standardBindings : RuleId → List Formula.Binding
  | uniqueIdLa => [⟨"x", .lanelets⟩]
  | uniqueIdTs => [⟨"x", .trafficSigns⟩]
  | uniqueIdTl => [⟨"x", .trafficLights⟩]
  | uniqueIdIn => [⟨"x", .intersections⟩]
  | nonPredecessorAsSuccessor => [⟨"l", .lanelets⟩, ⟨"k", .lanelets⟩]
  | atLeastOneTrafficSignElement | referencedTrafficSign | givenAdditionalValue | validAdditionalValueSpeedSign =>
    [⟨"t", .trafficSigns⟩]
  | atLeastOneCycleElement | nonZeroDuration | uniqueStateInCycle | referencedTrafficLight => [⟨"t", .trafficLights⟩]
  | atLeastTwoIncomingElements | existenceIncomingLanelets | existenceSuccessorLanelets | atLeastOneRoadConnection
  | existenceCrossings => [⟨"i", .intersections⟩]
  | _ => [⟨"l", .lanelets⟩]

open Operand Code in
/-- the body of a rule, with its outer variables in the first slots -/
def standardCode : RuleId → Code
  | uniqueIdLa | uniqueIdTs | uniqueIdTl | uniqueIdIn => distinct
  | sameVerticesSize => .compared .eq (sizeOf .leftPolyline 0) (sizeOf .rightPolyline 0)
  | verticesMoreThanOne =>
    .connected .and (.compared .gt (sizeOf .leftPolyline 0) (number 1))
      (.compared .gt (sizeOf .rightPolyline 0) (number 1))
  | polylinesSameDirection =>
    .connected .implies (.predicate (.subformula 3) [.slot 0])
      (.compared .le (.call (.builtin .distance) [first (of .leftPolyline 0), first (of .rightPolyline 0)])
        (.call (.builtin .distance) [first (of .leftPolyline 0), first (reversed (of .rightPolyline 0))]))
  | leftSelfIntersection => .not (.predicate (.builtin .selfIntersecting) [of .leftPolyline 0])
  | rightSelfIntersection => .not (.predicate (.builtin .selfIntersecting) [of .rightPolyline 0])
  | existenceLeftAdj => allOf .leftAdjacency .laneletExists
  | existenceRightAdj => allOf .rightAdjacency .laneletExists
  | existencePredecessor => allOf .predecessors .laneletExists
  | existenceSuccessor => allOf .successors .laneletExists
  | connectionsPredecessor => answered (pair 2 0 1) (pair 1 1 0)
  | connectionsSuccessor => answered (pair 1 0 1) (pair 2 1 0)
  | nonPredecessorAsSuccessor => .not (.connected .and (pair 2 0 1) (pair 1 0 1))
  | existenceTrafficSigns => allOf .trafficSigns .trafficSignExists
  | existenceTrafficLights => allOf .trafficLights .trafficLightExists
  | existenceStopLineTrafficSigns => allOf .stopLineTrafficSigns .trafficSignExists
  | existenceStopLineTrafficLights => allOf .stopLineTrafficLights .trafficLightExists
  | includedStopLineTrafficSigns =>
    .quantified .every 1 (.operand (of .stopLineTrafficSigns 0))
      (.predicate (.builtin .contains) [of .trafficSigns 0, .slot 1])
  | atLeastOneTrafficSignElement => .compared .ge (sizeOf .signElements 0) (number 1)
  | referencedTrafficSign => someLanelet 4
  | givenAdditionalValue =>
    .quantified .every 1 (.operand (of .signElements 0))
      (.connected .implies (.predicate (.builtin .requiresAdditionalValue) [of .elementCode 1])
        (.compared .gt (sizeOf .additionalValues 1) (number 0)))
  | validAdditionalValueSpeedSign =>
    .quantified .every 1 (.operand (of .signElements 0))
      (.connected .implies (.predicate (.builtin .isSpeedSign) [of .elementCode 1])
        (.quantified .every 2 (.operand (of .additionalValues 1)) (.compared .gt (.slot 2) (number 0))))
  | atLeastOneCycleElement => .compared .ge (sizeOf .phases 0) (number 1)
  | nonZeroDuration => .quantified .every 1 (.operand (of .durations 0)) (.compared .gt (.slot 1) (number 0))
  | uniqueStateInCycle =>
    .quantified .every 1 (.operand (of .phases 0))
      (.compared .eq (.call (.builtin .index) [of .phases 0, .slot 1])
        (.call (.builtin .sub) [.call (.builtin .sub) [sizeOf .phases 0, number 1],
          .call (.builtin .index) [reversed (of .phases 0), .slot 1]]))
  | referencedTrafficLight => someLanelet 5
  | atLeastTwoIncomingElements => .compared .ge (sizeOf .incomings 0) (number 2)
  | existenceIncomingLanelets => allOfGroups .incomingLanelets
  | existenceSuccessorLanelets => allOfGroups .allSuccessors
  | atLeastOneRoadConnection =>
    .quantified .every 1 (.operand (of .incomings 0))
      (.connected .or
        (.connected .or (.compared .gt (sizeOf .successorsLeft 1) (number 0))
          (.compared .gt (sizeOf .successorsRight 1) (number 0)))
        (.compared .gt (sizeOf .successorsStraight 1) (number 0)))
  | existenceCrossings => allOf .crossings .laneletExists

/-- the entry of a rule in the full rule set -/
def standardEntry (r : RuleId) : CatalogEntry := ⟨r, r.standardText, ⟨r.standardBindings, r.standardCode⟩⟩

end RuleId

def standardCatalog : Catalog := ⟨standardSubformulaCode, RuleId.values.map RuleId.standardEntry⟩

/-! ## Comparing code

What the texts compile to is computed and compared with the above. The comparison only has to tell the constants apart
that occur in rules, which are integers. -/

def Value.same : Value → Value → Bool
  | .int a, .int b => a = b
  | _, _ => false

mutual

def Operand.same : Operand → Operand → Bool
  | .slot a, .slot b => a = b
  | .const v, .const w => v.same w
  | .call f as, .call g bs => f = g && Operand.sameAll as bs
  | _, _ => false

def Operand.sameAll : List Operand → List Operand → Bool
  | [], [] => true
  | a :: as, b :: bs => Operand.same a b && Operand.sameAll as bs
  | _, _ => false

end

def Items.same : Items → Items → Bool
  | .domain d, .domain e => d = e
  | .operand t, .operand u => t.same u
  | _, _ => false

def Code.same : Code → Code → Bool
  | .quantified q s r b, .quantified q' s' r' b' => q = q' && s = s' && r.same r' && b.same b'
  | .not b, .not b' => b.same b'
  | .connected op l r, .connected op' l' r' => op = op' && l.same l' && r.same r'
  | .predicate f as, .predicate g bs => f = g && Operand.sameAll as bs
  | .compared op l r, .compared op' l' r' => op = op' && l.same l' && r.same r'
  | .literal b, .literal b' => b = b'
  | _, _ => false

theorem Value.eq_of_same {v w : Value} (h : v.same w = true) : v = w := by
  cases v <;> cases w <;> simp_all [Value.same]

mutual

theorem Operand.eq_of_same : ∀ {a b : Operand}, a.same b = true → a = b
  | .slot _, .slot _, h => by simpa [Operand.same] using h
  | .const _, .const _, h => by rw [Value.eq_of_same h]
  | .call _ as, .call _ bs, h => by
    simp only [Operand.same, Bool.and_eq_true, decide_eq_true_eq] at h
    rw [h.1, Operand.eq_of_sameAll h.2]
  | .slot _, .const _, h | .slot _, .call _ _, h | .const _, .slot _, h | .const _, .call _ _, h | .call _ _, .slot _, h
  | .call _ _, .const _, h => by simp [Operand.same] at h

theorem Operand.eq_of_sameAll : ∀ {as bs : List Operand}, Operand.sameAll as bs = true → as = bs
  | [], [], _ => rfl
  | _ :: _, _ :: _, h => by
    simp only [Operand.sameAll, Bool.and_eq_true] at h
    rw [Operand.eq_of_same h.1, Operand.eq_of_sameAll h.2]
  | [], _ :: _, h | _ :: _, [], h => by simp [Operand.sameAll] at h

end

theorem Items.eq_of_same {a b : Items} (h : a.same b = true) : a = b := by
  cases a <;> cases b <;> simp_all [Items.same]
  exact Operand.eq_of_same h

theorem Code.eq_of_same : ∀ {a b : Code}, a.same b = true → a = b := by
  intro a
  induction a with
  | quantified q s r b ih =>
    intro c h
    cases c <;> simp only [Code.same, Bool.and_eq_true, decide_eq_true_eq, Bool.false_eq_true] at h
    obtain ⟨⟨⟨rfl, rfl⟩, hr⟩, hb⟩ := h
    rw [Items.eq_of_same hr, ih hb]
  | not b ih =>
    intro c h
    cases c <;> simp only [Code.same, Bool.false_eq_true] at h
    rw [ih h]
  | connected op l r ihl ihr =>
    intro c h
    cases c <;> simp only [Code.same, Bool.and_eq_true, decide_eq_true_eq, Bool.false_eq_true] at h
    obtain ⟨⟨rfl, hl⟩, hr⟩ := h
    rw [ihl hl, ihr hr]
  | predicate f as =>
    intro c h
    cases c <;> simp only [Code.same, Bool.and_eq_true, decide_eq_true_eq, Bool.false_eq_true] at h
    rw [h.1, Operand.eq_of_sameAll h.2]
  | compared op l r =>
    intro c h
    cases c <;> simp only [Code.same, Bool.and_eq_true, decide_eq_true_eq, Bool.false_eq_true] at h
    obtain ⟨⟨rfl, hl⟩, hr⟩ := h
    rw [Operand.eq_of_same hl, Operand.eq_of_same hr]
  | literal b =>
    intro c h
    cases c <;> simp_all [Code.same]

namespace Catalog

def sameSubformula (s t : CompiledSubformula) : Bool := s.name = t.name && s.arity = t.arity && s.body.same t.body

def sameSubformulas : List CompiledSubformula → List CompiledSubformula → Bool
  | [], [] => true
  | s :: ss, t :: ts => sameSubformula s t && sameSubformulas ss ts
  | _, _ => false

def sameFormula (f g : CompiledFormula) : Bool := f.bindings = g.bindings && f.body.same g.body

/-- an outcome that is as expected, in the sense of a comparison -/
def yields {ε α : Type} (same : α → α → Bool) (expected : α) : Except ε α → Bool
  | .ok a => same a expected
  | .error _ => false

theorem eq_of_yields {ε α : Type} {same : α → α → Bool} (hs : ∀ {a b}, same a b = true → a = b) {expected : α}
    {outcome : Except ε α} (h : yields same expected outcome = true) : outcome = .ok expected := by
  cases outcome with
  | error _ => cases h
  | ok a => rw [hs h]

theorem eq_of_sameSubformula {s t : CompiledSubformula} (h : sameSubformula s t = true) : s = t := by
  cases s; cases t
  simp only [sameSubformula, Bool.and_eq_true, decide_eq_true_eq] at h
  obtain ⟨⟨rfl, rfl⟩, hb⟩ := h
  rw [Code.eq_of_same hb]

theorem eq_of_sameSubformulas : ∀ {ss ts : List CompiledSubformula}, sameSubformulas ss ts = true → ss = ts
  | [], [], _ => rfl
  | s :: ss, t :: ts, h => by
    simp only [sameSubformulas, Bool.and_eq_true] at h
    rw [eq_of_sameSubformula h.1, eq_of_sameSubformulas h.2]
  | [], _ :: _, h | _ :: _, [], h => by simp [sameSubformulas] at h

theorem eq_of_sameFormula {f g : CompiledFormula} (h : sameFormula f g = true) : f = g := by
  cases f; cases g
  simp only [sameFormula, Bool.and_eq_true, decide_eq_true_eq] at h
  obtain ⟨rfl, hb⟩ := h
  rw [Code.eq_of_same hb]

/-- what a rule's text parses and compiles to -/
def compileText (subformulas : List CompiledSubformula) (r : RuleId) : Except CatalogError CompiledFormula :=
  match Formula.parse r.standardText with
  | .error cause => .error (.parse s!"formula `{r.name}`" cause)
  | .ok f => f.compile subformulas s!"formula `{r.name}`"

theorem compileRules_eq (subformulas : List CompiledSubformula) (code : RuleId → CompiledFormula)
    (h : ∀ r : RuleId, compileText subformulas r = .ok (code r)) (rules : List RuleId) :
    compileRules subformulas (rules.map fun r => (r, r.standardText)) =
      .ok (rules.map fun r => ⟨r, r.standardText, code r⟩) := by
  induction rules with
  | nil => rfl
  | cons r rest ih =>
    have hr := h r
    rw [compileText] at hr
    rw [List.map_cons, compileRules, ih]
    cases hp : Formula.parse r.standardText with
    | error cause =>
      rw [hp] at hr
      cases hr
    | ok f =>
      rw [hp] at hr
      simp only [hr]
      rfl

theorem compileSubformulas_standard : compileSubformulas [] standardSubformulas = .ok standardSubformulaCode :=
  eq_of_yields eq_of_sameSubformulas (by decide +kernel)

-- rule by rule, since the kernel keeps all that it comes across in one go
theorem compileText_standard (r : RuleId) : compileText standardSubformulaCode r = .ok r.standardEntry.formula :=
  eq_of_yields eq_of_sameFormula (by cases r <;> decide +kernel)

/-- of entries that are made for rules, the one for a rule is found -/
theorem find?_reverse_map {entry : RuleId → CatalogEntry} (he : ∀ r, (entry r).rule = r) {rules : List RuleId}
    {r : RuleId} (hr : r ∈ rules) : (rules.map entry).reverse.find? (·.rule == r) = some (entry r) := by
  cases hf : (rules.map entry).reverse.find? (·.rule == r) with
  | none =>
    have hm : entry r ∈ (rules.map entry).reverse := List.mem_reverse.2 (List.mem_map_of_mem hr)
    exact absurd (List.find?_eq_none.1 hf _ hm) (by simp [he])
  | some e =>
    obtain ⟨q, -, rfl⟩ := List.mem_map.1 (List.mem_reverse.1 (List.mem_of_find?_eq_some hf))
    have hq : q = r := by simpa [he] using List.find?_some hf
    rw [hq]

theorem ofSources_eq {subformulas : List String} {rules : List (RuleId × String)} {code : List CompiledSubformula}
    {entries : List CatalogEntry} (hs : compileSubformulas [] subformulas = .ok code)
    (he : compileRules code rules = .ok entries) : ofSources subformulas rules =
      .ok ⟨code, RuleId.values.filterMap fun r => entries.reverse.find? (·.rule == r)⟩ := by
  rw [ofSources, hs]
  simp only [he]

/-- **The full rule set compiles to the codes above.** -/
theorem standard_eq : Catalog.standard = .ok standardCatalog := by
  have hrules := compileRules_eq _ (fun r => r.standardEntry.formula) compileText_standard RuleId.values
  have found : ∀ r ∈ RuleId.values, (RuleId.values.map fun r =>
      (⟨r, r.standardText, r.standardEntry.formula⟩ : CatalogEntry)).reverse.find? (·.rule == r) =
        some r.standardEntry := fun r hr => find?_reverse_map (fun _ => rfl) hr
  refine (ofSources_eq compileSubformulas_standard hrules).trans ?_
  rw [List.filterMap_congr found, standardCatalog, ← List.filterMap_eq_map]
  rfl

/-! ## Looking up rules -/

theorem entry?_standard (r : RuleId) : standardCatalog.entry? r = some r.standardEntry := by
  cases r <;> rfl

theorem contains_standard (r : RuleId) : standardCatalog.contains r = true := by
  rw [contains, entry?_standard]; rfl

end Catalog

end RoadRules

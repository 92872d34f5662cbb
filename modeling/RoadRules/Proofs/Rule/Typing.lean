/-
Code that cannot go wrong by its types.

`Ty` lists types of values, and `Ty.Holds` says when a value of a network has one: doubles are numbers, points are
finite, and elements and their components are there. `Code.wellTyped` computes whether code makes sense if the
variables in its scope have given types. It is not complete: a position in a list is never known to be good.

- `Builtin.apply_of_type?`: a builtin has a value of its type on arguments of the types it takes.
- `Setting.Typed.exists_truth`: well-typed code has a truth value where its variables have their types.
- `Setting.Typed.load`: subformulas are as good as their signatures if each is well-typed for the ones before it.
-/
import RoadRules.Proofs.Network.Nearest
import RoadRules.Proofs.Number.Distance
import RoadRules.Proofs.Rule.Provenance
import RoadRules.Proofs.Rule.Enumeration
import RoadRules.Proofs.Rule.Meaning

namespace RoadRules

/-! ## Types -/

inductive Ty where
  | bool
  | int
  /-- a double that is a number -/
  | float
  | str
  /-- a point with finite coordinates -/
  | point
  | list (item : Ty)
  /-- an element of a kind, or of any kind -/
  | element (kind : Option Kind)
  | part (kind : PartKind)
  deriving DecidableEq

namespace Ty

/-- does the value have the type in the network? -/
def Holds (n : Network) : Ty → Value → Prop
  | bool, v => ∃ b, v = .bool b
  | int, v => ∃ i, v = .int i
  | float, v => ∃ x, v = .float x ∧ x.isNaN = false
  | str, v => ∃ s, v = .str s
  | point, v => ∃ p, v = .point p ∧ p.isFinite = true
  | list item, v => ∃ items, v = .list items ∧ ∀ w ∈ items, item.Holds n w
  | element kind, v => ∃ h e, v = .element h ∧ n.element? h = some e ∧ ∀ k ∈ kind, h.kind = k
  | part kind, v => ∃ p, v = .part p ∧ p.kind = kind ∧ n.HasPart p

/-- Is a value of the one type as good as one of the other? An element of a kind is an element. -/
def Fits : Ty → Ty → Prop
  | element _, element none => True
  | t, u => t = u

instance : DecidableRel Fits := fun t u => by
  unfold Fits
  split <;> infer_instance

variable {n : Network} {t u : Ty}

theorem Holds.of_fits {v : Value} (hv : t.Holds n v) (h : t.Fits u) : u.Holds n v := by
  unfold Fits at h
  split at h
  · obtain ⟨h, e, rfl, he, -⟩ := hv
    exact ⟨h, e, rfl, he, fun k hk => nomatch hk⟩
  · exact h ▸ hv

theorem holds_of_fits {ts us : List Ty} {vs : List Value} (hvs : List.Forall₂ (Holds n) ts vs)
    (h : List.Forall₂ Fits ts us) : List.Forall₂ (Holds n) us vs := by
  induction h generalizing vs with
  | nil => exact hvs
  | cons ht _ ih =>
    cases hvs with
    | cons hv hvs => exact .cons (hv.of_fits ht) (ih hvs)

/-! ## Values of a type -/

theorem holds_list_map {α : Type} {f : α → Value} {items : List α} (h : ∀ a ∈ items, t.Holds n (f a)) :
    (list t).Holds n (.list (items.map f)) :=
  ⟨_, rfl, List.forall_mem_map.2 h⟩

theorem holds_ofIds (n : Network) (ids : List ElementId) : (list int).Holds n (.ofIds ids) :=
  holds_list_map fun _ _ => ⟨_, rfl⟩

theorem holds_ofPoints (n : Network) {points : List Point} (h : ∀ p ∈ points, p.isFinite = true) :
    (list point).Holds n (.ofPoints points) :=
  holds_list_map fun p hp => ⟨p, rfl, h p hp⟩

theorem holds_partsOf {owner : Handle} {kind : PartKind} {count : Nat}
    (h : ∀ i < count, n.HasPart ⟨owner, kind, i⟩) : (list (part kind)).Holds n (Builtin.partsOf owner kind count) :=
  holds_list_map fun i hi => ⟨_, rfl, rfl, h i (List.mem_range.1 hi)⟩

theorem holds_of_domain {d : Domain} {h : Handle} (hh : h ∈ n.view.index.domain d) :
    (Ty.element (NetworkIndex.kind? d)).Holds n (.element h) := by
  obtain ⟨id, hid⟩ := present_of_domain hh
  obtain ⟨e, he, -⟩ := Network.exists_element hid
  refine ⟨h, e, rfl, he, fun kind hkind => ?_⟩
  exact ((RuleId.mem_domain hkind).1 hh).1

/-! ## Comparing values -/

/-- can values of the types be ordered? -/
def ordered : Ty → Ty → Bool
  | int, int | int, float | float, int | float, float | str, str => true
  | _, _ => false

/-- two doubles that are numbers have an order -/
theorem exists_compareFloat? {x y : Float} (hx : x.isNaN = false) (hy : y.isNaN = false) :
    ∃ o, Value.compareFloat? x y = some o := by
  unfold Value.compareFloat?
  split_ifs with hlt heq hgt
  · exact ⟨_, rfl⟩
  · exact ⟨_, rfl⟩
  · exact ⟨_, rfl⟩
  · exact absurd ((Double.lt_or_beq hx hy hgt).resolve_left hlt) heq

theorem exists_compare {v w : Value} (h : t.ordered u = true) (hv : t.Holds n v) (hw : u.Holds n w) :
    ∃ o, v.compare w = .ok o := by
  have known {x y : Float} (hx : x.isNaN = false) (hy : y.isNaN = false) (e : EvalError) :
      ∃ o, (Value.compareFloat? x y).elim (.error e) Except.ok = .ok o := by
    obtain ⟨o, ho⟩ := exists_compareFloat? hx hy
    exact ⟨o, by rw [ho]; rfl⟩
  unfold ordered at h
  split at h
  · obtain ⟨⟨i, rfl⟩, j, rfl⟩ := And.intro hv hw
    exact ⟨_, rfl⟩
  · obtain ⟨⟨i, rfl⟩, y, rfl, hy⟩ := And.intro hv hw
    exact known (Number.isNaN_ofInt64 i) hy _
  · obtain ⟨⟨x, rfl, hx⟩, j, rfl⟩ := And.intro hv hw
    exact known hx (Number.isNaN_ofInt64 j) _
  · obtain ⟨⟨x, rfl, hx⟩, y, rfl, hy⟩ := And.intro hv hw
    exact known hx hy _
  · obtain ⟨⟨s, rfl⟩, r, rfl⟩ := And.intro hv hw
    exact ⟨_, rfl⟩
  · cases h

end Ty

/-- can the comparison be made between values of the types? -/
def Formula.Comparison.accepts (op : Formula.Comparison) (t u : Ty) : Bool :=
  match op with
  | .eq | .ne => true
  | .lt | .le | .gt | .ge => t.ordered u

theorem Formula.Comparison.exists_holds {op : Formula.Comparison} {n : Network} {t u : Ty} {v w : Value}
    (h : op.accepts t u = true) (hv : t.Holds n v) (hw : u.Holds n w) : ∃ b, op.holds v w = .ok b := by
  cases op with
  | eq | ne => exact ⟨_, rfl⟩
  | lt | le | gt | ge =>
    obtain ⟨o, ho⟩ := Ty.exists_compare h hv hw
    exact ⟨_, by rw [Comparison.holds, ho]; rfl⟩

/-! ## Networks whose numbers are good -/

/-- Borders have finite coordinates, and the values on signs are numbers. No rule looks at other coordinates. -/
structure Network.Numeric (n : Network) : Prop where
  borders : ∀ l ∈ n.lanelets.values, ∀ p ∈ l.left ++ l.right, p.isFinite = true
  values : ∀ s ∈ n.trafficSigns.values, ∀ p ∈ s.plates, ∀ v ∈ p.values, v.isNaN = false

namespace Builtin

variable {n : Network} {b : Builtin}

/-! ## Types of builtins -/

/-- the type of what a builtin reads off an element of a kind -/
def reads? : Kind → Builtin → Option Ty
  | _, elementId => some .int
  | .lanelet, laneletId => some .int
  | .lanelet, leftPolyline | .lanelet, rightPolyline => some (.list .point)
  | .lanelet, predecessors | .lanelet, successors | .lanelet, leftAdjacency | .lanelet, rightAdjacency
  | .lanelet, trafficSigns | .lanelet, trafficLights | .lanelet, stopLineTrafficSigns
  | .lanelet, stopLineTrafficLights => some (.list .int)
  | .trafficSign, trafficSignId => some .int
  | .trafficSign, signElements => some (.list (.part .signPlate))
  | .trafficLight, trafficLightId => some .int
  | .trafficLight, phases => some (.list .str)
  | .trafficLight, durations => some (.list .int)
  | .intersection, intersectionId => some .int
  | .intersection, incomings => some (.list (.part .incomingGroup))
  | .intersection, crossings => some (.list .int)
  | _, _ => none

/-- the type of what a builtin reads off a component of a kind -/
def readsPart? : PartKind → Builtin → Option Ty
  | .signPlate, elementCode => some .str
  | .signPlate, additionalValues => some (.list .float)
  | .incomingGroup, incomingLanelets | .incomingGroup, successorsLeft | .incomingGroup, successorsRight
  | .incomingGroup, successorsStraight | .incomingGroup, allSuccessors => some (.list .int)
  | _, _ => none

/-- the type of what a builtin makes of one argument -/
def unary? (b : Builtin) : Ty → Option Ty
  | .element (some kind) => b.reads? kind
  | .element none => if b = elementId then some .int else none
  | .part kind => b.readsPart? kind
  | .int => b.asks?.map fun _ => .bool
  | .str =>
    match b with
    | size => some .int
    | requiresAdditionalValue | isSpeedSign => some .bool
    | _ => none
  | .list item =>
    match b with
    | size => some .int
    | reverse => some (.list item)
    | selfIntersecting => if item = .point then some .bool else none
    | _ => none
  | .bool | .float | .point => none

/-- the type of what a builtin makes of two arguments -/
def binary? (b : Builtin) (t u : Ty) : Option Ty :=
  match b, t, u with
  | equal, _, _ | contains, .list _, _ => some .bool
  | less, _, _ | lessEqual, _, _ => if t.ordered u then some .bool else none
  | distance, .point, .point => some .float
  | _, _, _ => none

/-- the type of a call on arguments of the types, if the builtin takes them -/
def type? (b : Builtin) : List Ty → Option Ty
  | [t] => b.unary? t
  | [t, u] => b.binary? t u
  | _ => none

/-! ## Values of builtins -/

/-- a value of the type -/
def Gives (n : Network) (t : Ty) (outcome : Except EvalError Value) : Prop := ∃ v, outcome = .ok v ∧ t.Holds n v

theorem gives_bool (n : Network) (p : Bool) : Gives n .bool (.ok (.bool p)) := ⟨_, rfl, _, rfl⟩

theorem gives_int (n : Network) (i : Int64) : Gives n .int (.ok (.int i)) := ⟨_, rfl, _, rfl⟩

/-- what is read off an element has its type -/
theorem read?_of_reads? (hn : n.Numeric) {h : Handle} {e : Element} {t : Ty} (he : n.element? h = some e)
    (ht : b.reads? h.kind = some t) : ∃ v, b.read? h e = some v ∧ t.Holds n v := by
  cases e with
  | lanelet l =>
    obtain ⟨k, rfl, hk⟩ := Network.element?_eq_lanelet.1 he
    have finite := hn.borders l (Store.mem_values.2 ⟨k, hk⟩)
    cases b <;> simp only [reads?, Option.some.injEq, reduceCtorEq] at ht <;> subst ht
    case laneletId | elementId => exact ⟨_, rfl, _, rfl⟩
    case leftPolyline =>
      exact ⟨_, rfl, Ty.holds_ofPoints n fun p hp => finite p (List.mem_append_left _ hp)⟩
    case rightPolyline =>
      exact ⟨_, rfl, Ty.holds_ofPoints n fun p hp => finite p (List.mem_append_right _ hp)⟩
    all_goals exact ⟨_, rfl, Ty.holds_ofIds n _⟩
  | trafficSign s =>
    obtain ⟨k, rfl, -⟩ := Network.element?_eq_trafficSign.1 he
    cases b <;> simp only [reads?, Option.some.injEq, reduceCtorEq] at ht <;> subst ht
    case trafficSignId | elementId => exact ⟨_, rfl, _, rfl⟩
    case signElements => exact ⟨_, rfl, Ty.holds_partsOf fun i hi => ⟨s, he, hi⟩⟩
  | trafficLight l =>
    obtain ⟨k, rfl, -⟩ := Network.element?_eq_trafficLight.1 he
    cases b <;> simp only [reads?, Option.some.injEq, reduceCtorEq] at ht <;> subst ht
    case trafficLightId | elementId => exact ⟨_, rfl, _, rfl⟩
    all_goals exact ⟨_, rfl, Ty.holds_list_map fun _ _ => ⟨_, rfl⟩⟩
  | intersection x =>
    obtain ⟨k, rfl, -⟩ := Network.element?_eq_intersection.1 he
    cases b <;> simp only [reads?, Option.some.injEq, reduceCtorEq] at ht <;> subst ht
    case intersectionId | elementId => exact ⟨_, rfl, _, rfl⟩
    case incomings => exact ⟨_, rfl, Ty.holds_partsOf fun i hi => ⟨x, he, hi⟩⟩
    case crossings => exact ⟨_, rfl, Ty.holds_ofIds n _⟩

theorem gives_of_reads? (hn : n.Numeric) {h : Handle} {e : Element} {t : Ty} (he : n.element? h = some e)
    (ht : b.reads? h.kind = some t) : Gives n t (b.apply n.view [.element h]) := by
  obtain ⟨v, hv, htype⟩ := read?_of_reads? hn he ht
  exact ⟨v, apply_of_read? he hv, htype⟩

/-- what is read off a component has its type -/
theorem gives_of_readsPart? (hn : n.Numeric) {p : Part} {t : Ty} (hp : n.HasPart p)
    (ht : b.readsPart? p.kind = some t) : Gives n t (b.apply n.view [.part p]) := by
  obtain ⟨owner, kind, i⟩ := p
  cases kind with
  | signPlate =>
    obtain ⟨s, hs, hi⟩ := hp
    obtain ⟨k, rfl, hk⟩ := Network.element?_eq_trafficSign.1 hs
    have read {v : Value} (hv : b.readPlate? s.plates[i] = some v) :
        b.apply n.view [.part ⟨⟨.trafficSign, k⟩, .signPlate, i⟩] = .ok v :=
      apply_of_readPlate? hk (List.getElem?_eq_getElem hi) hv
    cases b <;> simp only [readsPart?, Option.some.injEq, reduceCtorEq] at ht <;> subst ht
    case elementCode => exact ⟨_, read rfl, _, rfl⟩
    case additionalValues =>
      refine ⟨_, read rfl, Ty.holds_list_map fun v hv => ⟨v, rfl, ?_⟩⟩
      exact hn.values s (Store.mem_values.2 ⟨k, hk⟩) _ (List.getElem_mem hi) v hv
  | cycleStep => cases b <;> cases ht
  | incomingGroup =>
    obtain ⟨x, hx, hi⟩ := hp
    obtain ⟨k, rfl, hk⟩ := Network.element?_eq_intersection.1 hx
    have read {ids : List ElementId} (hids : b.readGroup? x.incomings[i] = some ids) :
        b.apply n.view [.part ⟨⟨.intersection, k⟩, .incomingGroup, i⟩] = .ok (.ofIds ids) :=
      apply_of_readGroup? hk (List.getElem?_eq_getElem hi) hids
    cases b <;> simp only [readsPart?, Option.some.injEq, reduceCtorEq] at ht <;> subst ht <;>
      exact ⟨_, read rfl, Ty.holds_ofIds n _⟩

/-- whether an integer resolves is always known, also if it is no id -/
theorem gives_of_asks? {kind : Kind} (hb : b.asks? = some kind) (i : Int64) :
    Gives n .bool (b.apply n.view [.int i]) := by
  cases b <;> cases hb <;> exact gives_bool n _

theorem gives_of_list {items : List Value} {item t : Ty} (hitems : ∀ w ∈ items, item.Holds n w)
    (ht : b.unary? (.list item) = some t) : Gives n t (b.apply n.view [.list items]) := by
  cases b <;> try cases ht
  case size => exact gives_int n _
  case reverse => exact ⟨_, rfl, _, rfl, fun w hw => hitems w (List.mem_reverse.1 hw)⟩
  case selfIntersecting =>
    simp only [unary?] at ht
    split_ifs at ht with hpoint
    cases ht
    subst hpoint
    obtain ⟨points, rfl⟩ : ∃ points : List Point, items = points.map .point := by
      induction items with
      | nil => exact ⟨[], rfl⟩
      | cons w items ih =>
        obtain ⟨p, rfl, -⟩ := hitems w List.mem_cons_self
        obtain ⟨points, rfl⟩ := ih fun w hw => hitems w (List.mem_cons_of_mem _ hw)
        exact ⟨p :: points, rfl⟩
    exact ⟨_, Setting.call_selfIntersecting (n := n) points, _, rfl⟩

theorem gives_of_unary? (hn : n.Numeric) {t u : Ty} {v : Value} (ht : b.unary? t = some u) (hv : t.Holds n v) :
    Gives n u (b.apply n.view [v]) := by
  cases t with
  | bool | float | point => cases ht
  | int =>
    obtain ⟨i, rfl⟩ := hv
    obtain ⟨kind, hb, rfl⟩ := Option.map_eq_some_iff.1 ht
    exact gives_of_asks? hb i
  | str =>
    obtain ⟨s, rfl⟩ := hv
    cases b <;> simp only [unary?, Option.some.injEq, reduceCtorEq] at ht <;> subst ht
    case size => exact gives_int n _
    all_goals exact gives_bool n _
  | list item =>
    obtain ⟨items, rfl, hitems⟩ := hv
    exact gives_of_list hitems ht
  | element kind =>
    obtain ⟨h, e, rfl, he, hkind⟩ := hv
    cases kind with
    | some kind =>
      obtain rfl := hkind kind rfl
      exact gives_of_reads? hn he ht
    | none =>
      rw [unary?] at ht
      split_ifs at ht with hb
      subst hb
      refine gives_of_reads? hn he (Eq.trans ?_ ht)
      cases h.kind <;> rfl
  | part kind =>
    obtain ⟨p, rfl, rfl, hp⟩ := hv
    exact gives_of_readsPart? hn hp ht

theorem gives_of_binary? {t u r : Ty} {v w : Value} (ht : b.binary? t u = some r) (hv : t.Holds n v)
    (hw : u.Holds n w) : Gives n r (b.apply n.view [v, w]) := by
  cases b <;> try cases ht
  case equal => exact gives_bool n _
  case less | lessEqual =>
    simp only [binary?] at ht
    split_ifs at ht with hordered
    cases ht
    obtain ⟨o, ho⟩ := Ty.exists_compare hordered hv hw
    simp only [apply, List.getElem?_cons_zero, List.getElem?_cons_succ, ho, bind, Except.bind, pure, Except.pure]
    exact gives_bool n _
  case contains =>
    cases t <;> cases ht
    obtain ⟨items, rfl, -⟩ := hv
    exact gives_bool n _
  case distance =>
    cases t <;> cases u <;> cases ht
    obtain ⟨⟨p, rfl, hp⟩, q, rfl, hq⟩ := And.intro hv hw
    exact ⟨_, Setting.call_distance n p q, _, rfl, Vec2.isNaN_distance hp hq⟩

/-- **Builtins.** On arguments of the types it takes a builtin has a value of its type. -/
theorem apply_of_type? (hn : n.Numeric) {ts : List Ty} {t : Ty} {vs : List Value} (ht : b.type? ts = some t)
    (hvs : List.Forall₂ (Ty.Holds n) ts vs) : Gives n t (b.apply n.view vs) := by
  cases hvs with
  | nil => cases ht
  | cons hv hvs =>
    cases hvs with
    | nil => exact gives_of_unary? hn ht hv
    | cons hw hvs =>
      cases hvs with
      | nil => exact gives_of_binary? ht hv hw
      | cons _ _ => cases ht

end Builtin

/-! ## Types of code -/

/-- the type of a call; subformulas have signatures, and give truth values -/
def Callee.type? (signatures : List (List Ty)) (ts : List Ty) : Callee → Option Ty
  | .builtin b => b.type? ts
  | .subformula i =>
    match signatures[i]? with
    | some us => if List.Forall₂ Ty.Fits ts us then some .bool else none
    | none => none

mutual

/-- the type of an operand whose variables have the types of a context -/
def Operand.type? (signatures : List (List Ty)) (context : List Ty) : Operand → Option Ty
  | .slot k => context[k]?
  | .const (.bool _) => some .bool
  | .const (.int _) => some .int
  | .const (.str _) => some .str
  | .const _ => none
  | .call callee args =>
    match Operand.types? signatures context args with
    | some ts => callee.type? signatures ts
    | none => none

def Operand.types? (signatures : List (List Ty)) (context : List Ty) : List Operand → Option (List Ty)
  | [] => some []
  | t :: rest =>
    match Operand.type? signatures context t, Operand.types? signatures context rest with
    | some t, some ts => some (t :: ts)
    | _, _ => none

end

/-- the type of the items that a quantifier goes through -/
def Items.itemType? (signatures : List (List Ty)) (context : List Ty) : Items → Option Ty
  | .domain d => some (.element (NetworkIndex.kind? d))
  | .operand t =>
    match t.type? signatures context with
    | some (.list item) => some item
    | _ => none

/-- does the code make sense if its variables have the types of the context? -/
def Code.wellTyped (signatures : List (List Ty)) : Code → List Ty → Bool
  | .quantified _ _ range body, context =>
    match range.itemType? signatures context with
    | some item => body.wellTyped signatures (context ++ [item])
    | none => false
  | .not inner, context => inner.wellTyped signatures context
  | .connected _ lhs rhs, context => lhs.wellTyped signatures context && rhs.wellTyped signatures context
  | .predicate callee args, context => (Operand.call callee args).type? signatures context = some .bool
  | .compared op lhs rhs, context =>
    match lhs.type? signatures context, rhs.type? signatures context with
    | some t, some u => op.accepts t u
    | _, _ => false
  | .literal _, _ => true

/-! ## Truth of well-typed code -/

/-- an evaluator for a network, with subformulas that are true or false of arguments of their signatures -/
structure Setting.Typed (s : Setting) (n : Network) (signatures : List (List Ty)) : Prop where
  view : s.view = n.view
  meanings : List.Forall₂ (fun (meaning : List Value → Except EvalError Bool) ts =>
    ∀ args, List.Forall₂ (Ty.Holds n) ts args → ∃ p, meaning args = .ok p) s.subformulas signatures

namespace Setting

/-- a quantifier has a truth value if its body has one at each item -/
theorem exists_firstDecisive {test : Value → Except EvalError Bool} (decisive : Bool) {vs : List Value}
    (h : ∀ v ∈ vs, ∃ p, test v = .ok p) : ∃ p, firstDecisive test decisive vs = .ok p := by
  induction vs with
  | nil => exact ⟨_, rfl⟩
  | cons v vs ih =>
    obtain ⟨p, hp⟩ := h v List.mem_cons_self
    simp only [firstDecisive, hp, bind, Except.bind]
    split_ifs
    · exact ⟨_, rfl⟩
    · exact ih fun w hw => h w (List.mem_cons_of_mem _ hw)

namespace Typed

variable {s : Setting} {n : Network} {signatures : List (List Ty)} {context : List Ty} {env : List Value}

theorem call_of_type? (hs : s.Typed n signatures) (hn : n.Numeric) {callee : Callee} {ts : List Ty} {t : Ty}
    {vs : List Value} (ht : callee.type? signatures ts = some t) (hvs : List.Forall₂ (Ty.Holds n) ts vs) :
    Builtin.Gives n t (s.call callee vs) := by
  cases callee with
  | builtin b =>
    rw [call, hs.view]
    exact Builtin.apply_of_type? hn ht hvs
  | subformula i =>
    rw [Callee.type?] at ht
    split at ht
    · next us hi =>
      split_ifs at ht with hfits
      cases ht
      obtain ⟨hlt, rfl⟩ := List.getElem?_eq_some_iff.1 hi
      have hi' : i < s.subformulas.length := hs.meanings.length_eq ▸ hlt
      obtain ⟨p, hp⟩ := hs.meanings.get hi' hlt vs (Ty.holds_of_fits hvs hfits)
      simp only [List.get_eq_getElem] at hp
      simp only [call, List.getElem?_eq_getElem hi', hp]
      exact Builtin.gives_bool n p
    · cases ht

mutual

theorem operand_of_type? (hs : s.Typed n signatures) (hn : n.Numeric) (henv : List.Forall₂ (Ty.Holds n) context env) :
    ∀ (o : Operand) {t : Ty}, o.type? signatures context = some t → Builtin.Gives n t (s.operand env o)
  | .slot k, t, ht => by
    obtain ⟨hk, rfl⟩ := List.getElem?_eq_some_iff.1 ht
    have hk' : k < env.length := henv.length_eq ▸ hk
    simp only [operand, List.getElem?_eq_getElem hk']
    exact ⟨_, rfl, henv.get hk hk'⟩
  | .const v, t, ht => by
    cases v <;> simp only [Operand.type?, Option.some.injEq, reduceCtorEq] at ht <;> subst ht <;>
      exact ⟨_, rfl, _, rfl⟩
  | .call callee args, t, ht => by
    rw [Operand.type?] at ht
    split at ht
    · next ts hts =>
      obtain ⟨vs, hvs, hholds⟩ := hs.operands_of_types? hn henv args hts
      obtain ⟨v, hv, htype⟩ := hs.call_of_type? hn ht hholds
      exact ⟨v, by simp only [operand, hvs, hv, bind, Except.bind], htype⟩
    · cases ht

theorem operands_of_types? (hs : s.Typed n signatures) (hn : n.Numeric)
    (henv : List.Forall₂ (Ty.Holds n) context env) : ∀ (os : List Operand) {ts : List Ty},
      Operand.types? signatures context os = some ts →
        ∃ vs, s.operands env os = .ok vs ∧ List.Forall₂ (Ty.Holds n) ts vs
  | [], ts, hts => by
    cases hts
    exact ⟨[], rfl, .nil⟩
  | o :: os, ts, hts => by
    rw [Operand.types?] at hts
    split at hts
    · next t ts' ht hts' =>
      cases hts
      obtain ⟨v, hv, htype⟩ := hs.operand_of_type? hn henv o ht
      obtain ⟨vs, hvs, htypes⟩ := hs.operands_of_types? hn henv os hts'
      exact ⟨v :: vs, by simp only [operands, hv, hvs, bind, Except.bind, pure, Except.pure], .cons htype htypes⟩
    · cases hts

end

variable (hs : s.Typed n signatures) (hn : n.Numeric)

include hs hn

theorem items_of_itemType? (henv : List.Forall₂ (Ty.Holds n) context env) {range : Items} {item : Ty}
    (ht : range.itemType? signatures context = some item) :
    ∃ vs, s.items env range = .ok vs ∧ ∀ v ∈ vs, item.Holds n v := by
  cases range with
  | domain d =>
    cases ht
    exact ⟨_, rfl, List.forall_mem_map.2 fun h hh => Ty.holds_of_domain (by rwa [hs.view] at hh)⟩
  | operand o =>
    rw [Items.itemType?] at ht
    split at ht
    · next item' hitem =>
      cases ht
      obtain ⟨_, hv, vs, rfl, hvs⟩ := hs.operand_of_type? hn henv o hitem
      exact ⟨vs, by simp only [items, hv, bind, Except.bind]; rfl, hvs⟩
    · cases ht

/-- **Well-typed code has a truth value**, wherever its variables have the types of its context. -/
theorem exists_truth (c : Code) {context : List Ty} {env : List Value} (hc : c.wellTyped signatures context = true)
    (henv : List.Forall₂ (Ty.Holds n) context env) : ∃ p, s.truth c env = .ok p := by
  induction c generalizing context env with
  | literal p => exact ⟨p, rfl⟩
  | not inner ih =>
    obtain ⟨p, hp⟩ := ih hc henv
    exact ⟨!p, by simp only [truth, hp]; rfl⟩
  | connected op lhs rhs ihl ihr =>
    obtain ⟨hl, hr⟩ := Bool.and_eq_true_iff.1 hc
    obtain ⟨p, hp⟩ := ihl hl henv
    obtain ⟨q, hq⟩ := ihr hr henv
    simp only [truth, hp, hq, bind, Except.bind]
    cases op <;> cases p <;> exact ⟨_, rfl⟩
  | compared op lhs rhs =>
    rw [Code.wellTyped] at hc
    split at hc
    · next t u ht hu =>
      obtain ⟨v, hv, hvt⟩ := hs.operand_of_type? hn henv lhs ht
      obtain ⟨w, hw, hwu⟩ := hs.operand_of_type? hn henv rhs hu
      rw [truth_compared op hv hw]
      exact Formula.Comparison.exists_holds hc hvt hwu
    · cases hc
  | predicate callee args =>
    obtain ⟨_, hv, p, rfl⟩ := hs.operand_of_type? hn henv (.call callee args) (of_decide_eq_true hc)
    have hcall : s.truth (.predicate callee args) env =
        s.operand env (.call callee args) >>= Value.asBool "predicate" := by
      simp only [truth, operand, bind_assoc]
    exact ⟨p, by rw [hcall, hv]; rfl⟩
  | quantified q slot range body ih =>
    rw [Code.wellTyped] at hc
    split at hc
    · next item hitem =>
      obtain ⟨vs, hvs, hitems⟩ := hs.items_of_itemType? hn henv hitem
      simp only [truth, hvs, bind, Except.bind]
      exact exists_firstDecisive _ fun v hv => ih hc (List.rel_append henv (.cons (hitems v hv) .nil))
    · cases hc

end Typed

end Setting

/-! ## Tables of subformulas -/

/-- Is every subformula of a table well-typed for its signature, if it may call the ones before it? -/
def CompiledSubformula.wellTypedTable (earlier : List (List Ty)) : List (CompiledSubformula × List Ty) → Bool
  | [] => true
  | (sub, ts) :: rest =>
    sub.body.nested ts.length && sub.body.wellTyped earlier ts && wellTypedTable (earlier ++ [ts]) rest

/-- **Subformulas.** They are true or false of arguments of their signatures, as each calls only the ones before it. -/
theorem Setting.Typed.load {n : Network} (hn : n.Numeric) {table : List (CompiledSubformula × List Ty)}
    (h : CompiledSubformula.wellTypedTable [] table = true) :
    (Setting.load n.view (table.map (·.1))).Typed n (table.map (·.2)) := by
  have extend : ∀ (earlier : List (List Ty)) (s : Setting), s.Typed n earlier →
      CompiledSubformula.wellTypedTable earlier table = true →
      ((table.map (·.1)).foldl (fun s sub => { s with subformulas := s.subformulas ++ [s.meaning sub] }) s).Typed n
        (earlier ++ table.map (·.2)) := by
    clear h
    induction table with
    | nil =>
      intro earlier s hs _
      simpa using hs
    | cons entry table ih =>
      obtain ⟨sub, ts⟩ := entry
      intro earlier s hs h
      obtain ⟨hsub, hrest⟩ := Bool.and_eq_true_iff.1 h
      obtain ⟨hnested, htyped⟩ := Bool.and_eq_true_iff.1 hsub
      have hs' : Setting.Typed { s with subformulas := s.subformulas ++ [s.meaning sub] } n (earlier ++ [ts]) := by
        refine ⟨hs.view, List.rel_append hs.meanings (.cons (fun args hargs => ?_) .nil)⟩
        rw [Setting.meaning_eq_truth s sub args (hargs.length_eq ▸ hnested)]
        exact hs.exists_truth hn sub.body htyped hargs
      have := ih (earlier ++ [ts]) _ hs' hrest
      simpa using this
  exact extend [] ⟨n.view, []⟩ ⟨rfl, .nil⟩ h

end RoadRules

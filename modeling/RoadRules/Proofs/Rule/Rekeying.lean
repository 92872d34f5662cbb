/-
Verification does not depend on storage keys.

Values of formulas may stand for elements, which they know by their keys. Formulas can compare such values, look them
up in lists and pass them on, but they cannot look at a key. So two evaluations in networks that differ in their keys
only (`Network.Rekeyed`) go the same way, with other keys in their values:

- `Carried`: an outcome is another one with its value changed.
- `Builtin.apply_rekey`, `Setting.Rekeyed.holds_rekey`: builtins and code carry the change of keys.
- `FittingTable.rekeyed_load`: so do tables of subformulas.
- `Catalog.verify_rebuilt`: hence a network and the one that is built from its document have the same violations.
-/
import RoadRules.Proofs.Network.Rekeyed
import RoadRules.Proofs.Rule.Safety
import RoadRules.Rule.Verify

namespace RoadRules

variable {ρ : Rekeying} {n m : Network}

/-! ## Values under other keys -/

def Part.rekey (ρ : Rekeying) (p : Part) : Part := { p with owner := p.owner.rekey ρ }

@[simp] theorem Part.rekey_inj {p q : Part} : p.rekey ρ = q.rekey ρ ↔ p = q := by
  cases p; cases q
  simp [Part.rekey]

namespace Value

mutual

/-- the value with other keys for the elements in it -/
def rekey (ρ : Rekeying) : Value → Value
  | element h => element (h.rekey ρ)
  | part p => part (p.rekey ρ)
  | list items => list (rekeyAll ρ items)
  | bool b => bool b
  | int i => int i
  | float x => float x
  | str s => str s
  | point p => point p

def rekeyAll (ρ : Rekeying) : List Value → List Value
  | [] => []
  | v :: rest => rekey ρ v :: rekeyAll ρ rest

end

theorem rekeyAll_eq (vs : List Value) : rekeyAll ρ vs = vs.map (rekey ρ) := by
  induction vs with
  | nil => rfl
  | cons v vs ih => rw [rekeyAll, ih, List.map_cons]

theorem rekey_list (items : List Value) : (list items).rekey ρ = list (items.map (rekey ρ)) := by
  rw [rekey, rekeyAll_eq]

theorem rekey_of_isPlain {v : Value} (h : v.isPlain = true) : v.rekey ρ = v := by
  cases v with
  | element _ | part _ | list _ => cases h
  | _ => rfl

/-- a list of values without elements and lists -/
theorem rekey_list_map {α : Type} {f : α → Value} (hf : ∀ a, (f a).isPlain = true) (items : List α) :
    (list (items.map f)).rekey ρ = list (items.map f) := by
  rw [rekey_list, List.map_map]
  exact congrArg list (List.map_congr_left fun a _ => rekey_of_isPlain (hf a))

theorem rekey_partsOf (owner : Handle) (kind : PartKind) (count : Nat) :
    (Builtin.partsOf owner kind count).rekey ρ = Builtin.partsOf (owner.rekey ρ) kind count := by
  rw [Builtin.partsOf, rekey_list, List.map_map]
  rfl

mutual

/-- values that are equal stay equal, and others do not become so -/
theorem looseEq_rekey : ∀ v w : Value, (v.rekey ρ).looseEq (w.rekey ρ) = v.looseEq w
  | .list as, w => by
    cases w with
    | list bs => exact looseEqAll_rekey as bs
    | _ => rfl
  | .element g, w => by
    cases w with
    | element h =>
      change (g.rekey ρ == h.rekey ρ) = (g == h)
      rw [Bool.eq_iff_iff, beq_iff_eq, beq_iff_eq, Handle.rekey_inj]
    | _ => rfl
  | .part p, w => by
    cases w with
    | part q =>
      change (p.rekey ρ == q.rekey ρ) = (p == q)
      rw [Bool.eq_iff_iff, beq_iff_eq, beq_iff_eq, Part.rekey_inj]
    | _ => rfl
  | .bool _, w | .int _, w | .float _, w | .str _, w | .point _, w => by cases w <;> rfl

theorem looseEqAll_rekey : ∀ vs ws : List Value, looseEqAll (rekeyAll ρ vs) (rekeyAll ρ ws) = looseEqAll vs ws
  | [], [] | [], _ :: _ | _ :: _, [] => rfl
  | v :: vs, w :: ws => by
    simp only [rekeyAll, looseEqAll, looseEq_rekey v w, looseEqAll_rekey vs ws]

end

theorem compare_rekey (v w : Value) : (v.rekey ρ).compare (w.rekey ρ) = v.compare w := by
  cases v <;> cases w <;> rfl

theorem asBool_rekey (f : String) (v : Value) : (v.rekey ρ).asBool f = v.asBool f := by cases v <;> rfl

theorem asInt_rekey (f : String) (v : Value) : (v.rekey ρ).asInt f = v.asInt f := by cases v <;> rfl

theorem asNumber_rekey (f : String) (v : Value) : (v.rekey ρ).asNumber f = v.asNumber f := by cases v <;> rfl

theorem asStr_rekey (f : String) (v : Value) : (v.rekey ρ).asStr f = v.asStr f := by cases v <;> rfl

theorem asPoint_rekey (f : String) (v : Value) : (v.rekey ρ).asPoint f = v.asPoint f := by cases v <;> rfl

end Value

theorem Formula.Comparison.holds_rekey (op : Formula.Comparison) (v w : Value) :
    op.holds (v.rekey ρ) (w.rekey ρ) = op.holds v w := by
  cases op <;> simp only [holds, Value.looseEq_rekey, Value.compare_rekey]

/-! ## Outcomes -/

/-- the second outcome is the first one with its value changed -/
def Carried {α β : Type} (f : α → β) (x : Except EvalError α) (y : Except EvalError β) : Prop := y = x.map f

namespace Carried

variable {α β γ δ : Type} {f : α → β} {g : γ → δ} {x : Except EvalError α} {y : Except EvalError β}

theorem bind {F : α → Except EvalError γ} {G : β → Except EvalError δ} (hx : Carried f x y)
    (h : ∀ a, Carried g (F a) (G (f a))) : Carried g (x >>= F) (y >>= G) := by
  obtain rfl : y = x.map f := hx
  cases x with
  | ok a => exact h a
  | error e => rfl

/-- an outcome that is the same in both -/
theorem bind_same {z : Except EvalError α} {F : α → Except EvalError γ} {G : α → Except EvalError δ} (hx : z = x)
    (h : ∀ a, Carried g (F a) (G a)) : Carried g (x >>= F) (z >>= G) := by
  obtain rfl := hx
  cases z with
  | ok a => exact h a
  | error e => rfl

/-- a value without elements and lists -/
theorem plain {v : Value} (h : v.isPlain = true) : Carried (Value.rekey ρ) (.ok v) (.ok v) :=
  congrArg Except.ok (Value.rekey_of_isPlain h).symm

theorem list_map {f : α → Value} (hf : ∀ a, (f a).isPlain = true) (items : List α) :
    Carried (Value.rekey ρ) (.ok (.list (items.map f))) (.ok (.list (items.map f))) :=
  congrArg Except.ok (Value.rekey_list_map hf items).symm

theorem ofIds (ids : List ElementId) : Carried (Value.rekey ρ) (.ok (.ofIds ids)) (.ok (.ofIds ids)) :=
  list_map (fun _ => rfl) ids

theorem ofPoints (points : List Point) :
    Carried (Value.rekey ρ) (.ok (.ofPoints points)) (.ok (.ofPoints points)) :=
  list_map (fun _ => rfl) points

end Carried

namespace Builtin

/-! ## Arguments of builtins -/

theorem asList_rekey (f : String) (v : Value) :
    Carried (List.map (Value.rekey ρ)) (v.asList f) ((v.rekey ρ).asList f) := by
  cases v with
  | list items => rw [Value.rekey_list]; rfl
  | _ => rfl

theorem itemAt_rekey (f : String) (items : List Value) (i : Int) :
    Carried (Value.rekey ρ) (itemAt f items i) (itemAt f (items.map (Value.rekey ρ)) i) := by
  unfold itemAt
  split_ifs
  · rw [List.length_map]; rfl
  · rw [List.getElem?_map, List.length_map]
    cases items[i.toNat]? <;> rfl

theorem pointsOf_rekey (f : String) (v : Value) : pointsOf f (v.rekey ρ) = pointsOf f v := by
  cases v with
  | list items =>
    rw [Value.rekey_list]
    change (items.map (Value.rekey ρ)).mapM (Value.asPoint f) = items.mapM (Value.asPoint f)
    induction items with
    | nil => rfl
    | cons w items ih => rw [List.map_cons, List.mapM_cons, List.mapM_cons, Value.asPoint_rekey, ih]
  | _ => rfl

theorem handleOf_rekey (kind : Kind) (f : String) (v : Value) :
    Carried (Handle.rekey ρ) (handleOf kind f v) (handleOf kind f (v.rekey ρ)) := by
  cases v with
  | element h =>
    rw [Carried, Value.rekey, handleOf, handleOf]
    by_cases hk : h.kind = kind
    · rw [if_pos hk, if_pos (h.kind_rekey ρ ▸ hk)]; rfl
    · rw [if_neg hk, if_neg (h.kind_rekey ρ ▸ hk)]; rfl
  | _ => rfl

theorem partOf_rekey (kind : PartKind) (f : String) (v : Value) :
    Carried (Part.rekey ρ) (partOf kind f v) (partOf kind f (v.rekey ρ)) := by
  cases v with
  | part p =>
    rw [Carried, Value.rekey, partOf, partOf]
    by_cases hk : p.kind = kind
    · rw [if_pos hk, if_pos (show (p.rekey ρ).kind = kind from hk)]; rfl
    · rw [if_neg hk, if_neg (show ¬ (p.rekey ρ).kind = kind from hk)]; rfl
  | _ => rfl

theorem existsId_rekey (h : n.Rekeyed ρ m) (kind : Kind) (f : String) (v : Value) :
    Carried (Value.rekey ρ) (existsId n.view kind f v) (existsId m.view kind f (v.rekey ρ)) := by
  have resolves (id : ElementId) :
      m.view.index.resolves m.external kind id = n.view.index.resolves n.external kind id := by
    change (NetworkIndex.build m).resolves m.external kind id = (NetworkIndex.build n).resolves n.external kind id
    rw [NetworkIndex.resolves_build, NetworkIndex.resolves_build, h.resolves_rekey]
  refine .bind_same (Value.asInt_rekey f v) fun i => ?_
  exact congrArg (fun r => Except.ok (Value.bool (_ && r))) (resolves _)

theorem arithmetic_rekey (f : String) (ints : Int → Int → Int) (floats : Float → Float → Float) (v w : Value) :
    Carried (Value.rekey ρ) (arithmetic f ints floats v w)
      (arithmetic f ints floats (v.rekey ρ) (w.rekey ρ)) := by
  have onFloats : Carried (Value.rekey ρ)
      (do
        let x ← v.asNumber f
        let y ← w.asNumber f
        return Value.float (floats x y))
      (do
        let x ← (v.rekey ρ).asNumber f
        let y ← (w.rekey ρ).asNumber f
        return Value.float (floats x y)) :=
    .bind_same (Value.asNumber_rekey f v) fun _ => .bind_same (Value.asNumber_rekey f w) fun _ => rfl
  cases v with
  | int x =>
    cases w with
    | int y =>
      simp only [arithmetic, Value.rekey]
      split_ifs
      · rfl
      · exact onFloats
    | _ => exact onFloats
  | _ => exact onFloats

section Elements

variable (h : n.Rekeyed ρ m) (f : String) (v : Value)

/-- an element of a kind that a value stands for -/
theorem elementOf_rekey {α : Type} {kind : Kind} {store store' : Store α}
    (hstore : ∀ k, store'.get? (ρ kind k) = store.get? k) :
    (handleOf kind f (v.rekey ρ) >>= fun x => orDangling kind (store'.get? x.key)) =
      handleOf kind f v >>= fun x => orDangling kind (store.get? x.key) := by
  cases v with
  | element x =>
    rw [Value.rekey, handleOf, handleOf]
    by_cases hk : x.kind = kind
    · rw [if_pos hk, if_pos (x.kind_rekey ρ ▸ hk)]
      subst hk
      exact congrArg (orDangling x.kind) (hstore x.key)
    · rw [if_neg hk, if_neg (x.kind_rekey ρ ▸ hk)]; rfl
  | _ => rfl

/-- an item of an element that a component belongs to -/
theorem itemOf_rekey {α β : Type} {kind : PartKind} {decode decode' : Value → Except EvalError α}
    (hdecode : ∀ v, decode' (v.rekey ρ) = decode v) (items : α → List β) :
    (partOf kind f (v.rekey ρ) >>= fun p => decode' (.element p.owner) >>= fun a => itemAt f (items a) p.index) =
      partOf kind f v >>= fun p => decode (.element p.owner) >>= fun a => itemAt f (items a) p.index := by
  obtain heq : partOf kind f (v.rekey ρ) = (partOf kind f v).map (Part.rekey ρ) := partOf_rekey kind f v
  rw [heq]
  cases partOf kind f v with
  | error e => rfl
  | ok p =>
    have howner : decode' (.element (p.owner.rekey ρ)) = decode (.element p.owner) := hdecode (.element p.owner)
    exact congrArg (· >>= fun a => itemAt f (items a) p.index) howner

include h

theorem laneletOf_rekey : laneletOf m f (v.rekey ρ) = laneletOf n f v := elementOf_rekey f v h.get?_lanelets

theorem trafficSignOf_rekey : trafficSignOf m f (v.rekey ρ) = trafficSignOf n f v :=
  elementOf_rekey f v h.get?_trafficSigns

theorem trafficLightOf_rekey : trafficLightOf m f (v.rekey ρ) = trafficLightOf n f v :=
  elementOf_rekey f v h.get?_trafficLights

theorem intersectionOf_rekey : intersectionOf m f (v.rekey ρ) = intersectionOf n f v :=
  elementOf_rekey f v h.get?_intersections

theorem signPlateOf_rekey : signPlateOf m f (v.rekey ρ) = signPlateOf n f v :=
  itemOf_rekey f v (trafficSignOf_rekey h f) (·.plates)

theorem cycleStepOf_rekey : cycleStepOf m f (v.rekey ρ) = cycleStepOf n f v :=
  itemOf_rekey f v (trafficLightOf_rekey h f) (·.cycle)

theorem incomingGroupOf_rekey : incomingGroupOf m f (v.rekey ρ) = incomingGroupOf n f v :=
  itemOf_rekey f v (intersectionOf_rekey h f) (·.incomings)

end Elements

/-! ## Builtins -/

/-- an argument that a builtin asks for, if it is there -/
theorem arg_rekey (ρ : Rekeying) (b : Builtin) (args : List Value) (i : Nat) : Carried (Value.rekey ρ)
    (match args[i]? with
      | some x => .ok x
      | none => .error (.missingArgument b.name i))
    (match (args.map (Value.rekey ρ))[i]? with
      | some x => .ok x
      | none => .error (.missingArgument b.name i)) := by
  rw [List.getElem?_map]
  cases args[i]? <;> rfl

/-- **Builtins.** Under other keys a builtin does the same, and its value is the same under these keys. -/
theorem apply_rekey (h : n.Rekeyed ρ m) (b : Builtin) (args : List Value) :
    Carried (Value.rekey ρ) (b.apply n.view args) (b.apply m.view (args.map (Value.rekey ρ))) := by
  have arg := arg_rekey ρ b args
  have ofLanelet (v : Value) := laneletOf_rekey h b.name v
  have ofSign (v : Value) := trafficSignOf_rekey h b.name v
  have ofLight (v : Value) := trafficLightOf_rekey h b.name v
  have ofIntersection (v : Value) := intersectionOf_rekey h b.name v
  have ofPlate (v : Value) := signPlateOf_rekey h b.name v
  have ofStep (v : Value) := cycleStepOf_rekey h b.name v
  have ofGroup (v : Value) := incomingGroupOf_rekey h b.name v
  cases b with
  | equal =>
    exact (arg 0).bind fun x => (arg 1).bind fun y =>
      congrArg (fun r => Except.ok (Value.bool r)) (Value.looseEq_rekey x y)
  | less | lessEqual =>
    exact (arg 0).bind fun x => (arg 1).bind fun y => .bind_same (Value.compare_rekey x y) fun _ => rfl
  | size =>
    refine (arg 0).bind fun x => ?_
    cases x with
    | list items => rw [Value.rekey_list]; exact congrArg (fun k => Except.ok (Value.ofNat k)) (List.length_map _)
    | _ => rfl
  | index =>
    refine (arg 1).bind fun wanted => (arg 0).bind fun x => (asList_rekey _ x).bind fun items => ?_
    have hplace : (items.map (Value.rekey ρ)).findIdx? (·.looseEq (wanted.rekey ρ)) =
        items.findIdx? (·.looseEq wanted) := by
      rw [List.findIdx?_map]
      simp only [Function.comp_def, Value.looseEq_rekey]
    rw [hplace]
    cases items.findIdx? (·.looseEq wanted) <;> rfl
  | reverse =>
    refine (arg 0).bind fun x => (asList_rekey _ x).bind fun items => ?_
    exact congrArg Except.ok (by rw [Value.rekey_list, List.map_reverse])
  | contains =>
    refine (arg 1).bind fun wanted => (arg 0).bind fun x => (asList_rekey _ x).bind fun items => ?_
    refine congrArg (fun r => Except.ok (Value.bool r)) ?_
    rw [List.any_map]
    simp only [Function.comp_def, Value.looseEq_rekey]
  | nth =>
    exact (arg 0).bind fun x => (asList_rekey _ x).bind fun items => (arg 1).bind fun i =>
      .bind_same (Value.asInt_rekey _ i) fun k => itemAt_rekey _ items _
  | add | sub => exact (arg 0).bind fun x => (arg 1).bind fun y => arithmetic_rekey _ _ _ x y
  | distance =>
    exact (arg 0).bind fun x => .bind_same (Value.asPoint_rekey _ x) fun p => (arg 1).bind fun y =>
      .bind_same (Value.asPoint_rekey _ y) fun q => .plain rfl
  | selfIntersecting => exact (arg 0).bind fun x => .bind_same (pointsOf_rekey _ x) fun _ => .plain rfl
  | elementId =>
    refine (arg 0).bind fun x => ?_
    cases x with
    | element x => exact .bind_same (congrArg (orDangling x.kind) (h.idOf?_rekey x)) fun _ => .plain rfl
    | _ => rfl
  | laneletId => exact (arg 0).bind fun x => .bind_same (ofLanelet x) fun _ => .plain rfl
  | trafficSignId => exact (arg 0).bind fun x => .bind_same (ofSign x) fun _ => .plain rfl
  | trafficLightId => exact (arg 0).bind fun x => .bind_same (ofLight x) fun _ => .plain rfl
  | intersectionId => exact (arg 0).bind fun x => .bind_same (ofIntersection x) fun _ => .plain rfl
  | leftPolyline | rightPolyline | centerPolyline =>
    exact (arg 0).bind fun x => .bind_same (ofLanelet x) fun _ => .ofPoints _
  | predecessors | successors | leftAdjacency | rightAdjacency | trafficSigns | trafficLights | stopLineTrafficSigns
  | stopLineTrafficLights => exact (arg 0).bind fun x => .bind_same (ofLanelet x) fun _ => .ofIds _
  | laneletTypes => exact (arg 0).bind fun x => .bind_same (ofLanelet x) fun _ => .list_map (fun _ => rfl) _
  | signElements =>
    exact (arg 0).bind fun x => (handleOf_rekey _ _ x).bind fun owner => (arg 0).bind fun y =>
      .bind_same (ofSign y) fun _ => congrArg Except.ok (Value.rekey_partsOf owner _ _).symm
  | elementCode => exact (arg 0).bind fun x => .bind_same (ofPlate x) fun _ => .plain rfl
  | additionalValues => exact (arg 0).bind fun x => .bind_same (ofPlate x) fun _ => .list_map (fun _ => rfl) _
  | isVirtual => exact (arg 0).bind fun x => .bind_same (ofSign x) fun _ => .plain rfl
  | phases | durations => exact (arg 0).bind fun x => .bind_same (ofLight x) fun _ => .list_map (fun _ => rfl) _
  | cycleElements =>
    exact (arg 0).bind fun x => (handleOf_rekey _ _ x).bind fun owner => (arg 0).bind fun y =>
      .bind_same (ofLight y) fun _ => congrArg Except.ok (Value.rekey_partsOf owner _ _).symm
  | phase | duration => exact (arg 0).bind fun x => .bind_same (ofStep x) fun _ => .plain rfl
  | incomings =>
    exact (arg 0).bind fun x => (handleOf_rekey _ _ x).bind fun owner => (arg 0).bind fun y =>
      .bind_same (ofIntersection y) fun _ => congrArg Except.ok (Value.rekey_partsOf owner _ _).symm
  | incomingLanelets | successorsLeft | successorsRight | successorsStraight | allSuccessors =>
    exact (arg 0).bind fun x => .bind_same (ofGroup x) fun _ => .ofIds _
  | crossings => exact (arg 0).bind fun x => .bind_same (ofIntersection x) fun _ => .ofIds _
  | laneletExists | trafficSignExists | trafficLightExists | intersectionExists =>
    exact (arg 0).bind fun x => existsId_rekey h _ _ x
  | requiresAdditionalValue | isSpeedSign =>
    exact (arg 0).bind fun x => .bind_same (Value.asStr_rekey _ x) fun _ => .plain rfl

end Builtin

/-! ## Frames -/

namespace Frame

theorem start_rekey (size : Nat) (values : List Value) :
    start size (values.map (Value.rekey ρ)) = (start size values).map (Value.rekey ρ) := by
  rw [start, start, List.map_append, List.map_replicate, List.length_map]
  rfl

/-- an outcome on a frame, with other keys in what the frame is left with -/
abbrev rekeyOutcome (ρ : Rekeying) : Bool × Frame → Bool × Frame := Prod.map id (List.map (Value.rekey ρ))

/-- the search of a quantifier, if its body carries the change of keys -/
theorem search_rekey {test test' : Frame → Except EvalError (Bool × Frame)}
    (htest : ∀ frame, Carried (rekeyOutcome ρ) (test frame) (test' (frame.map (Value.rekey ρ))))
    (slot : Nat) (decisive : Bool) (vs : List Value) (frame : Frame) :
    Carried (rekeyOutcome ρ) (search test slot decisive vs frame)
      (search test' slot decisive (vs.map (Value.rekey ρ)) (frame.map (Value.rekey ρ))) := by
  induction vs generalizing frame with
  | nil => rfl
  | cons v vs ih =>
    rw [List.map_cons, search, search, List.length_map, ← List.map_set]
    split_ifs
    · refine (htest (frame.set slot v)).bind ?_
      rintro ⟨outcome, frame'⟩
      dsimp only [rekeyOutcome, Prod.map, id]
      split_ifs
      · rfl
      · exact ih frame'
    · rfl

end Frame

/-! ## Evaluation -/

/-- evaluators for two networks, with subformulas that mean the same under other keys -/
structure Setting.Rekeyed (ρ : Rekeying) (n m : Network) (s s' : Setting) : Prop where
  view : s.view = n.view
  view' : s'.view = m.view
  meanings : List.Forall₂ (fun (meaning meaning' : List Value → Except EvalError Bool) =>
    ∀ args, meaning' (args.map (Value.rekey ρ)) = meaning args) s.subformulas s'.subformulas

namespace Setting.Rekeyed

variable {s s' : Setting} {arities : List Nat}

theorem call_rekey (hs : Rekeyed ρ n m s s') (h : n.Rekeyed ρ m) (callee : Callee) (args : List Value) :
    Carried (Value.rekey ρ) (s.call callee args) (s'.call callee (args.map (Value.rekey ρ))) := by
  cases callee with
  | builtin b =>
    rw [call, call, hs.view, hs.view']
    exact Builtin.apply_rekey h b args
  | subformula i =>
    by_cases hi : i < s.subformulas.length
    · have hi' : i < s'.subformulas.length := hs.meanings.length_eq ▸ hi
      have hmeaning := hs.meanings.get hi hi' args
      simp only [List.get_eq_getElem] at hmeaning
      simp only [call, List.getElem?_eq_getElem hi, List.getElem?_eq_getElem hi', hmeaning]
      cases s.subformulas[i] args <;> rfl
    · have hi' : ¬ i < s'.subformulas.length := hs.meanings.length_eq ▸ hi
      simp only [call, List.getElem?_eq_none (Nat.le_of_not_lt hi), List.getElem?_eq_none (Nat.le_of_not_lt hi')]
      rfl

mutual

theorem operand_rekey (hs : Rekeyed ρ n m s s') (h : n.Rekeyed ρ m) (frame : Frame) :
    ∀ t : Operand, t.linked arities = true →
      Carried (Value.rekey ρ) (s.operand frame t) (s'.operand (frame.map (Value.rekey ρ)) t)
  | .slot k, _ => by
    rw [operand, operand, List.getElem?_map]
    cases frame[k]? <;> rfl
  | .const v, hv => .plain hv
  | .call callee args, hlinked =>
    (hs.operands_rekey h frame args (Bool.and_eq_true_iff.1 hlinked).2).bind fun vs => hs.call_rekey h callee vs

theorem operands_rekey (hs : Rekeyed ρ n m s s') (h : n.Rekeyed ρ m) (frame : Frame) :
    ∀ ts : List Operand, Operand.allLinked arities ts = true →
      Carried (List.map (Value.rekey ρ)) (s.operands frame ts) (s'.operands (frame.map (Value.rekey ρ)) ts)
  | [], _ => rfl
  | t :: ts, hlinked => by
    obtain ⟨ht, hts⟩ := Bool.and_eq_true_iff.1 hlinked
    exact (hs.operand_rekey h frame t ht).bind fun _ => (hs.operands_rekey h frame ts hts).bind fun _ => rfl

end

theorem items_rekey (hs : Rekeyed ρ n m s s') (h : n.Rekeyed ρ m) (frame : Frame) {range : Items}
    (hlinked : range.linked arities = true) :
    Carried (List.map (Value.rekey ρ)) (s.items frame range) (s'.items (frame.map (Value.rekey ρ)) range) := by
  cases range with
  | domain d =>
    have hitems : (m.view.index.domain d).map Value.element =
        ((n.view.index.domain d).map .element).map (Value.rekey ρ) := by
      rw [h.domain_rekey, List.map_map, List.map_map]
      rfl
    rw [items, items, hs.view, hs.view', hitems]
    rfl
  | operand t =>
    refine (hs.operand_rekey h frame t hlinked).bind fun v => ?_
    cases v with
    | list vs => rw [Value.rekey_list]; rfl
    | _ => rfl

/-- **Code.** Under other keys code has the same truth value or the same error, and leaves the same frame. -/
theorem holds_rekey (hs : Rekeyed ρ n m s s') (h : n.Rekeyed ρ m) {c : Code} (hc : c.linked arities = true)
    (frame : Frame) :
    Carried (Frame.rekeyOutcome ρ) (s.holds c frame) (s'.holds c (frame.map (Value.rekey ρ))) := by
  induction c generalizing frame with
  | literal b => rfl
  | not inner ih => exact (ih hc frame).bind fun _ => rfl
  | connected op lhs rhs ihl ihr =>
    obtain ⟨hl, hr⟩ := Bool.and_eq_true_iff.1 hc
    refine (ihl hl frame).bind ?_
    rintro ⟨left, frame'⟩
    have right := ihr hr frame'
    cases op with
    | iff => exact right.bind fun _ => rfl
    | and | or | implies =>
      cases left
      · first | rfl | exact right
      · first | rfl | exact right
  | compared op lhs rhs =>
    obtain ⟨hl, hr⟩ := Bool.and_eq_true_iff.1 hc
    exact (hs.operand_rekey h frame lhs hl).bind fun v => (hs.operand_rekey h frame rhs hr).bind fun w =>
      .bind_same (op.holds_rekey v w) fun _ => rfl
  | predicate callee args =>
    exact (hs.operands_rekey h frame args (Bool.and_eq_true_iff.1 hc).2).bind fun vs =>
      (hs.call_rekey h callee vs).bind fun v => .bind_same (Value.asBool_rekey _ v) fun _ => rfl
  | quantified q slot range body ih =>
    obtain ⟨hrange, hbody⟩ := Bool.and_eq_true_iff.1 hc
    exact (hs.items_rekey h frame hrange).bind fun vs => Frame.search_rekey (ih hbody) slot q.decisive vs frame

/-- code has the same truth value on arguments that are the same under other keys -/
theorem holds_start_rekey (hs : Rekeyed ρ n m s s') (h : n.Rekeyed ρ m) {c : Code} (hc : c.linked arities = true)
    (size : Nat) (values : List Value) :
    (s'.holds c (Frame.start size (values.map (Value.rekey ρ)))).map (·.1) =
      (s.holds c (Frame.start size values)).map (·.1) := by
  have hholds : s'.holds c _ = (s.holds c _).map _ := hs.holds_rekey h hc (Frame.start size values)
  rw [Frame.start_rekey, hholds]
  cases s.holds c (Frame.start size values) <;> rfl

theorem evaluate_rekey (hs : Rekeyed ρ n m s s') (h : n.Rekeyed ρ m) {f : CompiledFormula}
    (hf : f.body.linked arities = true) (b : List Handle) :
    s'.evaluate f (b.map (Handle.rekey ρ)) = s.evaluate f b := by
  have hvalues : (b.map (Handle.rekey ρ)).map Value.element = (b.map Value.element).map (Value.rekey ρ) := by
    rw [List.map_map, List.map_map]
    rfl
  rw [evaluate, evaluate, hvalues]
  exact hs.holds_start_rekey h hf _ _

end Setting.Rekeyed

/-- **Subformulas.** A table of subformulas, each of which calls only the ones before it, means the same under other
keys. -/
theorem FittingTable.rekeyed_load (h : n.Rekeyed ρ m) {subs : List CompiledSubformula} (ht : FittingTable subs) :
    Setting.Rekeyed ρ n m (.load n.view subs) (.load m.view subs) := by
  induction ht with
  | nil => exact ⟨rfl, rfl, .nil⟩
  | @snoc earlier sub _ hbody ih =>
    rw [Setting.load, Setting.load, List.foldl_append, List.foldl_append]
    refine ⟨ih.view, ih.view', List.rel_append ih.meanings (.cons (fun args => ?_) .nil)⟩
    exact ih.holds_start_rekey h hbody.linked _ args

/-! ## Verification -/

theorem choices_map {α β : Type} (f : α → β) (lists : List (List α)) :
    choices (lists.map (List.map f)) = (choices lists).map (List.map f) := by
  induction lists with
  | nil => rfl
  | cons l lists ih =>
    rw [List.map_cons, choices, choices, ih, List.flatMap_map, List.map_flatMap]
    refine List.flatMap_congr fun a _ => ?_
    rw [List.map_map, List.map_map]
    rfl

namespace Catalog

theorem bindings_rekey (h : n.Rekeyed ρ m) (e : CatalogEntry) :
    bindings m.view e = (bindings n.view e).map (List.map (Handle.rekey ρ)) := by
  rw [bindings, bindings, ← choices_map, List.map_map]
  exact congrArg choices (List.map_congr_left fun b _ => h.domain_rekey b.domain)

variable {subformulas : List String} {rules : List (RuleId × String)} {c : Catalog}

/-- **Locations.** Under other keys a rule is reported at the same ids, in the same order. -/
theorem verifyRule_rekey (hc : ofSources subformulas rules = .ok c) (h : n.Rekeyed ρ m) (r : RuleId) :
    c.verifyRule m.view r = c.verifyRule n.view r := by
  cases he : c.entry? r with
  | none => simp only [verifyRule, he]
  | some e =>
    obtain ⟨htable, hentries⟩ := fits_of_ofSources hc
    have hlinked := (hentries e (List.mem_of_find?_eq_some he)).linked
    have hholds (b : List Handle) :
        holdsAt (c.setting m.view) e (b.map (Handle.rekey ρ)) = holdsAt (c.setting n.view) e b := by
      rw [holdsAt, holdsAt, setting, setting, (htable.rekeyed_load h).evaluate_rekey h hlinked]
    have hids (b : List Handle) : (b.map (Handle.rekey ρ)).filterMap m.idOf? = b.filterMap n.idOf? := by
      rw [List.filterMap_map]
      exact List.filterMap_congr fun x _ => h.idOf?_rekey x
    rw [verifyRule_eq he, verifyRule_eq he, bindings_rekey h, List.filter_map, List.map_map]
    simp only [Function.comp_def, hholds, hids]

theorem verify_rekey (hc : ofSources subformulas rules = .ok c) (h : n.Rekeyed ρ m) (formulas : List RuleId) :
    c.verify m formulas = c.verify n formulas := by
  simp only [verify, verifyRule_rekey hc h]

/-- **Only the document matters.** A network has the same violations, in the same order, as the one that is built from
its document, with the same ids outside. -/
theorem verify_rebuilt (hc : ofSources subformulas rules = .ok c) (n : Network) (formulas : List RuleId) :
    c.verify { (RoadMap.ofDocument n.toDocument).network with external := n.external } formulas =
      c.verify n formulas := by
  have hdocument : Network.toDocument { (RoadMap.ofDocument n.toDocument).network with external := n.external } =
      n.toDocument := RoadMap.toDocument_ofDocument n.toDocument
  obtain ⟨ρ, h⟩ := Network.exists_rekeyed hdocument rfl
  exact verify_rekey hc h formulas

/-- a lanelet with a successor outside and one with a successor that is nowhere, after a removal -/
def shifted : Network :=
  { ((RoadMap.ofDocument { lanelets := [{ id := 1 }, { id := 2, successors := .ofList [8] },
      { id := 3, successors := .ofList [9] }] }).network.removeLanelet 0) with external := { lanelets := .ofList [8] } }

/-- the keys are others, and the lanelet is found under both -/
theorem verify_rebuilt_shifted : ofSources standardSubformulas standardRules = .ok standardCatalog ∧
    shifted.keys .lanelet = [1, 2] ∧ (RoadMap.ofDocument shifted.toDocument).network.keys .lanelet = [0, 1] ∧
    (standardCatalog.verify shifted [.existenceSuccessor]).entries = [(.existenceSuccessor, [[3]])] ∧
    standardCatalog.verify { (RoadMap.ofDocument shifted.toDocument).network with external := shifted.external }
      [.existenceSuccessor] = standardCatalog.verify shifted [.existenceSuccessor] :=
  ⟨standard_eq, by decide, by decide, by decide +kernel, verify_rebuilt standard_eq shifted _⟩

end Catalog

end RoadRules

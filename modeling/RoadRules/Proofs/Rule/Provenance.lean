/-
Values that stay in the network.

A value may stand for an element, or for a component of an element at a position. It is sound (`Value.Sound`) if they
are in the network, also inside lists. Builtins look elements and components up without asking whether they are there.
This is why they may:

- `Safe`: an outcome is a value with a property, or an error that only a formula can cause (`EvalError.Benign`).
- `Builtin.safe_elementOf`, `Builtin.safe_partOf`: a sound argument leads to its element, and to its component.
- `Builtin.safe_apply`: a builtin makes a sound value of as many sound values as it takes, and a truth value if it is a
  predicate.
-/
import RoadRules.Proofs.Network.Lookup
import RoadRules.Rule.Builtin

namespace RoadRules

/-! ## Outcomes -/

/-- Errors that only a formula can cause. The others would mean that code and frame, code and table of subformulas, or
values and network do not fit together. -/
def EvalError.Benign : EvalError → Prop
  | .typeMismatch function _ _ => function ≠ "predicate"
  | .indexOutOfRange function _ _ => function = "at"
  | .notFound _ | .incomparable _ _ | .notIterable _ => True
  | .missingArgument _ _ | .danglingHandle _ | .noSlot _ | .noSubformula _ => False

/-- a value with a property, or a benign error -/
def Safe {α : Type} (Q : α → Prop) : Except EvalError α → Prop
  | .ok a => Q a
  | .error e => e.Benign

namespace Safe

variable {α β : Type} {Q : α → Prop} {R : β → Prop} {x : Except EvalError α}

theorem bind {f : α → Except EvalError β} (hx : Safe Q x) (hf : ∀ a, Q a → Safe R (f a)) : Safe R (x >>= f) := by
  cases x with
  | ok a => exact hf a hx
  | error e => exact hx

theorem map {f : α → β} (hx : Safe Q x) (hf : ∀ a, Q a → R (f a)) : Safe R (x.map f) := by
  cases x with
  | ok a => exact hf a hx
  | error e => exact hx

theorem mono {Q' : α → Prop} (hx : Safe Q x) (h : ∀ a, Q a → Q' a) : Safe Q' x := by
  cases x with
  | ok a => exact h a hx
  | error e => exact hx

end Safe

/-! ## Values -/

/-- does the network have the element, with a component at this position? -/
def Network.HasPart (n : Network) (p : Part) : Prop :=
  match p.kind with
  | .signPlate => ∃ s, n.element? p.owner = some (.trafficSign s) ∧ p.index < s.plates.length
  | .cycleStep => ∃ t, n.element? p.owner = some (.trafficLight t) ∧ p.index < t.cycle.length
  | .incomingGroup => ∃ i, n.element? p.owner = some (.intersection i) ∧ p.index < i.incomings.length

namespace Value

mutual

/-- are all elements in the value, and all components of elements, in the network? -/
def Sound (n : Network) : Value → Prop
  | .element h => n.contains h = true
  | .part p => n.HasPart p
  | .list items => AllSound n items
  | .bool _ | .int _ | .float _ | .str _ | .point _ => True

def AllSound (n : Network) : List Value → Prop
  | [] => True
  | v :: rest => v.Sound n ∧ AllSound n rest

end

theorem allSound_iff {n : Network} {vs : List Value} : AllSound n vs ↔ ∀ v ∈ vs, v.Sound n := by
  induction vs with
  | nil => simp [AllSound]
  | cons v vs ih => rw [AllSound, ih, List.forall_mem_cons]

/-- values without elements and lists -/
def isPlain : Value → Bool
  | .element _ | .part _ | .list _ => false
  | .bool _ | .int _ | .float _ | .str _ | .point _ => true

theorem sound_of_isPlain {n : Network} {v : Value} (h : v.isPlain = true) : v.Sound n := by
  cases v with
  | element _ | part _ | list _ => cases h
  | _ => trivial

theorem sound_list_map {α : Type} (n : Network) {f : α → Value} (hf : ∀ a, (f a).isPlain = true) (items : List α) :
    (list (items.map f)).Sound n := by
  refine allSound_iff.2 fun v hv => ?_
  obtain ⟨a, -, rfl⟩ := List.mem_map.1 hv
  exact sound_of_isPlain (hf a)

theorem sound_ofIds (n : Network) (ids : List ElementId) : (ofIds ids).Sound n := sound_list_map n (fun _ => rfl) ids

theorem sound_ofPoints (n : Network) (points : List Point) : (ofPoints points).Sound n :=
  sound_list_map n (fun _ => rfl) points

/-! Reading a value as one of a type. -/

section As

variable {n : Network} {f : String} (hf : f ≠ "predicate")

include hf

theorem safe_asInt (v : Value) : Safe (fun _ => True) (v.asInt f) := by
  cases v with
  | int _ => trivial
  | _ => exact hf

theorem safe_asNumber (v : Value) : Safe (fun _ => True) (v.asNumber f) := by
  cases v with
  | int _ | float _ => trivial
  | _ => exact hf

theorem safe_asStr (v : Value) : Safe (fun _ => True) (v.asStr f) := by
  cases v with
  | str _ => trivial
  | _ => exact hf

theorem safe_asPoint (v : Value) : Safe (fun _ => True) (v.asPoint f) := by
  cases v with
  | point _ => trivial
  | _ => exact hf

theorem safe_asList {v : Value} (hv : v.Sound n) : Safe (fun items => ∀ w ∈ items, w.Sound n) (v.asList f) := by
  cases v with
  | list items => exact allSound_iff.1 hv
  | _ => exact hf

end As

theorem safe_compare (a b : Value) : Safe (fun _ => True) (a.compare b) := by
  have elim (o : Option Ordering) (x y : String) :
      Safe (fun _ => True) (o.elim (Except.error (EvalError.incomparable x y)) Except.ok) := by
    cases o <;> trivial
  cases a <;> cases b <;> first | trivial | exact elim _ _ _

end Value

namespace Builtin

open Value

variable {n : Network} {f : String} (hf : f ≠ "predicate") {v : Value} (hv : v.Sound n)

/-! ## Elements and components as arguments -/

section Arguments

include hf in
theorem safe_handleOf (kind : Kind) (v : Value) :
    Safe (fun h => v = .element h ∧ h.kind = kind) (handleOf kind f v) := by
  cases v with
  | element h =>
    simp only [handleOf]
    split_ifs with hk
    · exact ⟨rfl, hk⟩
    · exact hf
  | _ => exact hf

include hf hv

/-- an element of a kind that a sound value stands for is in the store of this kind -/
theorem safe_elementOf {α : Type} {kind : Kind} {store : Store α} {wrap : α → Element}
    (hstore : ∀ key, n.element? ⟨kind, key⟩ = (store.get? key).map wrap) :
    Safe (fun a => ∃ h, v = .element h ∧ n.element? h = some (wrap a))
      (handleOf kind f v >>= fun h => orDangling kind (store.get? h.key)) := by
  refine (safe_handleOf hf kind v).bind ?_
  rintro ⟨kind', key⟩ ⟨rfl, rfl⟩
  obtain ⟨id, hid⟩ := Option.isSome_iff_exists.1 (show (n.idOf? ⟨kind', key⟩).isSome = true from hv)
  rw [Network.idOf?_eq, hstore, Option.map_map] at hid
  obtain ⟨a, ha, -⟩ := Option.map_eq_some_iff.1 hid
  rw [ha]
  exact ⟨_, rfl, by rw [hstore, ha]; rfl⟩

theorem safe_laneletOf :
    Safe (fun l => ∃ h, v = .element h ∧ n.element? h = some (.lanelet l)) (laneletOf n f v) :=
  safe_elementOf hf hv fun _ => rfl

theorem safe_trafficSignOf :
    Safe (fun s => ∃ h, v = .element h ∧ n.element? h = some (.trafficSign s)) (trafficSignOf n f v) :=
  safe_elementOf hf hv fun _ => rfl

theorem safe_trafficLightOf :
    Safe (fun t => ∃ h, v = .element h ∧ n.element? h = some (.trafficLight t)) (trafficLightOf n f v) :=
  safe_elementOf hf hv fun _ => rfl

theorem safe_intersectionOf :
    Safe (fun i => ∃ h, v = .element h ∧ n.element? h = some (.intersection i)) (intersectionOf n f v) :=
  safe_elementOf hf hv fun _ => rfl

/-- the component of an element that a sound value stands for is there -/
theorem safe_partOf (kind : PartKind) : Safe (fun p => p.kind = kind ∧ n.HasPart p) (partOf kind f v) := by
  cases v with
  | part p =>
    simp only [partOf]
    split_ifs with hk
    · exact ⟨hk, hv⟩
    · exact hf
  | _ => exact hf

end Arguments

theorem safe_itemAt {α : Type} (f : String) {items : List α} {i : Nat} (h : i < items.length) :
    Safe (fun _ => True) (itemAt f items i) := by
  have hget : (if (i : Int) < 0 then none else items[(i : Int).toNat]?) = some items[i] := by
    rw [if_neg (by omega), Int.toNat_natCast, List.getElem?_eq_getElem h]
  rw [itemAt, hget]
  trivial

/-- the item that `at` finds is one of the list; it alone may miss -/
theorem safe_nth {items : List Value} (h : ∀ w ∈ items, w.Sound n) (i : Int) :
    Safe (·.Sound n) (itemAt nth.name items i) := by
  rw [itemAt]
  split
  · next x hx =>
    split_ifs at hx
    exact h x (List.mem_of_getElem? hx)
  · exact rfl

theorem sound_element_of_element? {h : Handle} {e : Element} (he : n.element? h = some e) :
    (Value.element h).Sound n := by
  change (n.idOf? h).isSome = true
  rw [Network.idOf?_eq, he]
  rfl

section Components

include hf hv

theorem safe_signPlateOf : Safe (fun _ => True) (signPlateOf n f v) := by
  refine (safe_partOf hf hv .signPlate).bind ?_
  rintro ⟨owner, kind, index⟩ ⟨rfl, s, hs, hlt⟩
  refine (safe_trafficSignOf hf (sound_element_of_element? hs)).bind ?_
  rintro s' ⟨h, hh, hs'⟩
  obtain rfl := Value.element.inj hh
  obtain rfl : s = s' := by simpa [hs] using hs'
  exact safe_itemAt f hlt

theorem safe_cycleStepOf : Safe (fun _ => True) (cycleStepOf n f v) := by
  refine (safe_partOf hf hv .cycleStep).bind ?_
  rintro ⟨owner, kind, index⟩ ⟨rfl, t, ht, hlt⟩
  refine (safe_trafficLightOf hf (sound_element_of_element? ht)).bind ?_
  rintro t' ⟨h, hh, ht'⟩
  obtain rfl := Value.element.inj hh
  obtain rfl : t = t' := by simpa [ht] using ht'
  exact safe_itemAt f hlt

theorem safe_incomingGroupOf : Safe (fun _ => True) (incomingGroupOf n f v) := by
  refine (safe_partOf hf hv .incomingGroup).bind ?_
  rintro ⟨owner, kind, index⟩ ⟨rfl, i, hi, hlt⟩
  refine (safe_intersectionOf hf (sound_element_of_element? hi)).bind ?_
  rintro i' ⟨h, hh, hi'⟩
  obtain rfl := Value.element.inj hh
  obtain rfl : i = i' := by simpa [hi] using hi'
  exact safe_itemAt f hlt

theorem safe_pointsOf : Safe (fun _ => True) (pointsOf f v) := by
  refine (safe_asList hf hv).bind fun items hitems => ?_
  clear hitems
  induction items with
  | nil => trivial
  | cons w items ih =>
    rw [List.mapM_cons]
    exact (safe_asPoint hf w).bind fun _ _ => ih.bind fun _ _ => trivial

end Components

section Results

include hf

theorem safe_existsId (view : NetworkView) (kind : Kind) (v : Value) :
    Safe (fun r => ∃ t, r = .bool t) (existsId view kind f v) :=
  (safe_asInt hf v).bind fun _ _ => ⟨_, rfl⟩

theorem safe_arithmetic (ints : Int → Int → Int) (floats : Float → Float → Float) (a b : Value) :
    Safe (·.isPlain = true) (arithmetic f ints floats a b) := by
  have onFloats : Safe (·.isPlain = true) (do
      let x ← a.asNumber f
      let y ← b.asNumber f
      return Value.float (floats x y)) :=
    (safe_asNumber hf a).bind fun _ _ => (safe_asNumber hf b).bind fun _ _ => rfl
  unfold arithmetic
  split
  · dsimp only
    split_ifs
    · rfl
    · exact onFloats
  · exact onFloats

end Results

theorem sound_partsOf {owner : Handle} {kind : PartKind} {count : Nat}
    (h : ∀ i < count, n.HasPart ⟨owner, kind, i⟩) : (partsOf owner kind count).Sound n := by
  refine allSound_iff.2 fun v hv => ?_
  obtain ⟨i, hi, rfl⟩ := List.mem_map.1 hv
  exact h i (List.mem_range.1 hi)

/-! ## Calls of builtins -/

theorem name_ne_predicate (b : Builtin) : b.name ≠ "predicate" := by
  cases b <;> decide

/-- a sound value, which is a truth value if the builtin is a predicate -/
def Yields (n : Network) (b : Builtin) (r : Value) : Prop := r.Sound n ∧ (b.isPredicate = true → ∃ t, r = .bool t)

theorem yields_bool (n : Network) (b : Builtin) (t : Bool) : b.Yields n (.bool t) := ⟨trivial, fun _ => ⟨t, rfl⟩⟩

theorem yields_of_sound {b : Builtin} {r : Value} (hb : b.isPredicate = false) (hr : r.Sound n) : b.Yields n r :=
  ⟨hr, fun h => absurd h (by rw [hb]; decide)⟩

include hf in
/-- the components of an element, all of them -/
theorem safe_components {α : Type} {wrap : α → Element} {kind : Kind} {decode : Except EvalError α}
    {b : Builtin} (hb : b.isPredicate = false) (part : PartKind) (count : α → Nat)
    (hdecode : Safe (fun a => ∃ h, v = .element h ∧ n.element? h = some (wrap a)) decode)
    (hparts : ∀ (h : Handle) (a : α), n.element? h = some (wrap a) → ∀ i < count a, n.HasPart ⟨h, part, i⟩) :
    Safe (b.Yields n) (do
      let owner ← handleOf kind f v
      return partsOf owner part (count (← decode))) := by
  refine (safe_handleOf hf kind v).bind ?_
  rintro owner ⟨rfl, -⟩
  refine hdecode.bind ?_
  rintro a ⟨h, hh, ha⟩
  obtain rfl := Value.element.inj hh
  exact yields_of_sound hb (sound_partsOf (hparts owner a ha))

/-- an argument that a builtin takes is there -/
theorem safe_arg {n : Network} {b : Builtin} {args : List Value} (hlen : args.length = b.arity)
    (hargs : ∀ v ∈ args, v.Sound n) {i : Nat} (hi : i < b.arity) : Safe (·.Sound n)
    (match args[i]? with
      | some x => .ok x
      | none => .error (.missingArgument b.name i)) := by
  rw [List.getElem?_eq_getElem (hlen ▸ hi)]
  exact hargs _ (List.getElem_mem _)

/-- **Builtins.** A builtin that gets as many sound values as it takes is not short of an argument or an element, and
what it makes of them is sound again. -/
theorem safe_apply (n : Network) (b : Builtin) {args : List Value} (hlen : args.length = b.arity)
    (hargs : ∀ v ∈ args, v.Sound n) : Safe (b.Yields n) (b.apply n.view args) := by
  have hf := b.name_ne_predicate
  have arg (i : Nat) (hi : i < b.arity) := safe_arg hlen hargs hi
  have first := arg 0 (by cases b <;> decide)
  cases b with
  | equal => exact first.bind fun _ _ => (arg 1 (by decide)).bind fun _ _ => yields_bool ..
  | less | lessEqual =>
    exact first.bind fun x _ => (arg 1 (by decide)).bind fun y _ => (safe_compare x y).bind fun _ _ => yields_bool ..
  | size =>
    refine first.bind fun x _ => ?_
    cases x with
    | list _ | str _ => exact yields_of_sound rfl trivial
    | _ => exact hf
  | index =>
    refine (arg 1 (by decide)).bind fun wanted _ => first.bind fun x hx => (safe_asList hf hx).bind fun items _ => ?_
    cases items.findIdx? (·.looseEq wanted) with
    | some _ => exact yields_of_sound rfl trivial
    | none => trivial
  | reverse =>
    exact first.bind fun x hx => (safe_asList hf hx).bind fun items h =>
      yields_of_sound rfl (allSound_iff.2 fun v hv => h v (List.mem_reverse.1 hv))
  | contains =>
    exact (arg 1 (by decide)).bind fun wanted _ => first.bind fun x hx => (safe_asList hf hx).bind fun items _ =>
      yields_bool ..
  | nth =>
    exact first.bind fun x hx => (safe_asList hf hx).bind fun items h => (arg 1 (by decide)).bind fun i _ =>
      (safe_asInt hf i).bind fun k _ => (safe_nth h _).mono fun _ => yields_of_sound rfl
  | add | sub =>
    exact first.bind fun x _ => (arg 1 (by decide)).bind fun y _ =>
      (safe_arithmetic hf _ _ x y).mono fun _ h => yields_of_sound rfl (sound_of_isPlain h)
  | distance =>
    exact first.bind fun x _ => (safe_asPoint hf x).bind fun p _ => (arg 1 (by decide)).bind fun y _ =>
      (safe_asPoint hf y).bind fun q _ => yields_of_sound rfl trivial
  | selfIntersecting => exact first.bind fun x hx => (safe_pointsOf hf hx).bind fun _ _ => yields_bool ..
  | elementId =>
    refine first.bind fun x hx => ?_
    cases x with
    | element h =>
      obtain ⟨id, hid⟩ := Option.isSome_iff_exists.1 (show (n.idOf? h).isSome = true from hx)
      change Safe _ (orDangling h.kind (n.idOf? h) >>= fun id => pure (Value.ofId id))
      rw [hid]
      exact yields_of_sound rfl trivial
    | _ => exact hf
  | laneletId => exact first.bind fun x hx => (safe_laneletOf hf hx).bind fun _ _ => yields_of_sound rfl trivial
  | trafficSignId => exact first.bind fun x hx => (safe_trafficSignOf hf hx).bind fun _ _ => yields_of_sound rfl trivial
  | trafficLightId =>
    exact first.bind fun x hx => (safe_trafficLightOf hf hx).bind fun _ _ => yields_of_sound rfl trivial
  | intersectionId =>
    exact first.bind fun x hx => (safe_intersectionOf hf hx).bind fun _ _ => yields_of_sound rfl trivial
  | leftPolyline | rightPolyline | centerPolyline =>
    exact first.bind fun x hx => (safe_laneletOf hf hx).bind fun _ _ => yields_of_sound rfl (sound_ofPoints n _)
  | predecessors | successors | leftAdjacency | rightAdjacency | trafficSigns | trafficLights | stopLineTrafficSigns
  | stopLineTrafficLights =>
    exact first.bind fun x hx => (safe_laneletOf hf hx).bind fun _ _ => yields_of_sound rfl (sound_ofIds n _)
  | laneletTypes =>
    exact first.bind fun x hx => (safe_laneletOf hf hx).bind fun _ _ =>
      yields_of_sound rfl (sound_list_map n (fun _ => rfl) _)
  | signElements =>
    obtain ⟨x, rfl⟩ := List.length_eq_one_iff.1 hlen
    have hx := hargs x List.mem_cons_self
    exact safe_components (b := signElements) hf rfl .signPlate (·.plates.length) (safe_trafficSignOf hf hx)
      fun _ s h _ hi => ⟨s, h, hi⟩
  | elementCode => exact first.bind fun x hx => (safe_signPlateOf hf hx).bind fun _ _ => yields_of_sound rfl trivial
  | additionalValues =>
    exact first.bind fun x hx => (safe_signPlateOf hf hx).bind fun _ _ =>
      yields_of_sound rfl (sound_list_map n (fun _ => rfl) _)
  | isVirtual => exact first.bind fun x hx => (safe_trafficSignOf hf hx).bind fun _ _ => yields_bool ..
  | phases | durations =>
    exact first.bind fun x hx => (safe_trafficLightOf hf hx).bind fun _ _ =>
      yields_of_sound rfl (sound_list_map n (fun _ => rfl) _)
  | cycleElements =>
    obtain ⟨x, rfl⟩ := List.length_eq_one_iff.1 hlen
    have hx := hargs x List.mem_cons_self
    exact safe_components (b := cycleElements) hf rfl .cycleStep (·.cycle.length) (safe_trafficLightOf hf hx)
      fun _ t h _ hi => ⟨t, h, hi⟩
  | phase | duration =>
    exact first.bind fun x hx => (safe_cycleStepOf hf hx).bind fun _ _ => yields_of_sound rfl trivial
  | incomings =>
    obtain ⟨x, rfl⟩ := List.length_eq_one_iff.1 hlen
    have hx := hargs x List.mem_cons_self
    exact safe_components (b := incomings) hf rfl .incomingGroup (·.incomings.length) (safe_intersectionOf hf hx)
      fun _ i h _ hi => ⟨i, h, hi⟩
  | incomingLanelets | successorsLeft | successorsRight | successorsStraight | allSuccessors =>
    exact first.bind fun x hx => (safe_incomingGroupOf hf hx).bind fun _ _ => yields_of_sound rfl (sound_ofIds n _)
  | crossings => exact first.bind fun x hx => (safe_intersectionOf hf hx).bind fun _ _ =>
      yields_of_sound rfl (sound_ofIds n _)
  | laneletExists | trafficSignExists | trafficLightExists | intersectionExists =>
    refine first.bind fun x _ => (safe_existsId hf _ _ x).mono ?_
    rintro _ ⟨t, rfl⟩
    exact yields_bool ..
  | requiresAdditionalValue | isSpeedSign =>
    exact first.bind fun x _ => (safe_asStr hf x).bind fun _ _ => yields_bool ..

end Builtin

end RoadRules

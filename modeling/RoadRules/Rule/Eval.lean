/-
Evaluation of compiled formulas.

The variables of a formula live in a frame. A quantifier writes each item in turn into its slot and evaluates its
body, until an item decides; the frame that its body leaves behind is the one that evaluation goes on with. A
subformula runs on a frame of its own, which holds its arguments.
-/
import RoadRules.Rule.Code

namespace RoadRules

abbrev Frame := List Value

/-- a frame of at least `size` slots with the given values in front -/
def Frame.start (size : Nat) (values : List Value) : Frame :=
  values ++ List.replicate (size - values.length) (.bool false)

/-- where code is evaluated: a network, and the meaning of each subformula that it may call -/
structure Setting where
  view : NetworkView
  subformulas : List (List Value → Except EvalError Bool)

namespace Setting

/-- the value of a call on evaluated arguments -/
def call (s : Setting) (callee : Callee) (args : List Value) : Except EvalError Value :=
  match callee with
  | .builtin b => b.apply s.view args
  | .subformula index =>
    match s.subformulas[index]? with
    | some meaning => (meaning args).map .bool
    | none => .error (.noSubformula index)

mutual

def operand (s : Setting) (frame : Frame) : Operand → Except EvalError Value
  | .slot slot =>
    match frame[slot]? with
    | some v => .ok v
    | none => .error (.noSlot slot)
  | .const v => .ok v
  | .call callee args => do s.call callee (← operands s frame args)

def operands (s : Setting) (frame : Frame) : List Operand → Except EvalError (List Value)
  | [] => .ok []
  | t :: rest => do
    let v ← operand s frame t
    let vs ← operands s frame rest
    return v :: vs

end

/-- what a quantifier goes through -/
def items (s : Setting) (frame : Frame) : Items → Except EvalError (List Value)
  | .domain d => .ok ((s.view.index.domain d).map .element)
  | .operand t => do
    match ← s.operand frame t with
    | .list vs => return vs
    | other => .error (.notIterable other.typeName)

end Setting

/-- the truth of a comparison -/
def Formula.Comparison.holds (op : Formula.Comparison) (a b : Value) : Except EvalError Bool :=
  match op with
  | .eq => .ok (a.looseEq b)
  | .ne => .ok (!a.looseEq b)
  | .lt => (a.compare b).map (· == .lt)
  | .le => (a.compare b).map (· != .gt)
  | .gt => (a.compare b).map (· == .gt)
  | .ge => (a.compare b).map (· != .lt)

/-- the truth value at which a quantifier stops -/
def Formula.Quantifier.decisive : Formula.Quantifier → Bool
  | .every => false
  | .some => true

/-- writes the values into a slot one after the other, until the test of the frame has the decisive outcome -/
def Frame.search (test : Frame → Except EvalError (Bool × Frame)) (slot : Nat) (decisive : Bool) :
    List Value → Frame → Except EvalError (Bool × Frame)
  | [], frame => .ok (!decisive, frame)
  | v :: rest, frame =>
    if slot < frame.length then do
      let (outcome, frame) ← test (frame.set slot v)
      if outcome = decisive then return (decisive, frame) else search test slot decisive rest frame
    else .error (.noSlot slot)

namespace Setting

/-- the truth of code on a frame, and the frame afterwards -/
def holds (s : Setting) : Code → Frame → Except EvalError (Bool × Frame)
  | .literal b, frame => .ok (b, frame)
  | .not inner, frame => do
    let (b, frame) ← holds s inner frame
    return (!b, frame)
  | .connected op lhs rhs, frame => do
    let (left, frame) ← holds s lhs frame
    match op with
    | .and => if left then holds s rhs frame else return (false, frame)
    | .or => if left then return (true, frame) else holds s rhs frame
    | .implies => if left then holds s rhs frame else return (true, frame)
    | .iff => do
      let (right, frame) ← holds s rhs frame
      return (left == right, frame)
  | .compared op lhs rhs, frame => do
    let a ← s.operand frame lhs
    let b ← s.operand frame rhs
    return (← op.holds a b, frame)
  | .predicate callee args, frame => do
    let vs ← s.operands frame args
    let v ← s.call callee vs
    return (← v.asBool "predicate", frame)
  | .quantified q slot range body, frame => do
    let vs ← s.items frame range
    Frame.search (fun frame => holds s body frame) slot q.decisive vs frame

/-- the truth of a subformula on its arguments -/
def meaning (s : Setting) (sub : CompiledSubformula) (args : List Value) : Except EvalError Bool :=
  (s.holds sub.body (Frame.start sub.frameSize args)).map (·.1)

/-- a table of subformulas, each of which can call the ones before it -/
def load (v : NetworkView) (subformulas : List CompiledSubformula) : Setting :=
  subformulas.foldl (fun s sub => { s with subformulas := s.subformulas ++ [s.meaning sub] }) ⟨v, []⟩

/-- the truth of a formula with its outer variables bound to elements -/
def evaluate (s : Setting) (f : CompiledFormula) (bindings : List Handle) : Except EvalError Bool :=
  (s.holds f.body (Frame.start f.frameSize (bindings.map .element))).map (·.1)

end Setting

end RoadRules

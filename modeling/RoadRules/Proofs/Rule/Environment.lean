/-
Frames as environments.

Code reads and writes one frame, and quantifiers beside each other use the same slot. Code is nested (`Code.nested`)
in the scope of `d` variables if it reads only their slots, and each of its quantifiers writes the slot right behind
them. A frame is then as good as an environment: `truth` is what code means if a quantifier adds one value for its
body only, and

- `holds_append`: evaluation on a frame gives the truth, whatever the frame holds behind the environment;
- `evaluate_eq_truth`, `meaning_eq_truth`: so do formulas on their bindings and subformulas on their arguments;
- `truth_every`, `truth_some`: when universal and existential code is true.
-/
import Mathlib.Tactic
import RoadRules.Rule.Eval

namespace RoadRules

/-! ## Scopes -/

mutual

/-- does the operand read slots below `d` only? -/
def Operand.inScope (d : Nat) : Operand → Bool
  | .slot k => k < d
  | .const _ => true
  | .call _ args => Operand.allInScope d args

def Operand.allInScope (d : Nat) : List Operand → Bool
  | [] => true
  | t :: rest => Operand.inScope d t && Operand.allInScope d rest

end

def Items.inScope (d : Nat) : Items → Bool
  | .domain _ => true
  | .operand t => t.inScope d

/-- does the code stand in the scope of `d` variables? -/
def Code.nested : Code → Nat → Bool
  | .quantified _ slot range body, d => slot == d && range.inScope d && body.nested (d + 1)
  | .not inner, d => inner.nested d
  | .connected _ lhs rhs, d => lhs.nested d && rhs.nested d
  | .predicate _ args, d => Operand.allInScope d args
  | .compared _ lhs rhs, d => lhs.inScope d && rhs.inScope d
  | .literal _, _ => true

namespace Setting

variable (s : Setting)

/-! ## Operands -/

mutual

theorem operand_append (env rest : List Value) :
    ∀ t : Operand, t.inScope env.length = true → s.operand (env ++ rest) t = s.operand env t
  | .slot k, h => by
    have : k < env.length := by simpa [Operand.inScope] using h
    simp only [operand, List.getElem?_append_left this]
  | .const _, _ => rfl
  | .call callee args, h => by
    simp only [operand, operands_append env rest args h]

theorem operands_append (env rest : List Value) :
    ∀ ts : List Operand, Operand.allInScope env.length ts = true → s.operands (env ++ rest) ts = s.operands env ts
  | [], _ => rfl
  | t :: ts, h => by
    obtain ⟨ht, hts⟩ := (Bool.and_eq_true _ _).mp h
    simp only [operands, operand_append env rest t ht, operands_append env rest ts hts]

end

theorem items_append (env rest : List Value) (range : Items) (h : range.inScope env.length = true) :
    s.items (env ++ rest) range = s.items env range := by
  cases range with
  | domain d => rfl
  | operand t => simp only [items, operand_append s env rest t h]

/-! ## Truth -/

/-- the outcome of the first test that decides -/
def firstDecisive (test : Value → Except EvalError Bool) (decisive : Bool) : List Value → Except EvalError Bool
  | [] => .ok (!decisive)
  | v :: rest => do if (← test v) = decisive then return decisive else firstDecisive test decisive rest

/-- the truth of code in an environment -/
def truth : Code → List Value → Except EvalError Bool
  | .literal b, _ => .ok b
  | .not inner, env => do return !(← truth inner env)
  | .connected op lhs rhs, env => do
    let left ← truth lhs env
    match op with
    | .and => if left then truth rhs env else return false
    | .or => if left then return true else truth rhs env
    | .implies => if left then truth rhs env else return true
    | .iff => do return left == (← truth rhs env)
  | .compared op lhs rhs, env => do
    let a ← s.operand env lhs
    let b ← s.operand env rhs
    op.holds a b
  | .predicate callee args, env => do
    let vs ← s.operands env args
    let v ← s.call callee vs
    v.asBool "predicate"
  | .quantified q _ range body, env => do
    let vs ← s.items env range
    firstDecisive (fun v => truth body (env ++ [v])) q.decisive vs

/-- an outcome on a frame is the truth in an environment, and leaves the environment as it is -/
def Agrees (outcome : Except EvalError (Bool × Frame)) (truth : Except EvalError Bool) (env : List Value)
    (size : Nat) : Prop :=
  ∃ rest : List Value, rest.length = size ∧ outcome = truth.map fun b => (b, env ++ rest)

theorem search_agrees {test : Frame → Except EvalError (Bool × Frame)} {truth : Value → Except EvalError Bool}
    {env : List Value} {size : Nat} (decisive : Bool)
    (h : ∀ v (rest : List Value), rest.length = size →
      Agrees (test (env ++ [v] ++ rest)) (truth v) (env ++ [v]) size) :
    ∀ (vs : List Value) (rest : List Value), rest.length = size + 1 →
      Agrees (Frame.search test env.length decisive vs (env ++ rest)) (firstDecisive truth decisive vs) env (size + 1)
  | [], rest, hr => ⟨rest, hr, rfl⟩
  | v :: vs, first :: rest, hr => by
    have hset : (env ++ first :: rest).set env.length v = env ++ [v] ++ rest := by simp
    have hlt : env.length < (env ++ first :: rest).length := by simp
    obtain ⟨rest', hlen, hout⟩ := h v rest (by simpa using hr)
    simp only [Frame.search, if_pos hlt, hset, hout, firstDecisive]
    cases truth v with
    | error e => exact ⟨first :: rest, hr, rfl⟩
    | ok b =>
      by_cases hb : b = decisive
      · exact ⟨v :: rest', by simp [hlen], by simp [hb, Except.map, bind, Except.bind, pure, Except.pure]⟩
      · obtain ⟨last, hl, he⟩ := search_agrees decisive h vs (v :: rest') (by simp [hlen])
        refine ⟨last, hl, ?_⟩
        simpa [hb, Except.map, bind, Except.bind, pure, Except.pure] using he

/-- **Evaluation on a frame is truth in an environment.** Behind the environment the frame needs room for the
quantifiers, but what it holds there is never read. -/
theorem holds_append : ∀ (c : Code) (env rest : List Value), c.nested env.length = true →
    c.slots ≤ env.length + rest.length → Agrees (s.holds c (env ++ rest)) (s.truth c env) env rest.length
  | .literal b, env, rest, _, _ => ⟨rest, rfl, rfl⟩
  | .not inner, env, rest, hn, hs => by
    obtain ⟨r, hr, he⟩ := holds_append inner env rest hn hs
    refine ⟨r, hr, ?_⟩
    simp only [holds, truth, he]
    cases s.truth inner env <;> rfl
  | .connected op lhs rhs, env, rest, hn, hs => by
    obtain ⟨hl, hr⟩ := (Bool.and_eq_true _ _).mp hn
    obtain ⟨r₁, hr₁, he₁⟩ := holds_append lhs env rest hl (by simp only [Code.slots] at hs; omega)
    obtain ⟨r₂, hr₂, he₂⟩ := holds_append rhs env r₁ hr (by simp only [Code.slots] at hs; omega)
    simp only [holds, truth, he₁]
    cases s.truth lhs env with
    | error e => exact ⟨rest, rfl, rfl⟩
    | ok left =>
      rw [hr₁] at hr₂
      simp only [Except.map, bind, Except.bind]
      cases op <;> cases left <;>
        first
        | exact ⟨r₁, hr₁, rfl⟩
        | exact ⟨r₂, hr₂, he₂⟩
        | (refine ⟨r₂, hr₂, ?_⟩; simp only [he₂]; cases s.truth rhs env <;> rfl)
  | .compared op lhs rhs, env, rest, hn, _ => by
    obtain ⟨hl, hr⟩ := (Bool.and_eq_true _ _).mp hn
    refine ⟨rest, rfl, ?_⟩
    simp only [holds, truth, operand_append s env rest _ hl, operand_append s env rest _ hr]
    cases s.operand env lhs with
    | error e => rfl
    | ok a =>
      cases s.operand env rhs with
      | error e => rfl
      | ok b => cases h : op.holds a b <;> simp [h, Except.map, bind, Except.bind, pure, Except.pure]
  | .predicate callee args, env, rest, hn, _ => by
    refine ⟨rest, rfl, ?_⟩
    simp only [holds, truth, operands_append s env rest _ hn]
    cases s.operands env args with
    | error e => rfl
    | ok vs =>
      cases h : s.call callee vs with
      | error e => simp [h, Except.map, bind, Except.bind]
      | ok v => cases hb : v.asBool "predicate" <;> simp [h, hb, Except.map, bind, Except.bind, pure, Except.pure]
  | .quantified q slot range body, env, rest, hn, hs => by
    simp only [Code.nested, Bool.and_eq_true, beq_iff_eq] at hn
    obtain ⟨⟨rfl, hrange⟩, hbody⟩ := hn
    have hroom : body.slots ≤ env.length + rest.length ∧ env.length + 1 ≤ env.length + rest.length := by
      simp only [Code.slots] at hs; omega
    simp only [holds, truth, items_append s env rest _ hrange]
    cases s.items env range with
    | error e => exact ⟨rest, rfl, rfl⟩
    | ok vs =>
      obtain ⟨size, hsize⟩ : ∃ size, rest.length = size + 1 := ⟨rest.length - 1, by omega⟩
      rw [hsize]
      refine search_agrees q.decisive (fun v r hr => ?_) vs rest hsize
      have h := holds_append body (env ++ [v]) r (by simpa using hbody) (by simp; omega)
      rwa [hr] at h

/-! ## Formulas and subformulas -/

theorem agrees_fst {outcome : Except EvalError (Bool × Frame)} {truth : Except EvalError Bool} {env : List Value}
    {size : Nat} (h : Agrees outcome truth env size) : outcome.map (·.1) = truth := by
  obtain ⟨rest, -, he⟩ := h
  rw [he]
  cases truth <;> rfl

theorem holds_start (c : Code) (size : Nat) (values : List Value) (hn : c.nested values.length = true)
    (hs : c.slots ≤ max values.length size) :
    (s.holds c (Frame.start size values)).map (·.1) = s.truth c values :=
  agrees_fst (holds_append s c values _ hn (by simp only [List.length_replicate]; omega))

/-- a formula is true at a binding if its body is true there -/
theorem evaluate_eq_truth (f : CompiledFormula) (binding : List Handle) (hn : f.body.nested binding.length = true) :
    s.evaluate f binding = s.truth f.body (binding.map .element) :=
  holds_start s f.body _ _ (by simpa using hn) (by simp only [CompiledFormula.frameSize]; omega)

/-- a subformula is true of its arguments if its body is true of them -/
theorem meaning_eq_truth (sub : CompiledSubformula) (args : List Value) (hn : sub.body.nested args.length = true) :
    s.meaning sub args = s.truth sub.body args :=
  holds_start s sub.body _ args hn (by simp only [CompiledSubformula.frameSize]; omega)

/-! ## Truth of connectives and quantifiers -/

theorem firstDecisive_false {test : Value → Except EvalError Bool} {vs : List Value} :
    firstDecisive test false vs = .ok true ↔ ∀ v ∈ vs, test v = .ok true := by
  induction vs with
  | nil => simp [firstDecisive]
  | cons v vs ih =>
    simp only [firstDecisive, List.forall_mem_cons, ← ih]
    cases test v with
    | error e => simp [bind, Except.bind]
    | ok b => cases b <;> simp [bind, Except.bind, pure, Except.pure]

theorem firstDecisive_true {test : Value → Except EvalError Bool} {vs : List Value}
    (h : ∀ v ∈ vs, ∃ b, test v = .ok b) : firstDecisive test true vs = .ok true ↔ ∃ v ∈ vs, test v = .ok true := by
  induction vs with
  | nil => simp [firstDecisive]
  | cons v vs ih =>
    obtain ⟨b, hb⟩ := h v List.mem_cons_self
    simp only [firstDecisive, List.exists_mem_cons_iff, ← ih fun w hw => h w (List.mem_cons_of_mem _ hw), hb]
    cases b <;> simp [bind, Except.bind, pure, Except.pure]

/-- a universal body is true if it is true of every item -/
theorem truth_every {slot : Nat} {range : Items} {body : Code} {env vs : List Value}
    (hr : s.items env range = .ok vs) :
    s.truth (.quantified .every slot range body) env = .ok true ↔ ∀ v ∈ vs, s.truth body (env ++ [v]) = .ok true := by
  simp only [truth, hr, bind, Except.bind, Formula.Quantifier.decisive]
  exact firstDecisive_false

/-- an existential body that has a truth value at every item is true if it is true of some item -/
theorem truth_some {slot : Nat} {range : Items} {body : Code} {env vs : List Value} (hr : s.items env range = .ok vs)
    (h : ∀ v ∈ vs, ∃ b, s.truth body (env ++ [v]) = .ok b) :
    s.truth (.quantified .some slot range body) env = .ok true ↔ ∃ v ∈ vs, s.truth body (env ++ [v]) = .ok true := by
  simp only [truth, hr, bind, Except.bind, Formula.Quantifier.decisive]
  exact firstDecisive_true h

end Setting

end RoadRules

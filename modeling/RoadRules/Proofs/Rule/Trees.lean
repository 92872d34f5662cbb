/-
What the trees of formulas mean.

`Vocabulary.body` reads a tree directly, with an environment of named values: a variable means the innermost value of
its name, a quantifier goes through what it ranges over outside its binder until an item decides, and a subformula is
read with its parameters as the only variables. Compiled code knows no names: it has one frame of slots, which
quantifiers beside each other share.

- `truth_eq_body`: code means the same as the tree it was compiled from.
- `matched_load`: a table of compiled subformulas means the same as the trees, each of which may call the ones before
  it.
- `evaluate_eq_reading`: hence a compiled formula gives what its tree gives, be it a truth value or an error.
-/
import RoadRules.Network.Document
import RoadRules.Proofs.Rule.Environment

namespace RoadRules

open Formula (Term Range Body)

/-! ## Trees -/

/-- the values of variables, with the innermost one first -/
abbrev NamedValues := List (String × Value)

/-- what names of calls mean: subformulas in the order they are declared, and builtins of the network -/
structure Vocabulary where
  view : NetworkView
  subformulas : List (String × (List Value → Except EvalError Bool))

namespace Vocabulary

/-- the value of a call on evaluated arguments; a subformula hides a builtin of the same name -/
def call (w : Vocabulary) (name : String) (args : List Value) : Except EvalError Value :=
  match w.subformulas.lookup name with
  | some meaning => (meaning args).map .bool
  | none =>
    match Builtin.ofName? name with
    | some b => b.apply w.view args
    | none => .error (.noSubformula w.subformulas.length)

mutual

def term (w : Vocabulary) (env : NamedValues) : Term → Except EvalError Value
  | .var x =>
    match env.lookup x with
    | some v => .ok v
    | none => .error (.noSlot env.length)
  | .int i => .ok (.int i)
  | .float x => .ok (.float x)
  | .str s => .ok (.str s)
  | .bool b => .ok (.bool b)
  | .call name args => do w.call name (← terms w env args)

def terms (w : Vocabulary) (env : NamedValues) : List Term → Except EvalError (List Value)
  | [] => .ok []
  | t :: rest => do
    let v ← term w env t
    let vs ← terms w env rest
    return v :: vs

end

def range (w : Vocabulary) (env : NamedValues) : Range → Except EvalError (List Value)
  | .domain d => .ok ((w.view.index.domain d).map .element)
  | .term t => do
    match ← w.term env t with
    | .list vs => return vs
    | other => .error (.notIterable other.typeName)

def body (w : Vocabulary) : Body → NamedValues → Except EvalError Bool
  | .literal b, _ => .ok b
  | .not inner, env => do return !(← body w inner env)
  | .connected op lhs rhs, env => do
    let left ← body w lhs env
    match op with
    | .and => if left then body w rhs env else return false
    | .or => if left then return true else body w rhs env
    | .implies => if left then body w rhs env else return true
    | .iff => do return left == (← body w rhs env)
  | .compared op lhs rhs, env => do
    let a ← w.term env lhs
    let b ← w.term env rhs
    op.holds a b
  | .predicate name args, env => do
    let vs ← w.terms env args
    let v ← w.call name vs
    v.asBool "predicate"
  | .quantified q x items inner, env => do
    let vs ← w.range env items
    Setting.firstDecisive (fun v => body w inner ((x, v) :: env)) q.decisive vs

/-- variables with their values; of two with one name the later one counts -/
def bind (vars : List String) (values : List Value) : NamedValues := (vars.zip values).reverse

/-- one more subformula, which is read with its parameters as the only variables -/
def declare (w : Vocabulary) (s : Subformula) : Vocabulary :=
  { w with subformulas := w.subformulas ++ [(s.name, fun args => w.body s.body (bind s.params args))] }

/-- subformulas declared one after the other; each may call the ones before it -/
def ofSubformulas (v : NetworkView) (subformulas : List Subformula) : Vocabulary :=
  subformulas.foldl declare ⟨v, []⟩

/-- the truth of a formula with its outer variables bound to elements -/
def formula (w : Vocabulary) (f : Formula) (bindings : List Handle) : Except EvalError Bool :=
  w.body f.body (bind (f.bindings.map (·.var)) (bindings.map .element))

end Vocabulary

/-- compiles subformulas one after the other; each may call the ones before it -/
def Subformula.compileAll (earlier : List CompiledSubformula) :
    List Subformula → Except CatalogError (List CompiledSubformula)
  | [] => .ok earlier
  | s :: rest => do
    let compiled ← s.compile earlier
    compileAll (earlier ++ [compiled]) rest

/-! ## Variables and slots -/

theorem exists_of_bind_ok {ε α β : Type} {x : Except ε α} {f : α → Except ε β} {b : β} (h : (x >>= f) = .ok b) :
    ∃ a, x = .ok a ∧ f a = .ok b := by
  cases x with
  | error e => cases h
  | ok a => exact ⟨a, rfl, h⟩

namespace NamedValues

/-- the names in scope -/
def scope (env : NamedValues) : List String := env.map (·.1)

/-- the values as a frame holds them, with the outermost one first -/
def frame (env : NamedValues) : List Value := (env.map (·.2)).reverse

@[simp] theorem length_frame (env : NamedValues) : (frame env).length = (scope env).length := by simp [frame, scope]

theorem frame_cons (x : String) (v : Value) (env : NamedValues) : frame ((x, v) :: env) = frame env ++ [v] := by
  simp [frame]

/-- **Shadowing.** The slot of a name holds the innermost value of the name. -/
theorem frame_slot {env : NamedValues} {x : String} {slot : Nat} (h : Names.slot? x (scope env) = some slot) :
    ∃ v, (frame env)[slot]? = some v ∧ env.lookup x = some v := by
  induction env with
  | nil => cases h
  | cons e env ih =>
    obtain ⟨y, v⟩ := e
    rw [frame_cons]
    by_cases hy : y = x
    · have hslot : (scope env).length = slot := by simpa [scope, Names.slot?, hy] using h
      refine ⟨v, ?_, by rw [hy, List.lookup_cons_self]⟩
      rw [← hslot, ← length_frame, List.getElem?_concat_length]
    · have hslot : Names.slot? x (scope env) = some slot := by simpa [scope, Names.slot?, hy] using h
      obtain ⟨w, hw, hl⟩ := ih hslot
      refine ⟨w, ?_, ?_⟩
      · rw [List.getElem?_append_left (List.getElem?_eq_some_iff.1 hw).1, hw]
      · rwa [List.lookup_cons, beq_eq_false_iff_ne.2 (Ne.symm hy)]

theorem scope_bind {vars : List String} {values : List Value} (h : values.length = vars.length) :
    scope (Vocabulary.bind vars values) = vars.reverse := by
  rw [scope, Vocabulary.bind, List.map_reverse, List.map_fst_zip (Nat.le_of_eq h.symm)]

theorem frame_bind {vars : List String} {values : List Value} (h : values.length = vars.length) :
    frame (Vocabulary.bind vars values) = values := by
  rw [frame, Vocabulary.bind, List.map_reverse, List.reverse_reverse, List.map_snd_zip (Nat.le_of_eq h)]

end NamedValues

/-! ## Names of calls -/

/-- the tables of a compiler, of an evaluator and of a reader list the same subformulas, which mean the same -/
structure Matched (compiled : List CompiledSubformula) (s : Setting) (w : Vocabulary) : Prop where
  view : s.view = w.view
  length : s.subformulas.length = compiled.length
  names : w.subformulas.map (·.1) = compiled.map (·.name)
  meaning : ∀ (i : Nat) (sub : CompiledSubformula) (m : List Value → Except EvalError Bool)
    (p : String × (List Value → Except EvalError Bool)), compiled[i]? = some sub → s.subformulas[i]? = some m →
      w.subformulas[i]? = some p → ∀ args : List Value, args.length = sub.arity → m args = p.2 args

theorem lookup_eq_of_findIdx? {α : Type} {l : List (String × α)} {name : String} :
    l.lookup name = ((l.map (·.1)).findIdx? (· == name)).bind fun i => l[i]?.map (·.2) := by
  induction l with
  | nil => rfl
  | cons e l ih =>
    obtain ⟨x, a⟩ := e
    rw [List.lookup_cons, List.map_cons, List.findIdx?_cons]
    by_cases hx : x = name
    · simp [hx]
    · rw [beq_eq_false_iff_ne.2 (Ne.symm hx), beq_eq_false_iff_ne.2 hx, ih]
      simp [Option.bind_map]

namespace Matched

variable {compiled : List CompiledSubformula} {s : Setting} {w : Vocabulary} (h : Matched compiled s w)

include h

/-- a call of what a name refers to is the call by the name -/
theorem call {context name : String} {callee : Callee} {args : List Value}
    (hc : Names.callee? ⟨compiled, context⟩ name = some (callee, args.length)) :
    s.call callee args = w.call name args := by
  have hlookup : w.subformulas.lookup name = _ := lookup_eq_of_findIdx?
  rw [h.names, List.findIdx?_map] at hlookup
  simp only [Names.callee?] at hc
  cases hf : compiled.findIdx? (·.name == name) with
  | none =>
    rw [hf] at hc
    obtain ⟨b, hb, hbc⟩ := Option.map_eq_some_iff.1 hc
    obtain ⟨rfl, -⟩ := Prod.mk.inj hbc
    have hnone : w.subformulas.lookup name = none := hlookup.trans (by simp [Function.comp_def, hf])
    simp only [Setting.call, Vocabulary.call, hnone, hb, h.view]
  | some i =>
    rw [hf] at hc
    obtain ⟨sub, hsub, hbc⟩ := Option.map_eq_some_iff.1 hc
    obtain ⟨rfl, harity⟩ := Prod.mk.inj hbc
    have hlt : i < compiled.length := (List.getElem?_eq_some_iff.1 hsub).1
    have hlt' : i < w.subformulas.length := by
      have := congrArg List.length h.names
      simp only [List.length_map] at this
      omega
    have hm := List.getElem?_eq_getElem (h.length.symm ▸ hlt : i < s.subformulas.length)
    have hp := List.getElem?_eq_getElem hlt'
    have hsome : w.subformulas.lookup name = some w.subformulas[i].2 :=
      hlookup.trans (by simp [Function.comp_def, hf, hp])
    simp only [Setting.call, Vocabulary.call, hsome, hm]
    rw [h.meaning i sub _ _ hsub hm hp args harity.symm]

end Matched

/-! ## Code and trees -/

section Compiled

variable {compiled : List CompiledSubformula} {s : Setting} {w : Vocabulary} {context : String}

open NamedValues

theorem callee?_of_callee {names : Names} {name : String} {got : Nat} {callee : Callee}
    (hc : names.callee name got = .ok callee) : names.callee? name = some (callee, got) := by
  simp only [Names.callee] at hc
  cases hf : names.callee? name with
  | none => simp [hf] at hc
  | some found =>
    obtain ⟨c, expected⟩ := found
    simp only [hf] at hc
    split_ifs at hc with harity
    cases hc
    rw [harity]

theorem length_terms {w : Vocabulary} {env : NamedValues} {ts : List Term} {vs : List Value}
    (hv : w.terms env ts = .ok vs) : vs.length = ts.length := by
  induction ts generalizing vs with
  | nil => cases hv; rfl
  | cons t ts ih =>
    rw [Vocabulary.terms] at hv
    obtain ⟨v, -, hv⟩ := exists_of_bind_ok hv
    obtain ⟨vs', hvs', hv⟩ := exists_of_bind_ok hv
    cases hv
    rw [List.length_cons, List.length_cons, ih hvs']

mutual

theorem operand_eq_term (h : Matched compiled s w) (env : NamedValues) : ∀ (t : Term) {o : Operand},
    Names.operand ⟨compiled, context⟩ (scope env) t = .ok o →
      o.inScope (scope env).length = true ∧ s.operand (frame env) o = w.term env t
  | .var x, o, ho => by
    rw [Names.operand] at ho
    cases hslot : Names.slot? x (scope env) with
    | none => rw [hslot] at ho; cases ho
    | some slot =>
      rw [hslot] at ho
      cases ho
      obtain ⟨v, hv, hl⟩ := frame_slot hslot
      have hlt := (List.getElem?_eq_some_iff.1 hv).1
      rw [length_frame] at hlt
      exact ⟨decide_eq_true hlt, by simp only [Setting.operand, Vocabulary.term, hv, hl]⟩
  | .int _, _, ho | .float _, _, ho | .str _, _, ho | .bool _, _, ho => by
    cases ho
    exact ⟨rfl, rfl⟩
  | .call name args, o, ho => by
    rw [Names.operand] at ho
    obtain ⟨callee, hc, ho⟩ := exists_of_bind_ok ho
    obtain ⟨os, hos, ho⟩ := exists_of_bind_ok ho
    cases ho
    obtain ⟨hin, heq⟩ := operands_eq_terms h env args hos
    refine ⟨hin, ?_⟩
    rw [Setting.operand, Vocabulary.term, heq]
    cases hv : w.terms env args with
    | error e => rfl
    | ok vs => exact h.call (length_terms hv ▸ callee?_of_callee hc)

theorem operands_eq_terms (h : Matched compiled s w) (env : NamedValues) : ∀ (ts : List Term) {os : List Operand},
    Names.operands ⟨compiled, context⟩ (scope env) ts = .ok os →
      Operand.allInScope (scope env).length os = true ∧ s.operands (frame env) os = w.terms env ts
  | [], os, hos => by
    cases hos
    exact ⟨rfl, rfl⟩
  | t :: ts, os, hos => by
    rw [Names.operands] at hos
    obtain ⟨o, ho, hos⟩ := exists_of_bind_ok hos
    obtain ⟨os', hos', hos⟩ := exists_of_bind_ok hos
    cases hos
    obtain ⟨hin, heq⟩ := operand_eq_term h env t ho
    obtain ⟨hins, heqs⟩ := operands_eq_terms h env ts hos'
    exact ⟨Bool.and_eq_true_iff.2 ⟨hin, hins⟩, by rw [Setting.operands, Vocabulary.terms, heq, heqs]⟩

end

variable (h : Matched compiled s w)

include h

theorem items_eq_range (env : NamedValues) {r : Range} {items : Items}
    (hr : Names.items ⟨compiled, context⟩ (scope env) r = .ok items) :
    items.inScope (scope env).length = true ∧ s.items (frame env) items = w.range env r := by
  cases r with
  | domain d =>
    cases hr
    exact ⟨rfl, by rw [Setting.items, Vocabulary.range, h.view]⟩
  | term t =>
    rw [Names.items] at hr
    cases ho : Names.operand ⟨compiled, context⟩ (scope env) t with
    | error e => rw [ho] at hr; cases hr
    | ok o =>
      rw [ho] at hr
      cases hr
      obtain ⟨hin, heq⟩ := operand_eq_term h env t ho
      exact ⟨hin, by rw [Setting.items, heq]; rfl⟩

/-- **Code and tree.** Code reads the slots of its own scope only, and there it means what its tree means. -/
theorem truth_eq_body (b : Body) (env : NamedValues) {c : Code}
    (hc : Names.code ⟨compiled, context⟩ (scope env) b = .ok c) :
    c.nested (scope env).length = true ∧ s.truth c (frame env) = w.body b env := by
  induction b generalizing env c with
  | literal b =>
    cases hc
    exact ⟨rfl, rfl⟩
  | not inner ih =>
    rw [Names.code] at hc
    obtain ⟨c', hc', hc⟩ := exists_of_bind_ok hc
    cases hc
    obtain ⟨hn, heq⟩ := ih env hc'
    exact ⟨hn, by rw [Setting.truth, Vocabulary.body, heq]⟩
  | connected op lhs rhs ihl ihr =>
    rw [Names.code] at hc
    obtain ⟨l, hl, hc⟩ := exists_of_bind_ok hc
    obtain ⟨r, hr, hc⟩ := exists_of_bind_ok hc
    cases hc
    obtain ⟨hnl, heql⟩ := ihl env hl
    obtain ⟨hnr, heqr⟩ := ihr env hr
    exact ⟨Bool.and_eq_true_iff.2 ⟨hnl, hnr⟩, by rw [Setting.truth, heql, heqr]; rfl⟩
  | compared op lhs rhs =>
    rw [Names.code] at hc
    obtain ⟨l, hl, hc⟩ := exists_of_bind_ok hc
    obtain ⟨r, hr, hc⟩ := exists_of_bind_ok hc
    cases hc
    obtain ⟨hnl, heql⟩ := operand_eq_term h env lhs hl
    obtain ⟨hnr, heqr⟩ := operand_eq_term h env rhs hr
    exact ⟨Bool.and_eq_true_iff.2 ⟨hnl, hnr⟩, by rw [Setting.truth, Vocabulary.body, heql, heqr]⟩
  | predicate name args =>
    rw [Names.code] at hc
    obtain ⟨callee, hcallee, hc⟩ := exists_of_bind_ok hc
    obtain ⟨os, hos, hc⟩ := exists_of_bind_ok hc
    have hc : c = .predicate callee os := by
      cases callee with
      | builtin b =>
        dsimp only at hc
        split_ifs at hc
        exact (Except.ok.inj hc).symm
      | subformula i => exact (Except.ok.inj hc).symm
    subst hc
    obtain ⟨hin, heq⟩ := operands_eq_terms h env args hos
    refine ⟨hin, ?_⟩
    rw [Setting.truth, Vocabulary.body, heq]
    cases hv : w.terms env args with
    | error e => rfl
    | ok vs =>
      have hcall := h.call (length_terms hv ▸ callee?_of_callee hcallee)
      exact congrArg (· >>= fun v => v.asBool "predicate") hcall
  | quantified q x range inner ih =>
    rw [Names.code] at hc
    obtain ⟨items, hitems, hc⟩ := exists_of_bind_ok hc
    obtain ⟨c', hc', hc⟩ := exists_of_bind_ok hc
    cases hc
    obtain ⟨hin, heq⟩ := items_eq_range h env hitems
    -- the body is compiled with the variable in scope, whatever its value is going to be
    have inner_eq : ∀ v, c'.nested ((scope env).length + 1) = true ∧
        s.truth c' (frame env ++ [v]) = w.body inner ((x, v) :: env) := fun v =>
      frame_cons x v env ▸ ih ((x, v) :: env) hc'
    refine ⟨?_, ?_⟩
    · simp only [Code.nested, beq_self_eq_true, hin, (inner_eq (.bool false)).1, Bool.and_self]
    · simp only [Setting.truth, Vocabulary.body, heq, fun v => (inner_eq v).2]

/-! ## Tables of subformulas -/

/-- a subformula that is compiled against a table and declared beside it means the same in both -/
theorem Matched.declare {sub : Subformula} {c : CompiledSubformula} (hc : sub.compile compiled = .ok c) :
    Matched (compiled ++ [c]) { s with subformulas := s.subformulas ++ [s.meaning c] } (w.declare sub) := by
  have hnames := congrArg List.length h.names
  simp only [List.length_map] at hnames
  simp only [Subformula.compile] at hc
  split_ifs at hc
  · cases hc
  obtain ⟨body, hbody, hc⟩ := exists_of_bind_ok hc
  cases hc
  refine ⟨h.view, by simp [h.length], by simp [Vocabulary.declare, h.names], ?_⟩
  intro i sub' m p hsub hm hp args hargs
  simp only [Vocabulary.declare] at hp
  rw [List.getElem?_append] at hsub hm hp
  rw [hnames] at hp
  rw [h.length] at hm
  split_ifs at hsub hm hp with hlt
  · exact h.meaning i sub' m p hsub hm hp args hargs
  · cases hi : i - compiled.length with
    | succ k => rw [hi] at hsub; cases hsub
    | zero =>
      rw [hi] at hsub hm hp
      cases hsub
      cases hm
      cases hp
      have hlen : args.length = sub.params.length := hargs
      rw [← scope_bind hlen] at hbody
      obtain ⟨hn, heq⟩ := truth_eq_body h sub.body _ hbody
      rw [scope_bind hlen, List.length_reverse, ← hlen] at hn
      rw [frame_bind hlen] at heq
      exact (s.meaning_eq_truth _ args hn).trans heq

end Compiled

/-- **Subformulas.** A table that is compiled in order means what its trees mean. -/
theorem matched_load (v : NetworkView) {subformulas : List Subformula} {compiled : List CompiledSubformula}
    (hc : Subformula.compileAll [] subformulas = .ok compiled) :
    Matched compiled (.load v compiled) (.ofSubformulas v subformulas) := by
  have step : ∀ (subs : List Subformula) (earlier : List CompiledSubformula) (w : Vocabulary),
      Matched earlier (.load v earlier) w → Subformula.compileAll earlier subs = .ok compiled →
        Matched compiled (.load v compiled) (subs.foldl Vocabulary.declare w) := by
    intro subs
    induction subs with
    | nil =>
      intro earlier w h hall
      cases hall
      exact h
    | cons sub subs ih =>
      intro earlier w h hall
      rw [Subformula.compileAll] at hall
      obtain ⟨c, hsub, hall⟩ := exists_of_bind_ok hall
      refine ih (earlier ++ [c]) (w.declare sub) ?_ hall
      rw [Setting.load, List.foldl_append]
      exact h.declare hsub
  exact step subformulas [] ⟨v, []⟩ ⟨rfl, rfl, rfl, fun i sub m p hsub => nomatch hsub⟩ hc

/-- **Evaluation is reading.** A compiled formula has at each binding of its outer variables the truth value, or the
error, that reading its tree gives. -/
theorem evaluate_eq_reading {subformulas : List Subformula} {compiled : List CompiledSubformula}
    (hs : Subformula.compileAll [] subformulas = .ok compiled) {f : Formula} {context : String} {c : CompiledFormula}
    (hf : f.compile compiled context = .ok c) (n : Network) (bindings : List Handle)
    (hlen : bindings.length = f.bindings.length) :
    (Setting.load n.view compiled).evaluate c bindings =
      (Vocabulary.ofSubformulas n.view subformulas).formula f bindings := by
  have matched := matched_load n.view hs
  have hvalues : (bindings.map Value.element).length = (f.bindings.map (·.var)).length := by simp [hlen]
  rw [Formula.compile] at hf
  obtain ⟨body, hbody, hf⟩ := exists_of_bind_ok hf
  cases hf
  rw [← NamedValues.scope_bind hvalues] at hbody
  obtain ⟨hn, heq⟩ := truth_eq_body matched f.body _ hbody
  rw [NamedValues.scope_bind hvalues, List.length_reverse, ← hvalues, List.length_map] at hn
  rw [NamedValues.frame_bind hvalues] at heq
  exact (Setting.evaluate_eq_truth _ _ bindings hn).trans heq

/-- A quantifier hides the outer variable, though not in what it ranges over, and calls a subformula with parameters of
the same name. It asks whether the second lanelet is all that follows the first one. -/
theorem evaluate_eq_reading_shadowed :
    let same : Subformula := ⟨"same", ["l", "k"], .compared .eq (.var "l") (.var "k")⟩
    let f : Formula := ⟨.quantified .every "l" (.term (.call "successors" [.var "l"])) (.predicate "same"
      [.call "lanelet_id" [.var "k"], .var "l"]), [⟨"l", .lanelets⟩, ⟨"k", .lanelets⟩]⟩
    ∃ compiled c, Subformula.compileAll [] [same] = .ok compiled ∧ f.compile compiled "" = .ok c ∧
      (∃ n, n = (RoadMap.ofDocument
          { lanelets := [{ id := 1, successors := .ofList [2] }, { id := 2, successors := .ofList [2] }] }).network ∧
        (Setting.load n.view compiled).evaluate c [⟨.lanelet, 0⟩, ⟨.lanelet, 0⟩] = .ok false ∧
          (Setting.load n.view compiled).evaluate c [⟨.lanelet, 0⟩, ⟨.lanelet, 1⟩] = .ok true) ∧
      ∀ (n : Network) (x y : Handle), (Setting.load n.view compiled).evaluate c [x, y] =
        (Vocabulary.ofSubformulas n.view [same]).formula f [x, y] := by
  intro same f
  have hs : Subformula.compileAll [] [same] = .ok [⟨"same", 2, .compared .eq (.slot 0) (.slot 1)⟩] := rfl
  have hf : f.compile [⟨"same", 2, .compared .eq (.slot 0) (.slot 1)⟩] "" = .ok ⟨f.bindings,
      .quantified .every 2 (.operand (.call (.builtin .successors) [.slot 0]))
        (.predicate (.subformula 0) [.call (.builtin .laneletId) [.slot 1], .slot 2])⟩ := rfl
  exact ⟨_, _, hs, hf, ⟨_, rfl, by decide +kernel, by decide +kernel⟩,
    fun n x y => evaluate_eq_reading hs hf n [x, y] rfl⟩

end RoadRules

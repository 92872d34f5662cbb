/-
Unbound variables and free variables.

Compiling looks variables up in the scope it is in; the free variables of a body are collected by a walk of their own.
`compile_agrees`: where all calls can be made, the two agree. A formula compiles just if all free variables of its
body are outer variables, and otherwise the first free variable that is not is the one the error names. The same goes
for a subformula and its parameters.
-/
import Mathlib.Tactic
import RoadRules.Formula.FreeVars
import RoadRules.Rule.Code

namespace RoadRules

open Formula (Term Range Body)

/-! ## Calls that can be made -/

namespace Names

/-- does the name stand for something that takes this many arguments? -/
def takes (names : Names) (name : String) (got : Nat) : Bool := (names.callee? name).any (·.2 == got)

/-- may the name stand where a truth value is wanted? Subformulas always may. -/
def statesTruth (names : Names) (name : String) : Bool :=
  match names.callee? name with
  | some (.builtin b, _) => b.isPredicate
  | _ => true

mutual

/-- can all calls in a term be made? -/
def knowsTerm (names : Names) : Term → Bool
  | .var _ | .int _ | .float _ | .str _ | .bool _ => true
  | .call name args => names.takes name args.length && knowsTerms names args

def knowsTerms (names : Names) : List Term → Bool
  | [] => true
  | t :: rest => knowsTerm names t && knowsTerms names rest

end

def knowsRange (names : Names) : Range → Bool
  | .domain _ => true
  | .term t => names.knowsTerm t

/-- can all calls in a body be made, with truth values where they are wanted? -/
def knows (names : Names) : Body → Bool
  | .quantified _ _ range body => names.knowsRange range && knows names body
  | .not inner => knows names inner
  | .connected _ lhs rhs => knows names lhs && knows names rhs
  | .predicate name args => names.takes name args.length && names.statesTruth name && names.knowsTerms args
  | .compared _ lhs rhs => names.knowsTerm lhs && names.knowsTerm rhs
  | .literal _ => true

theorem callee_of_takes {names : Names} {name : String} {got : Nat} (h : names.takes name got = true) :
    ∃ callee, names.callee? name = some (callee, got) ∧ names.callee name got = .ok callee := by
  obtain ⟨⟨callee, expected⟩, hfound, hgot⟩ := (Option.any_eq_true _ _).1 h
  obtain rfl : expected = got := beq_iff_eq.1 hgot
  exact ⟨callee, hfound, by simp [Names.callee, hfound]⟩

end Names

/-! ## What is collected -/

mutual

/-- what was found before stays in front -/
theorem prefix_addFree_term (bound : List String) : ∀ (t : Term) (found : List String), found <+: t.addFree bound found
  | .var name, found => by
    rw [Term.addFree]
    split_ifs
    · exact List.prefix_rfl
    · exact List.prefix_append found [name]
  | .call _ args, found => prefix_addFreeAll bound args found
  | .int _, _ | .float _, _ | .str _, _ | .bool _, _ => List.prefix_rfl

theorem prefix_addFreeAll (bound : List String) :
    ∀ (ts : List Term) (found : List String), found <+: Term.addFreeAll bound ts found
  | [], _ => List.prefix_rfl
  | t :: rest, found => (prefix_addFree_term bound t found).trans (prefix_addFreeAll bound rest _)

end

theorem prefix_addFree_range (bound : List String) (r : Range) (found : List String) :
    found <+: r.addFree bound found := by
  cases r with
  | domain d => exact List.prefix_rfl
  | term t => exact prefix_addFree_term bound t found

theorem prefix_addFree (bound : List String) (b : Body) (found : List String) : found <+: b.addFree bound found := by
  induction b generalizing bound found with
  | quantified _ var range inner ih => exact (prefix_addFree_range bound range found).trans (ih _ _)
  | not inner ih => exact ih _ _
  | connected _ lhs rhs ihl ihr => exact (ihl _ _).trans (ihr _ _)
  | predicate _ args => exact prefix_addFreeAll bound args found
  | compared _ lhs rhs => exact (prefix_addFree_term bound lhs found).trans (prefix_addFree_term bound rhs _)
  | literal => exact List.prefix_rfl

/-! ## The verdict -/

/-- the first of some variables that is none of the outer ones -/
def firstUnbound? (outer vars : List String) : Option String := vars.find? fun x => !outer.contains x

theorem firstUnbound?_eq_none {outer vars : List String} : firstUnbound? outer vars = none ↔ ∀ x ∈ vars, x ∈ outer := by
  simp [firstUnbound?]

theorem firstUnbound?_eq_some {outer vars : List String} {x : String} : firstUnbound? outer vars = some x ↔
    ∃ before after, vars = before ++ x :: after ∧ (∀ y ∈ before, y ∈ outer) ∧ x ∉ outer := by
  rw [firstUnbound?, List.find?_eq_some_iff_append]
  constructor
  · rintro ⟨hx, before, after, rfl, hbefore⟩
    exact ⟨before, after, rfl, by simpa using hbefore, by simpa using hx⟩
  · rintro ⟨before, after, rfl, hbefore, hx⟩
    exact ⟨by simpa using hx, before, after, rfl, by simpa using hbefore⟩

theorem firstUnbound?_of_prefix {outer vars more : List String} {x : String} (h : firstUnbound? outer vars = some x)
    (hp : vars <+: more) : firstUnbound? outer more = some x := by
  obtain ⟨before, after, rfl, hbefore, hx⟩ := firstUnbound?_eq_some.1 h
  obtain ⟨rest, rfl⟩ := hp
  exact firstUnbound?_eq_some.2 ⟨before, after ++ rest, by simp, hbefore, hx⟩

/-- Does compiling come out as the variables found so far say? It fails at the first of them that is not an outer one,
and only there. -/
def GoesBy (context : String) (outer found : List String) {α : Type} (r : Except CatalogError α) : Prop :=
  match firstUnbound? outer found with
  | none => ∃ c, r = .ok c
  | some x => r = .error (.unboundVariable context x)

namespace GoesBy

variable {context : String} {outer found more : List String} {α β : Type}

theorem of_bound (h : firstUnbound? outer found = none) (c : α) : GoesBy context outer found (.ok c) := by
  rw [GoesBy, h]
  exact ⟨c, rfl⟩

/-- Parts are compiled in the order in which their variables are collected. -/
theorem bind {r : Except CatalogError α} {k : α → Except CatalogError β} (hr : GoesBy context outer found r)
    (hp : found <+: more) (hk : ∀ a, firstUnbound? outer found = none → GoesBy context outer more (k a)) :
    GoesBy context outer more (r >>= k) := by
  cases h : firstUnbound? outer found with
  | none =>
    rw [GoesBy, h] at hr
    obtain ⟨c, rfl⟩ := hr
    exact hk c h
  | some x =>
    rw [GoesBy, h] at hr
    rw [GoesBy, firstUnbound?_of_prefix h hp, hr]
    rfl

/-- what is done after the last part does not fail -/
theorem map {r : Except CatalogError α} {k : α → Except CatalogError β} (hr : GoesBy context outer found r)
    (hk : ∀ a, ∃ b, k a = .ok b) : GoesBy context outer found (r >>= k) := by
  refine hr.bind List.prefix_rfl fun a h => ?_
  obtain ⟨b, hb⟩ := hk a
  exact hb ▸ of_bound h b

end GoesBy

/-! ## Compiling -/

section Compiling

variable {names : Names} {outer : List String}

theorem slot?_eq_none {var : String} {scope : List String} : Names.slot? var scope = none ↔ var ∉ scope := by
  induction scope with
  | nil => simp [Names.slot?]
  | cons x rest ih =>
    rw [Names.slot?]
    split_ifs with h
    · simp [h]
    · rw [ih]
      simp [Ne.symm h]

mutual

theorem goesBy_operand (bound : List String) : ∀ (t : Term) (found : List String), names.knowsTerm t = true →
    firstUnbound? outer found = none →
      GoesBy names.context outer (t.addFree bound found) (Names.operand names (bound ++ outer) t)
  | .var name, found, _, hfound => by
    rw [Names.operand, Term.addFree]
    cases hslot : Names.slot? name (bound ++ outer) with
    | none =>
      -- the variable is noted now, if it was not noted before; then it would be an outer one
      have hout := slot?_eq_none.1 hslot
      have hnew : ¬ (bound.contains name || found.contains name) = true := by
        intro h
        rcases Bool.or_eq_true_iff.1 h with h | h
        · exact hout (List.mem_append_left _ (by simpa using h))
        · exact hout (List.mem_append_right _ (firstUnbound?_eq_none.1 hfound name (by simpa using h)))
      rw [if_neg hnew]
      have hname : name ∉ outer := fun h => hout (List.mem_append_right _ h)
      have hfirst : firstUnbound? outer (found ++ [name]) = some name :=
        firstUnbound?_eq_some.2 ⟨found, [], rfl, firstUnbound?_eq_none.1 hfound, hname⟩
      rw [GoesBy, hfirst]
    | some slot =>
      have hin : name ∈ bound ++ outer := by
        by_contra h
        rw [slot?_eq_none.2 h] at hslot
        cases hslot
      refine GoesBy.of_bound ?_ _
      split_ifs with hold
      · exact hfound
      · have hname : name ∈ outer := (List.mem_append.1 hin).resolve_left fun h => hold (by simp [h])
        refine firstUnbound?_eq_none.2 fun x hx => ?_
        rcases List.mem_append.1 hx with hx | hx
        · exact firstUnbound?_eq_none.1 hfound x hx
        · exact List.mem_singleton.1 hx ▸ hname
  | .call name args, found, hk, hfound => by
    obtain ⟨htakes, hargs⟩ := Bool.and_eq_true_iff.1 hk
    obtain ⟨callee, -, hcallee⟩ := Names.callee_of_takes htakes
    rw [Names.operand, Term.addFree, hcallee]
    exact (goesBy_operands bound args found hargs hfound).map fun _ => ⟨_, rfl⟩
  | .int _, _, _, hfound | .float _, _, _, hfound | .str _, _, _, hfound | .bool _, _, _, hfound =>
    GoesBy.of_bound hfound _

theorem goesBy_operands (bound : List String) : ∀ (ts : List Term) (found : List String),
    names.knowsTerms ts = true → firstUnbound? outer found = none →
      GoesBy names.context outer (Term.addFreeAll bound ts found) (Names.operands names (bound ++ outer) ts)
  | [], _, _, hfound => GoesBy.of_bound hfound _
  | t :: rest, found, hk, hfound => by
    obtain ⟨ht, hrest⟩ := Bool.and_eq_true_iff.1 hk
    rw [Names.operands, Term.addFreeAll]
    refine (goesBy_operand bound t found ht hfound).bind (prefix_addFreeAll bound rest _) fun _ hfound' => ?_
    exact (goesBy_operands bound rest _ hrest hfound').map fun _ => ⟨_, rfl⟩

end

theorem goesBy_items (bound : List String) (r : Range) (found : List String) (hk : names.knowsRange r = true)
    (hfound : firstUnbound? outer found = none) :
    GoesBy names.context outer (r.addFree bound found) (Names.items names (bound ++ outer) r) := by
  cases r with
  | domain d => exact GoesBy.of_bound hfound _
  | term t =>
    have h := (goesBy_operand bound t found hk hfound).map (k := fun o => .ok (Items.operand o)) fun _ => ⟨_, rfl⟩
    rw [Names.items]
    cases ho : Names.operand names (bound ++ outer) t <;> rw [ho] at h <;> exact h

/-- **Compiling a body** goes by the variables that are collected on the way; `bound` lists the binders around it. -/
theorem goesBy_code (bound : List String) (b : Body) (found : List String) (hk : names.knows b = true)
    (hfound : firstUnbound? outer found = none) :
    GoesBy names.context outer (b.addFree bound found) (Names.code names (bound ++ outer) b) := by
  induction b generalizing bound found with
  | quantified q var range inner ih =>
    obtain ⟨hrange, hinner⟩ := Bool.and_eq_true_iff.1 hk
    rw [Names.code, Body.addFree]
    refine (goesBy_items bound range found hrange hfound).bind (prefix_addFree _ inner _) fun _ hfound' => ?_
    exact (ih (var :: bound) _ hinner hfound').map fun _ => ⟨_, rfl⟩
  | not inner ih => exact (ih bound found hk hfound).map fun _ => ⟨_, rfl⟩
  | connected op lhs rhs ihl ihr =>
    obtain ⟨hl, hr⟩ := Bool.and_eq_true_iff.1 hk
    rw [Names.code, Body.addFree]
    refine (ihl bound found hl hfound).bind (prefix_addFree _ rhs _) fun _ hfound' => ?_
    exact (ihr bound _ hr hfound').map fun _ => ⟨_, rfl⟩
  | predicate name args =>
    obtain ⟨hname, hargs⟩ := Bool.and_eq_true_iff.1 hk
    obtain ⟨htakes, htruth⟩ := Bool.and_eq_true_iff.1 hname
    obtain ⟨callee, hfind, hcallee⟩ := Names.callee_of_takes htakes
    rw [Names.code, Body.addFree, hcallee]
    refine (goesBy_operands bound args found hargs hfound).map fun os => ?_
    cases callee with
    | builtin b =>
      have hb : b.isPredicate = true := by simpa [Names.statesTruth, hfind] using htruth
      exact ⟨_, if_pos hb⟩
    | subformula i => exact ⟨_, rfl⟩
  | compared op lhs rhs =>
    obtain ⟨hl, hr⟩ := Bool.and_eq_true_iff.1 hk
    rw [Names.code, Body.addFree]
    refine (goesBy_operand bound lhs found hl hfound).bind (prefix_addFree_term _ rhs _) fun _ hfound' => ?_
    exact (goesBy_operand bound rhs _ hr hfound').map fun _ => ⟨_, rfl⟩
  | literal => exact GoesBy.of_bound hfound _

/-- what compiling a whole body comes to, with some variables around it -/
theorem code_verdict (outer : List String) (b : Body) (hk : names.knows b = true) :
    GoesBy names.context outer b.freeVars (Names.code names outer.reverse b) := by
  have h : GoesBy names.context outer.reverse (b.addFree [] []) (Names.code names ([] ++ outer.reverse) b) :=
    goesBy_code [] b [] hk rfl
  have hsame : firstUnbound? outer.reverse = firstUnbound? outer := by
    funext vars
    simp [firstUnbound?]
  rwa [GoesBy, hsame] at h

end Compiling

/-! ## Formulas and subformulas -/

/-- Does compiling agree with the free variables? It succeeds just if all of them are bound around the body, and
otherwise the error names the first one that is not. -/
structure AgreesWith (context : String) (bound free : List String) {α : Type} (r : Except CatalogError α) : Prop where
  success : (∃ c, r = .ok c) ↔ ∀ x ∈ free, x ∈ bound
  failure : ∀ before x after, free = before ++ x :: after → (∀ y ∈ before, y ∈ bound) → x ∉ bound →
    r = .error (.unboundVariable context x)

theorem GoesBy.agrees {context : String} {bound free : List String} {α : Type} {r : Except CatalogError α}
    (h : GoesBy context bound free r) : AgreesWith context bound free r where
  success := by
    cases hfirst : firstUnbound? bound free with
    | none =>
      rw [GoesBy, hfirst] at h
      exact iff_of_true h (firstUnbound?_eq_none.1 hfirst)
    | some x =>
      rw [GoesBy, hfirst] at h
      refine iff_of_false ?_ fun hall => ?_
      · rintro ⟨c, rfl⟩
        cases h
      · rw [firstUnbound?_eq_none.2 hall] at hfirst
        cases hfirst
  failure before x after hfree hbefore hx := by
    rwa [GoesBy, firstUnbound?_eq_some.2 ⟨before, after, hfree, hbefore, hx⟩] at h

/-- **Unbound variables are free variables.** If all calls in its body can be made, a formula compiles as the free
variables of the body and the outer variables say; so does a subformula with a name of its own, and its parameters. -/
theorem compile_agrees (subformulas : List CompiledSubformula) :
    (∀ (f : Formula) (context : String), Names.knows ⟨subformulas, context⟩ f.body = true →
      AgreesWith context (f.bindings.map (·.var)) f.body.freeVars (f.compile subformulas context)) ∧
    ∀ s : Subformula, (∀ c ∈ subformulas, c.name ≠ s.name) →
      Names.knows ⟨subformulas, s!"subformula `{s.name}`"⟩ s.body = true →
        AgreesWith s!"subformula `{s.name}`" s.params s.body.freeVars (s.compile subformulas) := by
  constructor
  · intro f context hk
    exact ((code_verdict _ f.body hk).map fun _ => ⟨_, rfl⟩).agrees
  · intro s hnew hk
    have hname : (subformulas.any (·.name == s.name)) = false := by simpa using hnew
    rw [Subformula.compile, if_neg (by simp [hname])]
    exact ((code_verdict _ s.body hk).map fun _ => ⟨_, rfl⟩).agrees

/-- The range of the quantifier lies outside its variable, which hides the outer one inside; so the first variable that
is not bound is the `k` of the range, although the body has an `m` that is not bound either. -/
theorem compile_agrees_shadowed :
    let body : Body := .connected .and
      (.quantified .every "l" (.term (.call "successors" [.var "k"])) (.compared .eq (.var "l") (.var "m")))
      (.predicate "contains" [.call "successors" [.var "l"], .var "k"])
    body.freeVars = ["k", "m", "l"] ∧
      Formula.compile ⟨body, [⟨"l", .lanelets⟩]⟩ [] "rule" = .error (.unboundVariable "rule" "k") ∧
      (∃ c, Formula.compile ⟨body, [⟨"m", .lanelets⟩, ⟨"k", .lanelets⟩, ⟨"l", .lanelets⟩]⟩ [] "rule" = .ok c) ∧
      Subformula.compile ⟨"near", ["l", "k"], body⟩ [] = .error (.unboundVariable "subformula `near`" "m") := by
  intro body
  have hfree : body.freeVars = ["k", "m", "l"] := by decide +kernel
  obtain ⟨formulas, subformulas⟩ := compile_agrees []
  refine ⟨hfree, ?_, ?_, ?_⟩
  · exact (formulas ⟨body, [⟨"l", .lanelets⟩]⟩ "rule" (by decide +kernel)).failure [] "k" ["m", "l"] hfree
      (by simp) (by decide)
  · refine (formulas ⟨body, [⟨"m", .lanelets⟩, ⟨"k", .lanelets⟩, ⟨"l", .lanelets⟩]⟩ "rule" ?_).success.2 ?_
    · decide +kernel
    · rw [hfree]
      decide
  · exact (subformulas ⟨"near", ["l", "k"], body⟩ (by simp) (by decide +kernel)).failure ["k"] "m" ["l"] hfree
      (by decide) (by decide)

end RoadRules

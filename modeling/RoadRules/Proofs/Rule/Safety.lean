/-
Evaluation never goes astray.

Compiling resolves every name, counts arguments and lets only truth values stand for bodies; evaluating then looks up
slots and subformulas without asking again. This is why it may:

- `Code.Fits`: code stands in its scope, and its calls give as many arguments as the callee takes. `Names.code_fits`:
  compiled code does.
- `Setting.Fits.safe_holds`: on a frame of sound values, such code keeps the frame sound, step by step.
- `FittingTable.fits_load`: so do subformulas, each of which calls only the ones before it.
- `evaluate_benign`: hence whatever error a formula of a catalog ends with, it is not one of the evaluator's own.
-/
import RoadRules.Proofs.Rule.Enumeration
import RoadRules.Proofs.Rule.Provenance
import RoadRules.Proofs.Rule.Standard
import RoadRules.Proofs.Rule.Trees

namespace RoadRules

/-! ## Compiled code -/

/-- does a call of it with this number of arguments make sense? `arities` are those of the subformulas in the table -/
def Callee.takes (arities : List Nat) (got : Nat) : Callee → Bool
  | .builtin b => got == b.arity
  | .subformula i => arities[i]? == some got

def Callee.isPredicate : Callee → Bool
  | .builtin b => b.isPredicate
  | .subformula _ => true

mutual

def Operand.linked (arities : List Nat) : Operand → Bool
  | .slot _ => true
  | .const v => v.isPlain
  | .call callee args => callee.takes arities args.length && Operand.allLinked arities args

def Operand.allLinked (arities : List Nat) : List Operand → Bool
  | [] => true
  | t :: rest => Operand.linked arities t && Operand.allLinked arities rest

end

def Items.linked (arities : List Nat) : Items → Bool
  | .domain _ => true
  | .operand t => t.linked arities

/-- do all calls make sense, and do only predicates stand for bodies? -/
def Code.linked (arities : List Nat) : Code → Bool
  | .quantified _ _ range body => range.linked arities && body.linked arities
  | .not inner => inner.linked arities
  | .connected _ lhs rhs => lhs.linked arities && rhs.linked arities
  | .predicate callee args => callee.isPredicate && callee.takes arities args.length && Operand.allLinked arities args
  | .compared _ lhs rhs => lhs.linked arities && rhs.linked arities
  | .literal _ => true

/-- code that was compiled in the scope of `d` variables, for a table of subformulas with these arities -/
structure Code.Fits (arities : List Nat) (d : Nat) (c : Code) : Prop where
  nested : c.nested d = true
  linked : c.linked arities = true

namespace Names

open Formula (Term Range Body)

variable {names : Names}

def arities (names : Names) : List Nat := names.subformulas.map (·.arity)

theorem takes_of_callee {name : String} {got : Nat} {callee : Callee} (hc : names.callee name got = .ok callee) :
    callee.takes names.arities got = true := by
  have hc := callee?_of_callee hc
  rw [callee?] at hc
  split at hc
  · obtain ⟨s, hs, hpair⟩ := Option.map_eq_some_iff.1 hc
    obtain ⟨rfl, rfl⟩ := Prod.mk.inj hpair
    rw [Callee.takes, arities, List.getElem?_map, hs]
    exact beq_self_eq_true _
  · obtain ⟨b, -, hpair⟩ := Option.map_eq_some_iff.1 hc
    obtain ⟨rfl, rfl⟩ := Prod.mk.inj hpair
    exact beq_self_eq_true _

theorem slot?_lt {var : String} {scope : List String} {slot : Nat} (h : slot? var scope = some slot) :
    slot < scope.length := by
  induction scope with
  | nil => cases h
  | cons x outer ih =>
    rw [slot?] at h
    split_ifs at h with hx
    · cases h
      exact Nat.lt_succ_self _
    · exact Nat.lt_succ_of_lt (ih h)

mutual

theorem operand_fits (scope : List String) : ∀ (t : Term) {o : Operand}, names.operand scope t = .ok o →
    o.inScope scope.length = true ∧ o.linked names.arities = true
  | .var x, o, ho => by
    rw [operand] at ho
    cases hslot : slot? x scope with
    | none => rw [hslot] at ho; cases ho
    | some slot =>
      rw [hslot] at ho
      cases ho
      exact ⟨decide_eq_true (slot?_lt hslot), rfl⟩
  | .int _, _, ho | .float _, _, ho | .str _, _, ho | .bool _, _, ho => by
    cases ho
    exact ⟨rfl, rfl⟩
  | .call name args, o, ho => by
    rw [operand] at ho
    obtain ⟨callee, hc, ho⟩ := exists_of_bind_ok ho
    obtain ⟨os, hos, ho⟩ := exists_of_bind_ok ho
    cases ho
    obtain ⟨hlen, hin, hlinked⟩ := operands_fit scope args hos
    exact ⟨hin, Bool.and_eq_true_iff.2 ⟨hlen ▸ takes_of_callee hc, hlinked⟩⟩

theorem operands_fit (scope : List String) : ∀ (ts : List Term) {os : List Operand}, names.operands scope ts = .ok os →
    os.length = ts.length ∧ Operand.allInScope scope.length os = true ∧ Operand.allLinked names.arities os = true
  | [], os, hos => by
    cases hos
    exact ⟨rfl, rfl, rfl⟩
  | t :: ts, os, hos => by
    rw [operands] at hos
    obtain ⟨o, ho, hos⟩ := exists_of_bind_ok hos
    obtain ⟨os', hos', hos⟩ := exists_of_bind_ok hos
    cases hos
    obtain ⟨hin, hlinked⟩ := operand_fits scope t ho
    obtain ⟨hlen, hins, hlinkeds⟩ := operands_fit scope ts hos'
    exact ⟨congrArg (· + 1) hlen, Bool.and_eq_true_iff.2 ⟨hin, hins⟩, Bool.and_eq_true_iff.2 ⟨hlinked, hlinkeds⟩⟩

end

theorem items_fit {scope : List String} {r : Range} {its : Items} (h : names.items scope r = .ok its) :
    its.inScope scope.length = true ∧ its.linked names.arities = true := by
  cases r with
  | domain d =>
    cases h
    exact ⟨rfl, rfl⟩
  | term t =>
    rw [items] at h
    cases ho : names.operand scope t with
    | error e => rw [ho] at h; cases h
    | ok o =>
      rw [ho] at h
      cases h
      exact operand_fits scope t ho

/-- **Compiling.** Compiled code stands in its scope, and its calls make sense. -/
theorem code_fits (b : Body) {scope : List String} {c : Code} (hc : names.code scope b = .ok c) :
    c.Fits names.arities scope.length := by
  induction b generalizing scope c with
  | literal b =>
    cases hc
    exact ⟨rfl, rfl⟩
  | not inner ih =>
    rw [code] at hc
    obtain ⟨c', hc', hc⟩ := exists_of_bind_ok hc
    cases hc
    exact ⟨(ih hc').nested, (ih hc').linked⟩
  | connected op lhs rhs ihl ihr =>
    rw [code] at hc
    obtain ⟨l, hl, hc⟩ := exists_of_bind_ok hc
    obtain ⟨r, hr, hc⟩ := exists_of_bind_ok hc
    cases hc
    exact ⟨Bool.and_eq_true_iff.2 ⟨(ihl hl).nested, (ihr hr).nested⟩,
      Bool.and_eq_true_iff.2 ⟨(ihl hl).linked, (ihr hr).linked⟩⟩
  | compared op lhs rhs =>
    rw [code] at hc
    obtain ⟨l, hl, hc⟩ := exists_of_bind_ok hc
    obtain ⟨r, hr, hc⟩ := exists_of_bind_ok hc
    cases hc
    obtain ⟨hinl, hlinkedl⟩ := operand_fits scope lhs hl
    obtain ⟨hinr, hlinkedr⟩ := operand_fits scope rhs hr
    exact ⟨Bool.and_eq_true_iff.2 ⟨hinl, hinr⟩, Bool.and_eq_true_iff.2 ⟨hlinkedl, hlinkedr⟩⟩
  | predicate name args =>
    rw [code] at hc
    obtain ⟨callee, hcallee, hc⟩ := exists_of_bind_ok hc
    obtain ⟨os, hos, hc⟩ := exists_of_bind_ok hc
    obtain ⟨hlen, hin, hlinked⟩ := operands_fit scope args hos
    obtain ⟨hpredicate, hc⟩ : callee.isPredicate = true ∧ c = .predicate callee os := by
      cases callee with
      | builtin b =>
        dsimp only at hc
        split_ifs at hc with hb
        exact ⟨hb, (Except.ok.inj hc).symm⟩
      | subformula i => exact ⟨rfl, (Except.ok.inj hc).symm⟩
    subst hc
    have htakes : callee.takes names.arities os.length = true := hlen ▸ takes_of_callee hcallee
    exact ⟨hin, by rw [Code.linked, hpredicate, htakes, hlinked]; rfl⟩
  | quantified q x range inner ih =>
    rw [code] at hc
    obtain ⟨its, hits, hc⟩ := exists_of_bind_ok hc
    obtain ⟨c', hc', hc⟩ := exists_of_bind_ok hc
    cases hc
    obtain ⟨hin, hlinked⟩ := items_fit hits
    have hinner := ih hc'
    refine ⟨?_, Bool.and_eq_true_iff.2 ⟨hlinked, hinner.linked⟩⟩
    simp only [Code.nested, beq_self_eq_true, hin, Bool.and_self, Bool.true_and]
    exact hinner.nested

end Names

/-! ## Frames -/

/-- a frame of sound values with this number of slots -/
structure Frame.Sound (n : Network) (size : Nat) (frame : Frame) : Prop where
  length : frame.length = size
  sound : ∀ v ∈ frame, v.Sound n

namespace Frame

variable {n : Network} {size slot : Nat} {frame : Frame}

theorem Sound.set {v : Value} (h : frame.Sound n size) (hv : v.Sound n) : Sound n size (frame.set slot v) where
  length := (List.length_set ..).trans h.length
  sound w hw := (List.mem_or_eq_of_mem_set hw).elim (h.sound w) fun he => he ▸ hv

theorem sound_start (size : Nat) {values : List Value} (hvalues : ∀ v ∈ values, v.Sound n) :
    (start size values).Sound n (max values.length size) where
  length := by rw [start, List.length_append, List.length_replicate]; omega
  sound v hv := by
    rcases List.mem_append.1 hv with hv | hv
    · exact hvalues v hv
    · rw [List.eq_of_mem_replicate hv]
      trivial

/-- the search of a quantifier, if its body keeps the frame sound -/
theorem safe_search {test : Frame → Except EvalError (Bool × Frame)} (hslot : slot < size)
    (htest : ∀ frame, frame.Sound n size → Safe (fun r => r.2.Sound n size) (test frame)) (decisive : Bool)
    {vs : List Value} (hvs : ∀ v ∈ vs, v.Sound n) (hframe : frame.Sound n size) :
    Safe (fun r => r.2.Sound n size) (search test slot decisive vs frame) := by
  induction vs generalizing frame with
  | nil => exact hframe
  | cons v vs ih =>
    rw [search, if_pos (hframe.length ▸ hslot)]
    refine (htest _ (hframe.set (hvs v List.mem_cons_self))).bind ?_
    rintro ⟨outcome, frame'⟩ hframe'
    dsimp only
    split_ifs
    · exact hframe'
    · exact ih (fun w hw => hvs w (List.mem_cons_of_mem v hw)) hframe'

end Frame

/-! ## Evaluation -/

/-- an evaluator for a network, with a table of subformulas of these arities that are safe on sound arguments -/
structure Setting.Fits (s : Setting) (n : Network) (arities : List Nat) : Prop where
  view : s.view = n.view
  meanings : List.Forall₂ (fun (meaning : List Value → Except EvalError Bool) arity =>
    ∀ args, args.length = arity → (∀ v ∈ args, v.Sound n) → Safe (fun _ => True) (meaning args)) s.subformulas arities

namespace Setting.Fits

variable {s : Setting} {n : Network} {arities : List Nat} (h : s.Fits n arities)

include h

theorem safe_call {callee : Callee} {args : List Value} (htakes : callee.takes arities args.length = true)
    (hargs : ∀ v ∈ args, v.Sound n) :
    Safe (fun r => r.Sound n ∧ (callee.isPredicate = true → ∃ t, r = .bool t)) (s.call callee args) := by
  cases callee with
  | builtin b =>
    rw [Setting.call, h.view]
    exact Builtin.safe_apply n b (beq_iff_eq.1 htakes) hargs
  | subformula i =>
    obtain ⟨hi, harity⟩ := List.getElem?_eq_some_iff.1 (beq_iff_eq.1 htakes)
    have hi' : i < s.subformulas.length := h.meanings.length_eq ▸ hi
    have hsafe := h.meanings.get hi' hi args harity.symm hargs
    simp only [List.get_eq_getElem] at hsafe
    simp only [Setting.call, List.getElem?_eq_getElem hi']
    exact hsafe.map fun t _ => ⟨trivial, fun _ => ⟨t, rfl⟩⟩

omit h

variable {d size : Nat} {frame : Frame}

mutual

theorem safe_operand (h : s.Fits n arities) (hframe : frame.Sound n size) (hd : d ≤ size) :
    ∀ t : Operand, t.inScope d = true → t.linked arities = true → Safe (·.Sound n) (s.operand frame t)
  | .slot k, hin, _ => by
    have hk : k < frame.length := hframe.length ▸ Nat.lt_of_lt_of_le (of_decide_eq_true hin) hd
    simp only [operand, List.getElem?_eq_getElem hk]
    exact hframe.sound _ (List.getElem_mem hk)
  | .const v, _, hv => Value.sound_of_isPlain hv
  | .call callee args, hin, hlinked => by
    obtain ⟨htakes, hargs⟩ := Bool.and_eq_true_iff.1 hlinked
    refine (h.safe_operands hframe hd args hin hargs).bind ?_
    rintro vs ⟨hlen, hvs⟩
    exact (h.safe_call (hlen ▸ htakes) hvs).mono fun _ hr => hr.1

theorem safe_operands (h : s.Fits n arities) (hframe : frame.Sound n size) (hd : d ≤ size) :
    ∀ ts : List Operand, Operand.allInScope d ts = true → Operand.allLinked arities ts = true →
      Safe (fun vs => vs.length = ts.length ∧ ∀ v ∈ vs, v.Sound n) (s.operands frame ts)
  | [], _, _ => ⟨rfl, fun _ hv => nomatch hv⟩
  | t :: ts, hin, hlinked => by
    obtain ⟨hint, hints⟩ := Bool.and_eq_true_iff.1 hin
    obtain ⟨hlinkedt, hlinkedts⟩ := Bool.and_eq_true_iff.1 hlinked
    refine (h.safe_operand hframe hd t hint hlinkedt).bind fun v hv =>
      (h.safe_operands hframe hd ts hints hlinkedts).bind ?_
    rintro vs ⟨hlen, hvs⟩
    exact ⟨congrArg (· + 1) hlen, List.forall_mem_cons.2 ⟨hv, hvs⟩⟩

end

include h

theorem safe_items (hframe : frame.Sound n size) (hd : d ≤ size) {range : Items} (hin : range.inScope d = true)
    (hlinked : range.linked arities = true) : Safe (fun vs => ∀ v ∈ vs, v.Sound n) (s.items frame range) := by
  cases range with
  | domain dom =>
    intro v hv
    obtain ⟨hd, hmem, rfl⟩ := List.mem_map.1 hv
    rw [h.view] at hmem
    exact Option.isSome_iff_exists.2 (present_of_domain hmem)
  | operand t =>
    refine (h.safe_operand hframe hd t hin hlinked).bind fun v hv => ?_
    cases v with
    | list vs => exact Value.allSound_iff.1 hv
    | _ => trivial

theorem safe_holds (c : Code) {d : Nat} (hc : c.Fits arities d) (hd : d ≤ size) (hslots : c.slots ≤ size)
    (hframe : frame.Sound n size) : Safe (fun r => r.2.Sound n size) (s.holds c frame) := by
  induction c generalizing d frame with
  | literal b => exact hframe
  | not inner ih => exact (ih ⟨hc.nested, hc.linked⟩ hd hslots hframe).bind fun _ hr => hr
  | connected op lhs rhs ihl ihr =>
    obtain ⟨hnl, hnr⟩ := Bool.and_eq_true_iff.1 hc.nested
    obtain ⟨hll, hlr⟩ := Bool.and_eq_true_iff.1 hc.linked
    obtain ⟨hsl, hsr⟩ := Nat.max_le.1 hslots
    refine (ihl ⟨hnl, hll⟩ hd hsl hframe).bind ?_
    rintro ⟨left, frame'⟩ hframe'
    have right := ihr ⟨hnr, hlr⟩ hd hsr hframe'
    cases op with
    | iff => exact right.bind fun _ hr => hr
    | and | or | implies =>
      cases left
      · first | exact hframe' | exact right
      · first | exact hframe' | exact right
  | compared op lhs rhs =>
    obtain ⟨hinl, hinr⟩ := Bool.and_eq_true_iff.1 hc.nested
    obtain ⟨hll, hlr⟩ := Bool.and_eq_true_iff.1 hc.linked
    refine (h.safe_operand hframe hd lhs hinl hll).bind fun a _ =>
      (h.safe_operand hframe hd rhs hinr hlr).bind fun b _ => ?_
    refine Safe.bind (Q := fun _ => True) ?_ fun _ _ => hframe
    cases op with
    | eq | ne => trivial
    | lt | le | gt | ge => exact (Value.safe_compare a b).map fun _ _ => trivial
  | predicate callee args =>
    obtain ⟨hcallee, hargs⟩ := Bool.and_eq_true_iff.1 hc.linked
    obtain ⟨hpredicate, htakes⟩ := Bool.and_eq_true_iff.1 hcallee
    refine (h.safe_operands hframe hd args hc.nested hargs).bind ?_
    rintro vs ⟨hlen, hvs⟩
    refine (h.safe_call (hlen ▸ htakes) hvs).bind ?_
    rintro r ⟨-, hr⟩
    obtain ⟨t, rfl⟩ := hr hpredicate
    exact hframe
  | quantified q slot range body ih =>
    obtain ⟨hslot, hbody⟩ := Bool.and_eq_true_iff.1 hc.nested
    obtain ⟨hslot, hin⟩ := Bool.and_eq_true_iff.1 hslot
    obtain rfl := beq_iff_eq.1 hslot
    obtain ⟨hlr, hlb⟩ := Bool.and_eq_true_iff.1 hc.linked
    obtain ⟨hlt, hsb⟩ := Nat.max_le.1 hslots
    refine (h.safe_items hframe hd hin hlr).bind fun vs hvs => ?_
    exact Frame.safe_search hlt (fun _ => ih ⟨hbody, hlb⟩ hlt hsb) _ hvs hframe

end Setting.Fits

/-! ## Catalogs -/

/-- a table of subformulas that fit the ones before them -/
inductive FittingTable : List CompiledSubformula → Prop
  | nil : FittingTable []
  | snoc {earlier : List CompiledSubformula} {sub : CompiledSubformula} (h : FittingTable earlier)
      (hbody : sub.body.Fits (earlier.map (·.arity)) sub.arity) : FittingTable (earlier ++ [sub])

/-- every subformula of a table is safe on sound arguments, as it calls only the ones before it -/
theorem FittingTable.fits_load (n : Network) {subs : List CompiledSubformula} (h : FittingTable subs) :
    (Setting.load n.view subs).Fits n (subs.map (·.arity)) := by
  induction h with
  | nil => exact ⟨rfl, .nil⟩
  | @snoc earlier sub _ hbody ih =>
    rw [Setting.load, List.foldl_append, List.map_append]
    refine ⟨ih.view, List.rel_append ih.meanings (.cons (fun args hlen hargs => ?_) .nil)⟩
    have hframe := Frame.sound_start sub.frameSize hargs
    refine (ih.safe_holds sub.body hbody ?_ ?_ hframe).map fun _ _ => trivial
    · exact hlen ▸ Nat.le_max_left ..
    · exact (Nat.le_max_right ..).trans (Nat.le_max_right ..)

namespace Catalog

theorem fitting_compileSubformulas {texts : List String} {compiled subs : List CompiledSubformula}
    (h : FittingTable compiled) (hc : compileSubformulas compiled texts = .ok subs) : FittingTable subs := by
  induction texts generalizing compiled with
  | nil =>
    cases hc
    exact h
  | cons text texts ih =>
    rw [compileSubformulas] at hc
    split at hc
    · cases hc
    · next s _ =>
      split at hc
      · cases hc
      · next c hs =>
        refine ih (.snoc h ?_) hc
        rw [Subformula.compile] at hs
        split_ifs at hs
        · cases hs
        obtain ⟨body, hbody, hs⟩ := exists_of_bind_ok hs
        cases hs
        have hfits := Names.code_fits _ hbody
        rwa [List.length_reverse] at hfits

theorem fits_of_compileRules {subs : List CompiledSubformula} {rules : List (RuleId × String)}
    {entries : List CatalogEntry} (hc : compileRules subs rules = .ok entries) :
    ∀ e ∈ entries, e.formula.body.Fits (subs.map (·.arity)) e.formula.bindings.length := by
  induction rules generalizing entries with
  | nil =>
    cases hc
    exact fun _ he => nomatch he
  | cons r rules ih =>
    obtain ⟨rule, text⟩ := r
    rw [compileRules] at hc
    split at hc
    · cases hc
    · next f _ =>
      split at hc
      · cases hc
      · next formula hf =>
        obtain ⟨rest, hrest, rfl⟩ :
            ∃ rest, compileRules subs rules = .ok rest ∧ entries = ⟨rule, text, formula⟩ :: rest := by
          cases hr : compileRules subs rules with
          | error e => rw [hr] at hc; cases hc
          | ok rest =>
            rw [hr] at hc
            exact ⟨rest, rfl, (Except.ok.inj hc).symm⟩
        refine List.forall_mem_cons.2 ⟨?_, ih hrest⟩
        rw [Formula.compile] at hf
        obtain ⟨body, hbody, hf⟩ := exists_of_bind_ok hf
        cases hf
        have hfits := Names.code_fits _ hbody
        rwa [List.length_reverse, List.length_map] at hfits

theorem fits_of_ofSources {subformulas : List String} {rules : List (RuleId × String)} {c : Catalog}
    (hc : ofSources subformulas rules = .ok c) :
    FittingTable c.subformulas ∧
      ∀ e ∈ c.entries, e.formula.body.Fits (c.subformulas.map (·.arity)) e.formula.bindings.length := by
  rw [ofSources] at hc
  split at hc
  · cases hc
  · next subs hsubs =>
    split at hc
    · cases hc
    · next entries hentries =>
      cases hc
      refine ⟨fitting_compileSubformulas .nil hsubs, fun e he => ?_⟩
      obtain ⟨r, -, hr⟩ := List.mem_filterMap.1 he
      exact fits_of_compileRules hentries e (List.mem_reverse.1 (List.mem_of_find?_eq_some hr))

/-- **Evaluation never goes astray.** At elements of the network, however many and of whatever kinds, a formula of a
catalog has a truth value or an error of its own: it reads no slot behind its frame and calls no subformula that is not
in the table before it, so that subformulas never call each other in circles; no builtin is short of an argument or of
an element that a value stands for, every call that stands for a body gives a truth value, and positions are found in
their lists except where the formula itself asks for one by `at`. -/
theorem evaluate_benign {subformulas : List String} {rules : List (RuleId × String)} {c : Catalog}
    (hc : ofSources subformulas rules = .ok c) (n : Network) (rule : RuleId) (handles : List Handle)
    (hpresent : ∀ h ∈ handles, n.contains h = true) {e : EvalError} (he : c.evaluate rule n handles = .error e) :
    (∀ slot, e ≠ .noSlot slot) ∧ (∀ index, e ≠ .noSubformula index) ∧
      (∀ function position, e ≠ .missingArgument function position) ∧ (∀ kind, e ≠ .danglingHandle kind) ∧
      (∀ expected found, e ≠ .typeMismatch "predicate" expected found) ∧
      ∀ function index length, e = .indexOutOfRange function index length → function = Builtin.nth.name := by
  obtain ⟨htable, hentries⟩ := fits_of_ofSources hc
  have hsafe : Safe (fun _ => True) (c.evaluate rule n handles) := by
    rw [evaluate]
    cases hentry : c.entry? rule with
    | none => trivial
    | some entry =>
      have hvalues : ∀ v ∈ handles.map Value.element, v.Sound n := by
        intro v hv
        obtain ⟨h, hh, rfl⟩ := List.mem_map.1 hv
        exact hpresent h hh
      have hframe := Frame.sound_start entry.formula.frameSize hvalues
      refine ((htable.fits_load n).safe_holds _ (hentries entry (List.mem_of_find?_eq_some hentry)) ?_ ?_ hframe).map
        fun _ _ => trivial
      · exact (Nat.le_max_left ..).trans (Nat.le_max_right ..)
      · exact (Nat.le_max_right ..).trans (Nat.le_max_right ..)
  rw [he] at hsafe
  have hbenign : e.Benign := hsafe
  refine ⟨?_, ?_, ?_, ?_, ?_, ?_⟩
  · rintro slot rfl; exact hbenign
  · rintro index rfl; exact hbenign
  · rintro function position rfl; exact hbenign
  · rintro kind rfl; exact hbenign
  · rintro expected found rfl; exact hbenign rfl
  · rintro function index length rfl; exact hbenign

/-- a rule about lanelets, asked about a sign -/
theorem evaluate_benign_wrong_kind :
    ∃ n, n = (RoadMap.empty.add (.trafficSign { id := 9 })).network ∧
    (∀ h ∈ [(⟨.trafficSign, 0⟩ : Handle)], n.contains h = true) ∧
    ∃ e, e = .typeMismatch "left_polyline" "lanelet" "element" ∧
    standardCatalog.evaluate .sameVerticesSize n [⟨.trafficSign, 0⟩] = .error e ∧
    (∀ slot, e ≠ .noSlot slot) ∧ (∀ index, e ≠ .noSubformula index) ∧
      (∀ function position, e ≠ .missingArgument function position) ∧ (∀ kind, e ≠ .danglingHandle kind) ∧
      (∀ expected found, e ≠ .typeMismatch "predicate" expected found) ∧
      ∀ function index length, e = .indexOutOfRange function index length → function = Builtin.nth.name := by
  have hpresent : ∀ h ∈ [(⟨.trafficSign, 0⟩ : Handle)],
      (RoadMap.empty.add (.trafficSign { id := 9 })).network.contains h = true := by decide +kernel
  have he : standardCatalog.evaluate .sameVerticesSize (RoadMap.empty.add (.trafficSign { id := 9 })).network
      [⟨.trafficSign, 0⟩] = .error (.typeMismatch "left_polyline" "lanelet" "element") := by decide +kernel
  exact ⟨_, rfl, hpresent, _, rfl, he, evaluate_benign standard_eq _ _ _ hpresent he⟩

end Catalog

end RoadRules

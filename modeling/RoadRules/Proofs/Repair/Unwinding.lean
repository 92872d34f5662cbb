/-
What repairs of loops do to borders.

- `Lanelet.Unwound`: a lanelet that has lost nothing but loops on one side.
- `unwinds_untangle`: a repair of loops leaves such lanelets, and every border with a loop that it is about gets
  shorter.
- `Unwinds.violates`: so it makes no loops, on neither side.
-/
import RoadRules.Proofs.Repair.Remedies
import RoadRules.Proofs.Rule.Plain

namespace RoadRules

/-! ## Borders -/

namespace Lanelet

/-- the border on one side -/
def border (side : Side) (l : Lanelet) : List Point :=
  match side with
  | .left => l.left
  | .right => l.right

/-- the lanelet with another border on one side -/
def withBorder (side : Side) (line : List Point) (l : Lanelet) : Lanelet :=
  match side with
  | .left => { l with left := line }
  | .right => { l with right := line }

@[simp] theorem border_recentred (side : Side) (l : Lanelet) : l.recentred.border side = l.border side := by
  cases side <;> simp [border]

@[simp] theorem border_withBorder (side : Side) (line : List Point) (l : Lanelet) :
    (l.withBorder side line).border side = line := by
  cases side <;> rfl

theorem border_withBorder_of_ne {side other : Side} (h : other ≠ side) (line : List Point) (l : Lanelet) :
    (l.withBorder side line).border other = l.border other := by
  cases side <;> cases other <;> first | exact absurd rfl h | rfl

@[simp] theorem id_withBorder (side : Side) (line : List Point) (l : Lanelet) : (l.withBorder side line).id = l.id := by
  cases side <;> rfl

/-- does the border on one side cross itself? -/
def Tangled (side : Side) (l : Lanelet) : Prop := Polyline.isSelfCrossing Vec2.crossing? (l.border side) = true

/-- a lanelet that has lost nothing but loops on one side -/
structure Unwound (side : Side) (l l' : Lanelet) : Prop where
  id : l'.id = l.id
  others : ∀ other, other ≠ side → l'.border other = l.border other
  shorter : l'.border side = l.border side ∨
    l.Tangled side ∧ (l'.border side).length < (l.border side).length

namespace Unwound

variable {side : Side} {l l' l'' : Lanelet}

theorem refl (side : Side) (l : Lanelet) : Unwound side l l := ⟨rfl, fun _ _ => rfl, Or.inl rfl⟩

theorem trans (h : Unwound side l l') (h' : Unwound side l' l'') : Unwound side l l'' where
  id := h'.id.trans h.id
  others other hne := (h'.others other hne).trans (h.others other hne)
  shorter := by
    rcases h.shorter with hsame | ⟨htangled, hlt⟩
    · have := h'.shorter
      rwa [Tangled, hsame] at this
    · refine Or.inr ⟨htangled, ?_⟩
      rcases h'.shorter with hsame' | ⟨-, hlt'⟩
      · rwa [hsame']
      · exact hlt'.trans hlt

theorem length_le (h : Unwound side l l') (other : Side) : (l'.border other).length ≤ (l.border other).length := by
  by_cases hside : other = side
  · subst hside
    rcases h.shorter with hsame | ⟨-, hlt⟩
    · rw [hsame]
    · exact hlt.le
  · rw [h.others other hside]

/-- a loop that is there was there before, or the lanelet had another one -/
theorem tangled (h : Unwound side l l') {other : Side} (ht : l'.Tangled other) : l.Tangled other := by
  by_cases hside : other = side
  · subst hside
    rcases h.shorter with hsame | ⟨htangled, -⟩
    · rwa [Tangled, hsame] at ht
    · exact htangled
  · rwa [Tangled, h.others other hside] at ht

end Unwound

theorem fixLoop_eq (side : Side) (l : Lanelet) : l.fixLoop side =
    match Polyline.cutFirstLoop Vec2.crossing? (l.border side) with
    | some line => .change (l.withBorder side line).recentred
    | none => .keep := by
  cases side <;> rfl

/-- a border without a loop is kept, and one with a loop gets shorter -/
theorem fixLoop_cases (side : Side) (l : Lanelet) : l.fixLoop side = .keep ∧ ¬ l.Tangled side ∨
    ∃ l', l.fixLoop side = .change l' ∧ Unwound side l l' ∧ (l'.border side).length < (l.border side).length := by
  rw [fixLoop_eq]
  cases hcut : Polyline.cutFirstLoop Vec2.crossing? (l.border side) with
  | none => exact Or.inl ⟨rfl, by rw [Tangled, Polyline.cutFirstLoop_eq_none_iff.1 hcut]; exact Bool.false_ne_true⟩
  | some line =>
    have htangled : l.Tangled side := by
      by_contra h
      rw [Polyline.cutFirstLoop_eq_none_iff.2 (Bool.eq_false_iff.2 h)] at hcut
      cases hcut
    have hlt : ((l.withBorder side line).recentred.border side).length < (l.border side).length := by
      simpa using Polyline.length_cutFirstLoop_lt hcut
    refine Or.inr ⟨_, rfl, ⟨by simp, fun other hne => ?_, Or.inr ⟨htangled, hlt⟩⟩, hlt⟩
    rw [border_recentred, border_withBorder_of_ne hne]

end Lanelet

/-! ## Networks -/

/-- the rule about loops on one side -/
def Side.loopRule : Side → RuleId
  | .left => .leftSelfIntersection
  | .right => .rightSelfIntersection

namespace Network

variable {side : Side} {n m o : Network}

/-- the rule is broken where a border on this side crosses itself -/
theorem violates_loopRule {location : Location} :
    n.Violates ⟨side.loopRule, location⟩ ↔ n.SomeLanelet (·.Tangled side) location := by
  cases side <;> refine violates_lanelet_iff (fun _ => Fault.at_ofLanelet) fun l _ => ?_
  · simp [Lanelet.hasSimpleLeft, Lanelet.Tangled, Lanelet.border]
  · simp [Lanelet.hasSimpleRight, Lanelet.Tangled, Lanelet.border]

/-- Have the lanelets of a network lost nothing but loops on one side? Other elements and lanelets that have gone do
not matter here. -/
def Unwinds (side : Side) (n m : Network) : Prop :=
  ∀ k l', m.lanelets.get? k = some l' → ∃ l, n.lanelets.get? k = some l ∧ l.Unwound side l'

namespace Unwinds

theorem refl (side : Side) (n : Network) : Unwinds side n n := fun _ l hl => ⟨l, hl, .refl side l⟩

theorem trans (h : Unwinds side n m) (h' : Unwinds side m o) : Unwinds side n o := by
  intro k l'' hl''
  obtain ⟨l', hl', hunwound'⟩ := h' k l'' hl''
  obtain ⟨l, hl, hunwound⟩ := h k l' hl'
  exact ⟨l, hl, hunwound.trans hunwound'⟩

/-- **No loops are made**, on neither side. -/
theorem violates (h : Unwinds side n m) {other : Side} {location : Location}
    (hviol : m.Violates ⟨other.loopRule, location⟩) : n.Violates ⟨other.loopRule, location⟩ := by
  obtain ⟨l', hl', htangled, hloc⟩ := violates_loopRule.1 hviol
  obtain ⟨k, hk⟩ := Store.mem_values.1 hl'
  obtain ⟨l, hl, hunwound⟩ := h k l' hk
  exact violates_loopRule.2 ⟨l, Store.mem_values.2 ⟨k, hl⟩, hunwound.tangled htangled, hloc.trans (by rw [hunwound.id])⟩

end Unwinds

/-- a lanelet that takes the place of one that it comes from -/
theorem unwinds_replace {key : Nat} {l l' : Lanelet} (hl : n.lanelets.get? key = some l) (h : l.Unwound side l') :
    Unwinds side n { n with lanelets := n.lanelets.replace key l' } := by
  intro k x hx
  rw [Store.get?_replace] at hx
  split_ifs at hx with hk
  · subst hk
    obtain ⟨l₀, hl₀, rfl⟩ := Option.map_eq_some_iff.1 hx
    cases hl.symm.trans hl₀
    exact ⟨l, hl, h⟩
  · exact ⟨x, hx, .refl side x⟩

/-! ## Repairs of loops -/

/-- the decision about the lanelet under one key -/
def untangleOne (side : Side) (n : Network) (key : Nat) : Edited :=
  n.apply (n.lanelets.get? key) (·.fixLoop side) (fun l => { n with lanelets := n.lanelets.replace key l })
    (n.removeLanelet key)

theorem untangle_eq (n : Network) (id : ElementId) (side : Side) :
    n.untangle id side = n.editEach (n.laneletsWithId id) (untangleOne side) := rfl

/-- Have the borders with a loop under a key got shorter? -/
def Shorter (side : Side) (key : Nat) (n m : Network) : Prop :=
  ∀ l l', n.lanelets.get? key = some l → l.Tangled side → m.lanelets.get? key = some l' →
    (l'.border side).length < (l.border side).length

/-- what has become shorter stays so -/
theorem Shorter.trans {key : Nat} (h : Shorter side key n m) (h' : Unwinds side m o) : Shorter side key n o := by
  intro l l'' hl htangled hl''
  obtain ⟨l', hl', hunwound⟩ := h' key l'' hl''
  exact (hunwound.length_le side).trans_lt (h l l' hl htangled hl')

/-- a border that has changed at all has got shorter already, so only one that is as it was needs the next edit -/
theorem Unwinds.shorter {key : Nat} (h : Unwinds side n m) (h' : Unwinds side m o) (hshorter : Shorter side key m o) :
    Shorter side key n o := by
  intro l l'' hl htangled hl''
  obtain ⟨l', hl', hunwound'⟩ := h' key l'' hl''
  obtain ⟨l₀, hl₀, hunwound⟩ := h key l' hl'
  cases hl.symm.trans hl₀
  rcases hunwound.shorter with hsame | ⟨-, hlt⟩
  · have hstill : l'.Tangled side := by rwa [Lanelet.Tangled, hsame]
    rw [← hsame]
    exact hshorter l' l'' hl' hstill hl''
  · exact (hunwound'.length_le side).trans_lt hlt

/-- One decision takes nothing but a loop, and one that there is. -/
theorem unwinds_untangleOne (n : Network) (side : Side) (key : Nat) :
    Unwinds side n (untangleOne side n key).network ∧ Shorter side key n (untangleOne side n key).network := by
  cases hx : n.lanelets.get? key with
  | none =>
    have hsame : untangleOne side n key = .unchanged n := by rw [untangleOne, hx]; rfl
    rw [hsame]
    refine ⟨.refl side n, fun l _ hl _ _ => ?_⟩
    cases hx.symm.trans hl
  | some x =>
    rcases x.fixLoop_cases side with ⟨hkeep, hsimple⟩ | ⟨x', hchange, hunwound, hlt⟩
    · have hsame : untangleOne side n key = .unchanged n := by simp only [untangleOne, hx, apply, hkeep]
      rw [hsame]
      refine ⟨.refl side n, fun l _ hl htangled _ => ?_⟩
      cases hx.symm.trans hl
      exact absurd htangled hsimple
    · have hput : untangleOne side n key = ⟨{ n with lanelets := n.lanelets.replace key x' }, true⟩ := by
        simp only [untangleOne, hx, apply, hchange]
      rw [hput]
      refine ⟨unwinds_replace hx hunwound, fun l l' hl _ hl' => ?_⟩
      rw [Store.get?_replace, if_pos rfl, hx] at hl'
      cases hx.symm.trans hl
      cases hl'
      exact hlt

/-- **Repairs of loops.** Nothing but loops goes, and each border with a loop that they are about gets shorter. -/
theorem unwinds_untangle (n : Network) (id : ElementId) (side : Side) :
    Unwinds side n (n.untangle id side).network ∧
      ∀ k l l', n.lanelets.get? k = some l → l.id = id → l.Tangled side →
        (n.untangle id side).network.lanelets.get? k = some l' → (l'.border side).length < (l.border side).length := by
  have step : ∀ a, Unwinds side n a → ∀ key ∈ n.laneletsWithId id,
      Unwinds side n (untangleOne side a key).network ∧ Shorter side key n (untangleOne side a key).network ∧
        ∀ k, Shorter side k n a → Shorter side k n (untangleOne side a key).network := by
    intro a ha key _
    obtain ⟨hstep, hshorter⟩ := unwinds_untangleOne a side key
    exact ⟨ha.trans hstep, ha.shorter hstep hshorter, fun k hk => hk.trans hstep⟩
  obtain ⟨hunwinds, hshorter⟩ := editEach_settles (n.laneletsWithId id) (.refl side n) step
  rw [untangle_eq]
  refine ⟨hunwinds, fun k l l' hl hid htangled hl' => ?_⟩
  exact hshorter k (mem_laneletsWithId.2 ⟨l, hl, hid⟩) l l' hl htangled hl'

end Network

end RoadRules

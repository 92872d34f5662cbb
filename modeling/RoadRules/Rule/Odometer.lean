/-
All choices of one item from each of several lists, one after the other.

`choices` lists them. An odometer walks through them without ever holding more than one: it has a wheel for each list,
and each wheel shows an item. The last wheel turns at every step; a wheel that has come to the end of its list starts
again and turns the one before it. `advance_of_standing` says that a step goes to the choice that comes next, and that
the walk stops when there is none.
-/

namespace RoadRules

variable {α β : Type}

/-- all choices of one item from each list, the last item varying fastest -/
def choices : List (List α) → List (List α)
  | [] => [[]]
  | l :: rest => l.flatMap fun x => (choices rest).map (x :: ·)

theorem choices_cons (x : α) (later : List α) (lists : List (List α)) :
    choices ((x :: later) :: lists) = (choices lists).map (x :: ·) ++ choices (later :: lists) := rfl

/-- where each wheel stands in its list, and the item that it shows -/
structure Odometer (α : Type) where
  cursor : List Nat
  choice : List α

namespace Odometer

/-- every wheel at the first item, if every list has one -/
def start? (lists : List (List α)) : Option (Odometer α) :=
  (lists.mapM List.head?).map fun choice => ⟨lists.map fun _ => 0, choice⟩

/-- a wheel turned to another item -/
def turn (wheel position : Nat) (item : α) (o : Odometer α) : Odometer α :=
  ⟨o.cursor.set wheel position, o.choice.set wheel item⟩

/-- the item behind the one that a wheel shows -/
def next? (lists : List (List α)) (wheel : Nat) (o : Odometer α) : Option α :=
  (lists[wheel]?.getD [])[o.cursor[wheel]?.getD 0 + 1]?

/-- a wheel turned back to its first item -/
def rewind (lists : List (List α)) (wheel : Nat) (o : Odometer α) : Odometer α :=
  match (lists[wheel]?.getD [])[0]? with
  | some first => o.turn wheel 0 first
  | none => o

/-- Turns the last one of some wheels by an item. One that is at its end is turned back, and the one before it is turned
instead. Says if there was a wheel that was not at its end. -/
def advance (lists : List (List α)) : (wheels : Nat) → Odometer α → Bool × Odometer α
  | 0, o => (false, o)
  | wheel + 1, o =>
    match o.next? lists wheel with
    | some item => (true, o.turn wheel (o.cursor[wheel]?.getD 0 + 1) item)
    | none => advance lists wheel (o.rewind lists wheel)

/-! ## The walk -/

/-- a wheel put in front of the others -/
def cons (p : Nat) (x : α) (o : Odometer α) : Odometer α := ⟨p :: o.cursor, x :: o.choice⟩

/-- does every wheel show the item at which it stands? -/
inductive Standing : List (List α) → Odometer α → Prop
  | nil : Standing [] ⟨[], []⟩
  | cons {l : List α} {p : Nat} {x : α} {lists : List (List α)} {o : Odometer α} (h : l[p]? = some x)
      (ho : Standing lists o) : Standing (l :: lists) (o.cons p x)

/-- the choices from where the wheels stand on -/
def ahead : List (List α) → List Nat → List (List α)
  | l :: lists, p :: ps =>
    match l.drop p with
    | [] => []
    | x :: later => (ahead lists ps).map (x :: ·) ++ choices (later :: lists)
  | _, _ => [[]]

theorem ahead_cons {l : List α} {p : Nat} {x : α} (h : l[p]? = some x) (lists : List (List α)) (ps : List Nat) :
    ahead (l :: lists) (p :: ps) = (ahead lists ps).map (x :: ·) ++ choices (l.drop (p + 1) :: lists) := by
  obtain ⟨hp, rfl⟩ := List.getElem?_eq_some_iff.1 h
  rw [ahead, List.drop_eq_getElem_cons hp]

theorem mapM_head?_cons (l : List α) (lists : List (List α)) :
    (l :: lists).mapM List.head? = l.head?.bind fun x => (lists.mapM List.head?).map (x :: ·) := by
  rw [List.mapM_cons]
  cases l.head? <;> cases lists.mapM List.head? <;> rfl

theorem start?_cons (l : List α) (lists : List (List α)) :
    start? (l :: lists) = l.head?.bind fun x => (start? lists).map (·.cons 0 x) := by
  rw [start?, start?, mapM_head?_cons]
  cases l.head? <;> cases lists.mapM List.head? <;> rfl

/-- At the start all choices are ahead. -/
theorem standing_start? {lists : List (List α)} {o : Odometer α} (h : start? lists = some o) :
    Standing lists o ∧ ahead lists o.cursor = choices lists := by
  induction lists generalizing o with
  | nil =>
    cases h
    exact ⟨.nil, rfl⟩
  | cons l lists ih =>
    rw [start?_cons] at h
    cases l with
    | nil => cases h
    | cons x later =>
      obtain ⟨o', ho', rfl⟩ := Option.map_eq_some_iff.1 h
      obtain ⟨hs, ha⟩ := ih ho'
      refine ⟨.cons rfl hs, ?_⟩
      rw [cons, ahead_cons (x := x) rfl, ha]
      rfl

/-- without a start there is no choice -/
theorem choices_of_start?_none {lists : List (List α)} (h : start? lists = none) : choices lists = [] := by
  induction lists with
  | nil => cases h
  | cons l lists ih =>
    rw [start?_cons] at h
    cases l with
    | nil => rfl
    | cons x later =>
      have : choices lists = [] := ih (Option.map_eq_none_iff.1 h)
      simp [choices, this]

theorem rewind_cons (l : List α) (lists : List (List α)) (p : Nat) (x : α) (wheel : Nat) (o : Odometer α) :
    (o.cons p x).rewind (l :: lists) (wheel + 1) = (o.rewind lists wheel).cons p x := by
  simp only [rewind, List.getElem?_cons_succ]
  split <;> rfl

theorem advance_of_next {lists : List (List α)} {wheel : Nat} {o : Odometer α} {item : α}
    (h : o.next? lists wheel = some item) :
    advance lists (wheel + 1) o = (true, o.turn wheel (o.cursor[wheel]?.getD 0 + 1) item) := by
  rw [advance, h]

theorem advance_of_end {lists : List (List α)} {wheel : Nat} {o : Odometer α} (h : o.next? lists wheel = none) :
    advance lists (wheel + 1) o = advance lists wheel (o.rewind lists wheel) := by
  rw [advance, h]

/-- With a wheel in front, the others turn as before; when they have come round, the front one turns. -/
theorem advance_cons (l : List α) (lists : List (List α)) (p : Nat) (x : α) (wheels : Nat) (o : Odometer α) :
    advance (l :: lists) (wheels + 1) (o.cons p x) =
      match advance lists wheels o with
      | (true, o') => (true, o'.cons p x)
      | (false, o') => advance (l :: lists) 1 (o'.cons p x) := by
  induction wheels generalizing o with
  | zero => rfl
  | succ wheel ih =>
    have hnext : (o.cons p x).next? (l :: lists) (wheel + 1) = o.next? lists wheel := rfl
    cases hn : o.next? lists wheel with
    | some item =>
      rw [advance_of_next (hnext.trans hn), advance_of_next hn]
      rfl
    | none => rw [advance_of_end (hnext.trans hn), advance_of_end hn, rewind_cons, ih]

/-- **A step.** It goes to the choice that comes next; when there is none, it goes back to the start. -/
theorem advance_of_standing {lists : List (List α)} {o : Odometer α} (ho : Standing lists o) :
    Standing lists (advance lists lists.length o).2 ∧
      match advance lists lists.length o with
      | (true, o') => ahead lists o.cursor = o.choice :: ahead lists o'.cursor
      | (false, o') => ahead lists o.cursor = [o.choice] ∧ ahead lists o'.cursor = choices lists := by
  induction ho with
  | nil => exact ⟨.nil, rfl, rfl⟩
  | @cons l p x lists o h ho ih =>
    rw [List.length_cons, advance_cons]
    obtain ⟨hs, ih⟩ := ih
    cases ha : advance lists lists.length o with
    | mk turned o' =>
      rw [ha] at hs ih
      have hahead := ahead_cons h lists o.cursor
      cases turned with
      | true =>
        refine ⟨.cons h hs, ?_⟩
        show ahead (l :: lists) (p :: o.cursor) = (x :: o.choice) :: ahead (l :: lists) (p :: o'.cursor)
        have ih : ahead lists o.cursor = o.choice :: ahead lists o'.cursor := ih
        rw [hahead, ahead_cons h, ih]
        rfl
      | false =>
        obtain ⟨hlast, hround⟩ : ahead lists o.cursor = [o.choice] ∧ ahead lists o'.cursor = choices lists := ih
        -- the others have come round; the front wheel goes on by one item, or it comes round too
        cases hn : l[p + 1]? with
        | some item =>
          have hstep : advance (l :: lists) 1 (o'.cons p x) = (true, o'.cons (p + 1) item) := advance_of_next hn
          obtain ⟨hlt, hitem⟩ := List.getElem?_eq_some_iff.1 hn
          simp only [hstep]
          refine ⟨.cons hn hs, ?_⟩
          rw [cons, cons, hahead, ahead_cons hn, hlast, hround, List.drop_eq_getElem_cons hlt, hitem, choices_cons]
          rfl
        | none =>
          obtain ⟨first, later, rfl⟩ := List.exists_cons_of_ne_nil (List.ne_nil_of_mem (List.mem_of_getElem? h))
          have hstep : advance ((first :: later) :: lists) 1 (o'.cons p x) = (false, o'.cons 0 first) :=
            advance_of_end hn
          have hend : (first :: later).drop (p + 1) = [] := List.drop_eq_nil_of_le (List.getElem?_eq_none_iff.1 hn)
          simp only [hstep]
          refine ⟨.cons rfl hs, ?_, ?_⟩
          · rw [cons, hahead, hlast, hend]
            rfl
          · rw [cons, ahead_cons (x := first) rfl, hround]
            rfl

namespace Standing

variable {lists : List (List α)} {o o' : Odometer α}

theorem advance {turned : Bool} (ho : Standing lists o) (h : o.advance lists lists.length = (turned, o')) :
    Standing lists o' := by
  have hs := (advance_of_standing ho).1
  rwa [h] at hs

theorem ahead_of_turned (ho : Standing lists o) (h : o.advance lists lists.length = (true, o')) :
    ahead lists o.cursor = o.choice :: ahead lists o'.cursor := by
  have hs := (advance_of_standing ho).2
  rwa [h] at hs

theorem ahead_of_done (ho : Standing lists o) (h : o.advance lists lists.length = (false, o')) :
    ahead lists o.cursor = [o.choice] := by
  have hs := (advance_of_standing ho).2
  rw [h] at hs
  exact hs.1

end Standing

/-- takes a step for every choice from the present one on -/
def visit (lists : List (List α)) (step : β → List α → β) (o : Odometer α) (ho : Standing lists o) (b : β) : β :=
  let b := step b o.choice
  match h : o.advance lists lists.length with
  | (true, o') => visit lists step o' (ho.advance h) b
  | (false, _) => b
termination_by (ahead lists o.cursor).length
decreasing_by
  rw [ho.ahead_of_turned h, List.length_cons]
  exact Nat.lt_succ_self _

theorem visit_eq {lists : List (List α)} (step : β → List α → β) {o : Odometer α} (ho : Standing lists o) (b : β) :
    visit lists step o ho b = (ahead lists o.cursor).foldl step b := by
  fun_induction visit lists step o ho b with
  | case1 o ho b _ o' h ih => rw [ih, ho.ahead_of_turned h, List.foldl_cons]
  | case2 o ho b _ o' h => rw [ho.ahead_of_done h]; rfl

end Odometer

/-- takes a step for every choice of one item from each list, the last item varying fastest -/
def visitChoices (lists : List (List α)) (step : β → List α → β) (b : β) : β :=
  match h : Odometer.start? lists with
  | some o => o.visit lists step (Odometer.standing_start? h).1 b
  | none => b

/-- **The walk.** It visits all choices in order. -/
theorem visitChoices_eq (lists : List (List α)) (step : β → List α → β) (b : β) :
    visitChoices lists step b = (choices lists).foldl step b := by
  unfold visitChoices
  split
  · next o h =>
    obtain ⟨ho, hahead⟩ := Odometer.standing_start? h
    rw [Odometer.visit_eq, hahead]
  · next h =>
    rw [Odometer.choices_of_start?_none h]
    rfl

end RoadRules

/-
Finite sets as lists in ascending order without repetition.

Every operation says what it does to membership (`mem_insert`, `mem_erase`, `mem_ofList`, ...), and two sets with the
same members are equal (`ext`), so nothing else has to know how a set is stored.
-/

namespace RoadRules

/-- a strict order in which two different values can always be told apart -/
class StrictOrder (α : Type) [LT α] : Prop where
  irrefl : ∀ a : α, ¬ a < a
  trans : ∀ {a b c : α}, a < b → b < c → a < c
  connected : ∀ {a b : α}, ¬ a < b → ¬ b < a → a = b

instance : StrictOrder Nat where
  irrefl := Nat.lt_irrefl
  trans := Nat.lt_trans
  connected h h' := Nat.le_antisymm (Nat.not_lt.1 h') (Nat.not_lt.1 h)

instance : StrictOrder UInt32 where
  irrefl := UInt32.lt_irrefl
  trans := UInt32.lt_trans
  connected h h' := UInt32.le_antisymm (UInt32.not_lt.1 h') (UInt32.not_lt.1 h)

instance : StrictOrder String where
  irrefl := String.lt_irrefl
  trans := String.lt_trans
  connected h h' := String.le_antisymm (String.not_lt.1 h') (String.not_lt.1 h)

/-- a finite set of values, kept in ascending order -/
structure SortedSet (α : Type) [LT α] where
  toList : List α
  sorted : toList.Pairwise (· < ·)

namespace SortedSet

variable {α : Type} [LT α]

instance : Membership α (SortedSet α) := ⟨fun s a => a ∈ s.toList⟩

theorem mem_toList {s : SortedSet α} {a : α} : a ∈ s.toList ↔ a ∈ s := Iff.rfl

instance [DecidableEq α] (a : α) (s : SortedSet α) : Decidable (a ∈ s) := inferInstanceAs (Decidable (a ∈ s.toList))

instance [DecidableEq α] : DecidableEq (SortedSet α) := fun s t =>
  decidable_of_iff (s.toList = t.toList) ⟨fun h => by cases s; cases t; cases h; rfl, fun h => h ▸ rfl⟩

def empty : SortedSet α := ⟨[], .nil⟩

instance : EmptyCollection (SortedSet α) := ⟨empty⟩

instance : Inhabited (SortedSet α) := ⟨empty⟩

@[simp] theorem not_mem_empty (a : α) : ¬ a ∈ (empty : SortedSet α) := List.not_mem_nil

def size (s : SortedSet α) : Nat := s.toList.length

def isEmpty (s : SortedSet α) : Bool := s.toList.isEmpty

/-- the members with a property -/
def filter (p : α → Bool) (s : SortedSet α) : SortedSet α := ⟨s.toList.filter p, s.sorted.filter p⟩

@[simp] theorem mem_filter {p : α → Bool} {s : SortedSet α} {a : α} : a ∈ s.filter p ↔ a ∈ s ∧ p a = true :=
  List.mem_filter

section Decidable

variable [DecidableEq α]

def contains (s : SortedSet α) (a : α) : Bool := decide (a ∈ s)

@[simp] theorem contains_iff {s : SortedSet α} {a : α} : s.contains a = true ↔ a ∈ s := decide_eq_true_iff

def erase (s : SortedSet α) (a : α) : SortedSet α := s.filter fun b => b ≠ a

@[simp] theorem mem_erase {s : SortedSet α} {a b : α} : b ∈ s.erase a ↔ b ∈ s ∧ b ≠ a := by simp [erase]

def inter (s t : SortedSet α) : SortedSet α := s.filter t.contains

@[simp] theorem mem_inter {s t : SortedSet α} {a : α} : a ∈ s.inter t ↔ a ∈ s ∧ a ∈ t := by simp [inter]

def isDisjoint (s t : SortedSet α) : Bool := s.toList.all fun a => !t.contains a

@[simp] theorem isDisjoint_iff {s t : SortedSet α} : s.isDisjoint t = true ↔ ∀ a ∈ s, ¬ a ∈ t := by
  simp [isDisjoint, mem_toList, contains]

end Decidable

section Insert

variable [DecidableLT α]

/-- a value put at its place in an ascending list, unless it is there already -/
def insertInto (a : α) : List α → List α
  | [] => [a]
  | b :: rest => if a < b then a :: b :: rest else if b < a then b :: insertInto a rest else b :: rest

variable [StrictOrder α]

theorem mem_insertInto {a b : α} {l : List α} : b ∈ insertInto a l ↔ b = a ∨ b ∈ l := by
  induction l with
  | nil => simp [insertInto]
  | cons c rest ih =>
    unfold insertInto
    split
    · simp
    · next hac =>
      split
      · simp only [List.mem_cons, ih]
        exact or_left_comm
      · next hca =>
        cases StrictOrder.connected hac hca
        simp

theorem sorted_insertInto {a : α} {l : List α} (h : l.Pairwise (· < ·)) : (insertInto a l).Pairwise (· < ·) := by
  induction l with
  | nil => simp [insertInto]
  | cons c rest ih =>
    obtain ⟨first, others⟩ := List.pairwise_cons.1 h
    unfold insertInto
    split
    · next hac =>
      refine List.pairwise_cons.2 ⟨fun b hb => ?_, h⟩
      cases List.mem_cons.1 hb with
      | inl e => exact e ▸ hac
      | inr m => exact StrictOrder.trans hac (first b m)
    · split
      · next hca =>
        refine List.pairwise_cons.2 ⟨fun b hb => ?_, ih others⟩
        cases mem_insertInto.1 hb with
        | inl e => exact e ▸ hca
        | inr m => exact first b m
      · exact h

def insert (s : SortedSet α) (a : α) : SortedSet α := ⟨insertInto a s.toList, sorted_insertInto s.sorted⟩

@[simp] theorem mem_insert {s : SortedSet α} {a b : α} : b ∈ s.insert a ↔ b = a ∨ b ∈ s := mem_insertInto

/-- a set with all values of a list added -/
def insertAll (s : SortedSet α) (l : List α) : SortedSet α := l.foldl insert s

@[simp] theorem mem_insertAll {s : SortedSet α} {l : List α} {a : α} : a ∈ s.insertAll l ↔ a ∈ s ∨ a ∈ l := by
  unfold insertAll
  induction l generalizing s with
  | nil => simp
  | cons b rest ih => simp [ih, or_assoc, or_comm, or_left_comm]

def ofList (l : List α) : SortedSet α := (empty : SortedSet α).insertAll l

@[simp] theorem mem_ofList {l : List α} {a : α} : a ∈ ofList l ↔ a ∈ l := by simp [ofList]

def union (s t : SortedSet α) : SortedSet α := s.insertAll t.toList

@[simp] theorem mem_union {s t : SortedSet α} {a : α} : a ∈ s.union t ↔ a ∈ s ∨ a ∈ t := mem_insertAll

end Insert

theorem toList_eq_of_mem_iff [StrictOrder α] {l m : List α} (hl : l.Pairwise (· < ·)) (hm : m.Pairwise (· < ·))
    (h : ∀ a, a ∈ l ↔ a ∈ m) : l = m := by
  induction l generalizing m with
  | nil => exact (List.eq_nil_iff_forall_not_mem.2 fun a ha => List.not_mem_nil ((h a).2 ha)).symm
  | cons a l ih =>
    cases m with
    | nil => exact absurd ((h a).1 List.mem_cons_self) List.not_mem_nil
    | cons b m =>
      obtain ⟨al, sl⟩ := List.pairwise_cons.1 hl
      obtain ⟨bm, sm⟩ := List.pairwise_cons.1 hm
      have e : a = b := by
        cases List.mem_cons.1 ((h a).1 List.mem_cons_self) with
        | inl e => exact e
        | inr am =>
          cases List.mem_cons.1 ((h b).2 List.mem_cons_self) with
          | inl e => exact e.symm
          | inr bl => exact absurd (StrictOrder.trans (bm a am) (al b bl)) (StrictOrder.irrefl b)
      subst e
      have tails : ∀ c, c ∈ l ↔ c ∈ m := fun c => by
        constructor
        · intro hc
          cases List.mem_cons.1 ((h c).1 (List.mem_cons_of_mem _ hc)) with
          | inl e => exact absurd (e ▸ al c hc) (StrictOrder.irrefl a)
          | inr m => exact m
        · intro hc
          cases List.mem_cons.1 ((h c).2 (List.mem_cons_of_mem _ hc)) with
          | inl e => exact absurd (e ▸ bm c hc) (StrictOrder.irrefl a)
          | inr m => exact m
      rw [ih sl sm tails]

/-- sets with the same members are equal -/
theorem ext [StrictOrder α] {s t : SortedSet α} (h : ∀ a, a ∈ s ↔ a ∈ t) : s = t := by
  cases s
  cases t
  congr
  exact toList_eq_of_mem_iff (by assumption) (by assumption) h

end SortedSet

end RoadRules

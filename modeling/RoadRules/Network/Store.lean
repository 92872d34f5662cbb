/-
Elements of one kind under their storage keys, in ascending order of the keys.
-/

namespace RoadRules

/-- values under ascending keys -/
structure Store (α : Type) where
  entries : List (Nat × α)
  ascending : entries.Pairwise fun a b => a.1 < b.1

namespace Store

variable {α : Type}

def empty : Store α := ⟨[], .nil⟩

instance : Inhabited (Store α) := ⟨empty⟩

instance [DecidableEq α] : DecidableEq (Store α) := fun s t =>
  decidable_of_iff (s.entries = t.entries) ⟨fun h => by cases s; cases t; cases h; rfl, fun h => h ▸ rfl⟩

def keys (s : Store α) : List Nat := s.entries.map (·.1)

def values (s : Store α) : List α := s.entries.map (·.2)

def size (s : Store α) : Nat := s.entries.length

def get? (s : Store α) (key : Nat) : Option α := (s.entries.find? (·.1 == key)).map (·.2)

def contains (s : Store α) (key : Nat) : Bool := (s.get? key).isSome

theorem pairwise_map {f : Nat × α → Nat × α} (hf : ∀ e, (f e).1 = e.1) {l : List (Nat × α)}
    (h : l.Pairwise fun a b => a.1 < b.1) : (l.map f).Pairwise fun a b => a.1 < b.1 := by
  rw [List.pairwise_map]
  exact h.imp fun {a b} lt => by rw [hf a, hf b]; exact lt

/-- every value changed, with a look at its key -/
def mapEntries (s : Store α) (f : Nat → α → α) : Store α :=
  ⟨s.entries.map fun e => (e.1, f e.1 e.2), pairwise_map (f := fun e => (e.1, f e.1 e.2)) (fun _ => rfl) s.ascending⟩

/-- every value changed -/
def map (s : Store α) (f : α → α) : Store α := s.mapEntries fun _ => f

/-- the value under a key changed, if there is one -/
def modify (s : Store α) (key : Nat) (f : α → α) : Store α := s.mapEntries fun k v => if k = key then f v else v

/-- the value under a key replaced, if there is one -/
def replace (s : Store α) (key : Nat) (value : α) : Store α := s.modify key fun _ => value

def erase (s : Store α) (key : Nat) : Store α := ⟨s.entries.filter (·.1 != key), s.ascending.filter _⟩

/-- the entries whose keys have a property -/
def restrict (s : Store α) (p : Nat → Bool) : Store α := ⟨s.entries.filter (p ·.1), s.ascending.filter _⟩

/-- an entry put at its place, over one with the same key -/
def insertInto (key : Nat) (value : α) : List (Nat × α) → List (Nat × α)
  | [] => [(key, value)]
  | e :: rest =>
    if key < e.1 then (key, value) :: e :: rest
    else if key = e.1 then (key, value) :: rest
    else e :: insertInto key value rest

theorem mem_insertInto {key : Nat} {value : α} {l : List (Nat × α)} {e : Nat × α}
    (h : e ∈ insertInto key value l) : e.1 = key ∨ e ∈ l := by
  induction l with
  | nil => simp_all [insertInto]
  | cons c rest ih =>
    unfold insertInto at h
    split at h
    · rcases List.mem_cons.1 h with rfl | h
      · exact .inl rfl
      · exact .inr h
    · split at h
      · rcases List.mem_cons.1 h with rfl | h
        · exact .inl rfl
        · exact .inr (List.mem_cons_of_mem _ h)
      · rcases List.mem_cons.1 h with rfl | h
        · exact .inr List.mem_cons_self
        · exact (ih h).imp id (List.mem_cons_of_mem _)

theorem ascending_insertInto {key : Nat} {value : α} {l : List (Nat × α)}
    (h : l.Pairwise fun a b => a.1 < b.1) : (insertInto key value l).Pairwise fun a b => a.1 < b.1 := by
  induction l with
  | nil => simp [insertInto]
  | cons c rest ih =>
    obtain ⟨first, others⟩ := List.pairwise_cons.1 h
    unfold insertInto
    split
    · next lt =>
      refine List.pairwise_cons.2 ⟨fun e he => ?_, h⟩
      rcases List.mem_cons.1 he with rfl | he
      · exact lt
      · exact Nat.lt_trans lt (first e he)
    · split
      · next e => exact List.pairwise_cons.2 ⟨fun f hf => by rw [e]; exact first f hf, others⟩
      · next nlt ne =>
        refine List.pairwise_cons.2 ⟨fun e he => ?_, ih others⟩
        rcases mem_insertInto he with e | m
        · rw [e]; omega
        · exact first e m

def insert (s : Store α) (key : Nat) (value : α) : Store α :=
  ⟨insertInto key value s.entries, ascending_insertInto s.ascending⟩

end Store

end RoadRules

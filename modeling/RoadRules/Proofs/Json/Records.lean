/-
Decoding what was encoded, and what a decoder can give at all.

An object that has exactly the fields of a record, in their order, is decoded like the list of their values, so that
reading a record goes through its fields one by one. The other way round, a record that is filled in from values of 64
bits keeps every property that its fields keep.

- `record_object`: an object with the fields of a record is read like a list of them.
- `uint32_nat`, `float_ofFloat`, `word_str`, `list_map`: encoded values are read as what they were.
- `Tree.Proper`: the values that there can be, with integers of 64 bits and finite floats.
- `yields_float`, `yields_list`, `yields_option`, `yields_record`: what decoders make of such values.
-/
import RoadRules.Json.Decoder
import RoadRules.Proofs.Number.Finite

namespace RoadRules.Json

namespace Decoder

variable {φ α β : Type}

/-! ## Values -/

theorem uint32_nat (n : UInt32) : uint32 (Json.nat n.toNat) = .ok n := by
  have hlt : (n.toNat : Int) < UInt32.size := by exact_mod_cast n.toNat_lt
  unfold uint32 Json.nat
  simp only [Int.natCast_nonneg, hlt, and_self, if_true, Int.toNat_natCast, UInt32.ofNat_toNat]

theorem float_ofFloat {x : Float} (hx : x.isFinite = true) : float (ofFloat x) = .ok x := by
  unfold ofFloat
  rw [if_pos hx]
  rfl

theorem word_str {meaning : String → Option α} {s : String} {x : α} (h : meaning s = some x) :
    word meaning (.str s : Tree φ) = .ok x := by
  simp only [word, h]

/-- the items of a list, each read as what it was -/
theorem list_map {item : Decoder Empty α} {encode : α → Json} {xs : List α} (h : ∀ x ∈ xs, item (encode x) = .ok x) :
    list item (Json.list (xs.map encode)) = .ok xs := by
  have hitems : itemsOf item (xs.map encode) = .ok xs := by
    induction xs with
    | nil => rfl
    | cons x xs ih =>
      simp only [List.map_cons, itemsOf, h x List.mem_cons_self, ih fun y hy => h y (List.mem_cons_of_mem x hy)]
      rfl
  unfold Json.list list
  simp only [hitems, close]

/-! ## Records -/

section Records

variable {fields rest : List (Field φ α)} {f : Field φ α} {name : String} {decoder : Decoder φ β} {put : β → α → α}
  {t : Tree φ} {ts : List (Tree φ)} {unclosed : Option φ} {r : α} {v : β}

/-- a field whose value can be read, whether it has to be there or not -/
theorem positions_put {needed : Bool} (h : decoder t = .ok v) :
    positions (⟨name, needed, fun t => (decoder t).map put⟩ :: fields) (t :: ts) unclosed r =
      positions fields ts unclosed (put v r) := by
  simp only [positions, h, Except.map]

theorem find?_name (hn : (fields.map (·.name)).Nodup) (hf : f ∈ fields) :
    fields.find? (·.name == f.name) = some f := by
  induction fields with
  | nil => exact absurd hf List.not_mem_nil
  | cons g fields ih =>
    obtain ⟨hg, hn⟩ := List.nodup_cons.1 hn
    rcases List.mem_cons.1 hf with rfl | hf
    · exact List.find?_cons_of_pos (beq_self_eq_true f.name)
    · have hne : g.name ≠ f.name := fun h => hg (List.mem_map.2 ⟨f, hf, h.symm⟩)
      simp only [List.find?_cons, beq_eq_false_iff_ne.2 hne]
      exact ih hn hf

/-- members with the names of the fields that are left, in their order -/
theorem members_eq (hfind : ∀ f ∈ rest, fields.find? (·.name == f.name) = some f) (hn : (rest.map (·.name)).Nodup)
    {seen : List String} (hseen : ∀ f ∈ rest, f.name ∉ seen) {ms : List (String × Tree φ)}
    (hm : ms.map (·.1) = rest.map (·.name)) (r : α) :
    members fields (ms.map fun m => (.ok m.1, m.2)) seen r =
      (positions rest (ms.map (·.2)) none r).map fun r => (r, (rest.map (·.name)).reverse ++ seen) := by
  induction rest generalizing ms seen r with
  | nil =>
    obtain rfl : ms = [] := List.map_eq_nil_iff.1 hm
    rfl
  | cons f rest ih =>
    obtain ⟨⟨name, t⟩, ms, rfl⟩ : ∃ m ms', ms = m :: ms' := List.exists_cons_of_ne_nil fun h => by simp [h] at hm
    obtain ⟨rfl, hms⟩ : name = f.name ∧ ms.map (·.1) = rest.map (·.name) := by simpa using hm
    obtain ⟨hf, hn⟩ := List.nodup_cons.1 hn
    have hnew : seen.contains f.name = false := by simpa using hseen f List.mem_cons_self
    have hrest : ∀ g ∈ rest, g.name ∉ f.name :: seen := fun g hg h =>
      (List.mem_cons.1 h).elim (fun h => hf (List.mem_map.2 ⟨g, hg, h⟩)) (hseen g (List.mem_cons_of_mem f hg))
    simp only [List.map_cons, members, positions, hfind f List.mem_cons_self, hnew, Bool.false_eq_true, if_false]
    cases f.read t with
    | error e => rfl
    | ok put =>
      dsimp only
      rw [ih (fun g hg => hfind g (List.mem_cons_of_mem f hg)) hn hrest hms]
      simp only [List.reverse_cons, List.append_assoc, List.singleton_append]

end Records

/-- **Objects.** One with the fields of a record, in their order, is read like the list of their values. -/
theorem record_object {fields : List (Field Empty α)} (hn : (fields.map (·.name)).Nodup) {ms : List (String × Json)}
    (hm : ms.map (·.1) = fields.map (·.name)) (blank : α) :
    record fields blank (Json.object ms) = positions fields (ms.map (·.2)) none blank := by
  have hmembers := members_eq (fun f hf => find?_name hn hf) hn (fun f _ => List.not_mem_nil) hm blank
  obtain ⟨names, hnames⟩ : ∃ names, names = (fields.map (·.name)).reverse ++ [] := ⟨_, rfl⟩
  have hall : (fields.all fun f => !f.required || names.contains f.name) = true := by
    rw [List.all_eq_true]
    intro f hf
    have hmem : f.name ∈ names := by
      rw [hnames, List.append_nil, List.mem_reverse]
      exact List.mem_map_of_mem hf
    simp only [List.contains_iff_mem.2 hmem, Bool.or_true]
  rw [← hnames] at hmembers
  unfold object record
  simp only [hmembers]
  cases positions fields (ms.map (·.2)) none blank with
  | error e => rfl
  | ok r => simp only [Except.map, close, hall, if_true]

end Decoder

/-! ## What can be decoded -/

/-- a value that there can be: its integers have 64 bits, and its floats are finite -/
inductive Tree.Proper {φ : Type} : Tree φ → Prop
  | null : Proper .null
  | bool (b : Bool) : Proper (.bool b)
  | int {n : Int} (low : -2 ^ 63 ≤ n) (high : n < 2 ^ 64) : Proper (.int n)
  | float {x : Float} (finite : x.isFinite = true) : Proper (.float x)
  | str (s : String) : Proper (.str s)
  | arr {items : List (Tree φ)} (each : ∀ t ∈ items, t.Proper) (unclosed : Option φ) : Proper (.arr items unclosed)
  | obj {members : List (Except φ String × Tree φ)} (each : ∀ m ∈ members, m.2.Proper) (unclosed : Option φ) :
    Proper (.obj members unclosed)
  | broken (why : φ) : Proper (.broken why)
  | unusable (why : φ) : Proper (.unusable why)

section Proper

variable {φ : Type}

@[simp] theorem proper_null : (.null : Tree φ).Proper := .null

@[simp] theorem proper_float {x : Float} : (.float x : Tree φ).Proper ↔ x.isFinite = true :=
  ⟨fun h => by cases h; assumption, .float⟩

@[simp] theorem proper_nat {n : Nat} : (nat n).Proper ↔ n < 2 ^ 64 :=
  ⟨fun h => by cases h; omega, fun h => .int (by omega) (by omega)⟩

@[simp] theorem proper_list {items : List Json} : (list items).Proper ↔ ∀ t ∈ items, t.Proper :=
  ⟨fun h => by cases h; assumption, fun h => .arr h none⟩

@[simp] theorem proper_object {members : List (String × Json)} :
    (object members).Proper ↔ ∀ m ∈ members, m.2.Proper := by
  refine ⟨fun h => ?_, fun h => .obj (List.forall_mem_map.2 h) none⟩
  cases h with
  | obj each => exact fun m hm => each (.ok m.1, m.2) (List.mem_map_of_mem hm)

end Proper

namespace Decoder

variable {φ α β : Type}

/-- does whatever is decoded from a proper value have a property? -/
def Yields (decoder : Decoder φ α) (P : α → Prop) : Prop := ∀ t, t.Proper → ∀ x, decoder t = .ok x → P x

/-- does a field keep a property of the record that it is put into? -/
def Field.Keeps (f : Field φ α) (P : α → Prop) : Prop :=
  ∀ t, t.Proper → ∀ put, f.read t = .ok put → ∀ r, P r → P (put r)

/-- the double nearest to an integer of 64 bits -/
theorem isFinite_ofInteger {n : Int} (hlow : -2 ^ 63 ≤ n) (hhigh : n < 2 ^ 64) : (ofInteger n).isFinite = true := by
  have hsize : (Number.ofDecimal n.natAbs 0).isFinite = true := Number.isFinite_ofDecimal (by omega)
  unfold ofInteger
  split_ifs
  · exact Number.isFinite_neg hsize
  · exact hsize

/-- a value of which nothing is asked -/
theorem yields_any (decoder : Decoder φ α) : decoder.Yields fun _ => True := fun _ _ _ _ => trivial

theorem yields_float : (float (φ := φ)).Yields fun x => x.isFinite = true := by
  intro t ht x hx
  cases ht with
  | int low high =>
    cases hx
    exact isFinite_ofInteger low high
  | float finite =>
    cases hx
    exact finite
  | _ => cases hx

section Combinators

variable {item : Decoder φ α} {P : α → Prop}

theorem yields_itemsOf (h : item.Yields P) {ts : List (Tree φ)} (ht : ∀ t ∈ ts, t.Proper) {xs : List α}
    (hx : itemsOf item ts = .ok xs) : ∀ x ∈ xs, P x := by
  induction ts generalizing xs with
  | nil =>
    cases hx
    exact fun x hx => absurd hx List.not_mem_nil
  | cons t ts ih =>
    unfold itemsOf at hx
    cases hitem : item t with
    | error e => simp [hitem] at hx
    | ok y =>
      cases hrest : itemsOf item ts with
      | error e => simp [hitem, hrest, Except.map] at hx
      | ok ys =>
        obtain rfl : y :: ys = xs := by simpa [hitem, hrest, Except.map] using hx
        refine List.forall_mem_cons.2 ⟨h t (ht t List.mem_cons_self) y hitem, ?_⟩
        exact ih (fun t' ht' => ht t' (List.mem_cons_of_mem t ht')) hrest

theorem close_eq_ok {aim : Aim} {x y : α} {unclosed : Option φ} (h : close aim x unclosed = .ok y) : x = y := by
  cases unclosed with
  | none => exact Except.ok.inj h
  | some why => cases h

theorem yields_list (h : item.Yields P) : (list item).Yields fun xs => ∀ x ∈ xs, P x := by
  intro t ht xs hxs
  cases ht with
  | arr each unclosed =>
    simp only [list] at hxs
    split at hxs
    · cases hxs
    · next ys hys =>
      obtain rfl := close_eq_ok hxs
      exact yields_itemsOf h each hys
  | _ => cases hxs

theorem yields_option (h : item.Yields P) : (option item).Yields fun x? => ∀ x, x? = some x → P x := by
  intro t ht x? hx x hsome
  subst hsome
  have hitem : item t = .ok x := by
    unfold option at hx
    split at hx
    · cases hx
    · cases hitem : item t with
      | error e => simp [hitem, Except.map] at hx
      | ok y => simpa [hitem, Except.map] using hx
  exact h t ht x hitem

/-! ### Records -/

variable {fields : List (Field φ α)} {name : String} {decoder : Decoder φ β} {V : β → Prop} {put : β → α → α}

/-- a field whose value has a property, whether it has to be there or not, in front of others -/
theorem keeps_put {needed : Bool} (h : decoder.Yields V) (hput : ∀ v, V v → ∀ r, P r → P (put v r))
    (hrest : ∀ f ∈ fields, f.Keeps P) :
    ∀ f ∈ (⟨name, needed, fun t => (decoder t).map put⟩ : Field φ α) :: fields, f.Keeps P := by
  refine List.forall_mem_cons.2 ⟨fun t ht put' hread r hr => ?_, hrest⟩
  cases hv : decoder t with
  | error e => simp [hv, Except.map] at hread
  | ok v =>
    obtain rfl : put v = put' := by simpa [hv, Except.map] using hread
    exact hput v (h t ht v hv) r hr

theorem keeps_nil : ∀ f ∈ ([] : List (Field φ α)), f.Keeps P := fun _ hf => absurd hf List.not_mem_nil

theorem yields_members (h : ∀ f ∈ fields, f.Keeps P) {ms : List (Except φ String × Tree φ)}
    (hm : ∀ m ∈ ms, m.2.Proper) {seen seen' : List String} {r r' : α} (hr : P r)
    (hread : members fields ms seen r = .ok (r', seen')) : P r' := by
  induction ms generalizing seen r with
  | nil =>
    cases hread
    exact hr
  | cons m ms ih =>
    have hms : ∀ m' ∈ ms, m'.2.Proper := fun m' hm' => hm m' (List.mem_cons_of_mem m hm')
    obtain ⟨name | name, t⟩ := m
    · cases hread
    unfold members at hread
    split at hread
    · split at hread
      · cases hread
      · exact ih hms hr hread
    · next f hfind =>
      split at hread
      · cases hread
      · split at hread
        · cases hread
        · next put hput =>
          have hkeep := h f (List.mem_of_find?_eq_some hfind) t (hm _ List.mem_cons_self) put hput r hr
          exact ih hms hkeep hread

theorem yields_positions (h : ∀ f ∈ fields, f.Keeps P) {ts : List (Tree φ)} (ht : ∀ t ∈ ts, t.Proper)
    {unclosed : Option φ} {r r' : α} (hr : P r) (hread : positions fields ts unclosed r = .ok r') : P r' := by
  induction fields generalizing ts r with
  | nil =>
    cases ts with
    | nil => exact close_eq_ok hread ▸ hr
    | cons t ts => cases hread
  | cons f fields ih =>
    have hfields : ∀ g ∈ fields, g.Keeps P := fun g hg => h g (List.mem_cons_of_mem f hg)
    cases ts with
    | nil =>
      unfold positions at hread
      split at hread
      · cases hread
      · split_ifs at hread
        exact ih hfields (fun t ht => absurd ht List.not_mem_nil) hr hread
    | cons t ts =>
      unfold positions at hread
      split at hread
      · cases hread
      · next put hput =>
        have hkeep := h f List.mem_cons_self t (ht t List.mem_cons_self) put hput r hr
        exact ih hfields (fun t' ht' => ht t' (List.mem_cons_of_mem t ht')) hkeep hread

/-- **Records.** What all fields keep holds of every record that is read, if it holds of the defaults. -/
theorem yields_record (h : ∀ f ∈ fields, f.Keeps P) {blank : α} (hblank : P blank) :
    (record fields blank).Yields P := by
  intro t ht r hread
  cases ht with
  | arr each unclosed => exact yields_positions h each hblank hread
  | obj each unclosed =>
    simp only [record] at hread
    split at hread
    · cases hread
    · next r' seen hmembers =>
      split at hread
      · cases hread
      · next r'' hclose =>
        split_ifs at hread
        cases hread
        exact close_eq_ok hclose ▸ yields_members h each hblank hmembers
  | _ => cases hread

end Combinators

end Decoder

end RoadRules.Json

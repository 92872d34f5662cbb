/-
Decoding JSON into records.

A decoder walks a tree from left to right and stops at the first problem, be it that the text breaks off or that a
value has the wrong shape. A record is written as an object, with its fields in any order and unknown members skipped,
or as a list of its fields in order, where the last ones may be missing if they have a default.
-/
import RoadRules.Json.Reader

namespace RoadRules.Json

/-- why a value could not be decoded -/
inductive Misfit (φ : Type) where
  /-- a value of another shape than expected: of another type, out of range, missing or repeated -/
  | shape
  /-- something that cannot stand at this place at all -/
  | misplaced
  /-- the text goes wrong here, for one who came to the place with an aim -/
  | text (aim : Aim) (why : φ)

abbrev Decoder (φ α : Type) := Tree φ → Except (Misfit φ) α

namespace Decoder

variable {φ α : Type}

/-- the answer for a value that is not of the expected type -/
def otherwise : Tree φ → Except (Misfit φ) α
  | .broken why | .unusable why => .error (.text .value why)
  | _ => .error .shape

def bool : Decoder φ Bool
  | .bool b => .ok b
  | t => otherwise t

/-- an integer from `0` up to `limit` -/
def nat (limit : Nat) : Decoder φ Nat
  | .int n => if 0 ≤ n ∧ n ≤ limit then .ok n.toNat else .error .shape
  | t => otherwise t

/-- an integer of 64 bits with a sign -/
def int64 : Decoder φ Int64
  | .int n => if Int64.minValue.toInt ≤ n ∧ n ≤ Int64.maxValue.toInt then .ok (Int64.ofInt n) else .error .shape
  | t => otherwise t

def uint32 : Decoder φ UInt32
  | .int n => if 0 ≤ n ∧ n < UInt32.size then .ok (UInt32.ofNat n.toNat) else .error .shape
  | t => otherwise t

/-- the double nearest to an integer of at most 64 bits -/
def ofInteger (n : Int) : Float :=
  let size := Number.ofDecimal n.natAbs 0
  if n < 0 then -size else size

/-- a number, with or without a point -/
def float : Decoder φ Float
  | .int n => .ok (ofInteger n)
  | .float x => .ok x
  | t => otherwise t

def str : Decoder φ String
  | .str s => .ok s
  | t => otherwise t

/-- `null`, or a value -/
def option (item : Decoder φ α) : Decoder φ (Option α)
  | .null => .ok none
  | t => (item t).map some

def itemsOf (item : Decoder φ α) : List (Tree φ) → Except (Misfit φ) (List α)
  | [] => .ok []
  | t :: rest =>
    match item t with
    | .error e => .error e
    | .ok x => (itemsOf item rest).map (x :: ·)

/-- the end of a list or an object -/
def close (aim : Aim) (x : α) : Option φ → Except (Misfit φ) α
  | none => .ok x
  | some why => .error (.text aim why)

def list (item : Decoder φ α) : Decoder φ (List α)
  | .arr items unclosed =>
    match itemsOf item items with
    | .error e => .error e
    | .ok xs => close .value xs unclosed
  | t => otherwise t

/-! ## Records -/

/-- a field of a record: its name, whether it has to be there, and how its value is put into the record -/
structure Field (φ α : Type) where
  name : String
  required : Bool
  read : Tree φ → Except (Misfit φ) (α → α)

/-- a field that has to be there -/
def required {β : Type} (name : String) (value : Decoder φ β) (put : β → α → α) : Field φ α :=
  ⟨name, true, fun t => (value t).map put⟩

/-- a field that may be missing -/
def optional {β : Type} (name : String) (value : Decoder φ β) (put : β → α → α) : Field φ α :=
  ⟨name, false, fun t => (value t).map put⟩

/-- the members of an object, put into the record one after the other; `seen` are the names of known fields met before
-/
def members (fields : List (Field φ α)) :
    List (Except φ String × Tree φ) → (seen : List String) → α → Except (Misfit φ) (α × List String)
  | [], seen, record => .ok (record, seen)
  | (.error why, _) :: _, _, _ => .error (.text .value why)
  | (.ok name, value) :: rest, seen, record =>
    match fields.find? (·.name == name) with
    | none =>
      match value.skip with
      | .error why => .error (.text .skip why)
      | .ok () => members fields rest seen record
    | some field =>
      if seen.contains name then .error .shape else
        match field.read value with
        | .error e => .error e
        | .ok put => members fields rest (name :: seen) (put record)

/-- the items of a list, put into the record field by field -/
def positions : List (Field φ α) → List (Tree φ) → (unclosed : Option φ) → α → Except (Misfit φ) α
  | [], [], unclosed, record => close .value record unclosed
  | [], _ :: _, _, _ => .error .misplaced
  | field :: fields, [], unclosed, record =>
    match unclosed with
    | some why => .error (.text .value why)
    | none => if field.required then .error .shape else positions fields [] none record
  | field :: fields, t :: rest, unclosed, record =>
    match field.read t with
    | .error e => .error e
    | .ok put => positions fields rest unclosed (put record)

/-- a record, starting from one with every default in place -/
def record (fields : List (Field φ α)) (blank : α) : Decoder φ α
  | .obj ms unclosed =>
    match members fields ms [] blank with
    | .error e => .error e
    | .ok (r, seen) =>
      match close .value r unclosed with
      | .error e => .error e
      | .ok r => if fields.all fun f => !f.required || seen.contains f.name then .ok r else .error .shape
  | .arr items unclosed => positions fields items unclosed blank
  | t => otherwise t

/-! ## Choices -/

/-- one of several words, written alone or as the name of a member with the value `null` -/
def word (meaning : String → Option α) : Decoder φ α
  | .str s => match meaning s with | some x => .ok x | none => .error .shape
  | .obj ((.ok s, value) :: rest) unclosed =>
    match meaning s with
    | none => .error .shape
    | some x =>
      match value with
      | .null => if rest.isEmpty then close .word x unclosed else .error .misplaced
      | t => otherwise t
  | .obj ((.error why, _) :: _) _ => .error (.text .word why)
  | .obj [] (some why) => .error (.text .word why)
  | .broken why | .unusable why => .error (.text .word why)
  | _ => .error .misplaced

end Decoder

/-- decodes a whole text; the first problem in the order of the text is the answer -/
def decode {α : Type} (decoder : Decoder Flaw α) (text : String) : Except Problem α :=
  let t := read text
  match decoder t.tree with
  | .ok x => if t.extra then .error .malformed else .ok x
  | .error .shape => .error .shape
  | .error .misplaced => .error .malformed
  | .error (.text aim why) => .error (why aim)

end RoadRules.Json

/-
JSON values.

`Tree φ` is a value whose text may have gone wrong: `broken` stands where nothing more could be read, `unusable` for a
complete token without a value (a number out of range, half a surrogate pair), and a list or an object that was not
closed says why. `φ` holds the reasons. In `Json` there are none, so such a tree is a plain value.

The order of an object's members, and repeated names, are kept.
-/

namespace RoadRules

namespace Json

inductive Tree (φ : Type) where
  | null
  | bool (value : Bool)
  /-- a number written without point and exponent, from -2⁶³ to 2⁶⁴ - 1 -/
  | int (value : Int)
  | float (value : Float)
  | str (text : String)
  | arr (items : List (Tree φ)) (unclosed : Option φ)
  | obj (members : List (Except φ String × Tree φ)) (unclosed : Option φ)
  | broken (why : φ)
  | unusable (why : φ)
  deriving Inhabited

end Json

/-- a value of which nothing is missing -/
abbrev Json := Json.Tree Empty

namespace Json

def list (items : List Json) : Json := .arr items none

def object (members : List (String × Json)) : Json := .obj (members.map fun m => (.ok m.1, m.2)) none

def nat (n : Nat) : Json := .int n

/-- a float; JSON has no number for one that is not finite -/
def ofFloat (x : Float) : Json := if x.isFinite then .float x else .null

mutual

/-- reads past a value, whatever it is; only a place where the text breaks off stops that -/
def Tree.skip {φ : Type} : Tree φ → Except φ Unit
  | .broken why => .error why
  | .arr items unclosed => do skipAll items; unclosed.elim (.ok ()) .error
  | .obj members unclosed => do skipMembers members; unclosed.elim (.ok ()) .error
  | .null | .bool _ | .int _ | .float _ | .str _ | .unusable _ => .ok ()

def skipAll {φ : Type} : List (Tree φ) → Except φ Unit
  | [] => .ok ()
  | item :: rest => do item.skip; skipAll rest

def skipMembers {φ : Type} : List (Except φ String × Tree φ) → Except φ Unit
  | [] => .ok ()
  | (_, value) :: rest => do value.skip; skipMembers rest

end

mutual

/-- the value of a tree in which nothing went wrong; of members with one name the last one counts -/
def Tree.value {φ : Type} : Tree φ → Except φ Json
  | .null => .ok .null
  | .bool b => .ok (.bool b)
  | .int n => .ok (.int n)
  | .float x => .ok (.float x)
  | .str s => .ok (.str s)
  | .arr items unclosed => do
    let items ← values items
    unclosed.elim (.ok (list items)) .error
  | .obj members unclosed => do
    let members ← memberValues members
    unclosed.elim (.ok (object members)) .error
  | .broken why | .unusable why => .error why

def values {φ : Type} : List (Tree φ) → Except φ (List Json)
  | [] => .ok []
  | item :: rest => do return (← item.value) :: (← values rest)

def memberValues {φ : Type} : List (Except φ String × Tree φ) → Except φ (List (String × Json))
  | [] => .ok []
  | (name, value) :: rest => do
    let name ← name
    let value ← value.value
    let rest ← memberValues rest
    return if rest.any (·.1 == name) then rest else (name, value) :: rest

end

/-- the member of an object with a name -/
def get? (name : String) : Json → Option Json
  | .obj members _ => (members.find? fun m => match m.1 with | .ok n => n == name | .error e => nomatch e).map (·.2)
  | _ => none

end Json

end RoadRules

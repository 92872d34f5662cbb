/-
Reading JSON text.

The reader never gives up as a whole: where the text goes wrong it leaves a `broken` place in the tree and closes
nothing behind it, so that whoever decodes the tree from left to right meets the problems in the order of the text.
What counts as a problem depends on what is wanted at the place, so a broken place keeps an answer for each `Aim`.
-/
import RoadRules.Json.Basic
import RoadRules.Number.Decimal

namespace RoadRules.Json

/-- the kinds of problem that a text can have -/
inductive Problem where
  /-- a character that cannot stand where it does, or a token without a value -/
  | malformed
  /-- the text ends too early -/
  | ended
  /-- well-formed as far as it was read, but of the wrong shape -/
  | shape
  deriving DecidableEq, Repr

/-- what someone who comes to a place of a text is after -/
inductive Aim where
  /-- the value that stands there -/
  | value
  /-- one of several words, in quotes or as the name of a member -/
  | word
  /-- nothing but the text behind it -/
  | skip
  deriving DecidableEq, Repr

/-- what is wrong at a place of a text, for each aim: one who skips a string does not look for halves of surrogate
pairs, and takes a number that breaks off for malformed; one who wants a word sees from the first character whether
there can be one -/
abbrev Flaw := Aim → Problem

namespace Flaw

/-- a flaw that is the same for everyone -/
def all (p : Problem) : Flaw := fun _ => p

/-- a flaw of a value that is no word -/
def ofValue (value skip : Problem) : Flaw
  | .value => value
  | .word => .malformed
  | .skip => skip

/-- a flaw of a string -/
def ofString (value skip : Problem) : Flaw
  | .value | .word => value
  | .skip => skip

/-- the text ends behind a comma; a word has no comma behind it -/
def commaLast : Flaw
  | .value | .skip => .ended
  | .word => .malformed

end Flaw

/-- text as far as it could be read: a value, and the shorter text behind it unless the value breaks off -/
abbrev Draft := Tree Flaw

namespace Reader

/-- blanks between tokens -/
def isBlank (c : Char) : Bool := c == ' ' || c == '\n' || c == '\t' || c == '\r'

def skipBlank (s : List Char) : List Char := s.dropWhile isBlank

theorem skipBlank_length_le (s : List Char) : (skipBlank s).length ≤ s.length := by
  unfold skipBlank
  induction s with
  | nil => exact Nat.le_refl _
  | cons c s ih =>
    rw [List.dropWhile_cons]
    split
    · exact Nat.le_succ_of_le ih
    · exact Nat.le_refl _

/-! ## Strings -/

/-- the value of a hexadecimal digit -/
def hexDigit? (c : Char) : Option Nat :=
  if c.isDigit then some (c.toNat - '0'.toNat)
  else if 'a' ≤ c ∧ c ≤ 'f' then some (c.toNat - 'a'.toNat + 10)
  else if 'A' ≤ c ∧ c ≤ 'F' then some (c.toNat - 'A'.toNat + 10)
  else none

/-- four hexadecimal digits; the text ends too early if there are not even four bytes of it -/
def hex4 (s : List Char) : Except Problem Nat :=
  match (s.take 4).map hexDigit? with
  | [some a, some b, some c, some d] => .ok (((a * 16 + b) * 16 + c) * 16 + d)
  | _ => .error (if (s.take 4).foldl (fun size c => size + c.utf8Size) 0 < 4 then .ended else .malformed)

/-- the character that a backslash and one letter stand for -/
def escape? : Char → Option Char
  | '"' => some '"'
  | '\\' => some '\\'
  | '/' => some '/'
  | 'b' => some '\x08'
  | 'f' => some '\x0c'
  | 'n' => some '\n'
  | 'r' => some '\r'
  | 't' => some '\t'
  | _ => none

/-- a string token: its characters, and the text behind it; half a surrogate pair is a problem for the characters, but
not for the text behind -/
structure Letters where
  text : Except Problem (List Char)
  rest : Except Problem (List Char)

namespace Letters

/-- the token breaks off -/
def stop (why : Problem) : Letters := ⟨.error why, .error why⟩

/-- a character in front of the others -/
def push (c : Char) (l : Letters) : Letters := ⟨l.text.map (c :: ·), l.rest⟩

/-- something in front of the others that is no character -/
def spoil (why : Problem) (l : Letters) : Letters := ⟨.error why, l.rest⟩

end Letters

def isHighHalf (n : Nat) : Bool := 0xD800 ≤ n && n < 0xDC00

def isLowHalf (n : Nat) : Bool := 0xDC00 ≤ n && n < 0xE000

/-- the second half of a surrogate pair, which has to follow at once -/
def lowHalf (s : List Char) : Except Problem Nat :=
  match s with
  | [] | ['\\'] => .error .ended
  | '\\' :: 'u' :: t =>
    match hex4 t with
    | .error why => .error why
    | .ok low => if isLowHalf low then .ok low else .error .malformed
  | _ => .error .malformed

/-- the inside of a string, up to its closing quote -/
def letters (s : List Char) : Letters :=
  match s with
  | [] => .stop .ended
  | '"' :: rest => ⟨.ok [], .ok rest⟩
  | '\\' :: 'u' :: s =>
    match hex4 s with
    | .error why => .stop why
    | .ok n =>
      if isLowHalf n then (letters (s.drop 4)).spoil .malformed
      else if isHighHalf n then
        match lowHalf (s.drop 4) with
        | .error why => (letters (s.drop 4)).spoil why
        | .ok low => (letters (s.drop 10)).push (Char.ofNat (0x10000 + (n - 0xD800) * 0x400 + (low - 0xDC00)))
      else (letters (s.drop 4)).push (Char.ofNat n)
  | ['\\'] => .stop .ended
  | '\\' :: c :: s =>
    match escape? c with
    | some e => (letters s).push e
    | none => .stop .malformed
  | c :: s => if c.toNat < 0x20 then .stop .malformed else (letters s).push c
termination_by s.length
decreasing_by
  all_goals simp only [List.length_cons, List.length_drop]
  all_goals omega

/-- the string behind an opening quote, and the text behind it -/
def string (s : List Char) : Except Flaw (Except Flaw String × List Char) :=
  match letters s with
  | ⟨.ok cs, .ok rest⟩ => .ok (.ok (String.ofList cs), rest)
  | ⟨.error why, .ok rest⟩ => .ok (.error (.ofString why why), rest)
  | ⟨.error why, .error skip⟩ => .error (.ofString why skip)
  | ⟨.ok _, .error why⟩ => .error (.all why)

/-! ## Numbers and words -/

def ofDigits (ds : List Char) : Nat := ds.foldl (fun n d => 10 * n + (d.toNat - '0'.toNat)) 0

/-- one digit at least, and the text behind all of them -/
def digits (s : List Char) : Except Problem (List Char × List Char) :=
  match s with
  | [] => .error .ended
  | c :: t => if c.isDigit then .ok (s.takeWhile Char.isDigit, t.dropWhile Char.isDigit) else .error .malformed

/-- digits in front of the point; a zero stands alone -/
def wholePart (s : List Char) : Except Problem (List Char × List Char) :=
  match s with
  | '0' :: c :: t => if c.isDigit then .error .malformed else .ok (['0'], c :: t)
  | s => digits s

/-- point and digits, if there is a point -/
def fractionPart (s : List Char) : Except Problem (Option (List Char) × List Char) :=
  match s with
  | '.' :: t => (digits t).map fun (ds, rest) => (some ds, rest)
  | s => .ok (none, s)

/-- the exponent behind its letter -/
def exponentPart (s : List Char) : Except Problem (Option Int × List Char) :=
  match s with
  | c :: t =>
    if c == 'e' || c == 'E' then
      match t with
      | '-' :: t => (digits t).map fun (ds, rest) => (some (-(ofDigits ds : Int)), rest)
      | '+' :: t => (digits t).map fun (ds, rest) => (some (ofDigits ds : Int), rest)
      | t => (digits t).map fun (ds, rest) => (some (ofDigits ds : Int), rest)
    else .ok (none, s)
  | [] => .ok (none, s)

/-- the value of a number token: integers without point and exponent that 64 bits can hold stay integers, minus zero and
all others become the nearest double -/
def numberValue (negative : Bool) (whole : List Char) (fraction : Option (List Char)) (exponent : Option Int) : Draft :=
  let n := ofDigits whole
  let fits := if negative then 0 < n && n ≤ Int64.minValue.toInt.natAbs else n < UInt64.size
  if fraction.isNone && exponent.isNone && fits then
    .int (if negative then -(n : Int) else n)
  else
    let fraction := fraction.getD []
    let size := Number.ofDecimal (ofDigits (whole ++ fraction)) (exponent.getD 0 - (fraction.length : Int))
    if size.isInf then .unusable (.all .malformed) else .float (if negative then -size else size)

/-- a number without its sign -/
def unsigned (negative : Bool) (s : List Char) : Except Problem (Draft × List Char) := do
  let (whole, s) ← wholePart s
  let (fraction, s) ← fractionPart s
  let (exponent, s) ← exponentPart s
  return (numberValue negative whole fraction exponent, s)

/-- the text behind the letters of a word -/
def word : (letters s : List Char) → Except Problem (List Char)
  | [], s => .ok s
  | _ :: _, [] => .error .ended
  | l :: ls, c :: s => if l = c then word ls s else .error .malformed

/-- a value that is not a list or an object -/
def scalar (s : List Char) : Except Flaw (Draft × List Char) :=
  let named (v : Draft) (tail t : List Char) : Except Flaw (Draft × List Char) :=
    match word tail t with
    | .ok rest => .ok (v, rest)
    | .error why => .error (.ofValue why why)
  let number (negative : Bool) (t : List Char) : Except Flaw (Draft × List Char) :=
    (unsigned negative t).mapError fun why => .ofValue why .malformed
  match s with
  | [] => .error (.all .ended)
  | 'n' :: t => named .null ['u', 'l', 'l'] t
  | 't' :: t => named (.bool true) ['r', 'u', 'e'] t
  | 'f' :: t => named (.bool false) ['a', 'l', 's', 'e'] t
  | '"' :: t => (string t).map fun
    | (.ok text, rest) => (.str text, rest)
    | (.error why, rest) => (.unusable why, rest)
  | '-' :: t => number true t
  | c :: t => if c.isDigit then number false (c :: t) else .error (.all .malformed)

/-! ## Values -/

/-- how a list or an object ends: closed, with the text behind it, or not, for a reason of its own or because something
inside it broke off -/
inductive Ending where
  | closed (rest : List Char)
  | unclosed (why : Option Flaw)

/-- a value, and the text behind it unless it broke off -/
abbrev Outcome := Draft × Option (List Char)

mutual

/-- the value at the front of the text; a nesting takes three steps for each of its characters at most, so `fuel` is
never used up when it starts above three times the length of the text -/
def value (fuel : Nat) (s : List Char) : Outcome :=
  match fuel with
  | 0 => (.broken (.all .ended), none)
  | fuel + 1 =>
    match skipBlank s with
    | '[' :: t =>
      match firstItem fuel t with
      | (items, .closed rest) => (.arr items none, some rest)
      | (items, .unclosed why) => (.arr items why, none)
    | '{' :: t =>
      match firstMember fuel t with
      | (members, .closed rest) => (.obj members none, some rest)
      | (members, .unclosed why) => (.obj members why, none)
    | t =>
      match scalar t with
      | .ok (v, rest) => (v, some rest)
      | .error why => (.broken why, none)

/-- the inside of a list -/
def firstItem (fuel : Nat) (s : List Char) : List Draft × Ending :=
  match fuel with
  | 0 => ([], .unclosed (some (.all .ended)))
  | fuel + 1 =>
    match skipBlank s with
    | [] => ([], .unclosed (some (.all .ended)))
    | ']' :: rest => ([], .closed rest)
    | t => item fuel t

/-- an item and all behind it -/
def item (fuel : Nat) (s : List Char) : List Draft × Ending :=
  match fuel with
  | 0 => ([], .unclosed (some (.all .ended)))
  | fuel + 1 =>
    match value fuel s with
    | (v, none) => ([v], .unclosed none)
    | (v, some rest) =>
      let (others, ending) := moreItems fuel rest
      (v :: others, ending)

/-- the items behind an item -/
def moreItems (fuel : Nat) (s : List Char) : List Draft × Ending :=
  match fuel with
  | 0 => ([], .unclosed (some (.all .ended)))
  | fuel + 1 =>
    match skipBlank s with
    | [] => ([], .unclosed (some (.all .ended)))
    | ']' :: rest => ([], .closed rest)
    | ',' :: t =>
      match skipBlank t with
      | ']' :: _ => ([], .unclosed (some (.all .malformed)))
      | t => item fuel t
    | _ => ([], .unclosed (some (.all .malformed)))

/-- the inside of an object -/
def firstMember (fuel : Nat) (s : List Char) : List (Except Flaw String × Draft) × Ending :=
  match fuel with
  | 0 => ([], .unclosed (some (.all .ended)))
  | fuel + 1 =>
    match skipBlank s with
    | [] => ([], .unclosed (some (.all .ended)))
    | '}' :: rest => ([], .closed rest)
    | '"' :: t => member fuel t
    | _ => ([], .unclosed (some (.all .malformed)))

/-- a member, from the inside of its name on, and all behind it -/
def member (fuel : Nat) (s : List Char) : List (Except Flaw String × Draft) × Ending :=
  match fuel with
  | 0 => ([], .unclosed (some (.all .ended)))
  | fuel + 1 =>
    match string s with
    | .error why => ([(.error why, .broken why)], .unclosed none)
    | .ok (name, t) =>
      match skipBlank t with
      | [] => ([(name, .broken (.all .ended))], .unclosed none)
      | ':' :: t =>
        match value fuel t with
        | (v, none) => ([(name, v)], .unclosed none)
        | (v, some rest) =>
          let (others, ending) := moreMembers fuel rest
          ((name, v) :: others, ending)
      | _ => ([(name, .broken (.all .malformed))], .unclosed none)

/-- the members behind a member -/
def moreMembers (fuel : Nat) (s : List Char) : List (Except Flaw String × Draft) × Ending :=
  match fuel with
  | 0 => ([], .unclosed (some (.all .ended)))
  | fuel + 1 =>
    match skipBlank s with
    | [] => ([], .unclosed (some (.all .ended)))
    | '}' :: rest => ([], .closed rest)
    | ',' :: t =>
      match skipBlank t with
      | [] => ([], .unclosed (some .commaLast))
      | '"' :: t => member fuel t
      | _ => ([], .unclosed (some (.all .malformed)))
    | _ => ([], .unclosed (some (.all .malformed)))

end

end Reader

/-- a whole text: its value as far as it can be read, and whether something else stands behind it -/
structure Text where
  tree : Draft
  extra : Bool

/-- reads a text -/
def read (text : String) : Text :=
  let s := text.toList
  match Reader.value (3 * s.length + 3) s with
  | (tree, none) => ⟨tree, false⟩
  | (tree, some rest) => ⟨tree, !(Reader.skipBlank rest).isEmpty⟩

/-- the value a text holds, when nothing is wrong with the text -/
def parse (text : String) : Except Problem Json :=
  let t := read text
  match t.tree.value with
  | .error why => .error (why .value)
  | .ok v => if t.extra then .error .malformed else .ok v

end RoadRules.Json

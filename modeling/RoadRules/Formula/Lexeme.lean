/-
The smallest pieces of formula text: blanks, words, fixed tokens, numbers and quoted strings.

Text is a list of characters. A piece is read off its front; what is left is part of the answer, with the proof that
it is shorter than what was there before, so that reading a nested form can recurse on it.
-/
import RoadRules.Formula.Basic
import RoadRules.Number.Decimal

namespace RoadRules.Grammar

open Formula

/-- a value read off the front of `s`, and the shorter text behind it -/
structure Read (α : Type) (s : List Char) where
  value : α
  rest : List Char
  shorter : rest.length < s.length

namespace Read

/-- read from a shorter text, hence also from a longer one -/
def lift {α : Type} {s t : List Char} (r : Read α t) (h : t.length ≤ s.length) : Read α s :=
  ⟨r.value, r.rest, Nat.lt_of_lt_of_le r.shorter h⟩

def map {α β : Type} {s : List Char} (f : α → β) (r : Read α s) : Read β s := ⟨f r.value, r.rest, r.shorter⟩

end Read

/-! ## Blanks -/

/-- blanks are the space, the tabulator and the two line ends -/
def isBlank (c : Char) : Bool := c == ' ' || c == '\t' || c == '\r' || c == '\n'

def skipBlank (s : List Char) : List Char := s.dropWhile isBlank

theorem length_dropWhile_le {α : Type} (p : α → Bool) (s : List α) : (s.dropWhile p).length ≤ s.length := by
  induction s with
  | nil => exact Nat.le_refl _
  | cons c s ih =>
    rw [List.dropWhile_cons]
    split
    · exact Nat.le_succ_of_le ih
    · exact Nat.le_refl _

theorem skipBlank_length_le (s : List Char) : (skipBlank s).length ≤ s.length := length_dropWhile_le isBlank s

theorem skipBlank_skipBlank (s : List Char) : skipBlank (skipBlank s) = skipBlank s := by
  induction s with
  | nil => rfl
  | cons c s ih =>
    unfold skipBlank at *
    rw [List.dropWhile_cons]
    split
    · exact ih
    · next h => rw [List.dropWhile_cons, if_neg h]

/-! ## Words and tokens -/

/-- a word starts with an ASCII letter or an underscore -/
def isWordStart (c : Char) : Bool := c.isAlpha || c == '_'

/-- and goes on with ASCII letters, digits and underscores -/
def isWordPart (c : Char) : Bool := c.isAlphanum || c == '_'

/-- the word at the front of the text -/
def word? : (s : List Char) → Option (Read String s)
  | [] => none
  | c :: s =>
    if isWordStart c then
      some ⟨String.ofList (c :: s.takeWhile isWordPart), s.dropWhile isWordPart,
        Nat.lt_succ_of_le (length_dropWhile_le _ _)⟩
    else none

/-- the text behind a fixed token -/
def afterToken? : (token s : List Char) → Option { rest : List Char // rest.length + token.length = s.length }
  | [], s => some ⟨s, rfl⟩
  | _ :: _, [] => none
  | t :: token, c :: s =>
    if t = c then (afterToken? token s).map fun r => ⟨r.1, by have := r.2; simp only [List.length_cons]; omega⟩
    else none

theorem lt_length_succ (s : List Char) : s.length < s.length + 1 := Nat.lt_succ_self _

theorem lt_length_add_two (s : List Char) : s.length < s.length + 1 + 1 := Nat.lt_succ_of_lt (lt_length_succ s)

/-- the text behind one character -/
def afterChar? (c : Char) (s : List Char) : Option { rest : List Char // rest.length < s.length } :=
  match s with
  | [] => none
  | d :: s => if c = d then some ⟨s, lt_length_succ s⟩ else none

/-- the text behind blanks and one character -/
def afterMark? (c : Char) (s : List Char) : Option { rest : List Char // rest.length < s.length } :=
  (afterChar? c (skipBlank s)).map fun r => ⟨r.1, Nat.lt_of_lt_of_le r.2 (skipBlank_length_le s)⟩

/-- the text behind at least one blank, the word `in`, and no further letter; otherwise the place where one of the three
is missing -/
def afterIn (s : List Char) : Except (List Char) { rest : List Char // rest.length < s.length } :=
  match s with
  | [] => .error []
  | c :: t =>
    if isBlank c then
      match h : skipBlank t with
      | 'i' :: 'n' :: rest =>
        if (rest.head?.map isWordPart).getD false then .error rest
        else .ok ⟨rest, by
          have := skipBlank_length_le t
          simp only [h, List.length_cons] at *
          omega⟩
      | r => .error r
    else .error (c :: t)

/-! ## Numbers and strings -/

/-- the number that a list of decimal digits stands for -/
def ofDigits (ds : List Char) : Nat := ds.foldl (fun n d => 10 * n + (d.toNat - '0'.toNat)) 0

/-- a number as written: an optional minus sign, digits, and maybe a point with more digits behind it -/
structure Numeral where
  negative : Bool
  whole : List Char
  fraction : List Char
  deriving DecidableEq

/-- the digits at the front of the text, at least one -/
def digits? (s : List Char) : Option (Read (List Char) s) :=
  match s with
  | [] => none
  | c :: t =>
    if c.isDigit then some ⟨c :: t.takeWhile Char.isDigit, t.dropWhile Char.isDigit,
      Nat.lt_succ_of_le (length_dropWhile_le _ _)⟩
    else none

/-- digits behind a point; no digits at all when the point or the first digit is missing -/
def fraction (s : List Char) : List Char × { rest : List Char // rest.length ≤ s.length } :=
  match s with
  | '.' :: t =>
    match digits? t with
    | some r => (r.value, ⟨r.rest, Nat.le_of_lt (Nat.lt_succ_of_lt r.shorter)⟩)
    | none => ([], ⟨'.' :: t, Nat.le_refl _⟩)
  | s => ([], ⟨s, Nat.le_refl _⟩)

/-- digits, and behind them maybe a point with more digits -/
def unsigned? (negative : Bool) (s : List Char) : Option (Read Numeral s) :=
  match digits? s with
  | none => none
  | some whole =>
    let (digits, rest) := fraction whole.rest
    some ⟨⟨negative, whole.value, digits⟩, rest.1, Nat.lt_of_le_of_lt rest.2 whole.shorter⟩

/-- the number at the front of the text -/
def numeral? (s : List Char) : Option (Read Numeral s) :=
  match s with
  | '-' :: t => (unsigned? true t).map fun r => r.lift (Nat.le_succ _)
  | s => unsigned? false s

/-- the term a numeral stands for: a float when it has a point, else an integer, if 64 bits can hold it -/
def Numeral.term? (n : Numeral) : Option Term :=
  if n.fraction.isEmpty then
    let value : Int := if n.negative then -(ofDigits n.whole : Int) else ofDigits n.whole
    if Int64.minValue.toInt ≤ value ∧ value ≤ Int64.maxValue.toInt then some (.int (Int64.ofInt value)) else none
  else
    let size := Number.ofDecimal (ofDigits (n.whole ++ n.fraction)) (-(n.fraction.length : Int))
    some (.float (if n.negative then -size else size))

/-- the text between two double quotes; there is no way to write a double quote inside -/
def quoted? (s : List Char) : Option (Read String s) :=
  match s with
  | '"' :: t =>
    match h : t.dropWhile (· != '"') with
    | [] => none
    | _ :: rest => some ⟨String.ofList (t.takeWhile (· != '"')), rest, by
        have := length_dropWhile_le (· != '"') t
        simp only [h, List.length_cons] at *
        omega⟩
  | _ => none

end RoadRules.Grammar

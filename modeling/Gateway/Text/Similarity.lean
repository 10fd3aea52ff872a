/-
Module: Gateway.Text.Similarity
Layer: Text
Purpose: How alike two words are, for suggesting what was meant.
Main exports: Similarity.matched, Similarity.isClose
-/
namespace Gateway.Similarity

/-!
Jaro's measure.  Characters of two words match if they are equal and not further apart than half the
longer word; each character is matched at most once, from the left.  With `m` matches, of which `t`
pairs stand in another order, words of `a` and `b` characters are alike to the degree

  (m / a + m / b + (m - t) / m) / 3

which is one for equal words and zero for words without a match.
-/

/-- How far apart two matching characters may stand, in words of the given lengths. -/
def reach (a b : Nat) : Nat :=
  max a b / 2 - 1

/-- The first place within reach of `i` that holds `c` and is still free. -/
def partner? (free : List (Nat × Char)) (within i : Nat) (c : Char) : Option Nat :=
  (free.find? fun p => p.2 == c && i - within ≤ p.1 && p.1 ≤ i + within).map (·.1)

/-- The places matched in the one word and in the other. -/
def matched (within : Nat) (free : List (Nat × Char)) :
    List (Nat × Char) → List Nat × List Nat
  | [] => ([], [])
  | (i, c) :: rest =>
    match partner? free within i c with
    | none => matched within free rest
    | some j =>
      let (left, right) := matched within (free.filter (·.1 != j)) rest
      (i :: left, j :: right)

/-- The characters of a word at some of its places. -/
def pick (word : List (Nat × Char)) (places : List Nat) : List Char :=
  (word.filter fun p => places.contains p.1).map (·.2)

/-- A word with its places. -/
def places (word : List Char) : List (Nat × Char) :=
  word.zipIdx.map fun p => (p.2, p.1)

/-- Whether two words are alike to a degree above seven tenths. -/
def isClose (first second : String) : Bool :=
  let one := places first.toList
  let two := places second.toList
  let (left, right) := matched (reach one.length two.length) two one
  let m := left.length
  let astray := ((pick one left).zip (pick two right)).countP fun p => p.1 != p.2
  let a := one.length
  let b := two.length
  21 * a * b * m < 10 * (m * m * b + m * m * a + (m - astray / 2) * a * b)

end Gateway.Similarity

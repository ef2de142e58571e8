/-!
# A backtracking regular-expression matcher

The matcher answers with every place it could stop, in the order a
backtracking engine would try them: a greedy repetition goes on before it
gives up, and a lookahead only asks whether its body matches from here and
stays where it was. A whole-string match is a stop with nothing left to read,
which is what an engine asked for a complete match backtracks until it finds.

The recursion is structural. The one construct that could loop, the unbounded
repetition, runs on the number of characters left, and that is never a bound
it could feel: an optional round must consume, so there are at most that many
of them.
-/

namespace Pompeius.Lib

/-- A place in the subject: how much was read, and what is left. -/
structure Cursor where
  pos : Nat
  rest : List Char
  deriving DecidableEq, Repr

inductive Regex where
  /-- `^`, the start of the subject. -/
  | bol
  /-- One character of a class. -/
  | cls (p : Char → Bool)
  | seq (a b : Regex)
  /-- `(?=a)`. -/
  | look (a : Regex)
  /-- `a{lo,}`; `a*` is the case of no mandatory round. -/
  | rep (lo : Nat) (a : Regex)

namespace Regex

/-- The optional rounds of a repetition: another round where it makes
progress, and then the place it started from. -/
def more (body : Cursor → List Cursor) : Nat → Cursor → List Cursor
  | 0, k => [k]
  | fuel + 1, k =>
      ((body k).filter (fun k' => k.pos < k'.pos)).flatMap (more body fuel) ++ [k]

/-- A repetition: its mandatory rounds, and then the optional ones. -/
def rounds (body : Cursor → List Cursor) : Nat → Cursor → List Cursor
  | 0, k => more body k.rest.length k
  | lo + 1, k => (body k).flatMap (rounds body lo)

def stops : Regex → Cursor → List Cursor
  | bol, k => if k.pos = 0 then [k] else []
  | cls p, k =>
      match k.rest with
      | [] => []
      | c :: rest => if p c then [⟨k.pos + 1, rest⟩] else []
  | seq a b, k => (a.stops k).flatMap b.stops
  | look a, k => if (a.stops k).isEmpty then [] else [k]
  | rep lo a, k => rounds a.stops lo k

/-- Does the expression match the whole subject? -/
def fullMatch (r : Regex) (s : List Char) : Bool :=
  (r.stops ⟨0, s⟩).any fun k => k.rest.isEmpty

end Regex

end Pompeius.Lib

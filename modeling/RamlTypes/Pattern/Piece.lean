import RamlTypes.Pattern.Atom

/-!
# Pieces of patterns

What a pattern needs to be known of a part that is read: how deep it is nested and how many bytes
its automaton takes. A part that matches only the empty text takes none.
-/

namespace RamlTypes.Pattern

/-- A part of a pattern. -/
structure Piece where
  depth : Nat
  weight : Nat

/-- The piece of an atom. -/
def Atom.piece (a : Atom) : Piece := ⟨0, a.weight⟩

/-- The piece inside a pair of parentheses, which may capture what it matches. -/
def Piece.group (p : Piece) : Piece :=
  ⟨p.depth + 1, if p.weight = 0 then 0 else p.weight + 2 * stateBytes⟩

/-- The piece repeated at least `least` times, and at most `most` times if there is a bound. Each
repetition that is counted takes an automaton of its own. -/
def Piece.repeated (p : Piece) (least : Nat) (most : Option Nat) : Piece :=
  let choice := stateBytes + 8
  ⟨p.depth + 1,
    if p.weight = 0 then 0
    else match most with
      | none => p.weight * max least 1 + choice
      | some most => p.weight * most + choice * (most - least)⟩

/-- Pieces that stand beside each other. -/
structure Pieces where
  count : Nat
  depth : Nat
  weight : Nat

namespace Pieces

/-- No pieces. -/
def none : Pieces := ⟨0, 0, 0⟩

/-- One more piece. -/
def add (ps : Pieces) (p : Piece) : Pieces :=
  ⟨ps.count + 1, max ps.depth p.depth, ps.weight + p.weight⟩

/-- The pieces as one. Two or more of them form a level of nesting. -/
def piece (ps : Pieces) : Piece :=
  ⟨if ps.count ≤ 1 then ps.depth else ps.depth + 1, ps.weight⟩

end Pieces

end RamlTypes.Pattern

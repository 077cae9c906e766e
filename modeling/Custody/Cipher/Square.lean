/-!
Sixteen words in a square of four rows, and the order in which ciphers and hash functions mix them:
four words at a time, first along each column and then along each diagonal.
-/

namespace Custody

abbrev Square (α : Type) := Vector α 16

namespace Square

/-- Four places of a square, one in each row. -/
structure Line where
  a : Fin 16
  b : Fin 16
  c : Fin 16
  d : Fin 16

/-- The four columns, then the four diagonals. -/
def lines : List Line :=
  [⟨0, 4, 8, 12⟩, ⟨1, 5, 9, 13⟩, ⟨2, 6, 10, 14⟩, ⟨3, 7, 11, 15⟩,
    ⟨0, 5, 10, 15⟩, ⟨1, 6, 11, 12⟩, ⟨2, 7, 8, 13⟩, ⟨3, 4, 9, 14⟩]

/-- Puts what a function makes of the words along a line in their places. -/
@[inline] def mixAlong {α : Type} (f : α → α → α → α → α × α × α × α) (v : Square α) (l : Line) :
    Square α :=
  let (a, b, c, d) := f (v.get l.a) (v.get l.b) (v.get l.c) (v.get l.d)
  (((v.set l.a a).set l.b b).set l.c c).set l.d d

end Square

end Custody

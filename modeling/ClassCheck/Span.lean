/-!
# Stretches of source text

Offsets and lengths are natural numbers, so no sum of them is out of range. The stretches of a text end within it; those
of a token that comes from no text may be as long as one likes.
-/

namespace ClassCheck

/-- The number of bytes that characters take in UTF-8. All offsets, lengths and columns count these. -/
def byteSize (cs : List Char) : Nat := cs.foldr (fun c size => c.utf8Size + size) 0

@[simp] theorem byteSize_nil : byteSize [] = 0 := rfl

@[simp] theorem byteSize_cons (c : Char) (cs : List Char) :
    byteSize (c :: cs) = c.utf8Size + byteSize cs := rfl

@[simp] theorem byteSize_append (cs ds : List Char) :
    byteSize (cs ++ ds) = byteSize cs + byteSize ds := by
  induction cs with
  | nil => simp
  | cons c cs ih => rw [List.cons_append, byteSize_cons, byteSize_cons, ih, Nat.add_assoc]

/-- A stretch of source text: `length` bytes from byte `offset` on. -/
structure Span where
  offset : Nat
  length : Nat
  deriving DecidableEq

namespace Span

/-- The offset just past the stretch. It is exact, as a natural number has no upper bound. -/
def stop (s : Span) : Nat := s.offset + s.length

/-- The least stretch that covers both. -/
def merge (a b : Span) : Span :=
  let start := min a.offset b.offset
  ⟨start, max a.stop b.stop - start⟩

theorem merge_stop (a b : Span) : (a.merge b).stop = max a.stop b.stop := by
  simp only [merge, stop]
  omega

end Span

end ClassCheck

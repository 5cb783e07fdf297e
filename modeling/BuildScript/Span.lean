/-! Places in a named text, counted in bytes of its UTF-8 encoding. Offsets are kept in 32 bits, so
that those in a text of 4 GiB or more wrap around.
-/

namespace BuildScript

/-- How many offsets there are. -/
def offsetCount : Nat := 0x100000000

/-- A byte offset into the text called `file`. -/
structure Position where
  file : String
  offset : Nat
deriving Repr, DecidableEq, Inhabited

/-- The bytes from `start` up to, but not including, `stop` of the text called `file`. -/
structure Span where
  file : String
  start : Nat
  stop : Nat
deriving Repr, DecidableEq, Inhabited

/-- The position at a byte, whose offset is kept in 32 bits. -/
def Position.ofByte (file : String) (byte : Nat) : Position := ⟨file, byte % offsetCount⟩

namespace Span

/-- The span from one byte up to another one, whose offsets are kept in 32 bits. -/
def ofBytes (file : String) (start stop : Nat) : Span :=
  ⟨file, start % offsetCount, stop % offsetCount⟩

/-- The span of things that were not written in any text. -/
def unknown : Span := ⟨"<null>", 0, 0⟩

/-- The empty span at a position. -/
def ofPosition (position : Position) : Span := ⟨position.file, position.offset, position.offset⟩

/-- Where a span begins. -/
def position (span : Span) : Position := ⟨span.file, span.start⟩

/-- From the beginning of one span to the end of another. -/
def upTo (first last : Span) : Span := { first with stop := last.stop }

@[simp] theorem upTo_start (first last : Span) : (first.upTo last).start = first.start := rfl

@[simp] theorem upTo_stop (first last : Span) : (first.upTo last).stop = last.stop := rfl

end Span

end BuildScript

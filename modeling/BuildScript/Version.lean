/-! Versions of four numbers. -/

namespace BuildScript

/-- A version, most significant number first. -/
structure Version where
  major : Int64
  minor : Int64
  patch : Int64
  tweak : Int64
deriving Repr, DecidableEq, Inhabited

namespace Version

/-- The four numbers, most significant first. -/
def parts (version : Version) : List Int64 :=
  [version.major, version.minor, version.patch, version.tweak]

/-- The version with all numbers zero. -/
def zero : Version := ⟨0, 0, 0, 0⟩

/-- The four numbers with points between them. -/
def text (version : Version) : String :=
  ".".intercalate (version.parts.map fun part => toString part.toInt)

/-- The order of versions: the first numbers that differ decide. -/
def compare (a b : Version) : Ordering :=
  ((Ord.compare a.major b.major).then (Ord.compare a.minor b.minor)).then
    ((Ord.compare a.patch b.patch).then (Ord.compare a.tweak b.tweak))

end Version

end BuildScript

/-! # Text given as bytes
-/

namespace ScanJobs.Text

/-- The text that the bytes encode in UTF-8, if they encode one. -/
def decodeUtf8? (bs : List UInt8) : Option String :=
  String.fromUTF8? ⟨bs.toArray⟩

/-- The characters that the bytes stand for one by one, U+0000 to U+00FF. -/
def latin1 (bs : List UInt8) : List Char :=
  bs.map fun b => Char.ofNat b.toNat

end ScanJobs.Text

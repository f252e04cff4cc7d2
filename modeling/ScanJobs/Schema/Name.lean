import ScanJobs.Text.Blank

/-! # Names of elements

An element of a schema is declared under a name that is not blank, holds no dot and has no blank
characters at its ends. `Name.ofText` strips a text to such a name or says what is wrong with it.
-/

namespace ScanJobs.Schema

/-- A name of an element. -/
structure Name where
  text : String
  isBlank_text : Text.isBlank text = false
  noDot : '.' ∉ text.toList
  strip_text : Text.strip text = text
deriving DecidableEq

/-- Why a text is no name. -/
inductive NameFault where
  | blank
  | dotted (text : String)
deriving DecidableEq, Repr

/-- What is wrong with the text. -/
def NameFault.message : NameFault → String
  | .blank => "name must not be blank"
  | .dotted text => "name must not contain '.': " ++ text

/-- The name that a text stands for. -/
def Name.ofText (s : String) : Except NameFault Name :=
  if hb : Text.isBlank s then .error .blank
  else if hd : '.' ∈ s.toList then .error (.dotted s)
  else .ok {
    text := Text.strip s
    isBlank_text := by rw [Text.isBlank_strip]; simpa using hb
    noDot := fun h => hd (Text.mem_of_mem_strip h)
    strip_text := Text.strip_strip }

end ScanJobs.Schema

/-! # The order of texts

Texts are listed by code point, the first difference deciding.
-/

namespace ScanJobs.Text

/-- The texts by code point. -/
def sort (texts : List String) : List String :=
  texts.mergeSort fun a b => decide (a ≤ b)

/-- The entries by the code points of their keys. -/
def sortByKey {α : Type} (entries : List (String × α)) : List (String × α) :=
  entries.mergeSort fun a b => decide (a.1 ≤ b.1)

end ScanJobs.Text

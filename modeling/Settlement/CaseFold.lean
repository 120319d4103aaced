/-!
# Texts up to case

Transaction hashes are compared up to the case of their ASCII letters. Folding turns the
capital letters A to Z into small ones and leaves every other character alone.
-/

namespace Settlement

/-- A text with its ASCII capital letters turned into small letters. -/
def foldCase (s : String) : String :=
  String.ofList (s.toList.map Char.toLower)

/-- Whether two texts agree up to the case of ASCII letters. -/
def sameUpToCase (s t : String) : Bool :=
  foldCase s == foldCase t

@[simp]
theorem sameUpToCase_iff {s t : String} : sameUpToCase s t = true ↔ foldCase s = foldCase t := by
  simp [sameUpToCase]

end Settlement

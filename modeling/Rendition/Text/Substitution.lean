/-
# Rendition.Text.Substitution -- replacing characters by texts

An escape writes each character as a text of its own and so respects
concatenation (`substitute_append`).
-/
namespace Rendition.Text

set_option autoImplicit false

/-- The text with every character replaced by the text `f` gives for it. -/
def substitute (f : Char → String) (s : String) : String :=
  String.ofList (s.toList.flatMap fun c => (f c).toList)

theorem toList_substitute (f : Char → String) (s : String) :
    (substitute f s).toList = s.toList.flatMap fun c => (f c).toList := by
  simp [substitute]

theorem substitute_append (f : Char → String) (s t : String) :
    substitute f (s ++ t) = substitute f s ++ substitute f t := by
  simp [substitute, String.toList_append, List.flatMap_append, String.ofList_append]

end Rendition.Text

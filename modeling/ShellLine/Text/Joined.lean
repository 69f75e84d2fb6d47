/-!
# Joined texts

Texts are joined in front of the text that follows them, with a separator
between any two.
-/

namespace ShellLine.Text

/-- Texts with a separator between them, in front of another text. -/
def joinThen (separator : List Char) : List String → List Char → List Char
  | [], rest => rest
  | [text], rest => text.toList ++ rest
  | text :: next :: texts, rest =>
    text.toList ++ (separator ++ joinThen separator (next :: texts) rest)

theorem joinThen_eq_intercalate (separator : List Char) (texts : List String)
    (rest : List Char) :
    joinThen separator texts rest = separator.intercalate (texts.map String.toList) ++ rest := by
  fun_induction joinThen separator texts rest with
  | case1 => rfl
  | case2 => simp
  | case3 text next texts rest ih =>
    rw [ih, List.map_cons, List.map_cons, List.map_cons, List.intercalate_cons_cons,
      List.append_assoc, List.append_assoc]

theorem joinThen_append (separator : List Char) (texts : List String) (rest more : List Char) :
    joinThen separator texts (rest ++ more) = joinThen separator texts rest ++ more := by
  rw [joinThen_eq_intercalate, joinThen_eq_intercalate, List.append_assoc]

end ShellLine.Text

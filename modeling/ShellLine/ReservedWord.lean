/-!
# Reserved words

The words that open, divide or close a compound command. A word is reserved by
its spelling alone.
-/

namespace ShellLine

inductive ReservedWord where
  | ifWord
  | thenWord
  | elseWord
  | elifWord
  | fiWord
  | doWord
  | doneWord
  | caseWord
  | esacWord
  | whileWord
  | untilWord
  | forWord
  | inWord
  | functionWord
  deriving DecidableEq

namespace ReservedWord

def all : List ReservedWord :=
  [.ifWord, .thenWord, .elseWord, .elifWord, .fiWord, .doWord, .doneWord, .caseWord, .esacWord,
   .whileWord, .untilWord, .forWord, .inWord, .functionWord]

def spelling : ReservedWord → String
  | .ifWord => "if"
  | .thenWord => "then"
  | .elseWord => "else"
  | .elifWord => "elif"
  | .fiWord => "fi"
  | .doWord => "do"
  | .doneWord => "done"
  | .caseWord => "case"
  | .esacWord => "esac"
  | .whileWord => "while"
  | .untilWord => "until"
  | .forWord => "for"
  | .inWord => "in"
  | .functionWord => "function"

/-- The reserved word with a given spelling, if there is one. -/
def ofString? (word : String) : Option ReservedWord :=
  all.find? fun w ↦ w.spelling == word

theorem mem_all (w : ReservedWord) : w ∈ all := by cases w <;> decide

@[simp] theorem ofString?_spelling (w : ReservedWord) : ofString? w.spelling = some w := by
  cases w <;> decide

theorem ofString?_eq_some_iff {word : String} {w : ReservedWord} :
    ofString? word = some w ↔ w.spelling = word := by
  constructor
  · intro h
    simpa using List.find?_some h
  · rintro rfl
    exact ofString?_spelling w

end ReservedWord

end ShellLine

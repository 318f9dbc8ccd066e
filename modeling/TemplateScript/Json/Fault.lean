namespace TemplateScript
namespace Json

/-!
# What can be wrong with a JSON text
-/

/-- The first problem met in a text that should hold a certain kind of value. -/
inductive Fault where
  /-- The text is not JSON. -/
  | malformed
  /-- The text is JSON so far, but of the wrong shape. -/
  | mismatched
  /-- The text ends too early. -/
  | truncated
  deriving DecidableEq

/-- What is wrong with a text, in words.  They are the words of the library that
reads JSON; nothing here depends on what they are. -/
abbrev Explanation := List Char → String

end Json
end TemplateScript

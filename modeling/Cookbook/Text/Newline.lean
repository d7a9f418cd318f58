/-!
# Cookbook.Text.Newline

Line ends. A text file may end its lines with a line feed, a carriage return or both; reading
makes all of them line feeds.
-/

namespace Cookbook.Text

/-- Every line end as a line feed. -/
def unifyNewlines : List Char → List Char
  | [] => []
  | '\r' :: '\n' :: cs => '\n' :: unifyNewlines cs
  | '\r' :: cs => '\n' :: unifyNewlines cs
  | c :: cs => c :: unifyNewlines cs

/-- A text in which every line ends with a line feed. -/
def withLineFeeds (s : String) : String := String.ofList (unifyNewlines s.toList)

example : withLineFeeds "a\r\nb\rc\n" = "a\nb\nc\n" := by cbv

end Cookbook.Text

/-!
# Lines of text

Generated files are lists of lines; a line ends in a line feed.
-/
namespace Accessors

/-- The text of some lines. -/
def unlines (lines : List String) : String := String.join (lines.map (· ++ "\n"))

/-- The lines of several blocks with an empty line between each two of them. -/
def spaced (blocks : List (List String)) : List String := [""].intercalate blocks

end Accessors

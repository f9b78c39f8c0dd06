import Accessors.Span
/-!
# What can be wrong with the names in a source

The causes that building a graph stops for, and the words for each.
-/
namespace Accessors

inductive ModelFault where
  | duplicateType (name : String)
  | keywordName (name : String)
  | unknownSupertype (name type : String)
  | repeatedSupertype (name type : String)
  | secondSuperclass (type first second : String)
  | classUnderInterface (type parent : String)
  | unknownTarget (name type : String)
deriving DecidableEq

def ModelFault.message : ModelFault → String
  | duplicateType name => "duplicate type '" ++ name ++ "'"
  | keywordName name => "'" ++ name ++ "' is a keyword and cannot name a type"
  | unknownSupertype name type => "unknown type '" ++ name ++ "' in isA list of '" ++ type ++ "'"
  | repeatedSupertype name type => "type '" ++ name ++ "' appears multiple times in isA list of '" ++ type ++ "'"
  | secondSuperclass type first second =>
    "class '" ++ type ++ "' cannot extend both '" ++ first ++ "' and '" ++ second ++ "'"
  | classUnderInterface type parent => "interface '" ++ type ++ "' cannot extend class '" ++ parent ++ "'"
  | unknownTarget name type => "unknown type '" ++ name ++ "' in association of '" ++ type ++ "'"

end Accessors

/-! # Parameter tables

A table documents the parameters of one section, with a row for each parameter and for each field
that values of it can hold. -/
namespace AnnotatedValues

namespace Table

structure Row where
  /-- The name of the parameter, with the way to a field behind it. -/
  path : String
  description : String
  type : String
  value : String
  deriving DecidableEq, Repr, Inhabited

end Table

structure Table where
  title : String
  rows : List Table.Row
  deriving DecidableEq, Repr, Inhabited

end AnnotatedValues

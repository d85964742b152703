/-!
# JSON values

JSON as far as options are written in it. A number is only recognised, since no option holds one.
A string may spell half of a surrogate pair, which no text contains: such a string is a value, but
has no text.
-/

namespace Bundler.Json

/-- A JSON value. The members of an object stand in the order in which they were written, repeated
    ones included. -/
inductive Value where
  | null
  | bool (value : Bool)
  | number
  | string (text : Option String)
  | array (items : List Value)
  | object (members : List (Option String × Value))

end Bundler.Json

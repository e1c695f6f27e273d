/-!
# Columns

A text is filled up with spaces to the width of its column.
-/
set_option autoImplicit false

namespace HeaderRename

def padRight (width : Nat) (text : String) : String :=
  text ++ "".pushn ' ' (width - text.length)

end HeaderRename

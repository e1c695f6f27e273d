/-!
# Words of a command line

A word that starts with dashes names options: two dashes start one long name, which may carry a
value behind `=`, and one dash starts a cluster of letters. Two dashes alone end the options; a
single dash is a plain word.
-/
set_option autoImplicit false

namespace HeaderRename

inductive Word where
  | plain (text : String)
  | endOfOptions
  | long (name : String) (value : Option String)
  | cluster (letters : List Char)
deriving DecidableEq, Repr

namespace Word

/-- A long name ends at the first `=`. -/
def ofLong (body : List Char) : Word :=
  let name := String.ofList (body.takeWhile (· != '='))
  match body.dropWhile (· != '=') with
  | [] => long name none
  | _ :: value => long name (some (String.ofList value))

def ofString (text : String) : Word :=
  match text.toList with
  | ['-', '-'] => endOfOptions
  | '-' :: '-' :: body => ofLong body
  | ['-'] => plain text
  | '-' :: letters => cluster letters
  | _ => plain text

end Word

end HeaderRename

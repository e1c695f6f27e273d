import HeaderRename.Rename.Rule

/-!
# Header names, brackets and renames

A rename turns one header name into another inside the directives of its bracket styles. It expands
to one substitution rule per style, quoted before angled.
-/
set_option autoImplicit false

namespace HeaderRename

def isAsciiAlphanum (c : Char) : Bool :=
  ('a' ≤ c && c ≤ 'z') || ('A' ≤ c && c ≤ 'Z') || ('0' ≤ c && c ≤ '9')

namespace HeaderName

def isFirst (c : Char) : Bool :=
  isAsciiAlphanum c || c == '_'

def isLater (c : Char) : Bool :=
  isFirst c || c == '.' || c == '/' || c == '+' || c == '-'

def accepts : List Char → Bool
  | [] => false
  | c :: rest => isFirst c && rest.all isLater

def isValid (name : String) : Bool :=
  accepts name.toList

end HeaderName

/-- The two bracket styles of an include directive. -/
inductive Bracket where
  | quoted
  | angle
deriving DecidableEq, Repr

namespace Bracket

def opening : Bracket → Char
  | quoted => '"'
  | angle => '<'

def closing : Bracket → Char
  | quoted => '"'
  | angle => '>'

/-- The directive that includes a header in this style. -/
def directive (bracket : Bracket) (name : String) : Text :=
  "#include ".toList ++ bracket.opening :: name.toList ++ [bracket.closing]

end Bracket

structure Styles where
  quoted : Bool
  angle : Bool
deriving DecidableEq, Repr

namespace Styles

def has (styles : Styles) : Bracket → Bool
  | .quoted => styles.quoted
  | .angle => styles.angle

def brackets (styles : Styles) : List Bracket :=
  [Bracket.quoted, Bracket.angle].filter styles.has

def intersects (a b : Styles) : Bool :=
  (a.quoted && b.quoted) || (a.angle && b.angle)

def display (styles : Styles) : String :=
  match styles.quoted, styles.angle with
  | true, true => "\"\" <>"
  | true, false => "\"\""
  | false, true => "<>"
  | false, false => "-"

theorem mem_brackets_iff (styles : Styles) (bracket : Bracket) :
    bracket ∈ styles.brackets ↔ styles.has bracket = true := by
  cases bracket <;> simp [brackets]

end Styles

structure Rename where
  old : String
  new : String
  styles : Styles
deriving DecidableEq, Repr

namespace Rename

def rules (rename : Rename) : List Rule :=
  rename.styles.brackets.map fun bracket =>
    { pattern := bracket.directive rename.old, replacement := bracket.directive rename.new }

end Rename

end HeaderRename

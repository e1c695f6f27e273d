/-!
# Regular expressions

Expressions over an alphabet given by what each symbol accepts, with counted repetition. A set of
words is matched at once: `after` holds what remains of any of them behind a match at its start,
each remainder once. All words of a set being ends of one word, the sets stay small.
-/
set_option autoImplicit false

namespace HeaderRename

inductive Regular (α : Type) where
  | never
  | nothing
  | symbol (accepts : α → Bool)
  | seq (first second : Regular α)
  | alt (left right : Regular α)
  | repeated (body : Regular α) (lower : Nat) (upper : Option Nat)

namespace Regular

variable {α : Type}

/-- The rest of a word that starts with an accepted symbol. -/
def restOf? (accepts : α → Bool) : List α → Option (List α)
  | [] => none
  | c :: word => if accepts c then some word else none

variable [DecidableEq α]

def join (new seen : List (List α)) : List (List α) :=
  new.foldr (fun word words => if word ∈ words then words else word :: words) seen

/-- What remains behind exactly so many matches. -/
def times (step : List (List α) → List (List α)) : Nat → List (List α) → List (List α)
  | 0, words => words
  | count + 1, words => if words.isEmpty then [] else times step count (step words)

/-- What remains behind at most so many matches; only words not seen before are matched again. -/
def upTo (step : List (List α) → List (List α)) :
    Nat → List (List α) → List (List α) → List (List α)
  | 0, seen, _ => seen
  | count + 1, seen, latest =>
    if latest.isEmpty then seen
    else
      let new := (step latest).filter (· ∉ seen)
      upTo step count (new ++ seen) new

def longest (words : List (List α)) : Nat :=
  (words.map List.length).foldl max 0

/-- Counts above the length of the longest word by more than one change nothing and are cut. -/
def after : Regular α → List (List α) → List (List α)
  | never, _ => []
  | nothing, words => words
  | symbol accepts, words => words.filterMap (restOf? accepts)
  | seq first second, words => after second (after first words)
  | alt left right, words => join (after left words) (after right words)
  | repeated body lower upper, words =>
    let cap := longest words + 1
    let more := match upper with
      | none => cap
      | some upper => min cap (upper - lower)
    let start := times (after body) (min cap lower) words
    upTo (after body) more start start

/-- Whether the whole word matches. -/
def accepts (expression : Regular α) (word : List α) : Bool :=
  (expression.after [word]).any List.isEmpty

omit [DecidableEq α]

def any : Regular α :=
  symbol fun _ => true

def star (body : Regular α) : Regular α :=
  repeated body 0 none

def optional (body : Regular α) : Regular α :=
  alt nothing body

def sequence (parts : List (Regular α)) : Regular α :=
  parts.foldr seq nothing

end Regular

end HeaderRename

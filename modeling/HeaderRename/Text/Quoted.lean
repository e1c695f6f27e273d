import HeaderRename.Text.Printable

/-!
# Quoted text

A text between double quotes, with escapes for quotes, backslashes, line ends, tabs and what cannot
be shown. `Apostrophe.escaped` is for texts that may end up on a command line.
-/
set_option autoImplicit false

namespace HeaderRename

inductive Apostrophe where
  | plain
  | escaped
deriving DecidableEq

namespace Quoted

def hexDigits (n : Nat) : List Char :=
  Nat.toDigits 16 n

def escape (apostrophe : Apostrophe) (c : Char) : List Char :=
  if c = '\x00' then ['\\', '0']
  else if c = '\t' then ['\\', 't']
  else if c = '\r' then ['\\', 'r']
  else if c = '\n' then ['\\', 'n']
  else if c = '"' || c = '\\' || (c = '\'' && apostrophe = .escaped) then ['\\', c]
  else if ' ' ≤ c && c ≤ '~' then [c]
  else if Printable.isHidden c then ['\\', 'u', '\x7b'] ++ hexDigits c.toNat ++ ['\x7d']
  else [c]

def quoteWith (apostrophe : Apostrophe) (text : String) : String :=
  String.ofList ('"' :: text.toList.flatMap (escape apostrophe) ++ ['"'])

def quote (text : String) : String :=
  quoteWith .plain text

end Quoted

end HeaderRename

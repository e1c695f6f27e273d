import HeaderRename.Text.CodePage
import HeaderRename.Text.Replace
import HeaderRename.Text.Utf8

/-!
# Encodings of source files

A file is decoded under an encoding and a policy for invalid bytes. Only UTF-8 has invalid bytes:
both code pages give every byte a character.
-/
set_option autoImplicit false

namespace HeaderRename

inductive Encoding where
  | utf8
  | acp
  | oem
deriving DecidableEq, Repr

inductive DecodePolicy where
  | ignore
  | replace
deriving DecidableEq, Repr

namespace Encoding

/-- The code page of an encoding; `none` for UTF-8. -/
def page? : Encoding → Option CodePage
  | utf8 => none
  | acp => some .western
  | oem => some .cyrillic

def decode (encoding : Encoding) (policy : DecodePolicy) (bytes : List UInt8) : Text :=
  match encoding.page? with
  | some page => page.decode bytes
  | none =>
    match policy with
    | .ignore => Utf8.decodeDropping bytes
    | .replace => Utf8.decodeMarking bytes

def encode (encoding : Encoding) (text : Text) : List UInt8 :=
  match encoding.page? with
  | some page => page.encode text
  | none => Utf8.write text

end Encoding

end HeaderRename

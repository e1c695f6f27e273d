import HeaderRename.Disk.Resolve
import HeaderRename.Rename.Table
import HeaderRename.Text.Encoding

/-!
# Rewriting one file

A file is read, decoded, put through the rules, and written back in its encoding if its text has
changed. A dry run finds out the same and writes nothing.
-/
set_option autoImplicit false

namespace HeaderRename

structure RewriteOptions where
  encoding : Encoding
  policy : DecodePolicy
  dry : Bool
deriving DecidableEq, Repr

namespace RewriteOptions

def apply (options : RewriteOptions) (rules : List Rule) (bytes : List UInt8) : Rewritten :=
  applyRules rules (options.encoding.decode options.policy bytes)

/-- The bytes that a file has after a rewrite. -/
def step (options : RewriteOptions) (rules : List Rule) (bytes : List UInt8) : List UInt8 :=
  let rewritten := options.apply rules bytes
  if rewritten.changed then options.encoding.encode rewritten.text else bytes

end RewriteOptions

structure FileOutcome where
  updated : Bool
  matched : List Rule
  disk : Disk
  written : List Place

namespace Disk

def rewriteFile (disk : Disk) (rules : List Rule) (options : RewriteOptions) (path : String) :
    Except FileError FileOutcome :=
  match disk.read path with
  | .error fault => .error (.readFailed path fault)
  | .ok bytes =>
    let rewritten := options.apply rules bytes
    if !rewritten.changed then .ok ⟨false, rewritten.matched, disk, []⟩
    else if options.dry then .ok ⟨true, rewritten.matched, disk, []⟩
    else
      match disk.write path (options.encoding.encode rewritten.text) with
      | .error fault => .error (.writeFailed path fault)
      | .ok (place, disk) => .ok ⟨true, rewritten.matched, disk, [place]⟩

end Disk

end HeaderRename

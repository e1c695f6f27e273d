import HeaderRename.Rename.Table

/-!
# The built-in tables

`Table.limits` gives one header a plain name its project-local one, in quoted directives only.
`Table.lib` drops the leading letter of the library's own headers, in both styles.
-/
set_option autoImplicit false

namespace HeaderRename.Table

/-- The table of renames that have been checked. -/
def ofAccepted (name description : String) (renames : List Rename)
    (h : (fault? [] renames).isNone = true) : Table where
  name
  description
  renames
  valid := ((fault?_eq_none_iff [] renames).1 (Option.isNone_iff_eq_none.1 h)).1
  nodup := ((fault?_eq_none_iff [] renames).1 (Option.isNone_iff_eq_none.1 h)).2.1

def limits : Table :=
  ofAccepted "limits" "limits include" [⟨"limits.h", "llimits.h", ⟨true, false⟩⟩]
    (by decide +kernel)

def libNames : List (String × String) :=
  [("lapi.h", "api.h"), ("lauxlib.h", "auxlib.h"), ("lbaselib.h", "baselib.h"),
    ("lcode.h", "code.h"), ("ldblib.h", "dblib.h"), ("ldebug.h", "debug.h"), ("ldo.h", "do.h"),
    ("ldump.h", "dump.h"), ("lfunc.h", "func.h"), ("lgc.h", "gc.h"), ("linit.h", "init.h"),
    ("liolib.h", "iolib.h"), ("llex.h", "lex.h"), ("llimits.h", "limits.h"),
    ("lmathlib.h", "mathlib.h"), ("lmem.h", "mem.h"), ("lobject.h", "object.h"),
    ("lopcodes.h", "opcodes.h"), ("loslib.h", "oslib.h"), ("lparser.h", "parser.h"),
    ("lstate.h", "state.h"), ("lstring.h", "string.h"), ("lstrlib.h", "strlib.h"),
    ("ltable.h", "table.h"), ("ltablib.h", "tablib.h"), ("ltm.h", "tm.h"),
    ("lundump.h", "undump.h"), ("lvm.h", "vm.h"), ("lzio.h", "zio.h")]

def lib : Table :=
  ofAccepted "lib" "includes" (libNames.map fun p => ⟨p.1, p.2, ⟨true, true⟩⟩)
    (by decide +kernel)

end HeaderRename.Table

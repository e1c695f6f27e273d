import HeaderRename.Log.Timestamp
import HeaderRename.Program.Run

/-!
# The command line

Reads the tree below the working directory, runs the program on it, writes what has changed and
prints what the run has to say. The name under which it is called picks the program. The listing
command refuses arguments that make no query.
-/
set_option autoImplicit false

namespace HeaderRename.Main

/-- The target of a link, as a path from its own directory; what lies outside the working directory
counts as missing. -/
def linkTarget (top : String) (place : Place) (real : String) : String :=
  let start := top.toList ++ ['/']
  if start.isPrefixOf real.toList then
    Path.ofNames (place.dropLast.map (fun _ => "..") ++
      [String.ofList (real.toList.drop start.length)])
  else "/"

def readNames (place : Place) : IO (List IO.FS.DirEntry) := do
  let here ← IO.currentDir
  return (← (place.foldl (· / ·) here).readDir).toList

/-- Puts the entries of a directory, and all below it, on a disk. -/
partial def readTree (top : String) (place : Place) (disk : Disk) : IO Disk := do
  let mut disk := disk
  for entry in ← readNames place do
    let place := place ++ [entry.fileName]
    match (← entry.path.symlinkMetadata).type with
    | .dir => disk ← readTree top place (disk.put place .directory)
    | .file => disk := disk.put place (.file (← IO.FS.readBinFile entry.path).toList)
    | .symlink =>
      let target ←
        try pure (linkTarget top place (← IO.FS.realPath entry.path).toString)
        catch _ => pure "/"
      disk := disk.put place (.link target)
    | .other => pure ()
  return disk

/-- The variables of this process. -/
def readVariables : IO Variables := do
  let bytes ← try IO.FS.readBinFile "/proc/self/environ" catch _ => pure ByteArray.empty
  let entries := List.splitOn '\x00' (Utf8.decodeMarking bytes.toList)
  return entries.filterMap fun entry =>
    (Loader.splitOnce '=' entry).map fun (name, value) => (String.ofList name, String.ofList value)

/-- The time at which this process was started. -/
def readTime : IO Timestamp := do
  let here ← IO.currentDir
  let modified := (← (here / "/proc/self").metadata).modified
  return ⟨modified.sec.toNat, modified.nsec.toNat⟩

/-- The paths at which the listing command may lie and does. -/
def readCommands (vars : Variables) : IO (List String) := do
  let here ← IO.currentDir
  (Listing.candidates (vars.lookup "PATH")).filterM fun path => (here / path).pathExists

/-- Writes the files and directories in which `after` differs from `before`. -/
def writeTree (before after : Disk) : IO Unit := do
  for (place, entry) in after.entries do
    if before.get? place != some entry then
      match entry with
      | .directory => IO.FS.createDirAll (Path.ofNames place)
      | .file bytes => IO.FS.writeBinFile (Path.ofNames place) ⟨bytes.toArray⟩
      | .link _ => pure ()

/-- Removes what `after` no longer has, from the deepest places up. -/
def removeGone (before after : Disk) : IO Unit := do
  let gone := before.entries.filter fun e => (after.get? e.1).isNone
  for (place, entry) in gone.mergeSort fun a b => decide (b.1.length ≤ a.1.length) do
    match entry with
    | .directory => IO.FS.removeDir (Path.ofNames place)
    | _ => IO.FS.removeFile (Path.ofNames place)

def programOf (name : String) : Program :=
  if name == "fix-limits-include" then .limitsOnly
  else if name == "update-lib-includes" then .libOnly
  else .full

end HeaderRename.Main

open HeaderRename HeaderRename.Main in
def main (words : List String) : IO UInt32 := do
  let program := programOf ((← IO.appPath).fileName.getD "")
  let disk ← readTree (← IO.currentDir).toString [] .empty
  let vars ← readVariables
  let commands ← readCommands vars
  let host : Host :=
    { disk, vars, executable := commands.contains, listing := Listing.refuse
      time := (← readTime).format }
  let outcome := program.run host words
  removeGone disk outcome.disk
  writeTree disk outcome.disk
  for line in outcome.output do IO.println line
  for line in outcome.errors do IO.eprintln line
  return outcome.code.toUInt32

import HeaderRename.Proofs.Settings.Layers

/-!
# The files of a configuration

The listing of the files is made when the sources are added, the files are looked for when they are
merged. Only the default file can make the two differ: it is listed if there is anything under its
path, and merged if there is a file under the path or under the path with the extension.
-/
set_option autoImplicit false

namespace HeaderRename

open Setting

namespace Source

variable {disk : Disk}

/-- The file that a source reads. -/
def file? (disk : Disk) : Source → Option String
  | text _ => none
  | file path => locate? disk path
  | optionalFile path => locate? disk path

/-- How a source is listed. -/
def shown : Source → String × String
  | text _ => ("string", "<string>")
  | file path => ("file", path)
  | optionalFile path => ("optional", path)

theorem isFile_of_locate? {path found : String} (h : locate? disk path = some found) :
    disk.isFile found = true := by
  unfold locate? at h
  split at h
  · case isTrue hFile =>
    rwa [← Option.some.inj h]
  · exact (Option.filter_eq_some_iff.mp h).2

theorem locate?_eq_some_self_iff {path : String} :
    locate? disk path = some path ↔ disk.isFile path = true := by
  constructor
  · exact isFile_of_locate?
  · intro hFile
    rw [locate?, if_pos hFile]

theorem file?_eq_some_shown_iff {source : Source} (h : (source.file? disk).isSome = true) :
    source.file? disk = some source.shown.2 ↔ disk.isFile source.shown.2 = true := by
  cases source with
  | text content => cases h
  | file path => exact locate?_eq_some_self_iff
  | optionalFile path => exact locate?_eq_some_self_iff

theorem exists_read_of_isFile {path : String} (h : disk.isFile path = true) :
    ∃ bytes, disk.read path = .ok bytes := by
  unfold Disk.isFile at h
  split at h
  · case h_1 place bytes hStat =>
    exact ⟨bytes, by rw [Disk.read, hStat]⟩
  · cases h

/-- What a source gives is what stands in its file. -/
theorem read_of_file?_eq_some {source : Source} {found : String}
    (h : source.file? disk = some found) :
    ∃ bytes, disk.read found = .ok bytes ∧
      source.read disk =
        readText (some (tidy found)) (Utf8.decodeMarking (dropMark bytes)) := by
  have hPath : ∀ path, locate? disk path = some found →
      ∃ bytes, disk.read found = .ok bytes ∧ readPath disk path =
        readText (some (tidy found)) (Utf8.decodeMarking (dropMark bytes)) := by
    intro path hLocate
    obtain ⟨bytes, hBytes⟩ := exists_read_of_isFile (isFile_of_locate? hLocate)
    exact ⟨bytes, hBytes, by rw [readPath, hLocate]; dsimp only; rw [hBytes]⟩
  cases source with
  | text content => cases h
  | file path => exact hPath path h
  | optionalFile path =>
    obtain ⟨bytes, hBytes, hRead⟩ := hPath path h
    have hFound : (locate? disk path).isSome = true := Option.isSome_of_eq_some h
    exact ⟨bytes, hBytes, by rw [read, if_pos hFound, hRead]⟩

theorem file?_file_isSome_of_read {path : String} {entries : List (String × Setting)}
    (h : (file path).read disk = .ok entries) : ((file path).file? disk).isSome = true := by
  change readPath disk path = .ok entries at h
  rw [readPath] at h
  change (locate? disk path).isSome = true
  cases hLocate : locate? disk path with
  | none => rw [hLocate] at h; cases h
  | some found => rfl

theorem placed_optionalFile_of_locate?_eq_none {path : String} (h : locate? disk path = none) :
    (optionalFile path).placed disk = [] := by
  rw [placed, read, h]
  rfl

end Source

namespace Loader

variable {disk : Disk} {vars : Variables} {g : GlobalOptions} {loader : Loader} {config : Config}

/-- The sources of which a file is read, in the order in which they are merged. -/
def used (disk : Disk) (loader : Loader) : List Source :=
  loader.sources.filter fun source => (source.file? disk).isSome

/-- The lines of a listing. -/
def numbered (listed : List (String × String)) : List String :=
  listed.zipIdx.map fun ((kind, path), i) => s!"{i + 1}. [{kind}] {path}"

theorem length_numbered (listed : List (String × String)) :
    (numbered listed).length = listed.length := by
  rw [numbered, List.length_map, List.length_zipIdx]

theorem listing_eq_numbered : loader.listing = numbered loader.listed := rfl

theorem listed_foldl_addFile (loader : Loader) (paths : List String) :
    (paths.foldl addFile loader).listed =
      loader.listed ++ (paths.map Source.file).map Source.shown := by
  induction paths generalizing loader with
  | nil => exact (List.append_nil _).symm
  | cons path paths ih =>
    rw [List.foldl_cons, ih, addFile, List.append_assoc]
    rfl

/-- The entry of the default file, which is there if there is anything under its path. -/
def defaultListed (disk : Disk) (g : GlobalOptions) : List (String × String) :=
  if g.noDefaultInis = false ∧ disk.pathExists defaultIni = true then
    [(Source.optionalFile defaultIni).shown]
  else []

theorem listed_loaderOf :
    (loaderOf disk g).listed =
      defaultListed disk g ++ (g.inis.map Source.file).map Source.shown := by
  change (g.inis.foldl addFile
    (if g.noDefaultInis then empty else empty.addOptionalFile disk defaultIni)).listed = _
  rw [listed_foldl_addFile, defaultListed]
  cases g.noDefaultInis <;> cases hExists : disk.pathExists defaultIni <;>
    simp [empty, addOptionalFile, Source.shown, hExists]

/-- The default file, if it is read. -/
def defaultUsed (disk : Disk) (g : GlobalOptions) : List Source :=
  if g.noDefaultInis = false ∧ (Source.locate? disk defaultIni).isSome = true then
    [.optionalFile defaultIni]
  else []

theorem used_loaderOf
    (hRead : ∀ source ∈ sourcesOf g, ∃ entries, source.read disk = .ok entries) :
    (loaderOf disk g).used disk = defaultUsed disk g ++ g.inis.map Source.file := by
  have hSources := sources_loaderOf disk g
  have hInis : (g.inis.map Source.file).filter (fun source => (source.file? disk).isSome) =
      g.inis.map Source.file := by
    refine List.filter_eq_self.mpr fun source hSource => ?_
    obtain ⟨path, _, rfl⟩ := List.mem_map.mp hSource
    obtain ⟨entries, hEntries⟩ := hRead _ (List.mem_append_right _ hSource)
    exact Source.file?_file_isSome_of_read hEntries
  rw [used, hSources, sourcesOf, List.filter_append, hInis, defaultUsed]
  cases g.noDefaultInis <;> cases hLocate : Source.locate? disk defaultIni <;>
    simp [Source.file?, hLocate]

/-- Whether a source without a file is there makes no difference to what is merged. -/
theorem flatMap_placed_used
    (hRead : ∀ source ∈ sourcesOf g, ∃ entries, source.read disk = .ok entries) :
    ((loaderOf disk g).used disk).flatMap (Source.placed disk) =
      (sourcesOf g).flatMap (Source.placed disk) := by
  rw [used_loaderOf hRead, sourcesOf, List.flatMap_append, List.flatMap_append, defaultUsed]
  cases g.noDefaultInis <;> cases hLocate : Source.locate? disk defaultIni <;>
    simp [Source.placed_optionalFile_of_locate?_eq_none, hLocate]

theorem merged_used {root : Setting} (h : (loaderOf disk g).merged disk vars = .ok root) :
    { loaderOf disk g with sources := (loaderOf disk g).used disk }.merged disk vars =
      .ok root := by
  have hRead := ((merged_loaderOf_eq_ok_iff disk vars g root).mp h).1
  have hSources := sources_loaderOf disk g
  rw [← h]
  simp only [merged]
  congr 1
  obtain ⟨root', hRoot'⟩ : ∃ root',
      (sourcesOf g).foldlM (Source.apply disk) emptyTable = .ok root' :=
    ⟨_, Source.foldlM_apply_eq_ok_iff.mpr ⟨hRead, rfl⟩⟩
  have hUsed : ((loaderOf disk g).used disk).foldlM (Source.apply disk) emptyTable =
      .ok root' := by
    refine Source.foldlM_apply_eq_ok_iff.mpr ⟨fun source hSource => ?_, ?_⟩
    · exact hRead source (hSources ▸ List.mem_of_mem_filter hSource)
    · rw [flatMap_placed_used hRead]
      exact (Source.foldlM_apply_eq_ok_iff.mp hRoot').2
  rw [hUsed, hSources, hRoot']

/-- The default file is listed just when it is read. -/
def DefaultTold (disk : Disk) (g : GlobalOptions) : Prop :=
  g.noDefaultInis = true ∨
    disk.pathExists defaultIni = (Source.locate? disk defaultIni).isSome

theorem length_defaultListed_iff :
    (defaultListed disk g).length = (defaultUsed disk g).length ↔ DefaultTold disk g := by
  rw [defaultListed, defaultUsed, DefaultTold]
  cases g.noDefaultInis <;> cases disk.pathExists defaultIni <;>
    cases (Source.locate? disk defaultIni).isSome <;> simp

theorem defaultListed_of_defaultTold (h : DefaultTold disk g) :
    defaultListed disk g = (defaultUsed disk g).map Source.shown := by
  unfold DefaultTold at h
  rw [defaultListed, defaultUsed]
  rcases h with hNone | hSame
  · simp [hNone]
  · rw [hSame]
    split <;> rfl

/-- The listing and the files read are equally many just when they agree. -/
theorem length_listed_eq_iff
    (hRead : ∀ source ∈ sourcesOf g, ∃ entries, source.read disk = .ok entries) :
    (loaderOf disk g).listed.length = ((loaderOf disk g).used disk).length ↔
      DefaultTold disk g := by
  rw [listed_loaderOf, used_loaderOf hRead, List.length_append, List.length_append,
    List.length_map, Nat.add_right_cancel_iff, length_defaultListed_iff]

theorem listed_eq_of_defaultTold
    (hRead : ∀ source ∈ sourcesOf g, ∃ entries, source.read disk = .ok entries)
    (h : DefaultTold disk g) :
    (loaderOf disk g).listed = ((loaderOf disk g).used disk).map Source.shown := by
  rw [listed_loaderOf, used_loaderOf hRead, List.map_append, defaultListed_of_defaultTold h]

/-- A configuration that is built is that of the files read, and the listing names each of them, in
order, and nothing else, just when the default file is listed if and only if it is read. Each entry
names the very file read when all entries are files. -/
theorem listing_eq_used_iff (hLoader : ofOptions disk g = .ok loader)
    (hBuild : loader.build disk vars = .ok config) :
    (∀ source ∈ loader.used disk, ∃ found bytes, source.file? disk = some found ∧
      disk.read found = .ok bytes ∧ source.read disk =
        Source.readText (some (Source.tidy found))
          (Utf8.decodeMarking (Source.dropMark bytes))) ∧
    { loader with sources := loader.used disk }.build disk vars = .ok config ∧
    (loader.listing = numbered ((loader.used disk).map Source.shown) ↔ DefaultTold disk g) ∧
    ((loader.used disk).map (Source.file? disk) = loader.listed.map (fun entry => some entry.2) ↔
      DefaultTold disk g ∧ ∀ entry ∈ loader.listed, disk.isFile entry.2 = true) := by
  obtain ⟨_, rfl⟩ := (ofOptions_eq_ok_iff disk g loader).mp hLoader
  rw [build, bind_eq_ok_iff] at hBuild
  obtain ⟨root, hMerged, hRest⟩ := hBuild
  have hRead := ((merged_loaderOf_eq_ok_iff disk vars g root).mp hMerged).1
  refine ⟨fun source hSource => ?_, ?_, ?_, ?_⟩
  · obtain ⟨found, hFound⟩ := Option.isSome_iff_exists.mp (List.mem_filter.mp hSource).2
    obtain ⟨bytes, hBytes, hText⟩ := Source.read_of_file?_eq_some hFound
    exact ⟨found, bytes, hFound, hBytes, hText⟩
  · rw [build, bind_eq_ok_iff]
    exact ⟨root, merged_used hMerged, hRest⟩
  · constructor
    · intro hSame
      have hLength := congrArg List.length hSame
      rw [listing_eq_numbered, length_numbered, length_numbered, List.length_map] at hLength
      exact (length_listed_eq_iff hRead).mp hLength
    · intro hTold
      rw [listing_eq_numbered, listed_eq_of_defaultTold hRead hTold]
  · constructor
    · intro hSame
      have hLength := congrArg List.length hSame
      rw [List.length_map, List.length_map] at hLength
      have hTold := (length_listed_eq_iff hRead).mp hLength.symm
      rw [listed_eq_of_defaultTold hRead hTold, List.map_map, List.map_inj_left] at hSame
      refine ⟨hTold, ?_⟩
      rw [listed_eq_of_defaultTold hRead hTold, List.forall_mem_map]
      intro source hSource
      exact (Source.file?_eq_some_shown_iff (List.mem_filter.mp hSource).2).mp
        (hSame source hSource)
    · rintro ⟨hTold, hFiles⟩
      rw [listed_eq_of_defaultTold hRead hTold, List.forall_mem_map] at hFiles
      rw [listed_eq_of_defaultTold hRead hTold, List.map_map, List.map_inj_left]
      intro source hSource
      exact (Source.file?_eq_some_shown_iff (List.mem_filter.mp hSource).2).mpr
        (hFiles source hSource)

/-- A default file, and a file that is found with the extension only. -/
def extensionFolder : Disk where
  entries :=
    [(["incfix.toml"], .file "[global]\ndry = true\n".toUTF8.toList),
      (["site.toml"], .file "[limits]\nroots = [\"new\"]\n".toUTF8.toList)]
  nodup := by decide
  valid := by decide

def extensionOptions : GlobalOptions :=
  { GlobalOptions.empty with inis := ["site"] }

def extensionConfig : Config :=
  { Config.default with
    global := { Config.default.global with dry := true }
    limits := { Config.default.limits with roots := ["new"] } }

theorem listing_eq_used_iff_extensionFolder :
    ofOptions extensionFolder extensionOptions =
      .ok (loaderOf extensionFolder extensionOptions) ∧
    (loaderOf extensionFolder extensionOptions).build extensionFolder [] =
      .ok extensionConfig ∧
    (loaderOf extensionFolder extensionOptions).used extensionFolder =
      [.optionalFile "incfix.toml", .file "site"] ∧
    (Source.file "site").file? extensionFolder = some "site.toml" ∧
    (loaderOf extensionFolder extensionOptions).listing =
      ["1. [optional] incfix.toml", "2. [file] site"] := by
  have hLoader : ofOptions extensionFolder extensionOptions =
      .ok (loaderOf extensionFolder extensionOptions) := rfl
  have hBuild : (loaderOf extensionFolder extensionOptions).build extensionFolder [] =
      .ok extensionConfig := by
    decide +kernel
  have hUsed : (loaderOf extensionFolder extensionOptions).used extensionFolder =
      [.optionalFile "incfix.toml", .file "site"] := by
    decide +kernel
  have hTold : DefaultTold extensionFolder extensionOptions := .inr (by decide +kernel)
  refine ⟨hLoader, hBuild, hUsed, by decide +kernel, ?_⟩
  rw [(listing_eq_used_iff hLoader hBuild).2.2.1.mpr hTold, hUsed]
  decide +kernel

/-- The default file is a folder: it is listed, and nothing is read of it. -/
def iniFolder : Disk where
  entries := [(["incfix.toml"], .directory)]
  nodup := by decide
  valid := by decide

theorem listing_ne_used_iniFolder :
    ofOptions iniFolder GlobalOptions.empty = .ok (loaderOf iniFolder GlobalOptions.empty) ∧
      (loaderOf iniFolder GlobalOptions.empty).build iniFolder [] = .ok Config.default ∧
      (loaderOf iniFolder GlobalOptions.empty).listing = ["1. [optional] incfix.toml"] ∧
      (loaderOf iniFolder GlobalOptions.empty).used iniFolder = [] := by
  refine ⟨rfl, ?_, ?_, ?_⟩ <;> decide +kernel

/-- The other way round: a default file that has the extension twice is read without being listed. -/
def doubleFolder : Disk where
  entries := [(["incfix.toml.toml"], .file "[global]\ndry = true\n".toUTF8.toList)]
  nodup := by decide
  valid := by decide

example : (loaderOf doubleFolder GlobalOptions.empty).listing = [] ∧
    (loaderOf doubleFolder GlobalOptions.empty).used doubleFolder =
      [.optionalFile "incfix.toml"] := by
  decide +kernel

end Loader

end HeaderRename

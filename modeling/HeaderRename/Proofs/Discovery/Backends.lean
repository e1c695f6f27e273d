import HeaderRename.Proofs.Discovery.Lines
import HeaderRename.Proofs.Discovery.Starts
import HeaderRename.Proofs.Discovery.Walk

/-!
# What the backends find

With the default options a walk lists the files below the roots, and the listing command lists every
entry, the roots among them. Where both read the roots and names alike, the walk finds just the files
among what the command finds, so the two find the same where the command finds nothing but files.
-/
set_option autoImplicit false

namespace HeaderRename

variable (disk : Disk)

namespace Listing

/-- Whether the command takes a name for one that the pattern matches. -/
def accepts (pattern name : String) : Bool :=
  (Shell.expr (Utf8.write pattern.toList)).accepts (Utf8.write name.toList)

variable (roots : List String) (pattern : String)

/-- The state after a listing that has printed these paths. -/
def State.print (state : State) (paths : List String) : State :=
  { state with printed := state.printed ++ paths }

theorem State.print_print (state : State) (paths paths' : List String) :
    (state.print paths).print paths' = state.print (paths ++ paths') := by
  rw [print, print, print, List.append_assoc]

@[simp] theorem State.quit_print (state : State) (paths : List String) :
    (state.print paths).quit = state.quit := rfl

/-- The paths printed for these entries. -/
def printedOf (nodes : List Node) : List String :=
  (nodes.filter fun node => accepts pattern node.name).map (·.path)

theorem printedOf_append (nodes nodes' : List Node) :
    printedOf pattern (nodes ++ nodes') = printedOf pattern nodes ++ printedOf pattern nodes' := by
  rw [printedOf, List.filter_append, List.map_append, printedOf, printedOf]

theorem visit_nameQuery (path name : String) (isFile : Bool) (directory : Option Place) {state : State}
    (hQuit : state.quit = false) :
    visit (nameQuery false roots pattern) ⟨path, name, directory⟩ state =
      (state.print (printedOf pattern [⟨path, name, isFile⟩]), false) := by
  have hEffect : (nameQuery false roots pattern).expr.eval ⟨path, name, directory⟩ state.disk =
      .truth state.disk (accepts pattern name) := rfl
  have hPrinted : printedOf pattern [⟨path, name, isFile⟩] =
      if accepts pattern name then [path] else [] := by
    cases hName : accepts pattern name <;> simp [printedOf, hName]
  rw [visit, hEffect, hPrinted, State.print, ← hQuit]
  simp [nameQuery, Effect.truth, Expr.acts, Expr.any, hQuit]

mutual

theorem list_nameQuery : (directory : Option Place) → (place : Place) → (view : View) →
    view.Unbroken → (state : State) → state.quit = false →
      list (nameQuery false roots pattern) directory place state view =
        state.print (printedOf pattern view.nodes)
  | directory, _, .leaf path name isFile, _, state, hQuit => by
    rw [list, hQuit, if_neg Bool.false_ne_true,
      visit_nameQuery roots pattern path name isFile directory hQuit, View.nodes]
  | _, _, .broken .., h, _, _ => by cases h
  | directory, place, .folder path name children, .folder _ _ _ h, state, hQuit => by
    rw [list, hQuit, if_neg Bool.false_ne_true,
      visit_nameQuery roots pattern path name false directory hQuit]
    have hBelow := listAll_nameQuery place children h
      (state.print (printedOf pattern [⟨path, name, false⟩])) (by rw [State.quit_print, hQuit])
    rw [State.print_print, ← printedOf_append, List.singleton_append] at hBelow
    exact hBelow

theorem listAll_nameQuery (place : Place) : (views : List View) →
    (∀ view ∈ views, view.Unbroken) → (state : State) → state.quit = false →
      listAll (nameQuery false roots pattern) place state views =
        state.print (printedOf pattern (View.nodesOf views))
  | [], _, state, _ => by
    rw [listAll, View.nodesOf, printedOf, List.filter_nil, List.map_nil, State.print,
      List.append_nil]
  | view :: views, h, state, hQuit => by
    rw [List.forall_mem_cons] at h
    rw [listAll, list_nameQuery (some place) (place ++ [view.name]) view h.1 state hQuit,
      listAll_nameQuery place views h.2 _ (by rw [State.quit_print, hQuit]), State.print_print,
      View.nodesOf, printedOf_append]

end

/-- What is printed for a root: itself, if its last name matches, and then what is below it. -/
def printedBelow (root : String) : List String :=
  (if accepts pattern (baseName root) then [root] else []) ++
    printedOf pattern (disk.nodesBelow root)

theorem mem_printedBelow_iff (root path : String) : path ∈ printedBelow disk pattern root ↔
    (path = root ∧ accepts pattern (baseName root) = true) ∨
      ∃ node ∈ disk.nodesBelow root, node.path = path ∧ accepts pattern node.name = true := by
  rw [printedBelow, List.mem_append, printedOf, List.mem_map]
  apply or_congr
  · cases accepts pattern (baseName root) <;> simp
  · simp only [List.mem_filter, and_assoc]
    exact exists_congr fun node => and_congr_right fun _ => and_comm

theorem start_nameQuery {root : String} {place : Place} {state : State}
    (hDisk : state.disk = disk) (hRoot : disk.lstat root = .ok (.directory place))
    (hQuit : state.quit = false) : start (nameQuery false roots pattern) state root =
      state.print (printedBelow disk pattern root) := by
  have hView : startView? disk .never root =
      some (place, .folder root (baseName root) (View.ofRoot disk false root place).children) := by
    rw [startView?, if_pos rfl, hRoot, ← View.ofEntry_eq_folder]
    rfl
  have hUnbroken := View.Unbroken.folder root (baseName root) _
    (View.unbroken_of_mem_children disk root place)
  have hLinks : (nameQuery false roots pattern).mode.links = .never := rfl
  rw [start, hQuit, if_neg Bool.false_ne_true, hDisk, hLinks, hView]
  dsimp only
  rw [list_nameQuery roots pattern none place _ hUnbroken state hQuit, View.nodes, printedBelow,
    Disk.nodesBelow_eq (disk.stat_eq_directory_of_lstat hRoot), ← List.singleton_append,
    printedOf_append]
  cases hName : accepts pattern (baseName root) <;> simp [printedOf, hName]

theorem foldl_start_nameQuery (starts : List String)
    (hRoots : ∀ root ∈ starts, ∃ place, disk.lstat root = .ok (.directory place)) (state : State)
    (hDisk : state.disk = disk) (hQuit : state.quit = false) :
    starts.foldl (start (nameQuery false roots pattern)) state =
      state.print (starts.flatMap (printedBelow disk pattern)) := by
  induction starts generalizing state with
  | nil => rw [List.foldl_nil, List.flatMap_nil, State.print, List.append_nil]
  | cons root starts ih =>
    obtain ⟨⟨place, hRoot⟩, hRest⟩ := List.forall_mem_cons.mp hRoots
    rw [List.foldl_cons, start_nameQuery disk roots pattern hDisk hRoot hQuit,
      ih hRest (state.print _) hDisk (by rw [State.quit_print, hQuit]), State.print_print,
      List.flatMap_cons]

theorem run_nameQuery {roots : List String}
    (hRoots : ∀ root ∈ roots, ∃ place, disk.lstat root = .ok (.directory place)) :
    (nameQuery false roots pattern).run disk =
      ⟨disk, 0, output (roots.flatMap (printedBelow disk pattern))⟩ := by
  have hStarts := foldl_start_nameQuery disk roots pattern roots hRoots ⟨disk, [], false, false⟩
    rfl rfl
  rw [Query.run, show (nameQuery false roots pattern).starts = roots from rfl, hStarts]
  rfl

end Listing

namespace Search

/-- The search with the default options. -/
def ofBackend (roots : List String) (pattern : String) (finder : Finder) (backend : Backend) :
    Search where
  roots := roots
  pattern := pattern
  backend := backend
  options := Config.default.walkOptions
  command := some finder

/-- Both backends read the roots as directories to enter; what is below the roots has paths that make
lines, and names of which the pattern means the same to both. -/
structure Alike (disk : Disk) (roots : List String) (pattern : String) (expr : Glob.NameExpr) :
    Prop where
  roots_ne_nil : roots ≠ []
  compile_eq : Glob.compile pattern = .ok expr
  plain : ∀ root ∈ roots,
    Listing.looksLikeExpression true root = false ∧ Walk.isDash root = false
  entered : ∀ root ∈ roots, ∃ place, disk.lstat root = .ok (.directory place)
  isLine_root : ∀ root ∈ roots, Listing.IsLine root
  isLine_below : ∀ root ∈ roots, ∀ node ∈ disk.nodesBelow root, Listing.IsLine node.path
  accepts_eq : ∀ root ∈ roots, ∀ node ∈ disk.nodesBelow root,
    expr.accepts node.name.toList = Listing.accepts pattern node.name

namespace Alike

variable {disk} {roots : List String} {pattern : String} {expr : Glob.NameExpr}
  (h : Alike disk roots pattern expr)

include h

theorem stat_root : ∀ root ∈ roots, ∃ place, disk.stat root = .ok (.directory place) := by
  intro root hRoot
  obtain ⟨place, hLeads⟩ := h.entered root hRoot
  exact ⟨place, disk.stat_eq_directory_of_lstat hLeads⟩

theorem isFile_of_mem_nodesBelow {root : String} (hRoot : root ∈ roots) {node : Node}
    (hNode : node ∈ disk.nodesBelow root) : node.isFile = disk.isFile node.path := by
  obtain ⟨place, hStat⟩ := h.stat_root root hRoot
  exact Disk.isFile_of_mem_nodesBelow hStat hNode

theorem isLine_of_mem_printed {path : String}
    (hPath : path ∈ roots.flatMap (Listing.printedBelow disk pattern)) : Listing.IsLine path := by
  obtain ⟨root, hRoot, hPath⟩ := List.mem_flatMap.mp hPath
  rcases List.mem_append.mp hPath with hSelf | hBelow
  · split at hSelf
    · obtain rfl := List.mem_singleton.mp hSelf
      exact h.isLine_root path hRoot
    · cases hSelf
  · obtain ⟨node, hNode, rfl⟩ := List.mem_map.mp hBelow
    exact h.isLine_below root hRoot node (List.mem_filter.mp hNode).1

theorem listedBelow_eq_filter {root : String} (hRoot : root ∈ roots) :
    Walk.listedBelow disk (fun name => expr.accepts name.toList) root =
      (Listing.printedBelow disk pattern root).filter disk.isFile := by
  obtain ⟨place, hStat⟩ := h.stat_root root hRoot
  have hSelf : (if Listing.accepts pattern (Listing.baseName root) then [root] else []).filter
      disk.isFile = [] := by
    have hFile : disk.isFile root = false := by rw [Disk.isFile, hStat]
    split <;> simp [hFile]
  rw [Listing.printedBelow, List.filter_append, hSelf, List.nil_append, Listing.printedOf,
    List.filter_map, List.filter_filter, Walk.listedBelow]
  congr 1
  apply List.filter_congr
  intro node hNode
  rw [h.accepts_eq root hRoot node hNode, h.isFile_of_mem_nodesBelow hRoot hNode,
    Function.comp_apply]

theorem result_run_walk (finder : Finder) :
    ((ofBackend roots pattern finder .walk).run disk).result =
      .ok ((roots.flatMap (Listing.printedBelow disk pattern)).filter disk.isFile) := by
  have hEntered : ∀ root ∈ roots, Walk.isDash root = false ∧
      ∃ place, disk.stat root = .ok (.directory place) := fun root hRoot =>
    ⟨(h.plain root hRoot).2, h.stat_root root hRoot⟩
  rw [result_run_of_walk disk (ofBackend roots pattern finder .walk) rfl rfl h.roots_ne_nil hEntered
    h.compile_eq, List.filter_flatMap]
  exact congrArg _ (List.flatMap_congr fun root hRoot => h.listedBelow_eq_filter hRoot)

theorem result_run_find (finder : Finder) :
    ((ofBackend roots pattern finder .find).run disk).result =
      .ok (roots.flatMap (Listing.printedBelow disk pattern)) := by
  have hNe : roots.isEmpty = false := by simpa using h.roots_ne_nil
  have hRun : finder.run disk (Listing.arguments false roots pattern) =
      ⟨disk, 0, Listing.output (roots.flatMap (Listing.printedBelow disk pattern))⟩ := by
    rw [finder.run_arguments disk false pattern h.roots_ne_nil fun root hRoot => (h.plain root hRoot).1,
      Listing.run_nameQuery disk pattern h.entered]
  have hRead := Listing.parseOutput_output _ fun path hPath => h.isLine_of_mem_printed hPath
  have hFollow : Config.default.walkOptions.followLinks = false := rfl
  simp only [run, ofBackend, hNe, if_neg Bool.false_ne_true, rootFault?_eq_none disk h.stat_root,
    list, hFollow, hRun, hRead, if_pos]

end Alike

/-- From roots that are paths from the working directory the command finds every root and every entry
below one whose name matches; the walk finds the files among them. So both find the same just where
no directory and no link that leads to no file has a name that matches. -/
theorem exists_walked_found (disk : Disk) (roots : List String) (pattern : String)
    (finder : Finder) (expr : Glob.NameExpr) (h : Alike disk roots pattern expr) :
    ∃ walked found,
      ((ofBackend roots pattern finder .walk).run disk).result = .ok walked ∧
      ((ofBackend roots pattern finder .find).run disk).result = .ok found ∧
      (∀ path, path ∈ found ↔ ∃ root ∈ roots,
        (path = root ∧ Listing.accepts pattern (Listing.baseName root) = true) ∨
          ∃ node ∈ disk.nodesBelow root,
            node.path = path ∧ Listing.accepts pattern node.name = true) ∧
      (∀ path, path ∈ walked ↔ path ∈ found ∧ disk.isFile path = true) ∧
      ((∀ path, path ∈ walked ↔ path ∈ found) ↔ ∀ path ∈ found, disk.isFile path = true) := by
  refine ⟨_, _, h.result_run_walk finder, h.result_run_find finder, ?_, ?_, ?_⟩
  · simp only [List.mem_flatMap, Listing.mem_printedBelow_iff, implies_true]
  · intro path
    exact List.mem_filter
  · simp only [List.mem_filter, and_iff_left_iff_imp]

def strictFinder : Finder :=
  ⟨"find", Listing.refuse⟩

def sourceFolder : Disk where
  entries :=
    [(["lib"], .directory), (["lib", "d.c"], .directory), (["lib", "d.c", "a.c"], .file [])]
  nodup := by decide
  valid := by decide

theorem nodesBelow_sourceFolder : sourceFolder.nodesBelow "lib" =
    [⟨"lib/d.c", "d.c", false⟩, ⟨"lib/d.c/a.c", "a.c", true⟩] := by
  have hLib : sourceFolder.stat "lib" = .ok (.directory ["lib"]) := by decide +kernel
  have hOuter : sourceFolder.children ["lib"] = [("d.c", .directory)] := List.mergeSort_singleton _
  have hInner : sourceFolder.children (["lib"] ++ ["d.c"]) = [("a.c", .file [])] :=
    List.mergeSort_singleton _
  have hLimit : View.depthLimit sourceFolder = 48 + 1 + 1 := rfl
  rw [Disk.nodesBelow_eq hLib, View.ofRoot, hLimit]
  simp only [View.ofEntry, hOuter, hInner, List.map_cons, List.map_nil, View.children]
  decide +kernel

theorem alike_sourceFolder (expr : Glob.NameExpr) (h : Glob.compile "*.c" = .ok expr) :
    Alike sourceFolder ["lib"] "*.c" expr := by
  have hLib : sourceFolder.lstat "lib" = .ok (.directory ["lib"]) := by decide +kernel
  have hBelow : ∀ node ∈ [⟨"lib/d.c", "d.c", false⟩, ⟨"lib/d.c/a.c", "a.c", true⟩],
      Listing.IsLine (Node.path node) ∧
        (Glob.compile "*.c").toOption.any (·.accepts node.name.toList) =
          Listing.accepts "*.c" node.name := by
    decide +kernel
  rw [← nodesBelow_sourceFolder, h] at hBelow
  exact
    { roots_ne_nil := by decide
      compile_eq := h
      plain := by decide
      entered := by simpa using ⟨_, hLib⟩
      isLine_root := by decide
      isLine_below := List.forall_mem_singleton.mpr fun node hNode => (hBelow node hNode).1
      accepts_eq := List.forall_mem_singleton.mpr fun node hNode => (hBelow node hNode).2 }

theorem exists_compile_sources : ∃ expr, Glob.compile "*.c" = .ok expr := by
  have hSome : (Glob.compile "*.c").toBool = true := by decide +kernel
  cases hCompile : Glob.compile "*.c" with
  | error fault => rw [hCompile] at hSome; cases hSome
  | ok expr => exact ⟨expr, rfl⟩

theorem accepts_of_compile_sources {expr : Glob.NameExpr} (h : Glob.compile "*.c" = .ok expr) :
    ∀ name ∈ ["a.c", "x.c"], expr.accepts name.toList = true := by
  have hNames : ∀ name ∈ ["a.c", "x.c"],
      (Glob.compile "*.c").toOption.any (·.accepts name.toList) = true := by
    decide +kernel
  rwa [h] at hNames

theorem exists_walked_found_sourceFolder :
    ∃ expr walked found, Alike sourceFolder ["lib"] "*.c" expr ∧
      ((ofBackend ["lib"] "*.c" strictFinder .walk).run sourceFolder).result = .ok walked ∧
      ((ofBackend ["lib"] "*.c" strictFinder .find).run sourceFolder).result = .ok found ∧
      "lib/d.c/a.c" ∈ walked ∧ "lib/d.c/a.c" ∈ found ∧ "lib/d.c" ∈ found ∧ "lib/d.c" ∉ walked := by
  obtain ⟨expr, hCompile⟩ := exists_compile_sources
  have hAlike := alike_sourceFolder expr hCompile
  obtain ⟨walked, found, hWalk, hFind, hFound, hWalked, _⟩ :=
    exists_walked_found sourceFolder ["lib"] "*.c" strictFinder expr hAlike
  have hFolder : "lib/d.c" ∈ found := by
    refine (hFound _).mpr ⟨"lib", by simp, .inr ⟨⟨"lib/d.c", "d.c", false⟩, ?_, rfl, ?_⟩⟩
    · rw [nodesBelow_sourceFolder]
      simp
    · decide +kernel
  have hFile : "lib/d.c/a.c" ∈ found := by
    refine (hFound _).mpr ⟨"lib", by simp, .inr ⟨⟨"lib/d.c/a.c", "a.c", true⟩, ?_, rfl, ?_⟩⟩
    · rw [nodesBelow_sourceFolder]
      simp
    · decide +kernel
  refine ⟨expr, walked, found, hAlike, hWalk, hFind, (hWalked _).mpr ⟨hFile, ?_⟩, hFile, hFolder, ?_⟩
  · decide +kernel
  · rw [hWalked]
    exact fun h => absurd h.2 (by decide +kernel)

/-- The directory is found by the command alone. -/
theorem walked_ne_found_sourceFolder :
    ((ofBackend ["lib"] "*.c" strictFinder .walk).run sourceFolder).result = .ok ["lib/d.c/a.c"] ∧
      ((ofBackend ["lib"] "*.c" strictFinder .find).run sourceFolder).result =
        .ok ["lib/d.c", "lib/d.c/a.c"] ∧
      ¬∀ path, path ∈ ["lib/d.c/a.c"] ↔ path ∈ ["lib/d.c", "lib/d.c/a.c"] := by
  obtain ⟨expr, hCompile⟩ := exists_compile_sources
  have hAlike := alike_sourceFolder expr hCompile
  have hPrinted : ["lib"].flatMap (Listing.printedBelow sourceFolder "*.c") =
      ["lib/d.c", "lib/d.c/a.c"] := by
    simp only [List.flatMap_singleton, Listing.printedBelow, nodesBelow_sourceFolder]
    decide +kernel
  refine ⟨?_, ?_, fun hSame => absurd ((hSame "lib/d.c").mpr (by decide)) (by decide)⟩
  · rw [hAlike.result_run_walk, hPrinted]
    decide +kernel
  · rw [hAlike.result_run_find, hPrinted]

end Search

end HeaderRename

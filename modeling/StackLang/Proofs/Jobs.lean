import StackLang.Proofs.FileTrees
import StackLang.Proofs.OutputNames
import StackLang.Proofs.Scanning

/-!
# Jobs on a file tree

A job does five things in a fixed order: it derives the name of its output, reads its input, runs the program,
creates the output folder and writes the output. Nothing but the last two changes the tree, so a job whose program
fails leaves it as it was. A job that succeeds has written its output and has created missing folders on the way to
the output folder. The input is not touched, because the name of an output is never that of an input.
-/

namespace StackLang

/-! ## Where names lead -/

namespace FileTree

variable {tree : FileTree} {location : Location}

end FileTree

namespace Job

section

variable {α β : Type} {tree tree' : FileTree}

/-- A step that succeeds hands its result and its tree on. -/
theorem run_bind_of_ok {x : ExceptT JobError (StateM FileTree) α} {f : α → ExceptT JobError (StateM FileTree) β}
    {a : α} (h : x.run.run tree = (.ok a, tree')) : (x >>= f).run.run tree = (f a).run.run tree' := by
  change (ExceptT.bindCont f (x.run.run tree).1).run (x.run.run tree).2 = _
  rw [h]
  rfl

/-- A step that fails ends the job. -/
theorem run_bind_of_error {x : ExceptT JobError (StateM FileTree) α} {f : α → ExceptT JobError (StateM FileTree) β}
    {e : JobError} (h : x.run.run tree = (.error e, tree')) : (x >>= f).run.run tree = (.error e, tree') := by
  change (ExceptT.bindCont f (x.run.run tree).1).run (x.run.run tree).2 = _
  rw [h]
  rfl

/-- The fault of an access is reported with the path that was accessed. -/
theorem run_access (path : PathName) {outcome : StateM FileTree (Except FileFault α)} {result : Except FileFault α}
    (h : outcome.run tree = (result, tree')) :
    (access path outcome).run.run tree = (result.mapError (JobError.inaccessible path), tree') := by
  rw [access, ExceptT.run_mk, StateT.run_bind, h]
  cases result <;> rfl

end

/-- The outcome of a job on a file tree, and the tree after it. -/
def runOn (library : SearchLibrary) (limits : Limits) (input folder : PathName) (tree : FileTree) :
    Except JobError PathName × FileTree :=
  (run library FileTree.store limits input folder).run.run tree

section

variable {library : SearchLibrary} {limits : Limits} {input folder path : PathName} {source : String}
  {lines : List String} {tree tree' : FileTree}

/-- A job whose input has no number does nothing. -/
theorem runOn_of_outputPath {e : JobError} (h : outputPath library input folder = .error e) :
    runOn library limits input folder tree = (.error e, tree) := by
  have hname :
      (ExceptT.mk (pure (outputPath library input folder)) : ExceptT JobError (StateM FileTree) PathName).run.run tree =
        (.error e, tree) := by
    rw [h]
    rfl
  exact run_bind_of_error hname

/-- A job goes on with reading its input. -/
theorem runOn_of_outputPath_ok (h : outputPath library input folder = .ok path) :
    runOn library limits input folder tree =
      (do
        let lines ← outputOf FileTree.store limits input
        access folder (FileTree.store.createFolders folder)
        access path (FileTree.store.writeText path (Text.unlines lines))
        return path : ExceptT JobError (StateM FileTree) PathName).run.run tree := by
  have hname :
      (ExceptT.mk (pure (outputPath library input folder)) : ExceptT JobError (StateM FileTree) PathName).run.run tree =
        (.ok path, tree) := by
    rw [h]
    rfl
  exact run_bind_of_ok hname

/-- A program that cannot be read fails with the fault of its file. -/
theorem run_outputOf_of_fault {fault : FileFault} (h : tree.readText input = .error fault) :
    (outputOf FileTree.store limits input).run.run tree = (.error (.inaccessible input fault), tree) := by
  have hread : (FileTree.store.readText input).run tree = (.error fault, tree) := congrArg (·, tree) h
  exact run_bind_of_error (run_access input hread)

/-- A program that can be read has its own outcome. -/
theorem run_outputOf_of_ok (h : tree.readText input = .ok source) :
    (outputOf FileTree.store limits input).run.run tree =
      ((Program.output limits source).mapError .program, tree) := by
  have hread : (FileTree.store.readText input).run tree = (.ok source, tree) := congrArg (·, tree) h
  refine (run_bind_of_ok (run_access input hread)).trans ?_
  cases Program.output limits source <;> rfl

/-- A job whose input cannot be read reports this and leaves the tree as it is. -/
theorem runOn_of_fault {fault : FileFault} (hpath : outputPath library input folder = .ok path)
    (hread : tree.readText input = .error fault) :
    runOn library limits input folder tree = (.error (.inaccessible input fault), tree) := by
  rw [runOn_of_outputPath_ok hpath]
  exact run_bind_of_error (run_outputOf_of_fault hread)

/-- A job whose program fails reports the failure and leaves the tree as it is. -/
theorem runOn_of_failure {e : ProgramError} (hpath : outputPath library input folder = .ok path)
    (hread : tree.readText input = .ok source) (houtput : Program.output limits source = .error e) :
    runOn library limits input folder tree = (.error (.program e), tree) := by
  have hrun : (outputOf FileTree.store limits input).run.run tree = _ := run_outputOf_of_ok hread
  rw [houtput] at hrun
  rw [runOn_of_outputPath_ok hpath]
  exact run_bind_of_error hrun

/-- A text that cannot be written leaves the tree as it is. -/
theorem run_writeText (path : PathName) (text : String) (tree : FileTree) :
    (FileTree.store.writeText path text).run tree =
      match tree.writeText path text with
      | .ok written => (.ok (), written)
      | .error fault => (.error fault, tree) := by
  simp only [FileTree.store, StateT.run_bind, StateT.run_get, pure_bind]
  cases tree.writeText path text <;> rfl

/-- A job whose program has run creates the output folder and then writes the output. -/
theorem runOn_of_output (hpath : outputPath library input folder = .ok path) (hread : tree.readText input = .ok source)
    (houtput : Program.output limits source = .ok lines) :
    runOn library limits input folder tree =
      match tree.createFolders folder with
      | (.error fault, grown) => (.error (.inaccessible folder fault), grown)
      | (.ok _, grown) =>
        match grown.writeText path (Text.unlines lines) with
        | .error fault => (.error (.inaccessible path fault), grown)
        | .ok written => (.ok path, written) := by
  have hrun : (outputOf FileTree.store limits input).run.run tree = _ := run_outputOf_of_ok hread
  rw [houtput] at hrun
  rw [runOn_of_outputPath_ok hpath, run_bind_of_ok hrun]
  have hcreate : (FileTree.store.createFolders folder).run tree = tree.createFolders folder := rfl
  cases hgrown : tree.createFolders folder with
  | mk created grown =>
    have haccess := run_access folder (hcreate.trans hgrown)
    cases created with
    | error fault => exact run_bind_of_error haccess
    | ok _ =>
      have hwrite := run_writeText path (Text.unlines lines) grown
      rw [run_bind_of_ok haccess]
      cases hwritten : grown.writeText path (Text.unlines lines) with
      | error fault =>
        simp only [hwritten] at hwrite ⊢
        exact run_bind_of_error (run_access path hwrite)
      | ok written =>
        simp only [hwritten] at hwrite ⊢
        exact run_bind_of_ok (run_access path hwrite)

/-- A job that succeeds has taken all of its steps. -/
theorem exists_of_runOn_eq_ok (h : runOn library limits input folder tree = (.ok path, tree')) :
    ∃ source lines grown, outputPath library input folder = .ok path ∧ tree.readText input = .ok source ∧
      Program.output limits source = .ok lines ∧ tree.createFolders folder = (.ok (), grown) ∧
      grown.writeText path (Text.unlines lines) = .ok tree' := by
  cases hpath : outputPath library input folder with
  | error e =>
    rw [runOn_of_outputPath hpath] at h
    cases h
  | ok path' =>
    cases hread : tree.readText input with
    | error fault =>
      rw [runOn_of_fault hpath hread] at h
      cases h
    | ok source =>
      cases houtput : Program.output limits source with
      | error e =>
        rw [runOn_of_failure hpath hread houtput] at h
        cases h
      | ok lines =>
        rw [runOn_of_output hpath hread houtput] at h
        cases hgrown : tree.createFolders folder with
        | mk created grown =>
          rw [hgrown] at h
          cases created with
          | error fault => cases h
          | ok _ =>
            cases hwritten : grown.writeText path' (Text.unlines lines) with
            | error fault =>
              simp only [hwritten] at h
              cases h
            | ok written =>
              simp only [hwritten] at h
              cases h
              exact ⟨source, lines, grown, rfl, rfl, houtput, rfl, hwritten⟩

/-- A job in a tree that holds nothing but its input creates the output folder, and succeeds if its program does. -/
theorem exists_runOn_only_input (h : Program.output limits source = .ok lines) :
    let input := PathName.ofText "input-001.txt"
    let tree := FileTree.insert .empty [input] (.file source.toUTF8)
    tree.readText input = .ok source ∧
      ∃ tree', runOn .standard limits input (PathName.ofText "out") tree =
        (.ok (PathName.ofText "out/output-001.txt"), tree') := by
  intro input tree
  generalize htree : tree = tree₀
  have hpath : outputPath .standard input (PathName.ofText "out") = .ok (PathName.ofText "out/output-001.txt") := by
    have hnumber : number? .standard input = some ['0', '0', '1'] := by
      rw [number?_ofText]
      rfl
    exact outputPath_eq_ok_iff.mpr ⟨input, _, rfl, hnumber, rfl⟩
  have hinput : tree₀.locate input = .ok [input] := by subst htree; rfl
  have hentry : tree₀.find? [input] = some (.file source.toUTF8) := by subst htree; rfl
  have hread : tree₀.readText input = .ok source :=
    FileTree.readText_eq_ok_iff.mpr ⟨_, hinput, _, hentry, dif_pos source.isValidUTF8⟩
  have hcreate : tree₀.createFolders (PathName.ofText "out") =
      (.ok (), tree₀.insert [PathName.ofText "out"] .folder) := by
    have hfolder : tree₀.createFolder [PathName.ofText "out"] = .ok (tree₀.insert [PathName.ofText "out"] .folder) := by
      subst htree
      rfl
    change tree₀.createSteps [PathName.ofText "out"] = _
    rw [FileTree.createSteps, dif_neg (List.cons_ne_nil _ _), hfolder]
    rfl
  obtain ⟨written, hwrite⟩ : ∃ written, (tree₀.insert [PathName.ofText "out"] .folder).writeText
      (PathName.ofText "out/output-001.txt") (Text.unlines lines) = .ok written := by
    subst htree
    exact ⟨_, rfl⟩
  refine ⟨hread, written, ?_⟩
  rw [runOn_of_output hpath hread h, hcreate]
  simp only [hwrite]

end

end Job

end StackLang

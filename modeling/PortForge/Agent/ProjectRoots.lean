/-
# The root of a project

The manifest of a command is the one named on its command line, or the nearest one at
or above the working directory. The root of the project is found by a search of its
own, which looks into the working directory alone and falls back on it. The two agree
where the manifest is named or lies in the working directory.
-/

import PortForge.Agent.Manifest
import PortForge.Effects.Exceptions
import PortForge.Python.Paths

namespace Agent

open Python PurePath Effects

/-! ## Finding the manifest -/

/-- `MANIFEST_FILENAMES`. -/
def manifestFilenames : List String := ["portforge.yml", "portforge.yaml"]

/-- The files a command finds. Reading a manifest as YAML is left to `readYaml`. -/
structure DirectoryTree where
  /-- The working directory, which the operating system gives without links. -/
  cwd : PurePath
  isFile : PurePath → Bool
  /-- `parse_manifest_yaml(load_manifest_text(path))`. -/
  readYaml : PurePath → Validation (List (Scalar × Value))

namespace DirectoryTree

variable (tree : DirectoryTree)

/-- The first manifest file of a directory. -/
def manifestIn (directory : PurePath) : Option PurePath :=
  (manifestFilenames.map directory.child).find? tree.isFile

/-- `discover_manifest_path`, from the working directory. -/
def discoverManifestPath (walkUp : Bool) : Option PurePath :=
  (if walkUp then tree.cwd :: tree.cwd.parents else [tree.cwd]).findSome? tree.manifestIn

/-- The file that `load_and_validate_manifest` reads. -/
def manifestFile (path : Option PurePath) : Validation PurePath :=
  match path with
  | none =>
      match tree.discoverManifestPath true with
      | some discovered => .ok discovered
      | none =>
          refuse "MANIFEST_NOT_FOUND"
            (plain ("No manifest given and none of ('portforge.yml', 'portforge.yaml') found in " ++
              "the current directory.")) []
  | some path =>
      if tree.isFile path then .ok path
      else refuse "MANIFEST_NOT_FOUND" (plain s!"Manifest file not found: {path.text}") []

/-- `load_and_validate_manifest`. -/
def loadAndValidateManifest (path : Option PurePath) : Validation ProjectManifest := do
  let file ← tree.manifestFile path
  let data ← tree.readYaml file
  validateManifest data

end DirectoryTree

/-! ## The commands -/

/-- The arguments that decide about the manifest and the root. -/
structure ProjectArguments where
  manifest : Option String
  projectRoot : Option String

/-- A path from the command line. An empty text counts as none. -/
def pathArgument (text : Option String) : Option PurePath :=
  (text.filter fun text => text ≠ "").map PurePath.ofText

/-- `_project_manifest_path`. -/
def projectManifestPath (args : ProjectArguments) : Option PurePath := pathArgument args.manifest

/-- `_workflow_project_root`. -/
def workflowProjectRoot (tree : DirectoryTree) (args : ProjectArguments) : PurePath :=
  match pathArgument args.projectRoot with
  | some root => root
  | none =>
      match projectManifestPath args <|> tree.discoverManifestPath false with
      | some path => path.parent
      | none => tree.cwd

/-- `_resolve_project_root`. -/
def resolveProjectRoot (tree : DirectoryTree) (args : ProjectArguments)
    (manifestPath : Option PurePath) : PurePath :=
  match pathArgument args.projectRoot with
  | some root => root
  | none =>
      match manifestPath with
      | some path => path.parent
      | none => tree.cwd

/-- The root that `_load_manifest_host_and_allocation` finds. -/
def configProjectRoot (tree : DirectoryTree) (args : ProjectArguments) : PurePath :=
  resolveProjectRoot tree args
    (match projectManifestPath args with
      | some path => some path
      | none => tree.discoverManifestPath false)

/-- The commands that load a manifest and then work below a root. -/
inductive ProjectCommand
  | workflowApply
  | projectProvision
  | configPlan
  | configApply
  deriving DecidableEq, Repr

/-- The root a command uses. -/
def ProjectCommand.root (tree : DirectoryTree) (args : ProjectArguments) :
    ProjectCommand → PurePath
  | workflowApply => workflowProjectRoot tree args
  | projectProvision => workflowProjectRoot tree args
  | configPlan => configProjectRoot tree args
  | configApply => configProjectRoot tree args

/-! ## Agreement -/

section Discovery

variable {tree : DirectoryTree} {directory file : PurePath}

/-- A manifest file lies in the directory it was found in. -/
theorem parent_of_manifestIn (h : tree.manifestIn directory = some file) :
    file.parent = directory := by
  obtain ⟨name, -, rfl⟩ := List.mem_map.mp (List.mem_of_find?_eq_some h)
  exact parent_child directory name

theorem manifestIn_ne_none_iff :
    tree.manifestIn directory ≠ none ↔
      ∃ name ∈ manifestFilenames, tree.isFile (directory.child name) = true := by
  rw [DirectoryTree.manifestIn, Ne, List.find?_eq_none]
  simp only [List.mem_map, forall_exists_index, and_imp, forall_apply_eq_imp_iff₂, not_forall,
    not_not, exists_prop]

theorem discoverManifestPath_false :
    tree.discoverManifestPath false = tree.manifestIn tree.cwd := by
  simp [DirectoryTree.discoverManifestPath]

/-- The working directory comes first. -/
theorem discoverManifestPath_true :
    tree.discoverManifestPath true =
      (tree.manifestIn tree.cwd).or (tree.cwd.parents.findSome? tree.manifestIn) := by
  rw [DirectoryTree.discoverManifestPath, if_pos rfl, List.findSome?_cons]
  cases tree.manifestIn tree.cwd <;> rfl

/-- Where the working directory has no manifest, the one found lies elsewhere. -/
theorem parent_ne_cwd (hnone : tree.manifestIn tree.cwd = none)
    (h : tree.discoverManifestPath true = some file) : tree.cwd ≠ file.parent := by
  rw [discoverManifestPath_true, hnone, Option.none_or] at h
  obtain ⟨above, habove, hfile⟩ := List.exists_of_findSome?_eq_some h
  rw [parent_of_manifestIn hfile]
  exact (ne_of_mem_parents habove).symm

end Discovery

/-- Both searches for the root are the same. -/
theorem ProjectCommand.root_eq (tree : DirectoryTree) {args : ProjectArguments}
    (hroot : pathArgument args.projectRoot = none) (command : ProjectCommand) :
    command.root tree args =
      ((projectManifestPath args <|> tree.manifestIn tree.cwd).map parent).getD tree.cwd := by
  cases command <;>
    simp only [ProjectCommand.root, workflowProjectRoot, configProjectRoot, resolveProjectRoot,
      hroot, discoverManifestPath_false] <;>
    cases projectManifestPath args <;> cases tree.manifestIn tree.cwd <;> rfl

/-- The manifest is named on the command line, or lies in the working directory. -/
def RootFound (tree : DirectoryTree) (args : ProjectArguments) : Prop :=
  (projectManifestPath args).isSome = true ∨
    ∃ name ∈ manifestFilenames, tree.isFile (tree.cwd.child name) = true

/-- Of a command that has loaded its manifest, without a root on the command line, the
root is the directory of that manifest exactly if the manifest is named or lies in the
working directory. -/
theorem root_eq_parent_iff (tree : DirectoryTree) (args : ProjectArguments)
    (hroot : pathArgument args.projectRoot = none) {manifest : ProjectManifest}
    (hload : tree.loadAndValidateManifest (projectManifestPath args) = .ok manifest) :
    ∃ file, tree.manifestFile (projectManifestPath args) = .ok file ∧
      ∀ command : ProjectCommand,
        command.root tree args = file.parent ↔ RootFound tree args := by
  rw [DirectoryTree.loadAndValidateManifest, bind_eq_ok_iff] at hload
  obtain ⟨file, hfile, -⟩ := hload
  refine ⟨file, hfile, fun command => ?_⟩
  rw [command.root_eq tree hroot, RootFound, ← manifestIn_ne_none_iff]
  unfold DirectoryTree.manifestFile at hfile
  cases hnamed : projectManifestPath args with
  | some path =>
      rw [hnamed] at hfile
      simp only at hfile
      split at hfile
      · cases hfile
        exact iff_of_true rfl (.inl rfl)
      · cases hfile
  | none =>
      rw [hnamed] at hfile
      simp only at hfile
      split at hfile
      · rename_i discovered hdiscovered
        cases hfile
        cases hin : tree.manifestIn tree.cwd with
        | none =>
            refine iff_of_false (parent_ne_cwd hin hdiscovered) ?_
            rintro (hsome | hsome)
            · cases hsome
            · exact hsome rfl
        | some found =>
            rw [discoverManifestPath_true, hin, Option.some_or] at hdiscovered
            cases hdiscovered
            exact iff_of_true rfl (.inr (Option.some_ne_none file))
      · cases hfile

/-- A project in `/work/web` whose manifest asks for one port. -/
def webTree (cwd : PurePath) : DirectoryTree where
  cwd := cwd
  isFile := fun path => path = ⟨"/", ["work", "web", "portforge.yml"]⟩
  readYaml := fun _ => .ok
    [(.str "version", .int 1), (.str "project", .str "web"),
      (.str "ports", .dict [(.str "api", .dict [(.str "purpose", .str "api")])])]

theorem root_eq_parent_iff_web :
    ∃ file, (webTree ⟨"/", ["work", "web"]⟩).manifestFile none = .ok file ∧
      ∀ command : ProjectCommand,
        command.root (webTree ⟨"/", ["work", "web"]⟩) ⟨none, none⟩ = file.parent ↔
          RootFound (webTree ⟨"/", ["work", "web"]⟩) ⟨none, none⟩ :=
  root_eq_parent_iff (webTree ⟨"/", ["work", "web"]⟩) ⟨none, none⟩ rfl rfl

/-- From a directory inside the project the manifest is found, and the root is that
directory. -/
theorem root_differs_below :
    ¬ ∀ (tree : DirectoryTree) (args : ProjectArguments) (manifest : ProjectManifest)
      (file : PurePath) (command : ProjectCommand), pathArgument args.projectRoot = none →
        tree.loadAndValidateManifest (projectManifestPath args) = .ok manifest →
          tree.manifestFile (projectManifestPath args) = .ok file →
            command.root tree args = file.parent := by
  intro hall
  have hloaded : ∃ manifest,
      (webTree ⟨"/", ["work", "web", "src"]⟩).loadAndValidateManifest none = .ok manifest :=
    ⟨_, rfl⟩
  obtain ⟨manifest, hmanifest⟩ := hloaded
  have hroot := hall (webTree ⟨"/", ["work", "web", "src"]⟩) ⟨none, none⟩ manifest
    ⟨"/", ["work", "web", "portforge.yml"]⟩ .configApply rfl hmanifest rfl
  exact absurd hroot (by decide)

end Agent

import VmFleet.Source.Install

/-!
# The commands that change the host

`install`, `scale` and `uninstall` of `commands.rs`, one after another, on the files of one host. Each one
finds what the earlier ones have left, and may fail at any point.
-/

namespace VmFleet

structure HostPaths extends InstallPaths where
  stateDir : String

def HostPaths.forUninstall (paths : HostPaths) : UninstallPaths :=
  ⟨paths.home, paths.configFile, paths.systemdUserDir, paths.stateDir⟩

/-- How `write_config` ends in `scale`. -/
structure ScaleOutcomes where
  createDir : Except String Unit
  write : WriteOutcome

inductive HostCommand where
  | install (opts : InstallOpts) (out : InstallOutcomes)
  | scale (pool : String) (min max : Option UInt32) (out : ScaleOutcomes)
  /-- What the config and the token file hold is read on the host. Files may resist their removal. -/
  | uninstall (opts : UninstallOpts) (out : TeardownOutcomes) (removable : String → Bool)

namespace TeardownStep

/-- A failed removal is ignored. -/
def apply (removable : String → Bool) (files : Files) : TeardownStep → Files
  | .removeFile path => if removable path then Function.update files path none else files
  | .removeDirAll dir => fun p => if Text.startsWith p (dir ++ "/") && removable p then none else files p
  | .run _ | .listRunners _ | .deleteRunner _ _ => files

end TeardownStep

namespace HostCommand

variable (crate : TomlCrate) (paths : HostPaths)

def scaleFiles (files : Files) (pool : String) (min max : Option UInt32) (out : ScaleOutcomes) : Files :=
  match (files paths.configFile).bind fromUtf8 with
  | none => files
  | some text =>
    match scaleFile crate paths.home paths.configFile text pool min max with
    | (.ok _, written) =>
      if out.createDir.isOk then out.write.write paths.configFile (textBytes written) files else files
    | (.error _, _) => files

/-- The outcomes of an uninstall that finds these files. -/
def uninstallOutcomes (files : Files) (out : TeardownOutcomes) : TeardownOutcomes :=
  let config := files.config crate paths.configFile
  { out with
    config := config
    tokenFile := do
      let cfg ← (Config.loadFile paths.home paths.configFile config).toOption
      let bytes ← files cfg.github.tokenFile
      fromUtf8 bytes }

def uninstallFiles (files : Files) (opts : UninstallOpts) (out : TeardownOutcomes) (removable : String → Bool) :
    Files :=
  (Teardown.steps opts paths.forUninstall (uninstallOutcomes crate paths files out)).foldl
    (TeardownStep.apply removable) files

/-- The files after the command. -/
def act (files : Files) : HostCommand → Files
  | .install opts out =>
    (StateT.run (ExceptT.run (Install.install crate opts paths.toInstallPaths out)) ⟨files, []⟩).2.files
  | .scale pool min max out => scaleFiles crate paths files pool min max out
  | .uninstall opts out removable => uninstallFiles crate paths files opts out removable

end HostCommand

end VmFleet

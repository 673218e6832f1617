import VmFleet.Library.Utf8
import VmFleet.Source.SelfUpdate

/-!
# Packaging of a release

The jobs of `release.yml`, from the tag to the files of the draft release. `tar -czf` and SHA-256 are
parameters. In which order `tar` finds the files of a directory is left open. A tag has no backslash and no
control character, so `sha256sum` has nothing to escape.
-/

namespace VmFleet

structure Packers where
  sha256 : Bytes → Bytes
  /-- `tar -czf` of these members. -/
  tar : List TarEntry → Bytes

/-- The filter `v*.*.*`. A star stands for any characters but slashes. -/
def isReleaseTag (ref : String) : Bool :=
  Text.startsWith ref "v" && !ref.toList.contains '/' && decide (2 ≤ ref.toList.count '.')

/-- `${GITHUB_REF_NAME#v}`. -/
def refVersion (ref : String) : String := (Text.stripPrefix ref "v").getD ref

/-- `${tag_version%%-*}`. -/
def tagBase (version : String) : String := Text.firstField '-' version

def matrixTargets : List String :=
  ["x86_64-unknown-linux-gnu", "aarch64-unknown-linux-gnu", "x86_64-unknown-linux-musl",
    "aarch64-unknown-linux-musl"]

/-- A line of `sha256sum`. -/
def sha256sumLine (digest : Bytes) (name : String) : String := hexDigest digest ++ "  " ++ name ++ "\n"

/-- A job of the matrix, with the files of its directory in the order in which `tar` finds them. -/
structure BuildJob where
  target : String
  binary : Bytes
  listing : List (String × Bytes)

namespace BuildJob

variable (packers : Packers) (version : String) (job : BuildJob)

def pkg : String := s!"vmfleet-{version}-{job.target}"

def tarballName : String := job.pkg version ++ ".tar.gz"

def members : List TarEntry :=
  ⟨job.pkg version ++ "/", []⟩ ::
    job.listing.map fun file => ⟨job.pkg version ++ "/" ++ file.1, file.2⟩

def tarball : Bytes := packers.tar (job.members version)

def sumLine : String :=
  sha256sumLine (packers.sha256 (job.tarball packers version)) (job.tarballName version)

/-- What the step `package` leaves in `dist`. -/
def package : List (String × Bytes) :=
  [(job.tarballName version, job.tarball packers version),
    (job.tarballName version ++ ".sha256", Utf8.encode (job.sumLine packers version).toList)]

end BuildJob

/-- A run of `release.yml` in which every job succeeds. -/
structure ReleaseRun where
  ref : String
  cargoVersion : String
  readme : Bytes
  license : Bytes
  jobs : List BuildJob
  tagged : isReleaseTag ref = true
  /-- Cargo accepts no other versions. -/
  numbered : cargoVersion.toList.head?.any Char.isDigit = true
  /-- The step `version matches tag`. -/
  verified : cargoVersion = tagBase (refVersion ref)
  matrix : jobs.map (·.target) = matrixTargets
  packed : ∀ job ∈ jobs,
    job.listing.Perm [("vmfleet", job.binary), ("README.md", readme), ("LICENSE", license)]

namespace ReleaseRun

def version (run : ReleaseRun) : String := refVersion run.ref

/-- The artifacts of all jobs in one directory, from which the draft release is made. -/
def dist (packers : Packers) (run : ReleaseRun) : List (String × Bytes) :=
  run.jobs.flatMap (·.package packers run.version)

end ReleaseRun

end VmFleet

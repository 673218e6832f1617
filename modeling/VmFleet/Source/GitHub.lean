import VmFleet.Source.Config

/-!
# GitHub runner records

The part of `github.rs` the control plane reads: runner records with their labels and status.
-/

namespace VmFleet

structure Label where
  name : String
  deriving DecidableEq

structure Runner where
  id : UInt64
  name : String
  status : String
  busy : Bool := false
  labels : List Label := []
  deriving DecidableEq

def Runner.hasLabel (r : Runner) (l : String) : Bool := r.labels.any (·.name == l)

def Runner.online (r : Runner) : Bool := r.status == "online"

end VmFleet

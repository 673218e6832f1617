import VmFleet.Library.Utf8
import VmFleet.Source.ConfigText

/-!
# The config file while it is rewritten

`write_config` of `commands.rs` beside processes that load the file. `std::fs::write` opens the file, which
empties it, and then writes what it is given in one piece or in several. `std::fs::read_to_string` opens the
file and reads on from where it is until nothing is left. All of them have the same file open.
-/

namespace VmFleet

/-- The bytes as text, where they are UTF-8. -/
def fromUtf8 (bytes : List UInt8) : Option String :=
  if Utf8.encode (Utf8.decode bytes) = bytes then some (Utf8.fromUtf8Lossy bytes) else none

/-- `Config::load` on a file of these bytes. -/
def Config.loadBytes (crate : TomlCrate) (home path : String) (bytes : List UInt8) : Except String Config :=
  match fromUtf8 bytes with
  | some text => Config.loadFile home path (crate.read text)
  | none => Config.loadFile home path .unreadable

namespace ConfigWrite

inductive Writer where
  | before
  /-- The file is open, and this is still to be written. -/
  | writing (rest : List UInt8)
  /-- The writer has crashed, or a write has failed. -/
  | stopped
  deriving DecidableEq

structure Reader where
  /-- What has been read. The next read goes on from there. -/
  got : List UInt8 := []
  /-- A read has found nothing more. -/
  finished : Bool := false
  deriving DecidableEq

structure State where
  content : List UInt8
  writer : Writer
  readers : List Reader
  deriving DecidableEq

inductive Event where
  | truncate
  | write (n : Nat)
  | stop
  | openFile
  | read (i n : Nat)
  | endOfFile (i : Nat)
  deriving DecidableEq

def init (old : List UInt8) : State := ⟨old, .before, []⟩

/-- A step where the text to write is `new`. -/
def step (new : List UInt8) (s : State) : Event → Option State
  | .truncate =>
    if s.writer = .before then some { s with content := [], writer := .writing new } else none
  | .write n =>
    match s.writer with
    | .writing rest =>
      if 0 < n ∧ n ≤ rest.length then
        some { s with content := s.content ++ rest.take n, writer := .writing (rest.drop n) }
      else none
    | .before | .stopped => none
  | .stop => some { s with writer := .stopped }
  | .openFile => some { s with readers := s.readers ++ [{}] }
  | .read i n =>
    match s.readers[i]? with
    | some r =>
      if r.finished = false ∧ 0 < n ∧ r.got.length < s.content.length then
        some { s with
          readers := s.readers.set i { r with got := r.got ++ (s.content.drop r.got.length).take n } }
      else none
    | none => none
  | .endOfFile i =>
    match s.readers[i]? with
    | some r =>
      if r.finished = false ∧ s.content.length ≤ r.got.length then
        some { s with readers := s.readers.set i { r with finished := true } }
      else none
    | none => none

end ConfigWrite

end VmFleet

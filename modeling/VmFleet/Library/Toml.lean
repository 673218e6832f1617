import Mathlib.Algebra.Group.Int.Defs
import Mathlib.Algebra.GroupWithZero.Nat
import Mathlib.Data.List.Basic

/-!
# TOML values

The values of a TOML document, how the fields of a record are read from one, and how they are written. A
derived reader takes a record from a table by the names of its fields or from an array by their order, and
ignores what it does not know. What is written is read back.
-/

/-- A TOML value, where `φ` is the type of its floats. -/
inductive Toml (φ : Type) where
  | text (s : String)
  | integer (i : Int64)
  | float (x : φ)
  | boolean (b : Bool)
  | datetime (s : String)
  | array (items : List (Toml φ))
  | table (entries : List (String × Toml φ))

namespace Toml

variable {φ α : Type}

/-! ### Single values -/

def readText : Toml φ → Option String
  | .text s => some s
  | _ => none

def readBool : Toml φ → Option Bool
  | .boolean b => some b
  | _ => none

def readU64 : Toml φ → Option UInt64
  | .integer i => if 0 ≤ i.toInt then some (UInt64.ofNat i.toInt.toNat) else none
  | _ => none

def readU32 : Toml φ → Option UInt32
  | .integer i => if 0 ≤ i.toInt ∧ i.toInt < 2 ^ 32 then some (UInt32.ofNat i.toInt.toNat) else none
  | _ => none

/-- A float, or an integer that is converted to one. -/
def readFloat (ofInteger : Int64 → φ) : Toml φ → Option φ
  | .float x => some x
  | .integer i => some (ofInteger i)
  | _ => none

def readList (read : Toml φ → Option α) : Toml φ → Option (List α)
  | .array items => items.mapM read
  | _ => none

/-- TOML integers are signed, so the larger half of the unsigned ones cannot be written. -/
def writeU64 (x : UInt64) : Option (Toml φ) :=
  if x.toNat < 2 ^ 63 then some (.integer (Int64.ofNat x.toNat)) else none

def writeU32 (x : UInt32) : Toml φ := .integer (Int64.ofNat x.toNat)

def writeList (write : α → Toml φ) (xs : List α) : Toml φ := .array (xs.map write)

/-! ### Records -/

/-- The fields a record is read from, by position and name. A date is a table of one unknown name. -/
def fields : Toml φ → Option (Nat → String → Option (Toml φ))
  | .table entries => some fun _ name => entries.lookup name
  | .array items => some fun i _ => items[i]?
  | .datetime _ => some fun _ _ => none
  | _ => none

def required (read : Toml φ → Option α) (value : Option (Toml φ)) : Option α := value.bind read

/-- A field with a default. -/
def orDefault (read : Toml φ → Option α) (default : α) : Option (Toml φ) → Option α
  | some t => read t
  | none => some default

/-- A field of an optional type, absent where it has no value. -/
def optional (read : Toml φ → Option α) (value : Option (Toml φ)) : Option (Option α) :=
  orDefault (fun t => (read t).map some) none value

/-- The entry of a field that is skipped where it has no value. -/
def skipNone (name : String) (value : Option (Toml φ)) : List (String × Toml φ) :=
  (value.map fun t => (name, t)).toList

/-! ### Looking a field up -/

@[simp] theorem lookup_cons_of_ne {name key : String} {t : Toml φ} {entries : List (String × Toml φ)}
    (h : name ≠ key) : ((key, t) :: entries).lookup name = entries.lookup name := by
  rw [List.lookup_cons, beq_eq_false_iff_ne.mpr h]

@[simp] theorem lookup_skipNone (name : String) (value : Option (Toml φ)) :
    (skipNone name value).lookup name = value := by
  cases value <;> simp [skipNone]

@[simp] theorem lookup_skipNone_of_ne {name key : String} (value : Option (Toml φ)) (h : name ≠ key) :
    (skipNone key value).lookup name = none := by
  cases value <;> simp [skipNone, h]

/-! ### What is written is read back -/

@[simp] theorem required_some (read : Toml φ → Option α) (t : Toml φ) : required read (some t) = read t := rfl

@[simp] theorem orDefault_some (read : Toml φ → Option α) (default : α) (t : Toml φ) :
    orDefault read default (some t) = read t := rfl

@[simp] theorem readText_text (s : String) : readText (.text s : Toml φ) = some s := rfl

@[simp] theorem readBool_boolean (b : Bool) : readBool (.boolean b : Toml φ) = some b := rfl

@[simp] theorem readFloat_float (ofInteger : Int64 → φ) (x : φ) :
    readFloat ofInteger (.float x) = some x := rfl

theorem optional_map {read : Toml φ → Option α} {write : α → Toml φ}
    (hread : ∀ x, read (write x) = some x) (value : Option α) :
    optional read (value.map write) = some value := by
  cases value with
  | none => rfl
  | some x => rw [Option.map_some, optional, orDefault_some, hread, Option.map_some]

theorem readU64_of_writeU64 {x : UInt64} {t : Toml φ} (h : writeU64 x = some t) : readU64 t = some x := by
  obtain ⟨hx, rfl⟩ : x.toNat < 2 ^ 63 ∧ t = .integer (Int64.ofNat x.toNat) := by
    rw [writeU64, Option.ite_none_right_eq_some] at h
    exact ⟨h.1, (Option.some.inj h.2).symm⟩
  rw [readU64, Int64.toInt_ofNat_of_lt hx, if_pos (Int.natCast_nonneg _), Int.toNat_natCast,
    UInt64.ofNat_toNat]

@[simp] theorem readU32_writeU32 (x : UInt32) : readU32 (writeU32 x : Toml φ) = some x := by
  have hx : x.toNat < 2 ^ 32 := x.toNat_lt
  have hint : (Int64.ofNat x.toNat).toInt = x.toNat := Int64.toInt_ofNat_of_lt (by omega)
  rw [writeU32, readU32, hint, if_pos (by omega), Int.toNat_natCast, UInt32.ofNat_toNat]

theorem readList_writeList {read : Toml φ → Option α} {write : α → Toml φ}
    (hread : ∀ x, read (write x) = some x) (xs : List α) : readList read (writeList write xs) = some xs := by
  rw [writeList, readList]
  induction xs with
  | nil => rfl
  | cons x xs ih =>
      rw [List.map_cons, List.mapM_cons, hread x, ih]
      rfl

/-! ### What can be written -/

theorem writeU64_of_lt {x : UInt64} (hx : x.toNat < 2 ^ 63) :
    (writeU64 x : Option (Toml φ)) = some (.integer (Int64.ofNat x.toNat)) := by
  rw [writeU64, if_pos hx]

theorem lt_of_readU64 {t : Toml φ} {x : UInt64} (h : readU64 t = some x) : x.toNat < 2 ^ 63 := by
  cases t with
  | integer i =>
      rw [readU64, Option.ite_none_right_eq_some] at h
      obtain ⟨hnonneg, rfl⟩ : 0 ≤ i.toInt ∧ UInt64.ofNat i.toInt.toNat = x := ⟨h.1, Option.some.inj h.2⟩
      have hlt : i.toInt < 2 ^ 63 := Int64.toInt_lt i
      rw [UInt64.toNat_ofNat']
      omega
  | _ => cases h

/-- What holds of the default and of every value that is read holds of the field. -/
theorem of_orDefault {p : α → Prop} {read : Toml φ → Option α} {default x : α} {value : Option (Toml φ)}
    (hdefault : p default) (hread : ∀ t x, read t = some x → p x)
    (h : orDefault read default value = some x) : p x := by
  cases value with
  | none =>
      cases h
      exact hdefault
  | some t => exact hread t x h

theorem of_required {p : α → Prop} {read : Toml φ → Option α} {x : α} {value : Option (Toml φ)}
    (hread : ∀ t x, read t = some x → p x) (h : required read value = some x) : p x := by
  obtain ⟨t, _, ht⟩ := Option.bind_eq_some_iff.mp h
  exact hread t x ht

theorem lt_of_orDefault {default x : UInt64} {value : Option (Toml φ)} (hdefault : default.toNat < 2 ^ 63)
    (h : orDefault readU64 default value = some x) : x.toNat < 2 ^ 63 :=
  of_orDefault (p := fun y => y.toNat < 2 ^ 63) hdefault (fun _ _ => lt_of_readU64) h

end Toml

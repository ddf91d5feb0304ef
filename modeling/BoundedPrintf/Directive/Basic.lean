import BoundedPrintf.Bytes

/-! A directive is what stands between a percent sign and its conversion byte: flags, a width, a
precision and a length class, in the form in which a converter reads them. -/
namespace BoundedPrintf

/-- The last of the flags `-` and `+` decides. `right` also forces a sign on positive values. -/
inductive Alignment
  | default
  | right
  | left
  deriving DecidableEq, Repr

structure Flags where
  alignment : Alignment := .default
  space : Bool := false
  alternate : Bool := false
  zero : Bool := false
  deriving DecidableEq, Repr

namespace Flags

def leftJustified (flags : Flags) : Bool := flags.alignment = .left

def forcesSign (flags : Flags) : Bool := flags.alignment = .right

end Flags

/-- A width or a precision: not given, a number in the template, or a `*` that stands for an
argument. -/
inductive Extent
  | absent
  | fixed (value : Nat)
  | argument
  deriving DecidableEq, Repr

/-- The number given in the template. A `*` that no argument has replaced counts as absent. -/
def Extent.value? : Extent → Option Nat
  | .fixed value => some value
  | .absent | .argument => none

/-- The length modifiers of an integer conversion. -/
inductive LengthClass
  | none | hh | h | l | ll | z | t | j
  deriving DecidableEq, Repr

namespace LengthClass

/-- Sizes of the data model in which `long`, `size_t`, `ptrdiff_t` and `intmax_t` have 64 bits. -/
def bits : LengthClass → Nat
  | .hh => 8
  | .h => 16
  | .none => 32
  | .l | .ll | .z | .t | .j => 64

/-- Reading an `h`: a second one in a row makes `hh`, and further ones change nothing. -/
def afterH : LengthClass → LengthClass
  | .h | .hh => .hh
  | _ => .h

/-- Reading an `l`: a second one in a row makes `ll`, and further ones change nothing. -/
def afterL : LengthClass → LengthClass
  | .l | .ll => .ll
  | _ => .l

end LengthClass

/-- A conversion with all that stands before it. -/
structure Spec where
  flags : Flags := {}
  width : Extent := .absent
  precision : Extent := .absent
  length : LengthClass := .none
  conversion : UInt8
  deriving DecidableEq, Repr

namespace Spec

/-- The least number of bytes of the field. -/
def minimumWidth (spec : Spec) : Nat := spec.width.value?.getD 0

def uppercase (spec : Spec) : Bool := (Char.ofUInt8 spec.conversion).isUpper

end Spec

/-- What the bytes after one percent sign turn out to be. -/
inductive Directive
  | spec (spec : Spec)
  | percent
  | unsupported (conversion : UInt8)
  | incomplete
  deriving DecidableEq, Repr

end BoundedPrintf

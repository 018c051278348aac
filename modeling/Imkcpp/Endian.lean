import Imkcpp.Types
import Imkcpp.Library.WordBytes

/-! The byte-order decisions of `endian.hpp`. A host is its byte order together
with the macros its compiler predefines; the two derived macros decide whether
`htons` and `htonl` swap, and `memcpy` then lays the result out in host order. -/
namespace Imkcpp

open WordBytes

/-- The predefined macros that `endian.hpp` tests with `defined`. -/
inductive Macro where
  | hppa | m68k | mc68000 | mM68K | mips | mipseb | ppc | powerPC | mPPC
  | sparc | powerpc | mc68000Old | s390x | s390
  | i386 | i386Short | i386Old | mIX86 | x86 | x8664 | amd64Short | amd64
  deriving DecidableEq, Repr

/-- What `endian.hpp` can see of a platform, and the platform's byte order.
The first two fields are values given on the command line, if any, and
`bigEndianMacro` is the value of `_BIG_ENDIAN_`, if it is defined. -/
structure Host where
  givenBigEndian : Option Bool := none
  givenMustAlign : Option Bool := none
  bigEndianMacro : Option Bool := none
  defined : Macro → Bool
  byteOrder : ByteOrder

namespace Host

/-- `IWORDS_BIG_ENDIAN`, after the three nested `#ifndef`s. -/
def iwordsBigEndian (host : Host) : Bool :=
  match host.givenBigEndian with
  | some value => value
  | none =>
    host.bigEndianMacro.getD false ||
      (host.defined .hppa ||
       host.defined .m68k || host.defined .mc68000 || host.defined .mM68K ||
       (host.defined .mips && host.defined .mipseb) ||
       host.defined .ppc || host.defined .powerPC || host.defined .mPPC ||
       host.defined .sparc || host.defined .powerpc ||
       host.defined .mc68000Old || host.defined .s390x || host.defined .s390)

/-- `IWORDS_MUST_ALIGN`: false on the x86 family only. -/
def iwordsMustAlign (host : Host) : Bool :=
  match host.givenMustAlign with
  | some value => value
  | none =>
    !(host.defined .i386 || host.defined .i386Short || host.defined .i386Old ||
      host.defined .mIX86 || host.defined .x86 || host.defined .x8664 ||
      host.defined .amd64Short || host.defined .amd64)

/-- The `#if` in front of the four conversions. -/
def keepsOrder (host : Host) : Bool := host.iwordsBigEndian || host.iwordsMustAlign

def htons (host : Host) (hostshort : UInt16) : UInt16 :=
  if host.keepsOrder then hostshort else hostshort >>> 8 ||| hostshort <<< 8

def ntohs (host : Host) (netshort : UInt16) : UInt16 := host.htons netshort

def htonl (host : Host) (hostlong : UInt32) : UInt32 :=
  if host.keepsOrder then hostlong
  else
    (hostlong >>> 24 &&& (0xFF : UInt32)) |||
      (hostlong <<< 8 &&& (0xFF0000 : UInt32)) |||
      (hostlong >>> 8 &&& (0xFF00 : UInt32)) |||
      (hostlong <<< 24 &&& (0xFF000000 : UInt32))

def ntohl (host : Host) (netlong : UInt32) : UInt32 := host.htonl netlong

/-- The four bytes `memcpy` copies to the wire for a `u32` field. -/
def wire32 (host : Host) (value : UInt32) : List UInt8 := host.byteOrder.bytes32 (host.htonl value)

/-- The two bytes `memcpy` copies to the wire for a `u16` field. -/
def wire16 (host : Host) (value : UInt16) : List UInt8 := host.byteOrder.bytes16 (host.htons value)

/-- The `u32` read back from four bytes of the wire. -/
def unwire32 (host : Host) (bytes : List UInt8) : UInt32 := host.ntohl (host.byteOrder.word32 bytes)

/-- The `u16` read back from two bytes of the wire. -/
def unwire16 (host : Host) (bytes : List UInt8) : UInt16 := host.ntohs (host.byteOrder.word16 bytes)

/-- The order in which the bytes of a word travel. -/
def wireOrder (host : Host) : ByteOrder :=
  if host.keepsOrder then host.byteOrder else host.byteOrder.opposite

theorem wire32_eq (host : Host) (value : UInt32) :
    host.wire32 value = host.wireOrder.bytes32 value := by
  unfold wire32 htonl wireOrder
  split
  · rfl
  · exact ByteOrder.bytes32_swap32 _ _

theorem wire16_eq (host : Host) (value : UInt16) :
    host.wire16 value = host.wireOrder.bytes16 value := by
  unfold wire16 htons wireOrder
  split
  · rfl
  · exact ByteOrder.bytes16_swap16 _ _

theorem unwire32_eq (host : Host) (bytes : List UInt8) (h : bytes.length = 4) :
    host.unwire32 bytes = host.wireOrder.word32 bytes := by
  unfold unwire32 ntohl htonl wireOrder
  split
  · rfl
  · exact ByteOrder.swap32_word32 _ _ h

theorem unwire16_eq (host : Host) (bytes : List UInt8) (h : bytes.length = 2) :
    host.unwire16 bytes = host.wireOrder.word16 bytes := by
  unfold unwire16 ntohs htons wireOrder
  split
  · rfl
  · exact ByteOrder.swap16_word16 _ _ h

@[simp] theorem wire32_length (host : Host) (value : UInt32) : (host.wire32 value).length = 4 := by
  simp [wire32]

@[simp] theorem wire16_length (host : Host) (value : UInt16) : (host.wire16 value).length = 2 := by
  simp [wire16]

@[simp] theorem unwire32_wire32 (host : Host) (value : UInt32) :
    host.unwire32 (host.wire32 value) = value := by
  simp [unwire32_eq, wire32_eq]

@[simp] theorem unwire16_wire16 (host : Host) (value : UInt16) :
    host.unwire16 (host.wire16 value) = value := by
  simp [unwire16_eq, wire16_eq]

theorem wire32_unwire32 (host : Host) {bytes : List UInt8} (h : bytes.length = 4) :
    host.wire32 (host.unwire32 bytes) = bytes := by
  rw [unwire32_eq _ _ h, wire32_eq, ByteOrder.bytes32_word32 _ _ h]

theorem wire16_unwire16 (host : Host) {bytes : List UInt8} (h : bytes.length = 2) :
    host.wire16 (host.unwire16 bytes) = bytes := by
  rw [unwire16_eq _ _ h, wire16_eq, ByteOrder.bytes16_word16 _ _ h]

/-- An x86-64 machine, with the macros that its compilers predefine. -/
def x8664 : Host where
  defined m := m = .x8664 ∨ m = .amd64Short ∨ m = .amd64
  byteOrder := .little

/-- A little-endian AArch64 machine: `endian.hpp` knows none of its macros. -/
def aarch64 : Host where
  defined _ := false
  byteOrder := .little

end Host
end Imkcpp

/-!
Where a byte sequence stops being UTF-8. A lead byte fixes how many bytes follow it and in which
range each lies; the first byte outside its range, or the end of the input before it, is the fault.
-/

namespace RowStore.Text.Utf8

/-- An inclusive range of bytes. -/
structure ByteRange where
  low : UInt8
  high : UInt8

def ByteRange.contains (range : ByteRange) (byte : UInt8) : Bool :=
  range.low ≤ byte && byte ≤ range.high

/-- The continuation bytes. -/
def continuation : ByteRange := ⟨0x80, 0xBF⟩

/-- The ranges of the bytes that follow a lead byte, and nothing for a byte that leads none. -/
def followers (lead : UInt8) : Option (List ByteRange) :=
  if lead < 0x80 then some []
  else if lead < 0xC2 then none
  else if lead < 0xE0 then some [continuation]
  else if lead == 0xE0 then some [⟨0xA0, 0xBF⟩, continuation]
  else if lead == 0xED then some [⟨0x80, 0x9F⟩, continuation]
  else if lead < 0xF0 then some [continuation, continuation]
  else if lead == 0xF0 then some [⟨0x90, 0xBF⟩, continuation, continuation]
  else if lead < 0xF4 then some [continuation, continuation, continuation]
  else if lead == 0xF4 then some [⟨0x80, 0x8F⟩, continuation, continuation]
  else none

/-- Where the first ill-formed sequence starts, and how many of its bytes are read before it is
known to be ill-formed; no length if the input ends inside it. -/
structure Fault where
  start : Nat
  length : Option Nat
  deriving DecidableEq, Repr

/-- Reads on with `read` bytes of the sequence at `start` behind and the given ranges ahead. -/
def faultFrom (start read : Nat) : List ByteRange → List UInt8 → Option Fault
  | [], [] => none
  | _ :: _, [] => some ⟨start, none⟩
  | [], byte :: rest =>
    match followers byte with
    | none => some ⟨start + read, some 1⟩
    | some ranges => faultFrom (start + read) 1 ranges rest
  | range :: ranges, byte :: rest =>
    if range.contains byte then faultFrom start (read + 1) ranges rest
    else some ⟨start, some read⟩

/-- The first fault of a byte sequence, if it has one. -/
def fault? (bytes : List UInt8) : Option Fault := faultFrom 0 0 [] bytes

def Fault.message (fault : Fault) : String :=
  match fault.length with
  | some length => s!"invalid utf-8 sequence of {length} bytes from index {fault.start}"
  | none => s!"incomplete utf-8 byte sequence from index {fault.start}"

/-- The text that a byte sequence spells in UTF-8. -/
def decode? (bytes : List UInt8) : Option String := String.fromUTF8? ⟨bytes.toArray⟩

/-- The bytes of a text in UTF-8. -/
def encode (text : String) : List UInt8 := text.toUTF8.data.toList

end RowStore.Text.Utf8

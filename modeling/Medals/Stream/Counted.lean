/-!
# Counted bytes

A source of bytes that counts how many have been taken from it.
-/

namespace Medals

/-- Bytes still to be read, and how many have been read. -/
structure CountedBytes where
  left : List UInt8
  counted : Nat
deriving Repr, Inhabited

namespace CountedBytes

def ofBytes (bytes : List UInt8) : CountedBytes := ⟨bytes, 0⟩

/-- Take at most `size` bytes. -/
def read (source : CountedBytes) (size : Nat) : List UInt8 × CountedBytes :=
  let taken := source.left.take size
  (taken, ⟨source.left.drop size, source.counted + taken.length⟩)

end CountedBytes

end Medals

import NetStack.Lib.Memory

/-!
# Addresses, heap blocks and result codes

The types of `utility/net_types.h`, and the two things every layer of the stack passes
around: pointers to heap blocks and `esp_err_t`.
-/

namespace NetStack
open NetStack.Lib

/-- `mac_addr_t`. -/
structure MacAddr where
  b0 : BitVec 8
  b1 : BitVec 8
  b2 : BitVec 8
  b3 : BitVec 8
  b4 : BitVec 8
  b5 : BitVec 8
  deriving DecidableEq, Repr

/-- The bytes of an address in the order in which they travel. -/
def MacAddr.bytes (a : MacAddr) : List (BitVec 8) := [a.b0, a.b1, a.b2, a.b3, a.b4, a.b5]

/-- The six bytes at `p + off`. -/
def MacAddr.read (m : Memory) (off : Nat) : MacAddr :=
  ⟨m off, m (off + 1), m (off + 2), m (off + 3), m (off + 4), m (off + 5)⟩

/-- `ipv4_addr_t`. -/
structure Ipv4Addr where
  b0 : BitVec 8
  b1 : BitVec 8
  b2 : BitVec 8
  b3 : BitVec 8
  deriving DecidableEq, Repr

/-- The bytes of an address in the order in which they travel. -/
def Ipv4Addr.bytes (a : Ipv4Addr) : List (BitVec 8) := [a.b0, a.b1, a.b2, a.b3]

@[simp] theorem Ipv4Addr.bytes_length (a : Ipv4Addr) : a.bytes.length = 4 := rfl

/-- The four bytes at `p + off`. -/
def Ipv4Addr.read (m : Memory) (off : Nat) : Ipv4Addr :=
  ⟨m off, m (off + 1), m (off + 2), m (off + 3)⟩

/-- `struct net_context_t`. -/
structure NetContext where
  mac : MacAddr
  ip : Ipv4Addr
  deriving DecidableEq, Repr

/-- A heap block: where it is, which tells it from every other block ever allocated, and
    what it holds. A C pointer to a block that may be `NULL` is an `Option Block`. -/
structure Block where
  addr : Nat
  bytes : Memory

/-- The values of `esp_err_t` that the stack returns. -/
inductive EspErr where
  | ok
  | fail
  | noMem
  | invalidArg
  | timeout
  deriving DecidableEq, Repr

end NetStack

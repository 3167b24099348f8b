import Cypher.Common

/-!
# Socket addresses (`std::net`)
-/

namespace Cypher

abbrev Array12 := {b : Bytes // b.length = 12}

abbrev Array16 := {b : Bytes // b.length = 16}

/-- An IPv4 address is the number that `u32::from` makes of it, an IPv6 address its octets. -/
inductive IpAddr where
  | v4 (bits : UInt32)
  | v6 (octets : Array16)
  deriving DecidableEq

inductive SocketAddr where
  | v4 (bits : UInt32) (port : UInt16)
  | v6 (octets : Array16) (port : UInt16) (flowinfo scopeId : UInt32)
  deriving DecidableEq

namespace SocketAddr

def ip : SocketAddr → IpAddr
  | v4 bits _ => .v4 bits
  | v6 octets _ _ _ => .v6 octets

def port : SocketAddr → UInt16
  | v4 _ port => port
  | v6 _ port _ _ => port

/-- `SocketAddr::new`: no flow information and no scope. -/
def new : IpAddr → (port : UInt16) → SocketAddr
  | .v4 bits, port => v4 bits port
  | .v6 octets, port => v6 octets port 0 0

@[simp] theorem ip_new (ip : IpAddr) (port : UInt16) : (new ip port).ip = ip := by
  cases ip <;> rfl

@[simp] theorem port_new (ip : IpAddr) (port : UInt16) : (new ip port).port = port := by
  cases ip <;> rfl

end SocketAddr

/-! ## Numbers in network order -/

def toBeBytes16 (n : UInt16) : Bytes :=
  (Lib.leBytes 2 n.toNat).reverse

def fromBeBytes16 (b : Bytes) : UInt16 :=
  UInt16.ofNat (Lib.leNat b.reverse)

@[simp] theorem toBeBytes16_length (n : UInt16) : (toBeBytes16 n).length = 2 := by
  simp [toBeBytes16]

@[simp] theorem fromBeBytes16_toBeBytes16 (n : UInt16) : fromBeBytes16 (toBeBytes16 n) = n := by
  rw [fromBeBytes16, toBeBytes16, List.reverse_reverse, Lib.leNat_leBytes n.toNat_lt,
    UInt16.ofNat_toNat]

/-- `XOR` of two byte strings, position by position. -/
def xorBytes (a b : Bytes) : Bytes :=
  List.zipWith (· ^^^ ·) a b

theorem xorBytes_length {a b : Bytes} (h : a.length = b.length) :
    (xorBytes a b).length = a.length := by
  rw [xorBytes, List.length_zipWith, ← h, Nat.min_self]

theorem xorBytes_xorBytes {a b : Bytes} (h : a.length = b.length) :
    xorBytes (xorBytes a b) b = a := by
  induction a generalizing b with
  | nil => rfl
  | cons x a ih =>
    cases b with
    | nil => cases h
    | cons y b =>
      have hmask : x ^^^ y ^^^ y = x := by rw [UInt8.xor_assoc, UInt8.xor_self, UInt8.xor_zero]
      have hrest := ih (Nat.succ.inj h)
      simp only [xorBytes, List.zipWith_cons_cons, hmask] at hrest ⊢
      rw [hrest]

end Cypher

import Cypher.Lib.LittleEndian

/-!
# Types shared by the crates (`cypher-common`)

Byte strings, the 32-byte arrays every key and identifier of the program is made of, and the error
enumeration. Error texts are kept: callers log and forward them.
-/

namespace Cypher

abbrev Bytes := List UInt8

abbrev Array32 := {b : Bytes // b.length = 32}

def Array32.tryFrom (b : Bytes) : Option Array32 :=
  if h : b.length = 32 then some ⟨b, h⟩ else none

@[simp] theorem Array32.tryFrom_val (a : Array32) : Array32.tryFrom a.val = some a := by
  simp [Array32.tryFrom, a.property]

def Array32.ofNat (n : Nat) : Array32 :=
  ⟨Lib.leBytes 32 n, Lib.leBytes_length 32 n⟩

abbrev Array64 := {b : Bytes // b.length = 64}

inductive Error where
  | io (msg : String)
  | protocol (msg : String)
  | crypto (msg : String)
  | transport (msg : String)
  | session (msg : String)
  | nat (msg : String)
  | transfer (msg : String)
  | config (msg : String)
  | connectionClosed
  | timeout
  | peerNotFound (msg : String)
  | invalidData (msg : String)
  deriving DecidableEq, Repr

def Error.text : Error → String
  | io msg => "IO error: " ++ msg
  | protocol msg => "Protocol error: " ++ msg
  | crypto msg => "Crypto error: " ++ msg
  | transport msg => "Transport error: " ++ msg
  | session msg => "Session error: " ++ msg
  | nat msg => "NAT traversal error: " ++ msg
  | transfer msg => "Transfer error: " ++ msg
  | config msg => "Config error: " ++ msg
  | connectionClosed => "Connection closed"
  | timeout => "Timeout"
  | peerNotFound msg => "Peer not found: " ++ msg
  | invalidData msg => "Invalid data: " ++ msg

abbrev Result := Except Error

theorem bind_eq_ok_iff {α β : Type} {x : Result α} {f : α → Result β} {b : β} :
    (x >>= f) = .ok b ↔ ∃ a, x = .ok a ∧ f a = .ok b := by
  cases x with
  | error err => exact iff_of_false (fun h => nomatch h) (fun ⟨_, h, _⟩ => nomatch h)
  | ok a =>
    refine ⟨fun h => ⟨a, rfl, h⟩, ?_⟩
    rintro ⟨a', ha, hb⟩
    cases ha
    exact hb

theorem mapError_eq_ok_iff {ε α : Type} {x : Except ε α} {f : ε → Error} {a : α} :
    x.mapError f = .ok a ↔ x = .ok a := by
  cases x with
  | error e => exact iff_of_false (fun h => nomatch h) (fun h => nomatch h)
  | ok a' => rw [Except.mapError, Except.ok.injEq, Except.ok.injEq]

/-- The bytes of a byte-string literal such as `b"chain-key"`. -/
def ascii (s : String) : Bytes :=
  s.toList.map fun c => UInt8.ofNat c.toNat

def toBeBytes32 (n : Nat) : Bytes :=
  (Lib.leBytes 4 n).reverse

def fromBeBytes32 (b : Bytes) : Nat :=
  Lib.leNat b.reverse

@[simp] theorem toBeBytes32_length (n : Nat) : (toBeBytes32 n).length = 4 := by
  simp [toBeBytes32]

theorem fromBeBytes32_toBeBytes32 {n : Nat} (h : n < 2 ^ 32) :
    fromBeBytes32 (toBeBytes32 n) = n := by
  rw [fromBeBytes32, toBeBytes32, List.reverse_reverse]
  exact Lib.leNat_leBytes h

/-- The number of values of a `u32`; release builds wrap at it. -/
def u32Size : Nat := 2 ^ 32

def u64Size : Nat := 2 ^ 64

/-- `+= 1` on a `u32` in a release build. -/
def wrappingSucc32 (n : Nat) : Nat :=
  (n + 1) % u32Size

theorem wrappingSucc32_of_lt {n : Nat} (h : n + 1 < u32Size) : wrappingSucc32 n = n + 1 :=
  Nat.mod_eq_of_lt h

end Cypher

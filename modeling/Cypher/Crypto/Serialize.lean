import Cypher.Crypto.Ratchet

/-!
# Serialised ratchet states (`cypher-crypto/src/ratchet.rs`)

`serialize` copies the fields of a `RatchetState` into a `SerializableRatchetState`, whose keys are
byte arrays, and hands that to `postcard`; `deserialize` copies them back. A static secret and a
public key of `x25519_dalek` are made of their bytes without a change.
-/

namespace Cypher.Crypto

structure SerializableRatchetState where
  rootKey : Array32
  sendChainKey : Option Array32
  recvChainKey : Option Array32
  sendRatchetSecret : Array32
  sendRatchetKey : Array32
  recvRatchetKey : Option Array32
  sendCount : Nat
  recvCount : Nat
  prevSendCount : Nat
  skippedKeys : SkippedKeys Array32
  deriving DecidableEq

/-- The functions of `postcard` at this type, with the text of their errors. -/
structure Postcard where
  toAllocvec : SerializableRatchetState → Except String Bytes
  fromBytes : Bytes → Except String SerializableRatchetState

def Postcard.Inverts (postcard : Postcard) : Prop :=
  ∀ s data, postcard.toAllocvec s = .ok data → postcard.fromBytes data = .ok s

namespace RatchetState

def toSerializable (st : RatchetState Array32 Array32) : SerializableRatchetState where
  rootKey := st.rootKey
  sendChainKey := st.sendChainKey
  recvChainKey := st.recvChainKey
  sendRatchetSecret := st.sendRatchetSecret
  sendRatchetKey := st.sendRatchetKey
  recvRatchetKey := st.recvRatchetKey
  sendCount := st.sendCount
  recvCount := st.recvCount
  prevSendCount := st.prevSendCount
  skippedKeys := st.skippedKeys

def ofSerializable (s : SerializableRatchetState) : RatchetState Array32 Array32 where
  rootKey := s.rootKey
  sendChainKey := s.sendChainKey
  recvChainKey := s.recvChainKey
  sendRatchetSecret := s.sendRatchetSecret
  sendRatchetKey := s.sendRatchetKey
  recvRatchetKey := s.recvRatchetKey
  sendCount := s.sendCount
  recvCount := s.recvCount
  prevSendCount := s.prevSendCount
  skippedKeys := s.skippedKeys

@[simp] theorem ofSerializable_toSerializable (st : RatchetState Array32 Array32) :
    ofSerializable st.toSerializable = st := rfl

end RatchetState

end Cypher.Crypto

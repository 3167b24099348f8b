import Cypher.Proto.Codec

/-!
# Reading and replacing one field

The services look at single fields of a message, above all at `peer_id`, which half of the
constructors have. `bytes?` reads the `Bytes` field of a given name and `setBytes` replaces it.
-/

namespace Cypher.Proto

namespace Record

def bytes? (name : String) : (fields : List Field) → Record fields → Option Bytes
  | [], _ => none
  | ⟨n, .bytes⟩ :: rest, ((v : Bytes), r) => if n = name then some v else bytes? name rest r
  | ⟨_, .int⟩ :: rest, (_, r) => bytes? name rest r
  | ⟨_, .long⟩ :: rest, (_, r) => bytes? name rest r
  | ⟨_, .string⟩ :: rest, (_, r) => bytes? name rest r

/-- The record with another value in the `Bytes` field called `name`. -/
def setBytes (name : String) (value : Bytes) : (fields : List Field) → Record fields → Record fields
  | [], r => r
  | ⟨n, .bytes⟩ :: rest, ((v : Bytes), r) =>
    if n = name then (value, r) else (v, setBytes name value rest r)
  | ⟨_, .int⟩ :: rest, (v, r) => (v, setBytes name value rest r)
  | ⟨_, .long⟩ :: rest, (v, r) => (v, setBytes name value rest r)
  | ⟨_, .string⟩ :: rest, (v, r) => (v, setBytes name value rest r)

section

variable {name : String} {value : Bytes} {rest : List Field} {v : Bytes} {r : Record rest}

theorem setBytes_self :
    setBytes name value (⟨name, .bytes⟩ :: rest) (v, r) = (value, r) :=
  if_pos rfl

theorem setBytes_of_ne {n : String} (hn : n ≠ name) :
    setBytes name value (⟨n, .bytes⟩ :: rest) (v, r) = (v, setBytes name value rest r) :=
  if_neg hn

end

theorem isSome_bytes? (name : String) :
    ∀ (fields : List Field) (r : Record fields),
      (bytes? name fields r).isSome = fields.contains ⟨name, .bytes⟩
  | [], _ => rfl
  | ⟨n, .bytes⟩ :: rest, ((v : Bytes), r) => by
    by_cases hn : n = name
    · simp [bytes?, hn]
    · simp [bytes?, hn, isSome_bytes? name rest r, Ne.symm hn]
  | ⟨n, .int⟩ :: rest, (_, r) => by simp [bytes?, isSome_bytes? name rest r]
  | ⟨n, .long⟩ :: rest, (_, r) => by simp [bytes?, isSome_bytes? name rest r]
  | ⟨n, .string⟩ :: rest, (_, r) => by simp [bytes?, isSome_bytes? name rest r]

theorem bytes?_setBytes (name : String) (value : Bytes) :
    ∀ (fields : List Field) (r : Record fields),
      bytes? name fields (setBytes name value fields r) = (bytes? name fields r).map fun _ => value
  | [], _ => rfl
  | ⟨n, .bytes⟩ :: rest, ((v : Bytes), r) => by
    by_cases hn : n = name
    · subst hn
      rw [setBytes_self]
      simp [bytes?]
    · rw [setBytes_of_ne hn]
      simp only [bytes?, if_neg hn]
      exact bytes?_setBytes name value rest r
  | ⟨_, .int⟩ :: rest, (_, r) => bytes?_setBytes name value rest r
  | ⟨_, .long⟩ :: rest, (_, r) => bytes?_setBytes name value rest r
  | ⟨_, .string⟩ :: rest, (_, r) => bytes?_setBytes name value rest r

end Record

namespace Message

/-- The field `peer_id`, of a message whose constructor has it. -/
def peerId (m : Message) : Bytes :=
  (Record.bytes? "peer_id" m.ctor.fields m.fields).getD []

def withPeerId (m : Message) (peerId : Bytes) : Message :=
  ⟨m.ctor, Record.setBytes "peer_id" peerId m.ctor.fields m.fields⟩

theorem withPeerId_peerId {m : Message} (h : m.ctor.fields.contains ⟨"peer_id", .bytes⟩)
    (peerId : Bytes) : (m.withPeerId peerId).peerId = peerId := by
  rw [← Record.isSome_bytes? "peer_id" _ m.fields] at h
  obtain ⟨old, hold⟩ := Option.isSome_iff_exists.mp h
  simp [Message.peerId, withPeerId, Record.bytes?_setBytes, hold]

end Message

end Cypher.Proto

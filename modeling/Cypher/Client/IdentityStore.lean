import Cypher.Crypto.Identity
import Cypher.Lib.Run
import Cypher.Proto.Codec

/-!
# The identity file (`cypher-client-core/src/identity_store.rs`)

`identity.enc` holds a salt, a nonce and the seed with the nickname, encrypted under a key that
Argon2id derives from the passphrase and the salt. `create` and `import_mnemonic` overwrite the file
with `fs::write`, which truncates it first and may need several writes; a write may fail, and the
process may die between any two. Calls come one after the other.

Argon2id and BIP39 are what the crates provide.
-/

namespace Cypher.Client

open Crypto Proto

/-- What the identity store is built from. -/
structure Vault where
  primitives : GcmPrimitives
  /-- `Argon2::default().hash_password_into(passphrase, salt, _)`. -/
  argon2 : (passphrase salt : Bytes) → Except String Array32
  /-- The entropy of `bip39::Mnemonic::parse(phrase)`. -/
  parseMnemonic : Bytes → Except String Bytes

namespace Vault

def saltLen : Nat := 16

def nonceLen : Nat := 12

def seedLen : Nat := 32

abbrev Salt := {b : Bytes // b.length = saltLen}

abbrev Nonce := {b : Bytes // b.length = nonceLen}

variable (V : Vault)

def deriveKey (passphrase salt : Bytes) : Result Array32 :=
  (V.argon2 passphrase salt).mapError fun e => .crypto ("Argon2id: " ++ e)

/-- `IdentitySeed::from_mnemonic`. -/
def fromMnemonic (phrase : Bytes) : Result IdentitySeed :=
  match V.parseMnemonic phrase with
  | .error e => .error (.crypto ("invalid mnemonic: " ++ e))
  | .ok entropy =>
    match Array32.tryFrom entropy with
    | some seed => .ok seed
    | none => .error (.crypto ("expected 32-byte entropy, got " ++ toString entropy.length))

/-- The length is written as a `u32`. -/
def buildPlaintext (seed : IdentitySeed) (nickname : Utf8) : Bytes :=
  seed.val ++ Lib.leBytes 4 nickname.val.length ++ nickname.val

def parsePlaintext (data : Bytes) : Result (IdentitySeed × Utf8) :=
  if data.length < seedLen + 4 then .error (.crypto "decrypted data too short")
  else
    let nickLen := Lib.leNat (slice data seedLen (seedLen + 4))
    if data.length < seedLen + 4 + nickLen then .error (.crypto "nickname data truncated")
    else
      let nickname := slice data (seedLen + 4) (seedLen + 4 + nickLen)
      match h : Lib.validateUtf8 nickname with
      | some e => .error (.crypto ("invalid nickname utf-8: " ++ e.text))
      | none =>
        match Array32.tryFrom (data.take seedLen) with
        | some seed => .ok (seed, ⟨nickname, h⟩)
        | none => .error (.crypto "decrypted data too short")

/-- What a call of `save_inner` has put together. -/
structure Sealed where
  passphrase : Bytes
  seed : IdentitySeed
  nickname : Utf8
  salt : Salt
  nonce : Nonce
  ciphertext : Bytes
  deriving DecidableEq

def Sealed.output (e : Sealed) : Bytes :=
  e.salt.val ++ e.nonce.val ++ e.ciphertext

def saveInner (seed : IdentitySeed) (nickname : Utf8) (passphrase : Bytes) (salt : Salt) (nonce : Nonce) :
    Result Sealed := do
  let key ← V.deriveKey passphrase salt.val
  match V.primitives.aesGcmEncrypt key nonce.val (buildPlaintext seed nickname) [] with
  | some ciphertext => .ok ⟨passphrase, seed, nickname, salt, nonce, ciphertext⟩
  | none => .error (.crypto "encrypt: aead::Error")

def unlock (file : Except String Bytes) (passphrase : Bytes) : Result (IdentitySeed × Utf8) :=
  match file with
  | .error e => .error (.crypto ("read identity file: " ++ e))
  | .ok data =>
    if data.length < saltLen + nonceLen + seedLen + 4 then .error (.crypto "identity file too short")
    else do
      let key ← V.deriveKey passphrase (data.take saltLen)
      match V.primitives.aesGcmDecrypt key (slice data saltLen (saltLen + nonceLen))
          (data.drop (saltLen + nonceLen)) [] with
      | some plaintext => parsePlaintext plaintext
      | none => .error (.crypto "wrong passphrase or corrupted identity file")

end Vault

/-! ## The file over time -/

open Vault

structure IdentityDisk where
  file : Option Bytes
  /-- The call that is in `fs::write`; `none` before it has opened the file, else how much it wrote. -/
  saving : Option (Sealed × Option Nat)
  /-- Everything that was encrypted so far. -/
  sealed : List Sealed
  /-- The last save, if it went through. -/
  stored : Option Sealed

inductive IdentityAction where
  | create (seed : IdentitySeed) (nickname : Utf8) (passphrase : Bytes) (salt : Salt) (nonce : Nonce)
  | importMnemonic (phrase : Bytes) (nickname : Utf8) (passphrase : Bytes) (salt : Salt)
      (nonce : Nonce)
  /-- `fs::write` opens the file and truncates it. -/
  | openFile
  /-- A write of `n` bytes. -/
  | write (n : Nat)
  /-- A system call fails, or the process dies. -/
  | stop

namespace IdentityDisk

def start : IdentityDisk :=
  ⟨none, none, [], none⟩

def read (d : IdentityDisk) : Except String Bytes :=
  match d.file with
  | some data => .ok data
  | none => .error "No such file or directory (os error 2)"

/-- A call of `save_inner` begins; an error is returned to the caller. -/
def save (d : IdentityDisk) (sealed : Result Sealed) : Option IdentityDisk :=
  match d.saving with
  | some _ => none
  | none =>
    match sealed with
    | .error _ => some d
    | .ok e => some { d with saving := some (e, none), sealed := d.sealed ++ [e] }

def step (V : Vault) (d : IdentityDisk) : IdentityAction → Option IdentityDisk
  | .create seed nickname passphrase salt nonce =>
    d.save (V.saveInner seed nickname passphrase salt nonce)
  | .importMnemonic phrase nickname passphrase salt nonce =>
    d.save (V.fromMnemonic phrase >>= fun seed => V.saveInner seed nickname passphrase salt nonce)
  | .openFile =>
    match d.saving with
    | some (e, none) => some { d with file := some [], saving := some (e, some 0), stored := none }
    | _ => none
  | .write n =>
    match d.saving with
    | some (e, some written) =>
      if 0 < n ∧ written + n < e.output.length then
        some { d with
          file := some (e.output.take (written + n)), saving := some (e, some (written + n)) }
      else if written + n = e.output.length then
        some { d with file := some e.output, saving := none, stored := some e }
      else none
    | _ => none
  | .stop => some { d with saving := none }

end IdentityDisk

end Cypher.Client

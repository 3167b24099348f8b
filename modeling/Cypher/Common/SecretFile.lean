import Cypher.Common
import Cypher.Lib.Run

/-!
# Secrets kept in a file (`signaling/src/key_store.rs`, `relay/src/identity.rs`)

Both services load their long-lived secret from a file, or draw one and put it there: it is written
to a temporary file beside it, which is then renamed. The two sources are the same code with other
nouns in two messages; `SecretFile` holds the nouns and the paths.

Any number of calls may run at once, each with the 32 bytes it drew. A call is cut into its system
calls. Each of them may fail, `write_all` may need several writes, and a process may die between
any two. `path.exists()` answers no when it fails.
-/

namespace Cypher

structure SecretFile where
  path : String
  parent : String
  /-- What the messages call the secret. -/
  noun : String

/-- `load_or_create_secret` of signaling. -/
def keyStore (path parent : String) : SecretFile :=
  ⟨path, parent, "secret"⟩

/-- `load_or_create_onion_identity` of the relay. -/
def onionIdentityFile (path parent : String) : SecretFile :=
  ⟨path, parent, "relay identity"⟩

namespace SecretFile

def tempPath (f : SecretFile) : String :=
  f.path ++ ".tmp"

/-- The errors of a call, by the step that failed. -/
inductive Failure where
  | read
  | length
  | createParent
  | createTemp
  | write
  | sync
  | restrict
  | move
  | missing
  deriving DecidableEq, Repr

def Failure.text (f : SecretFile) : Failure → String
  | .read => "failed to read " ++ f.path
  | .length => "invalid secret length in " ++ f.path
  | .createParent => "failed to create " ++ f.parent
  | .createTemp => "failed to create " ++ f.tempPath
  | .write => "failed to write " ++ f.tempPath
  | .sync => "failed to sync " ++ f.tempPath
  | .restrict => "failed to restrict permissions on " ++ f.tempPath
  | .move => "failed to move generated " ++ f.noun ++ " " ++ f.tempPath ++ " -> " ++ f.path
  | .missing => "missing generated " ++ f.noun ++ " " ++ f.path

structure Disk where
  final : Option Bytes
  temp : Option Bytes
  deriving DecidableEq

inductive Pc where
  /-- `path.exists()` of the first `read_secret`. -/
  | check
  /-- `fs::read` of the first `read_secret`. -/
  | load
  | createDirAll
  | createNew
  | write (written : Nat)
  | syncAll
  | restrict
  | rename
  /-- `final_path.exists()` after a failed rename. -/
  | reuse
  /-- `fs::remove_file` after it. -/
  | removeTemp
  /-- The second `read_secret`. -/
  | recheck
  | reload
  | returned (r : Except Failure Array32)
  | died
  deriving DecidableEq

inductive Io where
  | ok
  | fail
  /-- `write` with the number of bytes it took. -/
  | wrote (n : Nat)
  /-- The process dies instead. -/
  | die
  deriving DecidableEq

def readSecret (disk : Disk) : Except Failure Array32 :=
  match disk.final with
  | none => .error .read
  | some data => if h : data.length = 32 then .ok ⟨data, h⟩ else .error .length

def onOk (disk : Disk) : Pc → Option (Disk × Pc)
  | .check => some (disk, if disk.final.isSome then .load else .createDirAll)
  | .load => some (disk, .returned (readSecret disk))
  | .createDirAll => some (disk, .createNew)
  | .createNew =>
    -- `create_new` refuses an existing file
    if disk.temp.isSome then some (disk, .returned (.error .createTemp))
    else some ({ disk with temp := some [] }, .write 0)
  | .syncAll => some (disk, .restrict)
  | .restrict => some (disk, .rename)
  | .rename =>
    -- an existing file is replaced
    match disk.temp with
    | some data => some (⟨some data, none⟩, .recheck)
    | none => some (disk, .reuse)
  | .reuse =>
    some (disk, if disk.final.isSome then .removeTemp else .returned (.error .move))
  | .removeTemp => some ({ disk with temp := none }, .recheck)
  | .recheck =>
    some (disk, if disk.final.isSome then .reload else .returned (.error .missing))
  | .reload => some (disk, .returned (readSecret disk))
  | _ => none

def onFail : Pc → Option Pc
  | .check => some .createDirAll
  | .load => some (.returned (.error .read))
  | .createDirAll => some (.returned (.error .createParent))
  | .createNew => some (.returned (.error .createTemp))
  | .write _ => some (.returned (.error .write))
  | .syncAll => some (.returned (.error .sync))
  | .restrict => some (.returned (.error .restrict))
  | .rename => some .reuse
  | .reuse => some (.returned (.error .move))
  | .removeTemp => some .recheck
  | .recheck => some (.returned (.error .missing))
  | .reload => some (.returned (.error .read))
  | _ => none

/-- A process dies in the middle of a call. -/
def onDie : Pc → Option Pc
  | .returned _ => none
  | .died => none
  | _ => some .died

/-- One system call of a call that drew `secret`; `none` if it cannot end so. -/
def syscall (secret : Array32) (disk : Disk) (pc : Pc) : Io → Option (Disk × Pc)
  | .ok => onOk disk pc
  | .fail => (onFail pc).map fun pc => (disk, pc)
  | .die => (onDie pc).map fun pc => (disk, pc)
  | .wrote n =>
    match pc with
    | .write written =>
      if 0 < n ∧ written + n ≤ 32 then
        some ({ disk with temp := some (secret.val.take (written + n)) },
          if written + n = 32 then .syncAll else .write (written + n))
      else none
    | _ => none

abbrev CallId := Nat

structure System where
  disk : Disk
  pc : CallId → Pc

structure Action where
  call : CallId
  io : Io

/-- Calls that have not begun are at `check`. -/
def System.start (final : Option Bytes) : System :=
  ⟨⟨final, none⟩, fun _ => .check⟩

/-- One system call of one of the calls; `secret` is what each of them drew. -/
def step (secret : CallId → Array32) (s : System) (a : Action) : Option System :=
  match syscall (secret a.call) s.disk (s.pc a.call) a.io with
  | none => none
  | some (disk, pc) => some ⟨disk, Function.update s.pc a.call pc⟩

end SecretFile

end Cypher

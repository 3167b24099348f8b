import Cypher.Client.IdentityStore

/-!
# What opens the identity file

`identity_unlock_exact`: over every run of saves, failed writes and crashes, `unlock` succeeds exactly
if the last save that opened the file went through, and with its passphrase; it then gives the seed
and the nickname of that save. So a save that stops halfway loses the identity that was there.

Assumed are that salts do not repeat, that Argon2id does not collide, and that what opens was sealed
(`Genuine`). A torn file is a prefix of what one save wrote. If it opens, then as what a save sealed
under its salt, which is this one, whose ciphertext is longer.
-/

namespace Cypher.Client

open Crypto Proto Lib

namespace Vault

variable {V : Vault}

/-! ## The format -/

theorem parsePlaintext_buildPlaintext (seed : IdentitySeed) (nickname : Utf8)
    (hsize : nickname.val.length < 2 ^ 32) :
    parsePlaintext (buildPlaintext seed nickname) = .ok (seed, nickname) := by
  have hseed : seed.val.length = seedLen := seed.property
  have hlen : (seed.val ++ leBytes 4 nickname.val.length).length = seedLen + 4 := by
    rw [List.length_append, leBytes_length, hseed]
  have htotal : (buildPlaintext seed nickname).length = seedLen + 4 + nickname.val.length := by
    rw [buildPlaintext, List.length_append, hlen]
  have hnick : leNat (slice (buildPlaintext seed nickname) seedLen (seedLen + 4)) =
      nickname.val.length := by
    rw [buildPlaintext, slice, List.append_assoc, List.drop_left' hseed, Nat.add_sub_cancel_left,
      List.take_left' (leBytes_length _ _)]
    exact leNat_leBytes hsize
  have hname : slice (buildPlaintext seed nickname) (seedLen + 4)
      (seedLen + 4 + nickname.val.length) = nickname.val := by
    rw [buildPlaintext, slice, List.drop_left' hlen, Nat.add_sub_cancel_left, List.take_length]
  have htake : (buildPlaintext seed nickname).take seedLen = seed.val := by
    rw [buildPlaintext, List.append_assoc, List.take_left' hseed]
  simp only [parsePlaintext, htotal, hnick, hname, htake, Array32.tryFrom_val]
  rw [if_neg (by omega), if_neg (by omega)]
  split
  · next e he =>
    rw [hnick, hname, nickname.property] at he
    cases he
  · rfl

theorem parts_of_take (e : Sealed) {n : Nat} (hn : saltLen + nonceLen ≤ n) :
    (e.output.take n).take saltLen = e.salt.val ∧
      slice (e.output.take n) saltLen (saltLen + nonceLen) = e.nonce.val ∧
      (e.output.take n).drop (saltLen + nonceLen) = e.ciphertext.take (n - (saltLen + nonceLen)) := by
  have hsalt : e.salt.val.length = saltLen := e.salt.property
  have hnonce : e.nonce.val.length = nonceLen := e.nonce.property
  have hboth : (e.salt.val ++ e.nonce.val).length = saltLen + nonceLen := by
    rw [List.length_append, hsalt, hnonce]
  have htake : e.output.take n = e.salt.val ++ e.nonce.val ++
      e.ciphertext.take (n - (saltLen + nonceLen)) := by
    rw [Sealed.output, List.take_append, hboth, List.take_of_length_le (hboth.trans_le hn)]
  refine ⟨?_, ?_, ?_⟩
  · rw [htake, List.append_assoc, List.take_left' hsalt]
  · rw [htake, slice, List.append_assoc, List.drop_left' hsalt, Nat.add_sub_cancel_left,
      List.take_left' hnonce]
  · rw [htake, List.drop_left' hboth]

/-- What `save_inner` seals. -/
structure Sealed.Valid (V : Vault) (e : Sealed) : Prop where
  encrypted : ∃ key, V.argon2 e.passphrase e.salt.val = .ok key ∧
    V.primitives.aesGcmEncrypt key e.nonce.val (buildPlaintext e.seed e.nickname) [] =
      some e.ciphertext

theorem saveInner_valid {seed : IdentitySeed} {nickname : Utf8} {passphrase : Bytes} {salt : Salt}
    {nonce : Nonce} {e : Sealed}
    (h : V.saveInner seed nickname passphrase salt nonce = .ok e) :
    e.Valid V ∧ e.salt = salt ∧ e.nickname = nickname := by
  obtain ⟨key, hkey, hencrypt⟩ := bind_eq_ok_iff.mp h
  have hkey : V.argon2 passphrase salt.val = .ok key := mapError_eq_ok_iff.mp hkey
  split at hencrypt
  · next ciphertext hciphertext =>
    cases hencrypt
    exact ⟨⟨key, hkey, hciphertext⟩, rfl, rfl⟩
  · cases hencrypt

theorem Sealed.Valid.length_output {e : Sealed} (h : e.Valid V) :
    saltLen + nonceLen + seedLen + 4 ≤ e.output.length := by
  obtain ⟨key, -, hencrypt⟩ := h.encrypted
  have hct := V.primitives.encrypt_length _ _ _ _ _ hencrypt
  have hsalt : e.salt.val.length = saltLen := e.salt.property
  have hnonce : e.nonce.val.length = nonceLen := e.nonce.property
  have hseed : e.seed.val.length = seedLen := e.seed.property
  simp only [buildPlaintext, List.length_append, leBytes_length, hseed] at hct
  simp only [Sealed.output, List.length_append, hsalt, hnonce, hct]
  omega

/-- What is assumed of an attempt with a passphrase: its key is that of no other passphrase or salt,
and what opens with it was sealed under it. -/
structure Genuine (V : Vault) (sealed : List Sealed) (data passphrase : Bytes) : Prop where
  key : ∀ e ∈ sealed, ∀ key, V.argon2 passphrase (data.take saltLen) = .ok key →
    V.argon2 e.passphrase e.salt.val = .ok key →
    passphrase = e.passphrase ∧ data.take saltLen = e.salt.val
  sealed : ∀ key plaintext, V.argon2 passphrase (data.take saltLen) = .ok key →
    V.primitives.aesGcmDecrypt key (slice data saltLen (saltLen + nonceLen))
      (data.drop (saltLen + nonceLen)) [] = some plaintext →
    ∃ e ∈ sealed, V.argon2 e.passphrase e.salt.val = .ok key ∧
      e.nonce.val = slice data saltLen (saltLen + nonceLen) ∧
      e.ciphertext = data.drop (saltLen + nonceLen)

theorem unlock_output {e : Sealed} (hvalid : e.Valid V) (hinverts : V.primitives.AesGcmInverts)
    (hsize : e.nickname.val.length < 2 ^ 32) :
    V.unlock (.ok e.output) e.passphrase = .ok (e.seed, e.nickname) := by
  obtain ⟨key, hkey, hencrypt⟩ := hvalid.encrypted
  have hlength := hvalid.length_output
  have hdecrypt := hinverts _ _ _ _ _ hencrypt
  obtain ⟨hsalt, hnonce, hciphertext⟩ :=
    parts_of_take e (n := e.output.length) (by simp only [saltLen, nonceLen, seedLen] at *; omega)
  rw [List.take_length] at hsalt hnonce hciphertext
  have hall : e.output.length - (saltLen + nonceLen) = e.ciphertext.length := by
    have hsaltLen : e.salt.val.length = saltLen := e.salt.property
    have hnonceLen : e.nonce.val.length = nonceLen := e.nonce.property
    simp only [Sealed.output, List.length_append, hsaltLen, hnonceLen]
    omega
  rw [hall, List.take_length] at hciphertext
  have hderive : V.deriveKey e.passphrase e.salt.val = .ok key := mapError_eq_ok_iff.mpr hkey
  rw [unlock, if_neg (not_lt.mpr hlength), hsalt, hnonce, hciphertext, hderive]
  simp only [bind, Except.bind, hdecrypt]
  exact parsePlaintext_buildPlaintext e.seed e.nickname hsize

theorem whole_of_unlock {e : Sealed} {sealed : List Sealed} {n : Nat} {passphrase : Bytes}
    {opened : IdentitySeed × Utf8}
    (hsalts : ∀ e' ∈ sealed, e'.salt = e.salt → e' = e)
    (hgenuine : V.Genuine sealed (e.output.take n) passphrase)
    (hunlock : V.unlock (.ok (e.output.take n)) passphrase = .ok opened) :
    e.output.length ≤ n ∧ passphrase = e.passphrase := by
  simp only [unlock] at hunlock
  split at hunlock
  · cases hunlock
  · next hlong =>
    have hn : saltLen + nonceLen ≤ n := by
      rw [List.length_take] at hlong
      omega
    obtain ⟨hsalt, hnonce, hciphertext⟩ := parts_of_take e hn
    obtain ⟨key, hkey, hopen⟩ := bind_eq_ok_iff.mp hunlock
    have hkey : V.argon2 passphrase ((e.output.take n).take saltLen) = .ok key :=
      mapError_eq_ok_iff.mp hkey
    split at hopen
    · next plaintext hdecrypt =>
      obtain ⟨e', he', hkey', -, hciphertext'⟩ := hgenuine.sealed key plaintext hkey hdecrypt
      obtain ⟨hpassphrase, hsalt'⟩ := hgenuine.key e' he' key hkey hkey'
      obtain rfl := hsalts e' he' (Subtype.ext (hsalt'.symm.trans hsalt))
      refine ⟨?_, hpassphrase⟩
      -- the ciphertext is all there
      have hall : e'.ciphertext.length ≤ n - (saltLen + nonceLen) := by
        have hlen := congrArg List.length (hciphertext'.trans hciphertext)
        rw [List.length_take] at hlen
        omega
      have hsaltLen : e'.salt.val.length = saltLen := e'.salt.property
      have hnonceLen : e'.nonce.val.length = nonceLen := e'.nonce.property
      simp only [Sealed.output, List.length_append, hsaltLen, hnonceLen]
      omega
    · cases hopen

end Vault

/-! ## Runs -/

namespace IdentityDisk

open Vault

variable {V : Vault} {d d' : IdentityDisk} {a : IdentityAction}

/-- Salts do not repeat, and the length of a nickname fits its field. -/
def fresh (d : IdentityDisk) : IdentityAction → Bool
  | .create _ nickname _ salt _ => salt ∉ d.sealed.map (·.salt) ∧ nickname.val.length < 2 ^ 32
  | .importMnemonic _ nickname _ salt _ =>
    salt ∉ d.sealed.map (·.salt) ∧ nickname.val.length < 2 ^ 32
  | _ => true

/-- What the file holds: nothing, or a prefix of what one save wrote, all of it if the save went
through. -/
inductive Holds (d : IdentityDisk) : Prop
  | nothing (file : d.file = none) (stored : d.stored = none)
  | torn {e n} (sealed : e ∈ d.sealed) (short : n < e.output.length)
      (file : d.file = some (e.output.take n)) (stored : d.stored = none)
  | whole {e} (sealed : e ∈ d.sealed) (file : d.file = some e.output) (stored : d.stored = some e)

structure Consistent (V : Vault) (d : IdentityDisk) : Prop where
  valid : ∀ e ∈ d.sealed, e.Valid V ∧ e.nickname.val.length < 2 ^ 32
  salts : ∀ e ∈ d.sealed, ∀ e' ∈ d.sealed, e'.salt = e.salt → e' = e
  saving : ∀ e written, d.saving = some (e, written) → e ∈ d.sealed
  writing : ∀ e written, d.saving = some (e, some written) → d.stored = none
  holds : d.Holds

namespace Consistent

theorem start : Consistent V start :=
  ⟨nofun, nofun, nofun, nofun, .nothing rfl rfl⟩

theorem save {sealed : Result Sealed} {nickname : Utf8} {salt : Salt} (h : Consistent V d)
    (hfresh : salt ∉ d.sealed.map (·.salt)) (hsize : nickname.val.length < 2 ^ 32)
    (hsealed : ∀ e, sealed = .ok e → e.Valid V ∧ e.salt = salt ∧ e.nickname = nickname)
    (hsave : d.save sealed = some d') : Consistent V d' := by
  simp only [IdentityDisk.save] at hsave
  split at hsave
  · cases hsave
  · split at hsave
    · cases hsave
      exact h
    · next e =>
      cases hsave
      obtain ⟨hvalid, hsalt, hnickname⟩ := hsealed e rfl
      have hnew : ∀ e' ∈ d.sealed, e'.salt ≠ e.salt := by
        intro e' he' heq
        exact hfresh (List.mem_map.mpr ⟨e', he', heq.trans hsalt⟩)
      refine ⟨?_, ?_, ?_, nofun, ?_⟩
      · intro e' he'
        rcases List.mem_append.mp he' with he' | he'
        · exact h.valid e' he'
        · rw [List.mem_singleton.mp he']
          exact ⟨hvalid, hnickname ▸ hsize⟩
      · intro e₁ he₁ e₂ he₂ heq
        rcases List.mem_append.mp he₁ with he₁ | he₁ <;> rcases List.mem_append.mp he₂ with he₂ | he₂
        · exact h.salts e₁ he₁ e₂ he₂ heq
        · rw [List.mem_singleton.mp he₂] at heq
          exact absurd heq.symm (hnew e₁ he₁)
        · rw [List.mem_singleton.mp he₁] at heq
          exact absurd heq (hnew e₂ he₂)
        · rw [List.mem_singleton.mp he₁, List.mem_singleton.mp he₂]
      · intro e' written hsaving
        obtain ⟨rfl, -⟩ := Prod.mk.inj (Option.some.inj hsaving)
        exact List.mem_append_right _ List.mem_cons_self
      · cases h.holds with
        | nothing file stored => exact .nothing file stored
        | torn sealed short file stored =>
          exact .torn (List.mem_append_left _ sealed) short file stored
        | whole sealed file stored => exact .whole (List.mem_append_left _ sealed) file stored

theorem step (h : Consistent V d) (hfresh : fresh d a = true)
    (hstep : IdentityDisk.step V d a = some d') : Consistent V d' := by
  cases a with
  | create seed nickname passphrase salt nonce =>
    obtain ⟨hsalt, hsize⟩ := of_decide_eq_true hfresh
    exact h.save hsalt hsize (fun e he => saveInner_valid he) hstep
  | importMnemonic phrase nickname passphrase salt nonce =>
    obtain ⟨hsalt, hsize⟩ := of_decide_eq_true hfresh
    refine h.save hsalt hsize (fun e he => ?_) hstep
    obtain ⟨seed, -, he⟩ := bind_eq_ok_iff.mp he
    exact saveInner_valid he
  | openFile =>
    simp only [IdentityDisk.step] at hstep
    split at hstep
    · next e hsaving =>
      cases hstep
      have he : e ∈ d.sealed := h.saving e none hsaving
      have hlength := (h.valid e he).1.length_output
      refine ⟨h.valid, h.salts, ?_, fun _ _ _ => rfl, ?_⟩
      · intro e' written hsaving'
        obtain ⟨rfl, -⟩ := Prod.mk.inj (Option.some.inj hsaving')
        exact he
      · refine .torn he (n := 0) ?_ rfl rfl
        simp only [saltLen] at hlength
        omega
    · cases hstep
  | write n =>
    simp only [IdentityDisk.step] at hstep
    split at hstep
    · next e written hsaving =>
      have he : e ∈ d.sealed := h.saving e _ hsaving
      split at hstep
      · next hpart =>
        cases hstep
        have hstored : d.stored = none := h.writing e written hsaving
        refine ⟨h.valid, h.salts, ?_, fun _ _ _ => hstored, .torn he hpart.2 rfl hstored⟩
        intro e' written' hsaving'
        obtain ⟨rfl, -⟩ := Prod.mk.inj (Option.some.inj hsaving')
        exact he
      · split at hstep
        · cases hstep
          exact ⟨h.valid, h.salts, nofun, nofun, .whole he rfl rfl⟩
        · cases hstep
    · cases hstep
  | stop =>
    cases hstep
    refine ⟨h.valid, h.salts, nofun, nofun, ?_⟩
    cases h.holds with
    | nothing file stored => exact .nothing file stored
    | torn sealed short file stored => exact .torn sealed short file stored
    | whole sealed file stored => exact .whole sealed file stored

end Consistent

/-- `unlock` succeeds exactly with the passphrase of the last save, if that went through, and gives
what it saved. -/
theorem identity_unlock_exact (hinverts : V.primitives.AesGcmInverts)
    (run : Run (IdentityDisk.step V) (fun d a => fresh d a = true) start d) (passphrase : Bytes)
    (hgenuine : ∀ data, d.file = some data → V.Genuine d.sealed data passphrase)
    (opened : IdentitySeed × Utf8) :
    V.unlock d.read passphrase = .ok opened ↔
      ∃ e, d.stored = some e ∧ e.passphrase = passphrase ∧ (e.seed, e.nickname) = opened := by
  have hd : Consistent V d := run.invariant (I := Consistent V) .start
    fun h hfresh hstep => h.step hfresh hstep
  cases hd.holds with
  | nothing file stored =>
    rw [read, file, stored]
    exact iff_of_false nofun nofun
  | @torn e n sealed short file stored =>
    rw [read, file, stored]
    refine iff_of_false (fun hunlock => ?_) nofun
    have hwhole := whole_of_unlock (hd.salts e sealed) (hgenuine _ file) hunlock
    omega
  | @whole e sealed file stored =>
    rw [read, file, stored]
    obtain ⟨hvalid, hsize⟩ := hd.valid e sealed
    have hopens := unlock_output hvalid hinverts hsize
    constructor
    · intro hunlock
      have hgenuine' : V.Genuine d.sealed (e.output.take e.output.length) passphrase := by
        rw [List.take_length]
        exact hgenuine _ file
      have hunlock' : V.unlock (.ok (e.output.take e.output.length)) passphrase = .ok opened := by
        rw [List.take_length]
        exact hunlock
      obtain ⟨-, rfl⟩ := whole_of_unlock (hd.salts e sealed) hgenuine' hunlock'
      exact ⟨e, rfl, rfl, Except.ok.inj (hopens.symm.trans hunlock)⟩
    · rintro ⟨e', heq, rfl, rfl⟩
      obtain rfl := Option.some.inj heq
      exact hopens

/-- A key and a tag that depend on all bytes. -/
def plainVault : Vault where
  primitives := Primitives.additiveGcm
  argon2 passphrase salt := .ok (Array32.ofNat (Primitives.polyHash (passphrase ++ salt)))
  parseMnemonic phrase := .ok phrase

def savedIdentity : Sealed :=
  ⟨ascii "pin", Array32.ofNat 5, ⟨ascii "al", by decide⟩, ⟨leBytes 16 1, leBytes_length _ _⟩,
    ⟨leBytes 12 2, leBytes_length _ _⟩, leBytes 16 (Primitives.polyHash ((Array32.ofNat
      (Primitives.polyHash (ascii "pin" ++ leBytes 16 1))).val ++ leBytes 12 2)) ++
      buildPlaintext (Array32.ofNat 5) ⟨ascii "al", by decide⟩⟩

theorem identity_unlock_exact_saved :
    ∃ d, exec (IdentityDisk.step plainVault) (fun d a => fresh d a = true) start
        [.create (Array32.ofNat 5) ⟨ascii "al", by decide⟩ (ascii "pin")
          ⟨leBytes 16 1, leBytes_length _ _⟩ ⟨leBytes 12 2, leBytes_length _ _⟩,
          .openFile, .write 50, .write 32] = some d ∧
      plainVault.unlock d.read (ascii "pin") =
        .ok (Array32.ofNat 5, ⟨ascii "al", by decide⟩) := by
  obtain ⟨d, hexec, hfile, hsealed, hstored⟩ :
      ∃ d, exec (IdentityDisk.step plainVault) (fun d a => fresh d a = true) start
          [.create (Array32.ofNat 5) ⟨ascii "al", by decide⟩ (ascii "pin")
            ⟨leBytes 16 1, leBytes_length _ _⟩ ⟨leBytes 12 2, leBytes_length _ _⟩,
            .openFile, .write 50, .write 32] = some d ∧
        d.file = some savedIdentity.output ∧ d.sealed = [savedIdentity] ∧
        d.stored = some savedIdentity :=
    ⟨_, rfl, rfl, rfl, rfl⟩
  refine ⟨d, hexec, (identity_unlock_exact Primitives.additive_inverts (Run.of_exec hexec) _ ?_ _).mpr
    ⟨savedIdentity, hstored, rfl, rfl⟩⟩
  intro data hdata
  rw [hfile] at hdata
  obtain rfl := Option.some.inj hdata
  rw [hsealed]
  constructor
  · intro e he key _ _
    rw [List.mem_singleton.mp he]
    exact ⟨rfl, rfl⟩
  · intro key plaintext hkey _
    exact ⟨savedIdentity, List.mem_cons_self, hkey, rfl, rfl⟩

end IdentityDisk

end Cypher.Client

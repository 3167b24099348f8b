import Cypher.Common.SecretFile

/-!
# Calls that load or create a secret

The calls share two files. At most one of them holds the temporary file at a time, since it is
created exclusively, and only its holder writes or renames it; so the final file is only ever
replaced by a complete secret (`secret_never_torn`). Two calls can still return different secrets:
one that saw no file may replace the file of another that was faster. That is the only way
(`secret_agreement`). A holder that stops before its rename leaves the temporary file behind, and
then no call succeeds any more (`secret_file_stuck`).
-/

namespace Cypher.SecretFile

open Lib

/-! ## The texts -/

/-- The two services word their failures alike, but for the two messages with a noun. -/
theorem text_eq_iff (path parent : String) (failure : Failure) :
    failure.text (keyStore path parent) = failure.text (onionIdentityFile path parent) ↔
      failure ≠ .move ∧ failure ≠ .missing := by
  have hnoun : (keyStore path parent).noun ≠ (onionIdentityFile path parent).noun :=
    show "secret" ≠ "relay identity" by decide
  have hpath : (keyStore path parent).path = (onionIdentityFile path parent).path := rfl
  have hparent : (keyStore path parent).parent = (onionIdentityFile path parent).parent := rfl
  have htemp : (keyStore path parent).tempPath = (onionIdentityFile path parent).tempPath :=
    congrArg (· ++ ".tmp") hpath
  generalize keyStore path parent = f, onionIdentityFile path parent = g at *
  cases failure with
  | read | length => exact iff_of_true (congrArg (_ ++ ·) hpath) ⟨nofun, nofun⟩
  | createParent => exact iff_of_true (congrArg (_ ++ ·) hparent) ⟨nofun, nofun⟩
  | createTemp | write | sync | restrict =>
    exact iff_of_true (congrArg (_ ++ ·) htemp) ⟨nofun, nofun⟩
  | move =>
    change _ ++ f.noun ++ _ ++ f.tempPath ++ _ ++ f.path = _ ++ g.noun ++ _ ++ _ ++ _ ++ _ ↔ _
    rw [htemp, hpath, String.append_left_inj, String.append_left_inj, String.append_left_inj,
      String.append_left_inj, String.append_right_inj]
    exact iff_of_false hnoun fun h => h.1 rfl
  | missing =>
    change _ ++ f.noun ++ _ ++ f.path = _ ++ g.noun ++ _ ++ _ ↔ _
    rw [hpath, String.append_left_inj, String.append_left_inj, String.append_right_inj]
    exact iff_of_false hnoun fun h => h.2 rfl

/-! ## The calls -/

/-- The call has created the temporary file and is not done with it. -/
def Pc.Holding : Pc → Prop
  | .write _ => True
  | .syncAll => True
  | .restrict => True
  | .rename => True
  | .reuse => True
  | .removeTemp => True
  | _ => False

def Pc.content (secret : Array32) : Pc → Bytes
  | .write written => secret.val.take written
  | _ => secret.val

/-- The call found no file and may still rename its own. -/
def Pc.Early : Pc → Prop
  | .createDirAll => True
  | .createNew => True
  | .write _ => True
  | .syncAll => True
  | .restrict => True
  | .rename => True
  | _ => False

/-! ## What a system call can do -/

/-- A system call that leaves both files alone. -/
structure Quiet (secret : Array32) (disk : Disk) (pc : Pc) (io : Io) (pc' : Pc) : Prop where
  holding : pc'.Holding → pc.Holding ∧ pc'.content secret = pc.content secret
  early : pc'.Early → pc.Early ∨ (pc = .check ∧ (io = .fail ∨ disk.final = none))
  returned : ∀ r, pc' = .returned r →
    r = readSecret disk ∨ ∃ e, r = .error e ∧ e ≠ .length

inductive Effect (secret : Array32) (disk : Disk) : Pc → Io → Disk → Pc → Prop
  | quiet {pc pc' : Pc} {io : Io} (h : Quiet secret disk pc io pc') :
      Effect secret disk pc io disk pc'
  | create (h : disk.temp = none) :
      Effect secret disk .createNew .ok { disk with temp := some [] } (.write 0)
  | write {written n : Nat} (hn : written + n ≤ 32) {pc' : Pc}
      (hpc : pc' = if written + n = 32 then .syncAll else .write (written + n)) :
      Effect secret disk (.write written) (.wrote n)
        { disk with temp := some (secret.val.take (written + n)) } pc'
  | rename {data : Bytes} (h : disk.temp = some data) :
      Effect secret disk .rename .ok ⟨some data, none⟩ .recheck
  | removeTemp : Effect secret disk .removeTemp .ok { disk with temp := none } .recheck

section Effects

variable {secret : Array32} {disk disk' : Disk} {pc pc' : Pc}

theorem onFail_effect (h : onFail pc = some pc') : Effect secret disk pc .fail disk pc' := by
  refine .quiet ?_
  cases pc <;> simp only [onFail, Option.some.injEq, reduceCtorEq] at h <;> subst h <;>
    constructor <;> simp [Pc.Holding, Pc.Early, Pc.content]

theorem onDie_effect (h : onDie pc = some pc') : Effect secret disk pc .die disk pc' := by
  refine .quiet ?_
  cases pc <;> simp only [onDie, Option.some.injEq, reduceCtorEq] at h <;> subst h <;>
    constructor <;> simp [Pc.Holding, Pc.Early]

theorem onOk_effect (h : onOk disk pc = some (disk', pc')) :
    Effect secret disk pc .ok disk' pc' := by
  cases pc with
  | check =>
    simp only [onOk, Option.some.injEq, Prod.mk.injEq] at h
    obtain ⟨rfl, rfl⟩ := h
    refine .quiet ?_
    cases hfinal : disk.final <;> constructor <;> simp [Pc.Holding, Pc.Early, hfinal]
  | load =>
    simp only [onOk, Option.some.injEq, Prod.mk.injEq] at h
    obtain ⟨rfl, rfl⟩ := h
    exact .quiet ⟨by simp [Pc.Holding], by simp [Pc.Early], by simp⟩
  | createDirAll =>
    simp only [onOk, Option.some.injEq, Prod.mk.injEq] at h
    obtain ⟨rfl, rfl⟩ := h
    exact .quiet ⟨by simp [Pc.Holding], by simp [Pc.Early], by simp⟩
  | createNew =>
    simp only [onOk] at h
    split at h <;> simp only [Option.some.injEq, Prod.mk.injEq] at h <;> obtain ⟨rfl, rfl⟩ := h
    · exact .quiet ⟨by simp [Pc.Holding], by simp [Pc.Early], by simp⟩
    · next htemp => exact .create (by simpa using htemp)
  | syncAll =>
    simp only [onOk, Option.some.injEq, Prod.mk.injEq] at h
    obtain ⟨rfl, rfl⟩ := h
    exact .quiet ⟨by simp [Pc.Holding, Pc.content], by simp [Pc.Early], by simp⟩
  | restrict =>
    simp only [onOk, Option.some.injEq, Prod.mk.injEq] at h
    obtain ⟨rfl, rfl⟩ := h
    exact .quiet ⟨by simp [Pc.Holding, Pc.content], by simp [Pc.Early], by simp⟩
  | rename =>
    simp only [onOk] at h
    split at h <;> simp only [Option.some.injEq, Prod.mk.injEq] at h <;> obtain ⟨rfl, rfl⟩ := h
    · next data htemp => exact .rename htemp
    · exact .quiet ⟨by simp [Pc.Holding, Pc.content], by simp [Pc.Early], by simp⟩
  | reuse =>
    simp only [onOk, Option.some.injEq, Prod.mk.injEq] at h
    obtain ⟨rfl, rfl⟩ := h
    refine .quiet ?_
    split <;> constructor <;> simp [Pc.Holding, Pc.Early, Pc.content]
  | removeTemp =>
    simp only [onOk, Option.some.injEq, Prod.mk.injEq] at h
    obtain ⟨rfl, rfl⟩ := h
    exact .removeTemp
  | recheck =>
    simp only [onOk, Option.some.injEq, Prod.mk.injEq] at h
    obtain ⟨rfl, rfl⟩ := h
    refine .quiet ?_
    split <;> constructor <;> simp [Pc.Holding, Pc.Early]
  | reload =>
    simp only [onOk, Option.some.injEq, Prod.mk.injEq] at h
    obtain ⟨rfl, rfl⟩ := h
    exact .quiet ⟨by simp [Pc.Holding], by simp [Pc.Early], by simp⟩
  | write written => cases h
  | returned r => cases h
  | died => cases h

theorem syscall_effect {io : Io} (h : syscall secret disk pc io = some (disk', pc')) :
    Effect secret disk pc io disk' pc' := by
  cases io with
  | ok => exact onOk_effect h
  | fail =>
    obtain ⟨pc'', hpc, heq⟩ := Option.map_eq_some_iff.mp h
    cases heq
    exact onFail_effect hpc
  | die =>
    obtain ⟨pc'', hpc, heq⟩ := Option.map_eq_some_iff.mp h
    cases heq
    exact onDie_effect hpc
  | wrote n =>
    simp only [syscall] at h
    split at h
    · split at h
      · next hn =>
        simp only [Option.some.injEq, Prod.mk.injEq] at h
        obtain ⟨rfl, rfl⟩ := h
        exact .write hn.2 rfl
      · cases h
    · cases h

end Effects

theorem step_effect {secret : CallId → Array32} {s t : System} {a : Action}
    (h : step secret s a = some t) :
    ∃ pc', Effect (secret a.call) s.disk (s.pc a.call) a.io t.disk pc' ∧
      t.pc = Function.update s.pc a.call pc' := by
  unfold step at h
  cases hcall : syscall (secret a.call) s.disk (s.pc a.call) a.io with
  | none => simp [hcall] at h
  | some r =>
    obtain ⟨disk, pc'⟩ := r
    simp only [hcall, Option.some.injEq] at h
    subst h
    exact ⟨pc', syscall_effect hcall, rfl⟩

/-! ## The temporary file has one holder -/

section Exclusive

variable {secret : CallId → Array32} {s t : System} {a : Action}

/-- There is at most one holder, and the temporary file is what it has written. -/
structure Exclusive (secret : CallId → Array32) (s : System) : Prop where
  temp_eq : ∀ c, (s.pc c).Holding → s.disk.temp = some ((s.pc c).content (secret c))
  unique : ∀ c d, (s.pc c).Holding → (s.pc d).Holding → c = d

theorem exclusive_start (final : Option Bytes) : Exclusive secret (System.start final) :=
  ⟨fun _ h => h.elim, fun _ _ h => h.elim⟩

theorem Exclusive.of_release {c : CallId} {pc' : Pc} (h : Exclusive secret s)
    (hold : (s.pc c).Holding) (hpc : ¬ pc'.Holding) (htpc : t.pc = Function.update s.pc c pc') :
    Exclusive secret t := by
  have hnone : ∀ d, ¬ (t.pc d).Holding := by
    intro d hd
    rw [htpc] at hd
    by_cases hdc : d = c
    · rw [hdc, Function.update_self] at hd
      exact hpc hd
    · rw [Function.update_of_ne hdc] at hd
      exact hdc (h.unique d c hd hold)
  exact ⟨fun d hd => (hnone d hd).elim, fun d _ hd => (hnone d hd).elim⟩

theorem Exclusive.of_only {c : CallId} {pc' : Pc}
    (hothers : ∀ d, d ≠ c → ¬ (s.pc d).Holding)
    (htemp : t.disk.temp = some (pc'.content (secret c)))
    (htpc : t.pc = Function.update s.pc c pc') : Exclusive secret t := by
  have honly : ∀ d, (t.pc d).Holding → d = c := by
    intro d hd
    by_contra hdc
    rw [htpc, Function.update_of_ne hdc] at hd
    exact hothers d hdc hd
  refine ⟨fun d hd => ?_, fun d e hd he => (honly d hd).trans (honly e he).symm⟩
  rw [honly d hd, htpc, Function.update_self]
  exact htemp

theorem Exclusive.step (h : Exclusive secret s) (hstep : step secret s a = some t) :
    Exclusive secret t := by
  obtain ⟨pc', heffect, htpc⟩ := step_effect hstep
  generalize hpc : s.pc a.call = pc at heffect
  generalize hdisk : t.disk = disk' at heffect
  generalize a.io = io at heffect
  cases heffect with
  | quiet hquiet =>
    have hback : ∀ d, (t.pc d).Holding →
        (s.pc d).Holding ∧ (t.pc d).content (secret d) = (s.pc d).content (secret d) := by
      intro d hd
      rw [htpc] at hd ⊢
      by_cases hdc : d = a.call
      · subst hdc
        rw [Function.update_self] at hd ⊢
        rw [hpc]
        exact hquiet.holding hd
      · rw [Function.update_of_ne hdc] at hd ⊢
        exact ⟨hd, rfl⟩
    refine ⟨fun d hd => ?_, fun d e hd he => h.unique d e (hback d hd).1 (hback e he).1⟩
    rw [hdisk, (hback d hd).2]
    exact h.temp_eq d (hback d hd).1
  | create htemp =>
    refine .of_only (fun d _ hd => ?_) (by rw [hdisk]; rfl) htpc
    have := h.temp_eq d hd
    rw [htemp] at this
    cases this
  | write hn hpc' =>
    have hold : (s.pc a.call).Holding := by rw [hpc]; trivial
    refine .of_only (fun d hdc hd => hdc (h.unique d a.call hd hold)) ?_ htpc
    rw [hdisk, hpc']
    split
    · next hfull =>
      rw [hfull]
      simp only [Pc.content]
      rw [List.take_of_length_le (secret a.call).property.le]
    · rfl
  | rename => exact h.of_release (by rw [hpc]; trivial) id htpc
  | removeTemp => exact h.of_release (by rw [hpc]; trivial) id htpc

end Exclusive

/-! ## The final file is complete -/

section Complete

variable {secret : CallId → Array32} {final₀ : Option Bytes} {s t : System} {a : Action}

/-- The secret was there at the start, or a call drew it. -/
def Genuine (secret : CallId → Array32) (final₀ : Option Bytes) (x : Array32) : Prop :=
  final₀ = some x.val ∨ ∃ c, x = secret c

structure Complete (secret : CallId → Array32) (final₀ : Option Bytes) (s : System) : Prop where
  final_genuine : ∀ b, s.disk.final = some b → ∃ x, b = x.val ∧ Genuine secret final₀ x
  returned_genuine : ∀ c x, s.pc c = .returned (.ok x) → Genuine secret final₀ x
  no_length_error : ∀ c, s.pc c ≠ .returned (.error .length)

theorem complete_start (h₀ : ∀ b, final₀ = some b → b.length = 32) :
    Complete secret final₀ (System.start final₀) where
  final_genuine b hb := ⟨⟨b, h₀ b hb⟩, rfl, Or.inl hb⟩
  returned_genuine _ _ h := nomatch h
  no_length_error _ h := nomatch h

theorem Complete.readSecret (h : Complete secret final₀ s) :
    readSecret s.disk = .error .read ∨
      ∃ x, readSecret s.disk = .ok x ∧ Genuine secret final₀ x := by
  unfold SecretFile.readSecret
  cases hfinal : s.disk.final with
  | none => exact Or.inl rfl
  | some b =>
    obtain ⟨x, rfl, hx⟩ := h.final_genuine b hfinal
    simp only [dif_pos x.property]
    exact Or.inr ⟨x, rfl, hx⟩

theorem Complete.of_final {c : CallId} {pc' : Pc} (h : Complete secret final₀ s)
    (htpc : t.pc = Function.update s.pc c pc') (hpc' : ∀ r, pc' ≠ .returned r)
    (hfinal : ∀ b, t.disk.final = some b → ∃ x, b = x.val ∧ Genuine secret final₀ x) :
    Complete secret final₀ t := by
  have hreturned : ∀ d r, t.pc d = .returned r → s.pc d = .returned r := by
    intro d r hd
    rw [htpc] at hd
    by_cases hdc : d = c
    · rw [hdc, Function.update_self] at hd
      exact (hpc' r hd).elim
    · rwa [Function.update_of_ne hdc] at hd
  exact ⟨hfinal, fun d x hd => h.returned_genuine d x (hreturned d _ hd),
    fun d hd => h.no_length_error d (hreturned d _ hd)⟩

theorem Complete.step (h : Complete secret final₀ s) (hexcl : Exclusive secret s)
    (hstep : step secret s a = some t) : Complete secret final₀ t := by
  obtain ⟨pc', heffect, htpc⟩ := step_effect hstep
  generalize hpc : s.pc a.call = pc at heffect
  generalize hdisk : t.disk = disk' at heffect
  generalize a.io = io at heffect
  cases heffect with
  | quiet hquiet =>
    have hresult : ∀ r, pc' = .returned r →
        (∀ x, r = .ok x → Genuine secret final₀ x) ∧ r ≠ .error .length := by
      intro r hr
      rcases hquiet.returned r hr with rfl | ⟨e, rfl, he⟩
      · rcases h.readSecret with hread | ⟨x, hread, hx⟩
        · rw [hread]
          exact ⟨(fun _ h => nomatch h), (fun h => nomatch h)⟩
        · rw [hread]
          exact ⟨fun y hy => by cases hy; exact hx, (fun h => nomatch h)⟩
      · exact ⟨(fun _ h => nomatch h), fun h => he (by cases h; rfl)⟩
    refine ⟨fun b hb => h.final_genuine b (hdisk ▸ hb), fun d x hd => ?_, fun d hd => ?_⟩
    · rw [htpc] at hd
      by_cases hdc : d = a.call
      · rw [hdc, Function.update_self] at hd
        exact (hresult _ hd).1 x rfl
      · rw [Function.update_of_ne hdc] at hd
        exact h.returned_genuine d x hd
    · rw [htpc] at hd
      by_cases hdc : d = a.call
      · rw [hdc, Function.update_self] at hd
        exact (hresult _ hd).2 rfl
      · rw [Function.update_of_ne hdc] at hd
        exact h.no_length_error d hd
  | create htemp =>
    exact h.of_final htpc (fun _ hr => nomatch hr) fun b hb =>
      h.final_genuine b (by rwa [hdisk] at hb)
  | write hn hpc' =>
    refine h.of_final htpc (fun r hr => ?_) fun b hb => h.final_genuine b (by rwa [hdisk] at hb)
    rw [hpc'] at hr
    split at hr <;> cases hr
  | rename htemp =>
    -- what is renamed is the holder's whole secret
    refine h.of_final htpc (fun _ hr => nomatch hr) fun b hb => ?_
    have hold := hexcl.temp_eq a.call (by rw [hpc]; trivial)
    rw [htemp, hpc] at hold
    rw [hdisk] at hb
    cases hb
    exact ⟨secret a.call, by simpa [Pc.content] using hold, Or.inr ⟨a.call, rfl⟩⟩
  | removeTemp =>
    exact h.of_final htpc (fun _ hr => nomatch hr) fun b hb =>
      h.final_genuine b (by rwa [hdisk] at hb)

/-- However the calls interleave, fail and die, the file holds nothing or a complete secret, which
was there before or was drawn by a call; every call that succeeds returns such a secret, and none
fails because of the file's length. -/
theorem secret_never_torn (secret : CallId → Array32) (final₀ : Option Bytes)
    (h₀ : ∀ b, final₀ = some b → b.length = 32) {s : System}
    (run : Run (step secret) (fun _ _ => True) (System.start final₀) s) :
    (∀ b, s.disk.final = some b → ∃ x, b = x.val ∧ Genuine secret final₀ x) ∧
      (∀ c x, s.pc c = .returned (.ok x) → Genuine secret final₀ x) ∧
      ∀ c, s.pc c ≠ .returned (.error .length) := by
  have hinv : Exclusive secret s ∧ Complete secret final₀ s :=
    run.invariant (I := fun s => Exclusive secret s ∧ Complete secret final₀ s)
      ⟨exclusive_start final₀, complete_start h₀⟩
      fun ⟨hexcl, hcomplete⟩ _ hstep => ⟨hexcl.step hstep, hcomplete.step hexcl hstep⟩
  exact ⟨hinv.2.final_genuine, hinv.2.returned_genuine, hinv.2.no_length_error⟩

/-- The system calls of a call that finds no file, all of them succeeding. -/
def createAll (c : CallId) : List Action :=
  [⟨c, .ok⟩, ⟨c, .ok⟩, ⟨c, .ok⟩, ⟨c, .wrote 32⟩, ⟨c, .ok⟩, ⟨c, .ok⟩, ⟨c, .ok⟩, ⟨c, .ok⟩, ⟨c, .ok⟩]

def sampleSecret (c : CallId) : Array32 :=
  ⟨List.replicate 32 (UInt8.ofNat c), List.length_replicate⟩

/-- A call that finds no file creates it. -/
theorem secret_never_torn_create : ∃ s,
    Run (step sampleSecret) (fun _ _ => True) (System.start none) s ∧
    s.pc 1 = .returned (.ok (sampleSecret 1)) ∧
    (∀ b, s.disk.final = some b → ∃ x, b = x.val ∧ Genuine sampleSecret none x) ∧
      (∀ c x, s.pc c = .returned (.ok x) → Genuine sampleSecret none x) ∧
      ∀ c, s.pc c ≠ .returned (.error .length) :=
  have hexec : exec (step sampleSecret) (fun _ _ => True) (System.start none) (createAll 1) =
    some _ := rfl
  have run := Run.of_exec hexec
  ⟨_, run, rfl, secret_never_torn sampleSecret none (fun _ h => nomatch h) run⟩

end Complete

/-! ## Agreement -/

section Agreement

variable {secret : CallId → Array32} {s t : System} {a : Action}

/-- No call looks for the file while another one that found none may still rename its own, and the
look does not fail. -/
def NoRace (s : System) (a : Action) : Prop :=
  s.pc a.call = .check → a.io ≠ .fail ∧ ∀ c, ¬ (s.pc c).Early

/-- There is no file while a call may still create it, and what was returned is in the file. -/
structure Agreed (s : System) : Prop where
  early_unique : ∀ c d, (s.pc c).Early → (s.pc d).Early → c = d
  early_none : ∀ c, (s.pc c).Early → s.disk.final = none
  returned_final : ∀ c x, s.pc c = .returned (.ok x) → s.disk.final = some x.val

theorem agreed_start (final : Option Bytes) : Agreed (System.start final) :=
  ⟨fun _ _ h => h.elim, fun _ h => h.elim, fun _ _ h => nomatch h⟩

theorem readSecret_eq_ok {disk : Disk} {x : Array32} (h : readSecret disk = .ok x) :
    disk.final = some x.val := by
  unfold readSecret at h
  split at h
  · cases h
  · next data hfinal =>
    split at h
    · cases h
      exact hfinal
    · cases h

theorem Agreed.of_early {c : CallId} {pc' : Pc} (h : Agreed s)
    (htpc : t.pc = Function.update s.pc c pc') (hfinal : t.disk.final = s.disk.final)
    (hearly : pc'.Early → (s.pc c).Early ∨ ((∀ d, ¬ (s.pc d).Early) ∧ s.disk.final = none))
    (hreturned : ∀ x, pc' = .returned (.ok x) → s.disk.final = some x.val) : Agreed t := by
  have hback : ∀ d, (t.pc d).Early →
      (s.pc d).Early ∨ (d = c ∧ (∀ e, ¬ (s.pc e).Early) ∧ s.disk.final = none) := by
    intro d hd
    rw [htpc] at hd
    by_cases hdc : d = c
    · subst hdc
      rw [Function.update_self] at hd
      exact (hearly hd).imp_right fun h => ⟨rfl, h⟩
    · rw [Function.update_of_ne hdc] at hd
      exact Or.inl hd
  refine ⟨fun d e hd he => ?_, fun d hd => ?_, fun d x hd => ?_⟩
  · rcases hback d hd with hd | ⟨rfl, hnone, -⟩ <;> rcases hback e he with he | ⟨rfl, hnone', -⟩
    · exact h.early_unique d e hd he
    · exact absurd hd (hnone' d)
    · exact absurd he (hnone e)
    · rfl
  · rw [hfinal]
    rcases hback d hd with hd | ⟨-, -, hnone⟩
    · exact h.early_none d hd
    · exact hnone
  · rw [hfinal]
    rw [htpc] at hd
    by_cases hdc : d = c
    · rw [hdc, Function.update_self] at hd
      exact hreturned x hd
    · rw [Function.update_of_ne hdc] at hd
      exact h.returned_final d x hd

theorem Agreed.step (h : Agreed s) (hguard : NoRace s a) (hstep : step secret s a = some t) :
    Agreed t := by
  obtain ⟨pc', heffect, htpc⟩ := step_effect hstep
  unfold NoRace at hguard
  generalize hpc : s.pc a.call = pc at heffect hguard
  generalize hdisk : t.disk = disk' at heffect
  generalize a.io = io at heffect hguard
  cases heffect with
  | quiet hquiet =>
    refine h.of_early htpc (by rw [hdisk]) (fun hearly => ?_) fun x hx => ?_
    · rcases hquiet.early hearly with hbefore | ⟨hcheck, hnone⟩
      · exact Or.inl (hpc ▸ hbefore)
      · obtain ⟨hio, hothers⟩ := hguard hcheck
        exact Or.inr ⟨hothers, hnone.resolve_left hio⟩
    · rcases hquiet.returned _ hx with hread | ⟨e, he, -⟩
      · exact readSecret_eq_ok hread.symm
      · cases he
  | create =>
    exact h.of_early htpc (by rw [hdisk]) (fun _ => Or.inl (by rw [hpc]; trivial))
      (fun _ hx => nomatch hx)
  | write hn hpc' =>
    refine h.of_early htpc (by rw [hdisk]) (fun _ => Or.inl (by rw [hpc]; trivial)) fun x hx => ?_
    rw [hpc'] at hx
    split at hx <;> cases hx
  | rename htemp =>
    -- the only early call, and no file yet
    have hearly : (s.pc a.call).Early := by rw [hpc]; trivial
    have hnone := h.early_none a.call hearly
    have hback : ∀ d, (t.pc d).Early → False := by
      intro d hd
      rw [htpc] at hd
      by_cases hdc : d = a.call
      · rw [hdc, Function.update_self] at hd
        exact hd
      · rw [Function.update_of_ne hdc] at hd
        exact hdc (h.early_unique d a.call hd hearly)
    refine ⟨fun d _ hd => (hback d hd).elim, fun d hd => (hback d hd).elim, fun d x hd => ?_⟩
    rw [htpc] at hd
    by_cases hdc : d = a.call
    · rw [hdc, Function.update_self] at hd
      cases hd
    · rw [Function.update_of_ne hdc] at hd
      have hreturned := h.returned_final d x hd
      rw [hnone] at hreturned
      cases hreturned
  | removeTemp =>
    exact h.of_early htpc (by rw [hdisk]) (fun hearly => hearly.elim) (fun _ hx => nomatch hx)

/-- Unless a call looks for the file while another may still create it, all calls that succeed
return one secret, and the file holds it. -/
theorem secret_agreement (secret : CallId → Array32) (final₀ : Option Bytes) {s : System}
    (run : Run (step secret) NoRace (System.start final₀) s) :
    (∀ c x, s.pc c = .returned (.ok x) → s.disk.final = some x.val) ∧
      ∀ c d x y, s.pc c = .returned (.ok x) → s.pc d = .returned (.ok y) → x = y := by
  have hagreed : Agreed s := run.invariant (agreed_start final₀) fun h hguard => h.step hguard
  refine ⟨hagreed.returned_final, fun c d x y hx hy => Subtype.ext (Option.some.inj ?_)⟩
  rw [← hagreed.returned_final c x hx, hagreed.returned_final d y hy]

/-- A call that creates the file and one that finds it. -/
theorem secret_agreement_twice : ∃ s,
    Run (step sampleSecret) NoRace (System.start none) s ∧
    s.pc 1 = .returned (.ok (sampleSecret 1)) ∧ s.pc 2 = .returned (.ok (sampleSecret 1)) ∧
    (∀ c x, s.pc c = .returned (.ok x) → s.disk.final = some x.val) ∧
      ∀ c d x y, s.pc c = .returned (.ok x) → s.pc d = .returned (.ok y) → x = y := by
  have hlook : step sampleSecret (System.start none) ⟨1, .ok⟩ =
    some ⟨⟨none, none⟩, Function.update (fun _ => .check) 1 .createDirAll⟩ := rfl
  have hcreate : exec (step sampleSecret) (fun s a => s.pc a.call ≠ .check)
    ⟨⟨none, none⟩, Function.update (fun _ => .check) 1 .createDirAll⟩ (createAll 1).tail =
      some _ := rfl
  have hfirst : Run (step sampleSecret) NoRace (System.start none) _ :=
    Run.refl.tail (fun _ => ⟨by decide, fun _ h => h⟩) hlook
  have hrun : Run (step sampleSecret) NoRace (System.start none) _ :=
    hfirst.trans ((Run.of_exec hcreate).mono fun _ _ hcheck h => absurd h hcheck)
  have hrun' := hrun.tail (a := ⟨2, .ok⟩) (fun _ => ⟨by decide, fun c hc => ?_⟩) rfl
  · have hdone := hrun'.tail (a := ⟨2, .ok⟩) (fun h => absurd h (by decide)) rfl
    exact ⟨_, hdone, rfl, rfl, secret_agreement sampleSecret none hdone⟩
  · by_cases h1 : c = 1
    · subst h1
      exact hc
    · simp [Function.update_of_ne h1, Pc.Early] at hc

end Agreement

/-! ## A temporary file left behind -/

section Stuck

variable {secret : CallId → Array32} {s t : System} {a : Action}

/-- The temporary file is there, no call holds it, and there is no final file. -/
structure Abandoned (s : System) : Prop where
  final_none : s.disk.final = none
  temp_some : s.disk.temp ≠ none
  no_holder : ∀ c, ¬ (s.pc c).Holding

theorem Abandoned.quiet (h : Abandoned s) (hstep : step secret s a = some t) :
    ∃ pc', Quiet (secret a.call) s.disk (s.pc a.call) a.io pc' ∧ t.disk = s.disk ∧
      t.pc = Function.update s.pc a.call pc' := by
  obtain ⟨pc', heffect, htpc⟩ := step_effect hstep
  have hholder := h.no_holder a.call
  generalize hpc : s.pc a.call = pc at heffect hholder
  generalize hdisk : t.disk = disk' at heffect
  generalize a.io = io at heffect
  cases heffect with
  | quiet hquiet => exact ⟨pc', hquiet, rfl, htpc⟩
  | create htemp => exact absurd htemp h.temp_some
  | write => exact absurd trivial hholder
  | rename => exact absurd trivial hholder
  | removeTemp => exact absurd trivial hholder

theorem Abandoned.step (h : Abandoned s) (hstep : step secret s a = some t) : Abandoned t := by
  obtain ⟨pc', hquiet, hdisk, htpc⟩ := h.quiet hstep
  refine ⟨by rw [hdisk]; exact h.final_none, by rw [hdisk]; exact h.temp_some, fun c hc => ?_⟩
  rw [htpc] at hc
  by_cases hca : c = a.call
  · rw [hca, Function.update_self] at hc
    exact h.no_holder a.call (hquiet.holding hc).1
  · rw [Function.update_of_ne hca] at hc
    exact h.no_holder c hc

theorem final_of_returned {final₀ : Option Bytes}
    (run : Run (SecretFile.step secret) (fun _ _ => True) (System.start final₀) s) {c : CallId}
    {x : Array32} (hc : s.pc c = .returned (.ok x)) : s.disk.final ≠ none := by
  have hinv : ∀ c x, s.pc c = .returned (.ok x) → s.disk.final ≠ none := by
    refine run.invariant (I := fun s => ∀ c x, s.pc c = .returned (.ok x) → s.disk.final ≠ none)
      (fun _ _ h => nomatch h) ?_
    intro s t a h _ hstep c x hc
    obtain ⟨pc', heffect, htpc⟩ := step_effect hstep
    rw [htpc] at hc
    generalize hpc : s.pc a.call = pc at heffect
    generalize hdisk : t.disk = disk' at heffect
    generalize a.io = io at heffect
    have hkept : c ≠ a.call → s.disk.final ≠ none := by
      intro hca
      rw [Function.update_of_ne hca] at hc
      exact h c x hc
    by_cases hca : c = a.call
    · rw [hca, Function.update_self] at hc
      cases heffect with
      | quiet hquiet =>
        rcases hquiet.returned _ hc with hread | ⟨e, he, -⟩
        · rw [readSecret_eq_ok hread.symm]
          simp
        · cases he
      | create => cases hc
      | write hn hpc' =>
        rw [hpc'] at hc
        split at hc <;> cases hc
      | rename => cases hc
      | removeTemp => cases hc
    · cases heffect with
      | quiet => exact hkept hca
      | create => exact hkept hca
      | write => exact hkept hca
      | rename => simp
      | removeTemp => exact hkept hca
  exact hinv c x hc

/-- When the holder of the temporary file stops being one without having renamed or removed it
(it died, or a system call failed), and there was no secret yet, then no call ever returns one
again: every later call fails to create the temporary file. -/
theorem secret_file_stuck (secret : CallId → Array32) {s s' t : System} {a : Action}
    (run : Run (SecretFile.step secret) (fun _ _ => True) (System.start none) s)
    (hold : (s.pc a.call).Holding) (hfinal : s.disk.final = none)
    (hstep : SecretFile.step secret s a = some s') (hdisk : s'.disk = s.disk)
    (hleft : ¬ (s'.pc a.call).Holding)
    (later : Run (SecretFile.step secret) (fun _ _ => True) s' t) :
    t.disk.final = none ∧ t.disk.temp ≠ none ∧ ∀ c x, t.pc c ≠ .returned (.ok x) := by
  have hexcl : Exclusive secret s :=
    run.invariant (exclusive_start none) fun h _ hstep => h.step hstep
  have habandoned : Abandoned s' := by
    refine ⟨hdisk ▸ hfinal, ?_, fun c hc => ?_⟩
    · rw [hdisk, hexcl.temp_eq a.call hold]
      simp
    · obtain ⟨pc', -, htpc⟩ := step_effect hstep
      by_cases hca : c = a.call
      · exact hleft (hca ▸ hc)
      · rw [htpc, Function.update_of_ne hca] at hc
        exact hca (hexcl.unique c a.call hc hold)
  have hlater : Abandoned t := later.invariant habandoned fun h _ hstep => h.step hstep
  refine ⟨hlater.final_none, hlater.temp_some, fun c x hc => ?_⟩
  exact final_of_returned ((run.tail trivial hstep).trans later) hc hlater.final_none

/-- A call that died after it had created the temporary file, and the next call. -/
theorem secret_file_stuck_died : ∃ s s' t,
    Run (SecretFile.step sampleSecret) (fun _ _ => True) (System.start none) s ∧
    s.pc 1 = .write 0 ∧ SecretFile.step sampleSecret s ⟨1, .die⟩ = some s' ∧
    Run (SecretFile.step sampleSecret) (fun _ _ => True) s' t ∧
    t.pc 2 = .returned (.error .createTemp) ∧
    t.disk.final = none ∧ t.disk.temp ≠ none ∧ ∀ c x, t.pc c ≠ .returned (.ok x) := by
  have hexec : exec (SecretFile.step sampleSecret) (fun _ _ => True) (System.start none)
    [⟨1, .ok⟩, ⟨1, .ok⟩, ⟨1, .ok⟩] =
      some ⟨⟨none, some []⟩, Function.update (Function.update (Function.update (fun _ => .check)
        1 .createDirAll) 1 .createNew) 1 (.write 0)⟩ := rfl
  have hstep : SecretFile.step sampleSecret ⟨⟨none, some []⟩, Function.update (Function.update
      (Function.update (fun _ => .check) 1 .createDirAll) 1 .createNew) 1 (.write 0)⟩ ⟨1, .die⟩ =
    some ⟨⟨none, some []⟩, Function.update (Function.update (Function.update (Function.update
      (fun _ => .check) 1 .createDirAll) 1 .createNew) 1 (.write 0)) 1 .died⟩ := rfl
  have hlater : exec (SecretFile.step sampleSecret) (fun _ _ => True) ⟨⟨none, some []⟩,
      Function.update (Function.update (Function.update (Function.update (fun _ => .check)
        1 .createDirAll) 1 .createNew) 1 (.write 0)) 1 .died⟩
      [⟨2, .ok⟩, ⟨2, .ok⟩, ⟨2, .ok⟩] = some _ := rfl
  exact ⟨_, _, _, Run.of_exec hexec, rfl, hstep, Run.of_exec hlater, rfl,
    secret_file_stuck sampleSecret (a := ⟨1, .die⟩) (Run.of_exec hexec) trivial rfl hstep rfl id
      (Run.of_exec hlater)⟩

end Stuck

end Cypher.SecretFile

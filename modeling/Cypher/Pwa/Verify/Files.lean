import Cypher.Lib.Lists
import Cypher.Pwa.Files

/-!
# Runs of the web client's file transfer

* `file_round_trip`: a file whose messages arrive in order, among the messages, timers and digests of any
  other files, is downloaded once and with its content.
* `download_matches_offer`: whatever arrives, a download was offered under its name, and has the offered
  digest unless the offer has none.

Both rest on the client being one machine per file id: an action touches one `FileState`.
-/

namespace Cypher.Pwa

open Lib

variable {sha256 : Bytes → Bytes} {f name content : Bytes}

/-! ## One machine per file -/

def FileAction.fileId? : FileAction → Option Bytes
  | .message m _ => m.fileId?
  | .digest fileId _ => some fileId
  | .timer fileId _ => some fileId
  | .elapse _ => none

def downloads (f : Bytes) (events : List FileEvent) : List (Bytes × Bytes) :=
  events.filterMap fun
    | .download fileId name content => if fileId = f then some (name, content) else none
    | _ => none

theorem downloads_append (f : Bytes) (events events' : List FileEvent) :
    downloads f (events ++ events') = downloads f events ++ downloads f events' :=
  List.filterMap_append

namespace FileClient

variable {s t : FileClient} {a : FileAction}

inductive Turns (sha256 : Bytes → Bytes) (now : Nat) (f : Bytes) (st : FileState) :
    FileAction → FileState → List (Bytes × Bytes) → Prop
  | other {b} (hother : b.fileId? ≠ some f) : Turns sha256 now f st b st []
  | message {m isOpen} (hsubject : m.fileId? = some f) :
      Turns sha256 now f st (.message m isOpen) (st.handle now m).1 []
  | accepted {i d} (hdigest : st.digests[i]? = some d)
      (hmatch : d.hash = [] ∨ sha256 d.content = d.hash) :
      Turns sha256 now f st (.digest f i)
        { st with buffer := none, digests := st.digests.eraseIdx i }
        [(sanitizeFilename d.name, d.content)]
  | rejected {i d} (hdigest : st.digests[i]? = some d) (hmismatch : sha256 d.content ≠ d.hash) :
      Turns sha256 now f st (.digest f i)
        { st with buffer := none, digests := st.digests.eraseIdx i } []
  | expired {i due label} (htimer : st.timers[i]? = some (due, label)) (hdue : due ≤ now) :
      Turns sha256 now f st (.timer f i) { st with buffer := none, timers := st.timers.eraseIdx i } []

theorem downloads_handle (st : FileState) (now : Nat) (m : ProtoMessage) (f : Bytes) :
    downloads f (st.handle now m).2.1 = [] := by
  unfold FileState.handle
  split
  · rfl
  · split <;> rfl
  · split <;> rfl
  · rfl

theorem files_set (s : FileClient) (g f : Bytes) (st : FileState) (events : List FileEvent) :
    (s.set g st events).files f = if f = g then st else s.files f :=
  Function.update_apply _ _ _ _

/-- A step changes the state of one file, and adds its events. -/
theorem turns_of_step (h : step sha256 s a = some t) (f : Bytes) :
    ∃ new, Turns sha256 s.now f (s.files f) a (t.files f) new ∧
      downloads f t.events = downloads f s.events ++ new := by
  cases a with
  | message m isOpen =>
    simp only [step] at h
    cases hsubject : m.fileId? with
    | none =>
      rw [hsubject] at h
      cases h
      exact ⟨[], .other (by simp [FileAction.fileId?, hsubject]), (List.append_nil _).symm⟩
    | some g =>
      rw [hsubject] at h
      cases h
      refine ⟨[], ?_, ?_⟩
      · show Turns sha256 s.now f (s.files f) _ ((s.set g ((s.files g).handle s.now m).1
          ((s.files g).handle s.now m).2.1).files f) []
        rw [files_set]
        split
        · next heq =>
          subst heq
          exact .message hsubject
        · next hne => exact .other (by simpa [FileAction.fileId?, hsubject] using Ne.symm hne)
      · show downloads f (s.events ++ _) = _
        rw [downloads_append, downloads_handle]
  | digest g i =>
    simp only [step, FileState.resolve] at h
    split at h
    · cases h
    · next st events hresolve =>
      cases h
      split at hresolve
      · cases hresolve
      · next d hdigest =>
        by_cases hf : f = g
        · subst hf
          split at hresolve
          · next hbad =>
            cases hresolve
            refine ⟨[], ?_, downloads_append _ _ _⟩
            rw [files_set, if_pos rfl]
            exact .rejected hdigest hbad.2
          · next hgood =>
            cases hresolve
            refine ⟨[(sanitizeFilename d.name, d.content)], ?_, ?_⟩
            · rw [files_set, if_pos rfl]
              refine .accepted hdigest ?_
              rw [not_and_or, not_lt, Nat.le_zero, List.length_eq_zero_iff, not_not] at hgood
              exact hgood
            · show downloads f (s.events ++ _) = _
              rw [downloads_append]
              simp [downloads]
        · refine ⟨[], ?_, ?_⟩
          · rw [files_set, if_neg hf]
            exact .other (by simpa [FileAction.fileId?] using Ne.symm hf)
          · show downloads f (s.events ++ _) = _
            rw [downloads_append]
            split at hresolve
            · cases hresolve
              rfl
            · cases hresolve
              simp [downloads, Ne.symm hf]
  | timer g i =>
    simp only [step, FileState.expire] at h
    split at h
    · cases h
    · next st events hexpire =>
      cases h
      split at hexpire
      · cases hexpire
      · next due name htimer =>
        split at hexpire
        · next hdue =>
          have hevents : downloads f events = [] := by
            split at hexpire <;> (cases hexpire; rfl)
          refine ⟨[], ?_, ?_⟩
          · rw [files_set]
            split
            · next hf =>
              subst hf
              have hst : st = { s.files f with
                  buffer := none, timers := (s.files f).timers.eraseIdx i } := by
                split at hexpire
                · cases hexpire
                  rfl
                · next hbuffer =>
                  cases hexpire
                  rw [Bool.not_eq_true, Option.isSome_eq_false_iff, Option.isNone_iff_eq_none]
                    at hbuffer
                  rw [hbuffer]
              rw [hst]
              exact .expired htimer hdue
            · next hf => exact .other (by simpa [FileAction.fileId?] using Ne.symm hf)
          · show downloads f (s.events ++ events) = _
            rw [downloads_append, hevents]
        · cases hexpire
  | elapse ms =>
    cases h
    exact ⟨[], .other (Option.some_ne_none f).symm, (List.append_nil _).symm⟩

theorem now_of_step (h : step sha256 s a = some t) : s.now ≤ t.now := by
  cases a with
  | message m isOpen =>
    simp only [step] at h
    split at h <;> (cases h; exact le_rfl)
  | digest g i =>
    simp only [step] at h
    split at h
    · cases h
    · cases h
      exact le_rfl
  | timer g i =>
    simp only [step] at h
    split at h
    · cases h
    · cases h
      exact le_rfl
  | elapse ms =>
    cases h
    exact Nat.le_add_right _ _

end FileClient

/-! ## The chunks of a file -/

theorem chunkAt_eq (content : Bytes) (i : Nat) :
    chunkAt content i = (content.drop (i * chunkSize)).take chunkSize := by
  rw [chunkAt, Proto.slice]
  rcases Nat.le_total (i * chunkSize + chunkSize) content.length with hle | hge
  · rw [Nat.min_eq_left hle, Nat.add_sub_cancel_left]
  · rw [Nat.min_eq_right hge, List.take_of_length_le, List.take_of_length_le]
    · rw [List.length_drop]
      omega
    · rw [List.length_drop]

theorem flatMap_chunkAt (content : Bytes) (n : Nat) :
    (List.range n).flatMap (chunkAt content) = content.take (n * chunkSize) := by
  induction n with
  | zero => simp
  | succ n ih =>
    rw [List.range_succ, List.flatMap_append, ih, List.flatMap_singleton, chunkAt_eq,
      Nat.succ_mul, List.take_add]

theorem length_le_totalChunks (content : Bytes) :
    content.length ≤ totalChunks content * chunkSize := by
  have hceil : content.length ≤ (content.length + chunkSize - 1) / chunkSize * chunkSize := by
    simp only [chunkSize]
    omega
  exact hceil.trans (Nat.mul_le_mul_right _ (Nat.le_max_left _ _))

def received (content : Bytes) (k : Nat) : List (Nat × Bytes) :=
  (List.range k).map fun i => (i, chunkAt content i)

theorem lookup_received (content : Bytes) (k i : Nat) :
    (received content k).lookup i = if i < k then some (chunkAt content i) else none :=
  lookup_map_range (chunkAt content) k i

def buffered (sha256 : Bytes → Bytes) (name content : Bytes) (k : Nat) : FileBuffer :=
  ⟨name, content.length, totalChunks content, received content k, sha256 content⟩

theorem setChunk_buffered (sha256 : Bytes → Bytes) (name content : Bytes) (k : Nat) :
    (buffered sha256 name content k).setChunk k (chunkAt content k) =
      buffered sha256 name content (k + 1) := by
  have hnew : (buffered sha256 name content k).chunks.lookup k = none := by
    show (received content k).lookup k = none
    rw [lookup_received, if_neg (Nat.lt_irrefl k)]
  rw [FileBuffer.setChunk, hnew]
  simp [buffered, received, List.range_succ]

theorem assembled_buffered (sha256 : Bytes → Bytes) (name content : Bytes) :
    (buffered sha256 name content (totalChunks content)).assembled = content := by
  have hchunks : ∀ i ∈ List.range (totalChunks content),
      ((received content (totalChunks content)).lookup i).getD [] = chunkAt content i := by
    intro i hi
    rw [lookup_received, if_pos (List.mem_range.mp hi), Option.getD_some]
  show (List.range (totalChunks content)).flatMap
    (fun i => ((received content (totalChunks content)).lookup i).getD []) = content
  rw [List.flatMap_congr hchunks, flatMap_chunkAt,
    List.take_of_length_le (length_le_totalChunks content)]

/-! ## A transfer among others -/

/-- A message without its peer id, which the gateway may replace. -/
def ProtoMessage.withoutPeer : ProtoMessage → ProtoMessage
  | .fileOffer _ fileId name size chunks hash compressed =>
    .fileOffer [] fileId name size chunks hash compressed
  | .fileChunk _ fileId index data hash ratchetKey msgNo =>
    .fileChunk [] fileId index data hash ratchetKey msgNo
  | .fileComplete _ fileId => .fileComplete [] fileId
  | m => m

def FileAction.message? (f : Bytes) : FileAction → Option ProtoMessage
  | .message m _ => if m.fileId? = some f then some m.withoutPeer else none
  | _ => none

theorem handle_withoutPeer (st : FileState) (now : Nat) (m : ProtoMessage) :
    (st.handle now m.withoutPeer).1 = (st.handle now m).1 := by
  cases m with
  | fileChunk =>
    simp only [ProtoMessage.withoutPeer, FileState.handle]
    cases st.buffer <;> rfl
  | _ => rfl

theorem message?_of_other {a : FileAction} (h : a.fileId? ≠ some f) : a.message? f = none := by
  cases a with
  | message m isOpen => exact if_neg h
  | _ => rfl

def remaining (sha256 : Bytes → Bytes) (f content : Bytes) (k : Nat) : List ProtoMessage :=
  (List.range' k (totalChunks content - k)).map
    (fun i => .fileChunk [] f i (chunkAt content i) (sha256 (chunkAt content i)) [] 0) ++
    [.fileComplete [] f]

/-- Where a transfer is: the messages that are still to come, the state of the file, and what was
downloaded of it. It began after `since`. -/
inductive Stage (sha256 : Bytes → Bytes) (f name content : Bytes) (since : Nat) :
    List ProtoMessage → FileState → List (Bytes × Bytes) → Prop
  | fresh : Stage sha256 f name content since (sendFile sha256 [] f name content) .empty []
  | receiving {k due} (hk : k ≤ totalChunks content) (hdue : since + fileTransferTimeoutMs ≤ due) :
      Stage sha256 f name content since (remaining sha256 f content k)
        ⟨some (buffered sha256 name content k), [(due, name)], []⟩ []
  | hashing {due} (hdue : since + fileTransferTimeoutMs ≤ due) :
      Stage sha256 f name content since []
        ⟨some (buffered sha256 name content (totalChunks content)), [(due, name)],
          [⟨name, sha256 content, content⟩]⟩ []
  | done {due} (hdue : since + fileTransferTimeoutMs ≤ due) :
      Stage sha256 f name content since [] ⟨none, [(due, name)], []⟩
        [(sanitizeFilename name, content)]

theorem remaining_lt {k : Nat} (hk : k < totalChunks content) :
    remaining sha256 f content k =
      .fileChunk [] f k (chunkAt content k) (sha256 (chunkAt content k)) [] 0 ::
        remaining sha256 f content (k + 1) := by
  obtain ⟨n, hn⟩ : ∃ n, totalChunks content - k = n + 1 := ⟨totalChunks content - k - 1, by omega⟩
  have hnext : totalChunks content - (k + 1) = n := by omega
  rw [remaining, remaining, hn, hnext, List.range'_succ]
  rfl

theorem remaining_all : remaining sha256 f content (totalChunks content) = [.fileComplete [] f] := by
  rw [remaining, Nat.sub_self]
  rfl

theorem sendFile_eq : sendFile sha256 [] f name content =
    .fileOffer [] f name content.length (totalChunks content) (sha256 content) 0 ::
      remaining sha256 f content 0 := by
  rw [sendFile, remaining, Nat.sub_zero, ← List.range_eq_range', List.cons_append]

theorem Stage.message {since now : Nat} {m : ProtoMessage} {rest : List ProtoMessage}
    {st : FileState} {got : List (Bytes × Bytes)}
    (h : Stage sha256 f name content since (m :: rest) st got) (hnow : since ≤ now) :
    Stage sha256 f name content since rest (st.handle now m).1 got := by
  generalize hall : m :: rest = all at h
  cases h with
  | fresh =>
    rw [sendFile_eq] at hall
    obtain ⟨rfl, rfl⟩ := List.cons.inj hall
    exact .receiving (k := 0) (Nat.zero_le _) (Nat.add_le_add_right hnow _)
  | @receiving k due hk hdue =>
    rcases Nat.lt_or_eq_of_le hk with hlt | rfl
    · rw [remaining_lt hlt] at hall
      obtain ⟨rfl, rfl⟩ := List.cons.inj hall
      simp only [FileState.handle, setChunk_buffered]
      exact .receiving hlt hdue
    · rw [remaining_all] at hall
      obtain ⟨rfl, rfl⟩ := List.cons.inj hall
      simp only [FileState.handle, assembled_buffered, List.nil_append]
      exact .hashing hdue
  | hashing hdue => cases hall
  | done hdue => cases hall

theorem Stage.turn {since now : Nat} {a : FileAction} {messages rest : List ProtoMessage}
    {st st' : FileState} {got new : List (Bytes × Bytes)}
    (h : Stage sha256 f name content since messages st got) (hnow : since ≤ now)
    (hshort : now < since + fileTransferTimeoutMs)
    (hmessages : messages = (a.message? f).toList ++ rest)
    (hturn : FileClient.Turns sha256 now f st a st' new) :
    Stage sha256 f name content since rest st' (got ++ new) := by
  cases hturn with
  | other hother =>
    rw [message?_of_other hother, Option.toList_none, List.nil_append] at hmessages
    rw [List.append_nil]
    exact hmessages ▸ h
  | message hsubject =>
    rw [FileAction.message?, if_pos hsubject] at hmessages
    subst hmessages
    rw [List.append_nil, ← handle_withoutPeer]
    exact h.message hnow
  | accepted hdigest hmatch =>
    have hmessages : messages = rest := hmessages
    subst hmessages
    cases h with
    | fresh => cases hdigest
    | receiving => cases hdigest
    | hashing hdue =>
      obtain ⟨rfl, rfl⟩ := of_getElem?_singleton hdigest
      exact .done hdue
    | done => cases hdigest
  | rejected hdigest hmismatch =>
    cases h with
    | fresh => cases hdigest
    | receiving => cases hdigest
    | hashing hdue =>
      obtain ⟨rfl, rfl⟩ := of_getElem?_singleton hdigest
      exact absurd rfl hmismatch
    | done => cases hdigest
  | expired htimer hdue =>
    -- the timer of this transfer is not due
    have hlate : ∀ {due'}, since + fileTransferTimeoutMs ≤ due' → ∀ {i due : Nat} {label : Bytes},
        [(due', name)][i]? = some (due, label) → ¬ due ≤ now := by
      intro due' hdue' i due label htimer
      obtain ⟨-, heq⟩ := of_getElem?_singleton htimer
      rw [(Prod.mk.inj heq).1] at hdue'
      omega
    cases h with
    | fresh => cases htimer
    | receiving _ hdue' => exact absurd hdue (hlate hdue' htimer)
    | hashing hdue' => exact absurd hdue (hlate hdue' htimer)
    | done hdue' => exact absurd hdue (hlate hdue' htimer)

/-! ## Whole runs -/

theorem FileClient.now_of_exec {s t : FileClient} {actions : List FileAction}
    (hexec : exec (FileClient.step sha256) (fun _ _ => True) s actions = some t) :
    s.now ≤ t.now :=
  (Run.of_exec hexec).invariant (I := fun u => s.now ≤ u.now) le_rfl
    fun hle _ hstep => hle.trans (FileClient.now_of_step hstep)

theorem Stage.exec {since : Nat} {actions : List FileAction} {s t : FileClient}
    {got : List (Bytes × Bytes)}
    (h : Stage sha256 f name content since (actions.filterMap (·.message? f)) (s.files f) got)
    (hnow : since ≤ s.now) (hshort : t.now < since + fileTransferTimeoutMs)
    (hexec : exec (FileClient.step sha256) (fun _ _ => True) s actions = some t) :
    ∃ new, Stage sha256 f name content since [] (t.files f) (got ++ new) ∧
      downloads f t.events = downloads f s.events ++ new := by
  induction actions generalizing s got with
  | nil =>
    obtain rfl := Option.some.inj hexec
    refine ⟨[], ?_, (List.append_nil _).symm⟩
    rw [List.append_nil]
    exact h
  | cons a rest ih =>
    simp only [Lib.exec, if_true] at hexec
    obtain ⟨u, hstep, hexec⟩ := Option.bind_eq_some_iff.mp hexec
    obtain ⟨new, hturn, hevents⟩ := FileClient.turns_of_step hstep f
    have hle : s.now ≤ u.now := FileClient.now_of_step hstep
    have hend : u.now ≤ t.now := FileClient.now_of_exec hexec
    have hmessages : (a :: rest).filterMap (·.message? f) =
        (a.message? f).toList ++ rest.filterMap (·.message? f) := by
      rw [List.filterMap_cons]
      cases a.message? f <;> rfl
    have hnext : Stage sha256 f name content since (rest.filterMap (·.message? f)) (u.files f)
        (got ++ new) := h.turn hnow (by omega) hmessages hturn
    obtain ⟨later, hstage, hlater⟩ := ih hnext (hnow.trans hle) hexec
    refine ⟨new ++ later, ?_, ?_⟩
    · rw [← List.append_assoc]
      exact hstage
    · rw [hlater, hevents, List.append_assoc]

/-- A file arrives: if within five minutes the messages about `f` are those of `sendFile`, in their
order and with any peer ids, and its digest has been computed, then it was downloaded once, whatever
happened to other files meanwhile. -/
theorem file_round_trip {s t : FileClient} {actions : List FileAction}
    (hfresh : s.files f = .empty)
    (hexec : exec (FileClient.step sha256) (fun _ _ => True) s actions = some t)
    (hshort : t.now < s.now + fileTransferTimeoutMs)
    (hmessages : actions.filterMap (·.message? f) = sendFile sha256 [] f name content)
    (hdone : (t.files f).digests = []) :
    downloads f t.events = downloads f s.events ++ [(sanitizeFilename name, content)] := by
  have hstart : Stage sha256 f name content s.now (actions.filterMap (·.message? f)) (s.files f)
      [] := by
    rw [hmessages, hfresh]
    exact .fresh
  obtain ⟨new, hstage, hevents⟩ := hstart.exec le_rfl hshort hexec
  rw [hevents]
  congr 1
  generalize hrest : ([] : List ProtoMessage) = rest at hstage
  generalize hst : t.files f = st at hstage hdone
  rw [List.nil_append] at hstage
  cases hstage with
  | fresh =>
    rw [sendFile_eq] at hrest
    cases hrest
  | receiving =>
    rw [remaining] at hrest
    exact absurd hrest.symm (by simp)
  | hashing => cases hdone
  | done => rfl

/-- Two files, the second without a digest and without its chunk. -/
def twoFiles : List FileAction :=
  [.message (.fileOffer [9] [1] (ascii "a/b") 2 1 [8, 7] 0) true,
    .message (.fileOffer [9] [2] (ascii "c") 5 1 [] 0) true, .elapse 1000,
    .message (.fileChunk [9] [1] 0 [7, 8] [8, 7] [] 0) false, .message (.fileComplete [3] [2]) true,
    .message (.fileComplete [9] [1]) true, .digest [2] 0, .digest [1] 0]

theorem file_round_trip_two :
    ∃ t, exec (FileClient.step List.reverse) (fun _ _ => True) .start twoFiles = some t ∧
      downloads [1] t.events = [(ascii "a_b", [7, 8])] := by
  have hexec : exec (FileClient.step List.reverse) (fun _ _ => True) .start twoFiles = some _ := rfl
  have hdownload := @file_round_trip List.reverse [1] (ascii "a/b") [7, 8] _ _ _ rfl hexec
    (by decide) (by decide) (by decide)
  exact ⟨_, hexec, hdownload⟩

/-! ## What is downloaded -/

def offers (f : Bytes) (actions : List FileAction) : List (Bytes × Bytes) :=
  actions.filterMap fun
    | .message (.fileOffer _ fileId name _ _ hash _) _ =>
      if fileId = f then some (name, hash) else none
    | _ => none

def completions (f : Bytes) (actions : List FileAction) : List FileAction :=
  actions.filter fun
    | .message (.fileComplete _ fileId) _ => fileId = f
    | _ => false

/-- What is kept and what was downloaded of `f` comes from an offer, and from a completion. -/
structure Backed (sha256 : Bytes → Bytes) (f : Bytes) (past : List FileAction) (st : FileState)
    (got : List (Bytes × Bytes)) : Prop where
  buffer : ∀ buf, st.buffer = some buf → (buf.name, buf.hash) ∈ offers f past
  digests : ∀ d ∈ st.digests, (d.name, d.hash) ∈ offers f past
  downloaded : ∀ n c, (n, c) ∈ got → ∃ name hash, (name, hash) ∈ offers f past ∧
    n = sanitizeFilename name ∧ (hash = [] ∨ sha256 c = hash)
  count : got.length + st.digests.length ≤ (completions f past).length

namespace Backed

variable {past : List FileAction} {st st' : FileState} {got new : List (Bytes × Bytes)}
  {a : FileAction}

theorem offers_append (f : Bytes) (past : List FileAction) (a : FileAction) :
    offers f (past ++ [a]) = offers f past ++ offers f [a] :=
  List.filterMap_append

theorem later (h : Backed sha256 f past st got) (a : FileAction) :
    Backed sha256 f (past ++ [a]) st got where
  buffer buf hbuf := by
    rw [offers_append]
    exact List.mem_append_left _ (h.buffer buf hbuf)
  digests d hd := by
    rw [offers_append]
    exact List.mem_append_left _ (h.digests d hd)
  downloaded n c hget := by
    obtain ⟨name, hash, hoffer, hname⟩ := h.downloaded n c hget
    refine ⟨name, hash, ?_, hname⟩
    rw [offers_append]
    exact List.mem_append_left _ hoffer
  count := by
    have hcount := h.count
    rw [completions, List.filter_append, List.length_append]
    rw [completions] at hcount
    omega

theorem message {m : ProtoMessage} {now : Nat} {isOpen : Bool} (h : Backed sha256 f past st got)
    (hsubject : m.fileId? = some f) :
    Backed sha256 f (past ++ [.message m isOpen]) (st.handle now m).1 got := by
  have hlater := h.later (.message m isOpen)
  cases m with
  | fileOffer peerId fileId name size chunks hash compressed =>
    obtain rfl := Option.some.inj hsubject
    refine ⟨?_, hlater.digests, hlater.downloaded, hlater.count⟩
    intro buf hbuf
    obtain rfl := Option.some.inj hbuf
    rw [offers_append]
    exact List.mem_append_right _ (by simp [offers])
  | fileChunk peerId fileId index data hash ratchetKey msgNo =>
    simp only [FileState.handle]
    cases hbuffer : st.buffer with
    | none => exact hlater
    | some buf =>
      refine ⟨?_, hlater.digests, hlater.downloaded, hlater.count⟩
      intro buf' hbuf'
      obtain rfl := Option.some.inj hbuf'
      have hoffer := hlater.buffer buf hbuffer
      unfold FileBuffer.setChunk
      split <;> exact hoffer
  | fileComplete peerId fileId =>
    obtain rfl := Option.some.inj hsubject
    simp only [FileState.handle]
    cases hbuffer : st.buffer with
    | none => exact hlater
    | some buf =>
      refine ⟨?_, ?_, hlater.downloaded, ?_⟩
      · intro buf' hbuf'
        exact hlater.buffer buf' (hbuffer ▸ hbuf')
      · intro d hd
        rcases List.mem_append.mp hd with hd | hd
        · exact hlater.digests d hd
        · obtain rfl := List.mem_singleton.mp hd
          exact hlater.buffer buf hbuffer
      · have hcount := h.count
        rw [completions] at hcount
        simp only [completions, List.filter_append, List.length_append, List.filter_cons,
          List.filter_nil, List.length_cons, List.length_nil, decide_true, if_true]
        omega
  | _ => cases hsubject

theorem resolved {i : Nat} {d : Digest} (h : Backed sha256 f past st got)
    (hdigest : st.digests[i]? = some d)
    (hnew : ∀ n c, (n, c) ∈ new → n = sanitizeFilename d.name ∧ (d.hash = [] ∨ sha256 c = d.hash))
    (hone : new.length ≤ 1) :
    Backed sha256 f past { st with buffer := none, digests := st.digests.eraseIdx i }
      (got ++ new) := by
  obtain ⟨hi, -⟩ := List.getElem?_eq_some_iff.mp hdigest
  refine ⟨nofun, fun e he => h.digests e (List.mem_of_mem_eraseIdx he), ?_, ?_⟩
  · intro n c hget
    rcases List.mem_append.mp hget with hget | hget
    · exact h.downloaded n c hget
    · obtain ⟨hname, hhash⟩ := hnew n c hget
      exact ⟨d.name, d.hash, h.digests d (List.mem_of_getElem? hdigest), hname, hhash⟩
  · have hcount := h.count
    rw [List.length_append, List.length_eraseIdx_of_lt hi]
    omega

theorem turn {now : Nat} (h : Backed sha256 f past st got)
    (hturn : FileClient.Turns sha256 now f st a st' new) :
    Backed sha256 f (past ++ [a]) st' (got ++ new) := by
  cases hturn with
  | other =>
    rw [List.append_nil]
    exact h.later a
  | message hsubject =>
    rw [List.append_nil]
    exact h.message hsubject
  | accepted hdigest hmatch =>
    refine (h.later _).resolved hdigest ?_ le_rfl
    intro n c hget
    obtain ⟨rfl, rfl⟩ := Prod.mk.inj (List.mem_singleton.mp hget)
    exact ⟨rfl, hmatch⟩
  | rejected hdigest => exact (h.later _).resolved hdigest nofun (Nat.zero_le _)
  | expired =>
    rw [List.append_nil]
    exact ⟨nofun, (h.later _).digests, (h.later _).downloaded, (h.later _).count⟩

theorem exec {actions : List FileAction} {s t : FileClient}
    (h : Backed sha256 f past (s.files f) (downloads f s.events))
    (hexec : exec (FileClient.step sha256) (fun _ _ => True) s actions = some t) :
    Backed sha256 f (past ++ actions) (t.files f) (downloads f t.events) := by
  induction actions generalizing s past with
  | nil =>
    obtain rfl := Option.some.inj hexec
    rw [List.append_nil]
    exact h
  | cons a rest ih =>
    simp only [Lib.exec, if_true] at hexec
    obtain ⟨u, hstep, hexec⟩ := Option.bind_eq_some_iff.mp hexec
    obtain ⟨new, hturn, hevents⟩ := FileClient.turns_of_step hstep f
    have hnext : Backed sha256 f (past ++ [a]) (u.files f) (downloads f u.events) := by
      rw [hevents]
      exact h.turn hturn
    rw [List.append_cons]
    exact ih hnext hexec

end Backed

/-- Whatever arrives, in whatever order timers and digests run: each download of a file has the
name of an offer of that file and, unless the offer had no digest, its digest; and there are no more
downloads than completions. -/
theorem download_matches_offer {actions : List FileAction} {t : FileClient}
    (hexec : exec (FileClient.step sha256) (fun _ _ => True) .start actions = some t) (f : Bytes) :
    (∀ n c, (n, c) ∈ downloads f t.events → ∃ name hash, (name, hash) ∈ offers f actions ∧
      n = sanitizeFilename name ∧ (hash = [] ∨ sha256 c = hash)) ∧
    (downloads f t.events).length ≤ (completions f actions).length := by
  have hstart : Backed sha256 f [] (FileClient.start.files f) (downloads f FileClient.start.events) :=
    ⟨nofun, nofun, nofun, Nat.le_refl 0⟩
  have hend := hstart.exec hexec
  rw [List.nil_append] at hend
  exact ⟨hend.downloaded, (Nat.le_add_right _ _).trans hend.count⟩

/-- A completion that is repeated before the first digest resolves. -/
def completedTwice : List FileAction :=
  [.message (.fileOffer [9] [1] (ascii "a") 2 1 [8, 7] 0) true,
    .message (.fileChunk [9] [1] 0 [7, 8] [] [] 0) true, .message (.fileComplete [9] [1]) true,
    .message (.fileComplete [9] [1]) true, .digest [1] 1, .digest [1] 0]

/-- Both completions give a download: the bound is reached. -/
theorem download_matches_offer_twice :
    ∃ t, exec (FileClient.step List.reverse) (fun _ _ => True) .start completedTwice = some t ∧
      downloads [1] t.events = [(ascii "a", [7, 8]), (ascii "a", [7, 8])] ∧
      (downloads [1] t.events).length ≤ (completions [1] completedTwice).length := by
  have hexec : exec (FileClient.step List.reverse) (fun _ _ => True) .start completedTwice =
    some _ := rfl
  exact ⟨_, hexec, by decide, (download_matches_offer hexec [1]).2⟩

end Cypher.Pwa

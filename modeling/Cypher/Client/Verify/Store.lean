import Cypher.Client.Store
import Cypher.Transfer.Verify.Reassembly

/-!
# What the store keeps across a restart

An inbox id is a column of a conversation: saving it for a peer without one succeeds and keeps
nothing. A ratchet state has a table of its own, but a restart looks for it by the conversations. The
two columns are followed through a run by one rule (`run_eq_some_iff`): no operation other than their
own save gives them a value, and those that `Wipe` them take it.
-/

namespace Cypher.Client.Store

open Crypto Transfer

variable {Key Secret : Type} {E : StoreSuite Key Secret} {store : Store} {io : StoreIo}

/-! ## Calls and their statements -/

theorem locked_eq_ok_iff : locked io = .ok () ↔ io 0 = none := by
  unfold locked
  cases io 0 with
  | none => exact iff_of_true rfl rfl
  | some e => exact iff_of_false (fun h => nomatch h) (fun h => nomatch h)

theorem andThen_statement {done : Store × Result Unit} {n : Nat} {label : String}
    {effect : Store → Store} (hdone : done.2 = .ok () ↔ io.Succeeds n) :
    (andThen done (statement io n label effect)).2 = .ok () ↔ io.Succeeds (n + 1) := by
  have hsucc : io.Succeeds (n + 1) ↔ io.Succeeds n ∧ io n = none := by
    unfold StoreIo.Succeeds
    exact Nat.forall_lt_succ_right
  rw [hsucc, ← hdone]
  unfold andThen
  cases hresult : done.2 with
  | error err => exact iff_of_false (fun h => nomatch h) (fun h => nomatch h.1)
  | ok _ =>
    dsimp only [statement]
    cases io n with
    | none => exact iff_of_true rfl ⟨rfl, rfl⟩
    | some e => exact iff_of_false (fun h => nomatch h) (fun h => nomatch h.2)

theorem column_andThen_statement {β : Type} (f : Store → β) {done : Store × Result Unit} {n : Nat}
    {label : String} {effect : Store → Store} (hdone : done.2 = .ok () ↔ io.Succeeds n) :
    f (andThen done (statement io n label effect)).1 =
      if io.Succeeds (n + 1) then f (effect done.1) else f done.1 := by
  have hok : (andThen done (statement io n label effect)).2 = .ok () ↔ io.Succeeds (n + 1) :=
    andThen_statement hdone
  unfold andThen at hok ⊢
  cases hresult : done.2 with
  | error err =>
    rw [hresult] at hok
    rw [if_neg fun h => nomatch hok.mpr h]
  | ok _ =>
    rw [hresult] at hok
    dsimp only [statement] at hok ⊢
    cases hio : io n with
    | none =>
      rw [hio] at hok
      rw [if_pos (hok.mp rfl)]
    | some e =>
      rw [hio] at hok
      rw [if_neg fun h => nomatch hok.mpr h]

theorem locked_succeeds (store : Store) : (store, locked io).2 = .ok () ↔ io.Succeeds 1 := by
  rw [locked_eq_ok_iff]
  unfold StoreIo.Succeeds
  exact ⟨fun h i hi => by rwa [Nat.lt_one_iff.mp hi], fun h => h 0 Nat.one_pos⟩

theorem andThen_keeps {β : Type} (f : Store → β) {done : Store × Result Unit}
    {next : Store → Store × Result Unit} (hnext : ∀ store, f (next store).1 = f store) :
    f (andThen done next).1 = f done.1 := by
  unfold andThen
  split
  · exact hnext _
  · rfl

theorem statement_keeps {β : Type} (f : Store → β) {i : Nat} {label : String}
    {effect : Store → Store} (heffect : ∀ store, f (effect store) = f store) (store : Store) :
    f (statement io i label effect store).1 = f store := by
  unfold statement
  split
  · exact heffect _
  · rfl

theorem andThen_statement_keeps {β : Type} (f : Store → β) {done : Store × Result Unit} {i : Nat}
    {label : String} {effect : Store → Store} (heffect : ∀ store, f (effect store) = f store) :
    f (andThen done (statement io i label effect)).1 = f done.1 :=
  andThen_keeps f (statement_keeps f heffect)

/-! ## The two columns -/

def inbox (peer : PeerId) (store : Store) : Option Bytes :=
  (store.conversations.lookup peer.val).bind ConversationRow.inboxId

def ratchet (peer : PeerId) (store : Store) : Option RatchetRow :=
  store.ratchetState.lookup peer.val

/-- The operation removes the peer's conversation, whatever it returns. -/
def WipesConversation (peer : PeerId) (op : StoreOp Key Secret × StoreIo) : Prop :=
  match op.1 with
  | .deleteConversation peer' => peer' = peer ∧ op.2.Succeeds 4
  | .clearAll => op.2.Succeeds 4
  | _ => False

/-- The operation removes the peer's ratchet state, whatever it returns. -/
def WipesRatchet (peer : PeerId) (op : StoreOp Key Secret × StoreIo) : Prop :=
  match op.1 with
  | .deleteConversation peer' => peer' = peer ∧ op.2.Succeeds 3
  | .clearAll => op.2.Succeeds 3
  | _ => False

def SavesInbox (peer : PeerId) (op : StoreOp Key Secret × StoreIo) : Prop :=
  ∃ inboxId, op.1 = .savePeerInboxId peer inboxId

def SavesRatchet (peer : PeerId) (op : StoreOp Key Secret × StoreIo) : Prop :=
  ∃ state nonce now, op.1 = .saveRatchetState peer state nonce now

section Columns

variable {peer peer' : PeerId}

theorem val_ne (h : peer' ≠ peer) : peer.val ≠ peer'.val :=
  fun heq => h (Subtype.ext heq.symm)

theorem inbox_upsertConversation (nickname : Option Bytes) (now : Nat) (store : Store) :
    inbox peer (upsertConversation peer'.val nickname now store) = inbox peer store := by
  unfold inbox upsertConversation
  by_cases hpeer : peer' = peer
  · subst hpeer
    split
    · next hnone =>
      dsimp only
      rw [AList.lookup_insert, hnone]
      rfl
    · next row hrow =>
      dsimp only
      rw [AList.lookup_insert, hrow]
      rfl
  · split
    · dsimp only
      rw [AList.lookup_insert_ne (val_ne hpeer)]
    · dsimp only
      rw [AList.lookup_insert_ne (val_ne hpeer)]

theorem lookup_updateConversation_ne (hpeer : peer' ≠ peer)
    (f : ConversationRow → ConversationRow) (store : Store) :
    (updateConversation peer'.val f store).conversations.lookup peer.val =
      store.conversations.lookup peer.val := by
  unfold updateConversation
  split
  · rfl
  · exact AList.lookup_insert_ne (val_ne hpeer)

theorem lookup_updateConversation (f : ConversationRow → ConversationRow) (store : Store) :
    (updateConversation peer.val f store).conversations.lookup peer.val =
      (store.conversations.lookup peer.val).map f := by
  unfold updateConversation
  split
  · next hnone => rw [hnone]; rfl
  · next row hrow =>
    rw [hrow]
    exact AList.lookup_insert _

theorem inbox_updateConversation {f : ConversationRow → ConversationRow}
    (hf : ∀ row, (f row).inboxId = row.inboxId) (store : Store) :
    inbox peer (updateConversation peer'.val f store) = inbox peer store := by
  unfold inbox
  by_cases hpeer : peer' = peer
  · subst hpeer
    rw [lookup_updateConversation]
    cases store.conversations.lookup peer'.val with
    | none => rfl
    | some row => exact hf row
  · rw [lookup_updateConversation_ne hpeer]

theorem ratchet_updateConversation (f : ConversationRow → ConversationRow) (store : Store) :
    ratchet peer (updateConversation peer'.val f store) = ratchet peer store := by
  unfold updateConversation
  split <;> rfl

theorem ratchet_upsertConversation (nickname : Option Bytes) (now : Nat) (store : Store) :
    ratchet peer (upsertConversation peer'.val nickname now store) = ratchet peer store := by
  unfold upsertConversation
  split <;> rfl

end Columns

/-! ## One operation -/

section Operations

variable {peer : PeerId}

theorem saveMessage_keeps {β : Type} (f : Store → β) (E : StoreSuite Key Secret)
    (hinsert : ∀ (store : Store) messages lastId, f { store with messages, lastId } = f store)
    (hupdate : ∀ timestamp store, f (updateConversation peer.val
      (fun row => { row with lastMsgAt := max row.lastMsgAt timestamp }) store) = f store)
    (direction : Direction) (plaintext : Bytes) (timestamp : Nat) (nonce : Bytes) (io : StoreIo)
    (store : Store) :
    f (store.saveMessage E peer direction plaintext timestamp nonce io).1 = f store := by
  unfold saveMessage
  split
  · rfl
  · rw [andThen_statement_keeps f (hupdate timestamp)]
    refine andThen_keeps f fun store => ?_
    unfold insertMessage
    split
    · rfl
    · exact statement_keeps f (fun store => hinsert store _ _) store

theorem eq_some_ite_none_iff {β : Type} {c : Prop} [Decidable c] {x : Option β} {v : β} :
    (if c then none else x) = some v ↔ x = some v ∧ ¬ c := by
  by_cases hc : c
  · rw [if_pos hc]
    exact iff_of_false (fun h => nomatch h) (fun h => h.2 hc)
  · rw [if_neg hc]
    exact (and_iff_left hc).symm

theorem eq_some_iff_of_keeps {β : Type} {x y : Option β} {v : β} (h : x = y) :
    x = some v ↔ y = some v ∧ ¬ False := by
  rw [h]
  exact (and_iff_left not_false).symm

theorem apply_inbox (E : StoreSuite Key Secret) {op : StoreOp Key Secret × StoreIo}
    (hop : ¬ SavesInbox peer op) (store : Store) (v : Bytes) :
    inbox peer (store.apply E op.1 op.2).1 = some v ↔
      inbox peer store = some v ∧ ¬ WipesConversation peer op := by
  obtain ⟨op, io⟩ := op
  cases op with
  | saveConversation peer' nickname now =>
    dsimp only [apply, saveConversation, WipesConversation]
    exact eq_some_iff_of_keeps
      (andThen_statement_keeps (inbox peer) (inbox_upsertConversation nickname now))
  | saveMessage peer' direction plaintext timestamp nonce =>
    dsimp only [apply, WipesConversation]
    refine eq_some_iff_of_keeps (saveMessage_keeps (inbox peer) E (fun _ _ _ => rfl) ?_ _ _ _ _ _ _)
    intro timestamp store
    exact inbox_updateConversation (fun row => by rfl) store
  | saveRatchetState peer' state nonce now =>
    dsimp only [apply, saveRatchetState, WipesConversation]
    refine eq_some_iff_of_keeps ?_
    split
    · rfl
    · exact andThen_statement_keeps (inbox peer) fun _ => rfl
  | savePeerInboxId peer' inboxId =>
    have hpeer : peer' ≠ peer := fun heq => hop ⟨inboxId, by rw [heq]⟩
    dsimp only [apply, savePeerInboxId, WipesConversation]
    refine eq_some_iff_of_keeps (andThen_statement_keeps (inbox peer) ?_)
    intro store
    unfold inbox
    rw [lookup_updateConversation_ne hpeer]
  | deleteConversation peer' =>
    have hbefore : inbox peer (andThen (andThen (store, locked io)
        (statement io 1 "delete messages" (deleteMessages peer'.val)))
        (statement io 2 "delete ratchet" (deleteRatchet peer'.val))).1 = inbox peer store := by
      refine (andThen_statement_keeps (inbox peer) ?_).trans
        (andThen_statement_keeps (inbox peer) ?_)
      · exact fun _ => rfl
      · exact fun _ => rfl
    dsimp only [apply, deleteConversation, WipesConversation]
    rw [column_andThen_statement (inbox peer)
      (andThen_statement (andThen_statement (locked_succeeds store)))]
    by_cases hpeer : peer' = peer
    · subst hpeer
      have hnone : ∀ store, inbox peer' (deleteConversationRow peer'.val store) = none := by
        intro store
        unfold inbox deleteConversationRow
        rw [AList.lookup_erase]
        rfl
      rw [hnone, hbefore, eq_some_ite_none_iff, and_iff_right rfl]
    · have hkeeps : ∀ store, inbox peer (deleteConversationRow peer'.val store) =
          inbox peer store := by
        intro store
        unfold inbox deleteConversationRow
        rw [AList.lookup_erase_ne (val_ne hpeer)]
      rw [hkeeps, hbefore, ite_self]
      exact (and_iff_left fun h => hpeer h.1).symm
  | clearAll =>
    have hbefore : inbox peer (andThen (andThen (store, locked io)
        (statement io 1 "clear_all" fun store => { store with messages := [] }))
        (statement io 2 "clear_all" fun store => { store with ratchetState := ∅ })).1 =
        inbox peer store := by
      refine (andThen_statement_keeps (inbox peer) ?_).trans
        (andThen_statement_keeps (inbox peer) ?_)
      · exact fun _ => rfl
      · exact fun _ => rfl
    dsimp only [apply, clearAll, WipesConversation]
    rw [andThen_statement_keeps (inbox peer), column_andThen_statement (inbox peer)
      (andThen_statement (andThen_statement (locked_succeeds store))), hbefore]
    · exact eq_some_ite_none_iff
    · exact fun _ => rfl

theorem apply_ratchet (E : StoreSuite Key Secret) {op : StoreOp Key Secret × StoreIo}
    (hop : ¬ SavesRatchet peer op) (store : Store) (v : RatchetRow) :
    ratchet peer (store.apply E op.1 op.2).1 = some v ↔
      ratchet peer store = some v ∧ ¬ WipesRatchet peer op := by
  obtain ⟨op, io⟩ := op
  cases op with
  | saveConversation peer' nickname now =>
    dsimp only [apply, saveConversation, WipesRatchet]
    exact eq_some_iff_of_keeps
      (andThen_statement_keeps (ratchet peer) (ratchet_upsertConversation nickname now))
  | saveMessage peer' direction plaintext timestamp nonce =>
    dsimp only [apply, WipesRatchet]
    exact eq_some_iff_of_keeps (saveMessage_keeps (ratchet peer) E (fun _ _ _ => rfl)
      (fun _ _ => ratchet_updateConversation _ _) _ _ _ _ _ _)
  | saveRatchetState peer' state nonce now =>
    have hpeer : peer' ≠ peer := fun heq => hop ⟨state, nonce, now, by rw [heq]⟩
    dsimp only [apply, saveRatchetState, WipesRatchet]
    refine eq_some_iff_of_keeps ?_
    split
    · rfl
    · exact andThen_statement_keeps (ratchet peer) fun _ => AList.lookup_insert_ne (val_ne hpeer)
  | savePeerInboxId peer' inboxId =>
    dsimp only [apply, savePeerInboxId, WipesRatchet]
    exact eq_some_iff_of_keeps
      (andThen_statement_keeps (ratchet peer) (ratchet_updateConversation _))
  | deleteConversation peer' =>
    have hbefore : ratchet peer (andThen (store, locked io)
        (statement io 1 "delete messages" (deleteMessages peer'.val))).1 = ratchet peer store := by
      refine andThen_statement_keeps (ratchet peer) ?_
      exact fun _ => rfl
    dsimp only [apply, deleteConversation, WipesRatchet]
    have hlast : ∀ store, ratchet peer (deleteConversationRow peer'.val store) =
        ratchet peer store := fun _ => rfl
    rw [andThen_statement_keeps (ratchet peer) hlast,
      column_andThen_statement (ratchet peer) (andThen_statement (locked_succeeds store))]
    by_cases hpeer : peer' = peer
    · subst hpeer
      have hnone : ∀ store, ratchet peer' (deleteRatchet peer'.val store) = none :=
        fun store => AList.lookup_erase _ _
      rw [hnone, hbefore, eq_some_ite_none_iff, and_iff_right rfl]
    · have hkeeps : ∀ store, ratchet peer (deleteRatchet peer'.val store) = ratchet peer store :=
        fun store => AList.lookup_erase_ne (val_ne hpeer)
      rw [hkeeps, hbefore, ite_self]
      exact (and_iff_left fun h => hpeer h.1).symm
  | clearAll =>
    have hbefore : ratchet peer (andThen (store, locked io)
        (statement io 1 "clear_all" fun store => { store with messages := [] })).1 =
        ratchet peer store := by
      refine andThen_statement_keeps (ratchet peer) ?_
      exact fun _ => rfl
    dsimp only [apply, clearAll, WipesRatchet]
    rw [andThen_statement_keeps (ratchet peer), andThen_statement_keeps (ratchet peer),
      column_andThen_statement (ratchet peer) (andThen_statement (locked_succeeds store)), hbefore]
    · exact eq_some_ite_none_iff
    · exact fun _ => rfl
    · exact fun _ => rfl

end Operations

/-! ## A run -/

theorem run_eq_some_iff {β : Type} {f : Store → Option β} {v : β}
    {W : StoreOp Key Secret × StoreIo → Prop} {ops : List (StoreOp Key Secret × StoreIo)}
    (happly : ∀ op ∈ ops, ∀ store, f (store.apply E op.1 op.2).1 = some v ↔
      f store = some v ∧ ¬ W op) (store : Store) :
    f (store.run E ops) = some v ↔ f store = some v ∧ ∀ op ∈ ops, ¬ W op := by
  induction ops generalizing store with
  | nil => exact (and_iff_left (fun _ h => nomatch h)).symm
  | cons op ops ih =>
    have hrest := ih (fun op' hop' => happly op' (List.mem_cons_of_mem _ hop'))
      (store.apply E op.1 op.2).1
    rw [happly op List.mem_cons_self store, and_assoc] at hrest
    rw [List.forall_mem_cons]
    exact hrest

/-! ## Saving -/

section Saving

variable {peer : PeerId}

/-- The save succeeds with or without a conversation, and is there only with one. -/
theorem inbox_savePeerInboxId {inboxId : Bytes}
    (hok : (store.savePeerInboxId peer inboxId io).2 = .ok ()) :
    inbox peer (store.savePeerInboxId peer inboxId io).1 = some inboxId ↔
      (store.conversations.lookup peer.val).isSome := by
  unfold savePeerInboxId at hok ⊢
  rw [column_andThen_statement (inbox peer) (locked_succeeds store),
    if_pos ((andThen_statement (locked_succeeds store)).mp hok)]
  unfold inbox
  rw [lookup_updateConversation]
  cases store.conversations.lookup peer.val with
  | none => exact iff_of_false (fun h => nomatch h) Bool.false_ne_true
  | some row => exact iff_of_true rfl rfl

theorem ratchet_saveRatchetState {state : RatchetState Key Secret} {nonce : Bytes} {now : Nat}
    (hok : (store.saveRatchetState E peer state nonce now io).2 = .ok ()) :
    ∃ blob, E.ratchetBlob nonce state = .ok blob ∧
      ratchet peer (store.saveRatchetState E peer state nonce now io).1 =
        some ⟨blob, nonce, now⟩ := by
  unfold saveRatchetState at hok ⊢
  cases hblob : E.ratchetBlob nonce state with
  | error err =>
    rw [hblob] at hok
    cases hok
  | ok blob =>
    rw [hblob] at hok
    dsimp only at hok ⊢
    refine ⟨blob, rfl, ?_⟩
    rw [column_andThen_statement (ratchet peer) (locked_succeeds store),
      if_pos ((andThen_statement (locked_succeeds store)).mp hok)]
    exact AList.lookup_insert _

end Saving

/-! ## The blob of a ratchet state -/

section Blob

variable {state : RatchetState Key Secret} {nonce blob : Bytes}

theorem ratchetSerialized_ratchetPayload (hzstd : E.zstd.Inverts) {serialized payload : Bytes}
    (h : E.ratchetPayload serialized = .ok payload) :
    E.ratchetSerialized payload = .ok serialized := by
  unfold StoreSuite.ratchetPayload at h
  split at h
  · cases hencode : E.zstd.encodeAll serialized with
    | error e =>
      rw [hencode] at h
      cases h
    | ok compressed =>
      rw [hencode] at h
      cases h
      exact mapError_eq_ok_iff.mpr (hzstd _ _ hencode)
  · cases h
    rfl

theorem decrypt_encrypt (hgcm : E.primitives.AesGcmInverts) {data ct : Bytes}
    (h : E.encrypt nonce data = .ok ct) : E.decrypt ct nonce = .ok data := by
  unfold StoreSuite.encrypt at h
  cases hct : E.primitives.aesGcmEncrypt E.sek nonce data [] with
  | none =>
    rw [hct] at h
    cases h
  | some ct' =>
    rw [hct] at h
    cases h
    unfold StoreSuite.decrypt
    rw [hgcm _ _ _ _ _ hct]

theorem deserialize_serialize (hcodec : E.codec.Inverts) {data : Bytes}
    (h : E.codec.serialize state = .ok data) : E.codec.deserialize data = .ok state := by
  have hdata : E.codec.toAllocvec state = .ok data := mapError_eq_ok_iff.mp h
  exact mapError_eq_ok_iff.mpr (hcodec _ _ hdata)

theorem ratchetOfBlob_ratchetBlob (hgcm : E.primitives.AesGcmInverts) (hzstd : E.zstd.Inverts)
    (hcodec : E.codec.Inverts) (h : E.ratchetBlob nonce state = .ok blob) :
    E.ratchetOfBlob blob nonce = .ok state := by
  obtain ⟨serialized, hserialized, h⟩ := bind_eq_ok_iff.mp h
  obtain ⟨payload, hpayload, hct⟩ := bind_eq_ok_iff.mp h
  exact bind_eq_ok_iff.mpr ⟨payload, decrypt_encrypt hgcm hct, bind_eq_ok_iff.mpr
    ⟨serialized, ratchetSerialized_ratchetPayload hzstd hpayload,
      deserialize_serialize hcodec hserialized⟩⟩

end Blob

/-! ## A restart -/

section Restart

variable {peer : PeerId} {reads : RestartIo}

/-- The state that a restart finds for a peer, if it looks. -/
def found (E : StoreSuite Key Secret) (store : Store) (reads : RestartIo) (peer : PeerId) :
    Option (RatchetState Key Secret) :=
  match store.loadRatchetState E peer (reads.ratchet peer) with
  | .ok (some state) => some state
  | _ => none

theorem lookup_restoreConversation (E : StoreSuite Key Secret) (store : Store) (reads : RestartIo)
    (peer : PeerId) (km : KeyManager Key Secret) (peerId : Bytes) :
    (store.restoreConversation E reads km peerId).peerSessions.lookup peer.val =
      if peerId = peer.val then (found E store reads peer).or (km.peerSessions.lookup peer.val)
      else km.peerSessions.lookup peer.val := by
  by_cases hpeer : peerId = peer.val
  · subst hpeer
    unfold restoreConversation found
    rw [if_pos rfl, Array32.tryFrom_val]
    dsimp only
    cases store.loadRatchetState E peer (reads.ratchet peer) with
    | error err => rfl
    | ok loaded =>
      cases loaded with
      | none => rfl
      | some state => exact Finmap.lookup_insert km.peerSessions
  · rw [if_neg hpeer]
    unfold restoreConversation
    split
    · rfl
    · next pid hpid =>
      have hne : peer.val ≠ pid.val := by
        intro heq
        unfold Array32.tryFrom at hpid
        split at hpid
        · cases hpid
          exact hpeer heq.symm
        · cases hpid
      split
      · exact Finmap.lookup_insert_of_ne _ hne
      · rfl

theorem lookup_foldl_restore (E : StoreSuite Key Secret) (store : Store) (reads : RestartIo)
    (peer : PeerId) (ids : List Bytes) (km : KeyManager Key Secret) :
    (ids.foldl (store.restoreConversation E reads) km).peerSessions.lookup peer.val =
      if peer.val ∈ ids then (found E store reads peer).or (km.peerSessions.lookup peer.val)
      else km.peerSessions.lookup peer.val := by
  induction ids generalizing km with
  | nil => rfl
  | cons peerId ids ih =>
    rw [List.foldl_cons, ih, lookup_restoreConversation]
    by_cases hhead : peerId = peer.val
    · rw [if_pos hhead, if_pos (List.mem_cons.mpr (.inl hhead.symm))]
      split
      · cases found E store reads peer with
        | none => rfl
        | some state => rfl
      · rfl
    · have hmem : peer.val ∈ peerId :: ids ↔ peer.val ∈ ids :=
        List.mem_cons.trans (or_iff_right fun heq => hhead heq.symm)
      rw [if_neg hhead]
      by_cases hids : peer.val ∈ ids
      · rw [if_pos hids, if_pos (hmem.mpr hids)]
      · rw [if_neg hids, if_neg fun h => hids (hmem.mp h)]

theorem mem_listConversations (store : Store) (reads : RestartIo) (peerId : Bytes)
    {convos : List (Bytes × ConversationRow)} (h : store.listConversations reads = .ok convos) :
    peerId ∈ convos.map Prod.fst ↔
      (store.conversations.lookup peerId).isSome ∧ reads.row peerId = true := by
  unfold listConversations at h
  cases hlist : reads.list with
  | some err =>
    rw [hlist] at h
    cases h
  | none =>
    rw [hlist] at h
    cases h
    rw [AList.lookup_isSome, AList.mem_keys, AList.keys, List.keys, List.mem_map, List.mem_map]
    constructor
    · rintro ⟨entry, hentry, rfl⟩
      obtain ⟨hmem, hrow⟩ := List.mem_filter.mp hentry
      obtain ⟨row, hrow', rfl⟩ := List.mem_map.mp (List.mem_mergeSort.mp hmem)
      exact ⟨⟨row, hrow', rfl⟩, hrow⟩
    · rintro ⟨⟨row, hrow, rfl⟩, hreads⟩
      exact ⟨(row.1, row.2), List.mem_filter.mpr
        ⟨List.mem_mergeSort.mpr (List.mem_map.mpr ⟨row, hrow, rfl⟩), hreads⟩, rfl⟩

/-- A restart restores a state for a peer exactly if it can read the list and the peer's row in it,
and finds the state. -/
theorem activateIdentity_eq_some_iff (identity spk : Secret) (state : RatchetState Key Secret) :
    (store.activateIdentity E reads ⟨identity, spk, ∅⟩).getRatchetState peer.val = some state ↔
      reads.list = none ∧ reads.row peer.val = true ∧
        (store.conversations.lookup peer.val).isSome ∧ found E store reads peer = some state := by
  unfold activateIdentity KeyManager.getRatchetState
  cases hlist : store.listConversations reads with
  | error err =>
    refine iff_of_false ?_ ?_
    · dsimp only
      rw [Finmap.lookup_empty]
      exact fun h => nomatch h
    · rintro ⟨hread, -⟩
      unfold listConversations at hlist
      rw [hread] at hlist
      cases hlist
  | ok convos =>
    have hread : reads.list = none := by
      cases hread : reads.list with
      | none => rfl
      | some err =>
        unfold listConversations at hlist
        rw [hread] at hlist
        cases hlist
    dsimp only
    rw [lookup_foldl_restore, Finmap.lookup_empty, Option.or_none,
      and_iff_right hread]
    have hmem := mem_listConversations store reads peer.val hlist
    by_cases hlisted : peer.val ∈ convos.map Prod.fst
    · obtain ⟨hrow, hreads⟩ := hmem.mp hlisted
      rw [if_pos hlisted, and_iff_right hreads, and_iff_right hrow]
    · rw [if_neg hlisted]
      refine iff_of_false (fun h => nomatch h) ?_
      rintro ⟨hreads, hrow, -⟩
      exact hlisted (hmem.mpr ⟨hrow, hreads⟩)

end Restart

/-! ## What was accepted, after a restart -/

/-- A deletion of the peer that returns `Ok`. -/
def Deletes (peer : PeerId) (op : StoreOp Key Secret × StoreIo) : Prop :=
  match op.1 with
  | .deleteConversation peer' => peer' = peer ∧ op.2.Succeeds 4
  | .clearAll => op.2.Succeeds 5
  | _ => False

theorem deleteConversation_eq_ok_iff (store : Store) (peer : PeerId) (io : StoreIo) :
    (store.deleteConversation peer io).2 = .ok () ↔ io.Succeeds 4 :=
  andThen_statement (andThen_statement (andThen_statement (locked_succeeds store)))

theorem clearAll_eq_ok_iff (store : Store) (io : StoreIo) :
    (store.clearAll io).2 = .ok () ↔ io.Succeeds 5 :=
  andThen_statement
    (andThen_statement (andThen_statement (andThen_statement (locked_succeeds store))))

/-- `Deletes` goes by what the call returns, in any state. -/
theorem deletes_iff (E : StoreSuite Key Secret) (store : Store) (peer : PeerId)
    (op : StoreOp Key Secret × StoreIo) :
    Deletes peer op ↔
      (op.1 = .deleteConversation peer ∨ op.1 = .clearAll) ∧
        (store.apply E op.1 op.2).2 = .ok () := by
  obtain ⟨op, io⟩ := op
  cases op with
  | deleteConversation peer' =>
    dsimp only [Deletes, apply]
    rw [deleteConversation_eq_ok_iff]
    refine and_congr_left fun _ => ⟨fun h => .inl (by rw [h]), ?_⟩
    rintro (heq | heq)
    · exact StoreOp.deleteConversation.inj heq
    · cases heq
  | clearAll =>
    dsimp only [Deletes, apply]
    rw [clearAll_eq_ok_iff]
    exact (and_iff_right (.inr rfl)).symm
  | saveConversation | saveMessage | saveRatchetState | savePeerInboxId =>
    refine iff_of_false id ?_
    rintro ⟨heq | heq, -⟩
    · cases heq
    · cases heq

theorem loadPeerInboxId_eq_iff {peer : PeerId} {read : ReadIo} {inboxId : Bytes} :
    store.loadPeerInboxId peer read = .ok (some inboxId) ↔
      read = .ok ∧ inbox peer store = some inboxId := by
  cases read with
  | ok =>
    rw [and_iff_right rfl]
    exact ⟨fun h => Except.ok.inj h, fun h => congrArg Except.ok h⟩
  | unavailable err => exact iff_of_false (fun h => nomatch h) (fun h => nomatch h.1)
  | failed => exact iff_of_false (fun h => nomatch h) (fun h => nomatch h.1)

theorem found_eq_some_iff (hgcm : E.primitives.AesGcmInverts) (hzstd : E.zstd.Inverts)
    (hcodec : E.codec.Inverts) {peer : PeerId} {reads : RestartIo}
    {state : RatchetState Key Secret} {row : RatchetRow}
    (hblob : E.ratchetBlob row.nonce state = .ok row.stateBlob)
    (hrow : ratchet peer store = some row ∨ ratchet peer store = none) :
    found E store reads peer = some state ↔
      reads.ratchet peer = .ok ∧ ratchet peer store = some row := by
  unfold found
  cases hread : reads.ratchet peer with
  | unavailable err => exact iff_of_false (fun h => nomatch h) (fun h => nomatch h.1)
  | failed => exact iff_of_false (fun h => nomatch h) (fun h => nomatch h.1)
  | ok =>
    unfold loadRatchetState
    rw [and_iff_right rfl]
    rcases hrow with hsome | hnone
    · have hlookup : store.ratchetState.lookup peer.val = some row := hsome
      rw [hsome]
      dsimp only
      rw [hlookup]
      dsimp only
      rw [ratchetOfBlob_ratchetBlob hgcm hzstd hcodec hblob]
      exact iff_of_true rfl rfl
    · have hlookup : store.ratchetState.lookup peer.val = none := hnone
      rw [hnone]
      dsimp only
      rw [hlookup]
      exact iff_of_false (fun h => nomatch h) (fun h => nomatch h)

theorem run_ratchet (E : StoreSuite Key Secret) {peer : PeerId} {row : RatchetRow}
    {ops : List (StoreOp Key Secret × StoreIo)} (hops : ∀ op ∈ ops, ¬ SavesRatchet peer op)
    (hrow : ratchet peer store = some row) :
    ratchet peer (store.run E ops) = some row ∨ ratchet peer (store.run E ops) = none := by
  cases hafter : ratchet peer (store.run E ops) with
  | none => exact .inr rfl
  | some row' =>
    have hkept := run_eq_some_iff (fun op hop store =>
      apply_ratchet E (hops op hop) store row') store
    have hbefore := (hkept.mp hafter).1
    rw [hrow] at hbefore
    exact .inl hbefore.symm

/-- **What the store accepted, after a restart.** From any state, after a save for a peer that returned
`Ok`, and any operations since in which that column is not saved again: unless the peer was deleted,

* the inbox id is loaded exactly if the read succeeds, the peer had a conversation when it was saved,
  and no failed `clear_all` has removed that;
* the ratchet state is restored exactly if the reads succeed, the peer has a conversation at the
  restart, and no failed deletion has removed the state. -/
theorem restart_keeps_iff (E : StoreSuite Key Secret) (hgcm : E.primitives.AesGcmInverts)
    (hzstd : E.zstd.Inverts) (hcodec : E.codec.Inverts) (store : Store) (peer : PeerId)
    (io : StoreIo) (since : List (StoreOp Key Secret × StoreIo)) :
    (∀ inboxId read, (store.savePeerInboxId peer inboxId io).2 = .ok () →
      (∀ op ∈ since, ¬ SavesInbox peer op) →
      (((∀ op ∈ since, ¬ Deletes peer op) →
        ((store.savePeerInboxId peer inboxId io).1.run E since).loadPeerInboxId peer read =
          .ok (some inboxId)) ↔
      ((∀ op ∈ since, ¬ Deletes peer op) →
        read = .ok ∧ (store.conversations.lookup peer.val).isSome ∧
          ∀ op ∈ since, ¬ WipesConversation peer op))) ∧
    ∀ state nonce now reads identity spk,
      (store.saveRatchetState E peer state nonce now io).2 = .ok () →
      (∀ op ∈ since, ¬ SavesRatchet peer op) →
      (((∀ op ∈ since, ¬ Deletes peer op) →
        (((store.saveRatchetState E peer state nonce now io).1.run E since).activateIdentity E reads
          ⟨identity, spk, ∅⟩).getRatchetState peer.val = some state) ↔
      ((∀ op ∈ since, ¬ Deletes peer op) →
        (reads.list = none ∧ reads.row peer.val = true ∧ reads.ratchet peer = .ok) ∧
          (((store.saveRatchetState E peer state nonce now io).1.run E since).conversations.lookup
            peer.val).isSome ∧
          ∀ op ∈ since, ¬ WipesRatchet peer op)) := by
  constructor
  · intro inboxId read hok hsince
    refine imp_congr_right fun _ => ?_
    rw [loadPeerInboxId_eq_iff,
      run_eq_some_iff fun op hop store => apply_inbox E (hsince op hop) store inboxId,
      inbox_savePeerInboxId hok]
  · intro state nonce now reads identity spk hok hsince
    refine imp_congr_right fun _ => ?_
    obtain ⟨blob, hblob, hrow⟩ := ratchet_saveRatchetState hok
    have hkept := run_eq_some_iff (fun op hop store =>
      apply_ratchet E (hsince op hop) store ⟨blob, nonce, now⟩)
      (store.saveRatchetState E peer state nonce now io).1
    rw [activateIdentity_eq_some_iff, found_eq_some_iff hgcm hzstd hcodec hblob
      (run_ratchet E hsince hrow), hkept, and_iff_right hrow]
    tauto

def sampleState : RatchetState Array32 Array32 :=
  .initReceiver Primitives.additive.suite (.ofNat 1) (.ofNat 3)

def sampleSuite : StoreSuite Array32 Array32 where
  primitives := Primitives.additive
  zstd := Zstd.stored
  codec :=
    { toAllocvec := fun state => if state = sampleState then .ok [7] else .error "other state"
      fromBytes := fun data => if data = [7] then .ok sampleState else .error "other data" }
  sek := .ofNat 2
  foreignKeys := true

theorem sampleSuite_codec_inverts : sampleSuite.codec.Inverts := by
  intro state data h
  change (if state = sampleState then Except.ok [7] else .error "other state") = .ok data at h
  change (if data = [7] then Except.ok sampleState else .error "other data") = .ok state
  split at h
  · next hstate =>
    cases h
    rw [if_pos rfl, hstate]
  · cases h

def noFailure : StoreIo := fun _ => none

def noReadFailure : RestartIo :=
  ⟨none, fun _ => true, fun _ => .ok⟩

/-- With the conversation saved first, both are there after a restart. -/
theorem restart_keeps_known :
    ((Store.empty.run sampleSuite [(.saveConversation (.ofNat 1) none 100, noFailure)]).savePeerInboxId
        (.ofNat 1) [5] noFailure).1.loadPeerInboxId (.ofNat 1) .ok = .ok (some [5]) ∧
      (((Store.empty.run sampleSuite
          [(.saveConversation (.ofNat 1) none 100, noFailure)]).saveRatchetState sampleSuite (.ofNat 1)
          sampleState (List.replicate 12 0) 100 noFailure).1.activateIdentity sampleSuite noReadFailure
        ⟨.ofNat 8, .ofNat 9, ∅⟩).getRatchetState (Array32.ofNat 1).val = some sampleState := by
  have hkeeps := restart_keeps_iff sampleSuite Primitives.additive_inverts
    (fun _ _ h => by cases h; rfl) sampleSuite_codec_inverts
    (Store.empty.run sampleSuite [(.saveConversation (.ofNat 1) none 100, noFailure)]) (.ofNat 1)
    noFailure []
  have hnone : ∀ {W : StoreOp Array32 Array32 × StoreIo → Prop}, ∀ op ∈ [], ¬ W op :=
    fun _ h => nomatch h
  exact ⟨(hkeeps.1 [5] .ok (by decide +kernel) hnone).mpr
      (fun _ => ⟨rfl, by decide +kernel, hnone⟩) hnone,
    (hkeeps.2 sampleState (List.replicate 12 0) 100 noReadFailure (.ofNat 8) (.ofNat 9)
      (by decide +kernel) hnone).mpr
      (fun _ => ⟨⟨rfl, rfl, rfl⟩, by decide +kernel, hnone⟩) hnone⟩

/-- `PeerConnected` with a new peer: the inbox id is saved with `Ok`, the conversation after it, and
the inbox id is not there. `join_link` and a message to the peer: the ratchet state is saved with
`Ok`, and a restart has no session. -/
theorem restart_loses_new_peer :
    (Store.empty.savePeerInboxId (.ofNat 1) [5] noFailure).2 = .ok () ∧
      (Store.empty.run sampleSuite ((peerConnectedOps (.ofNat 1) (some [5]) 100).map
        (·, noFailure))).loadPeerInboxId (.ofNat 1) .ok = .ok none ∧
      ((Store.empty.run sampleSuite ((joinLinkOps (.ofNat 1) (some [5])).map
        (·, noFailure))).saveRatchetState sampleSuite (.ofNat 1) sampleState (List.replicate 12 0) 100
          noFailure).2 = .ok () ∧
      ((Store.empty.run sampleSuite ((joinLinkOps (.ofNat 1) (some [5]) ++
        persistMessageOps (.ofNat 1) .sent [104] 100 (List.replicate 12 1, List.replicate 12 0)
          sampleState).map (·, noFailure))).activateIdentity sampleSuite noReadFailure
        ⟨.ofNat 8, .ofNat 9, ∅⟩).getRatchetState (Array32.ofNat 1).val = none :=
  ⟨by decide +kernel, by decide +kernel, by decide +kernel, by decide +kernel⟩

end Cypher.Client.Store

import Cypher.Client.History
import Cypher.Client.Verify.Store
import Cypher.Lib.Paging
import Mathlib.Data.List.Forall2

/-!
# The history is complete

The abstract history of a run (`history`) is the list of the messages that were inserted and not
deleted since, in the order of their ids. The rows of the table decrypt to it (`Recorded`), and a page
of `load_messages` is a page of it (`loadMessages_eq`). What is saved between two pages has larger ids
than anything on them (`history_saveOps`), so the paging rule of the library applies to a history that
grows.
-/

namespace Cypher.Client.Store

open Crypto Transfer

variable {Key Secret : Type} {E : StoreSuite Key Secret} {store : Store} {io : StoreIo}

/-! ## Messages and their rows -/

theorem storedMessage_eq_ok_iff {row : MessageRow} {m : StoredMessage} :
    E.storedMessage row = .ok m ↔
      E.decryptAndDecompress row.ciphertext row.nonce row.compressed = .ok m.plaintext ∧
        row.id = m.id ∧ row.peerId = m.peerId ∧ row.direction = m.direction ∧
        row.timestamp = m.timestamp := by
  unfold StoreSuite.storedMessage
  rw [bind_eq_ok_iff]
  constructor
  · rintro ⟨plaintext, hplaintext, hm⟩
    cases hm
    exact ⟨hplaintext, rfl, rfl, rfl, rfl⟩
  · rintro ⟨hplaintext, hid, hpeer, hdirection, htimestamp⟩
    refine ⟨m.plaintext, hplaintext, ?_⟩
    rw [hid, hpeer, hdirection, htimestamp]

/-- Both sides of the threshold for compression. -/
theorem decryptAndDecompress_compressAndEncrypt (hgcm : E.primitives.AesGcmInverts)
    (hzstd : E.zstd.Inverts) {nonce data ct : Bytes} {compressed : Bool}
    (h : E.compressAndEncrypt nonce data = .ok (ct, compressed)) :
    E.decryptAndDecompress ct nonce compressed = .ok data := by
  obtain ⟨⟨prepared, compressed'⟩, hprepared, h⟩ := bind_eq_ok_iff.mp h
  obtain ⟨ct', hct, h⟩ := bind_eq_ok_iff.mp h
  cases h
  refine bind_eq_ok_iff.mpr ⟨prepared, decrypt_encrypt hgcm hct, ?_⟩
  unfold StoreSuite.maybeCompress at hprepared
  split at hprepared
  · cases hencoded : E.zstd.encodeAll data with
    | error e =>
      rw [hencoded] at hprepared
      cases hprepared
    | ok encoded =>
      rw [hencoded] at hprepared
      cases hprepared
      rw [StoreSuite.maybeDecompress, if_pos rfl]
      exact mapError_eq_ok_iff.mpr (hzstd _ _ hencoded)
  · cases hprepared
    exact if_neg Bool.false_ne_true

/-! ## What `save_message` does to the table -/

def table (store : Store) : List MessageRow × Nat := (store.messages, store.lastId)

theorem table_updateConversation (peer : Bytes) (f : ConversationRow → ConversationRow)
    (store : Store) : table (updateConversation peer f store) = table store := by
  unfold updateConversation
  split <;> rfl

theorem table_upsertConversation (peer : Bytes) (nickname : Option Bytes) (now : Nat)
    (store : Store) : table (upsertConversation peer nickname now store) = table store := by
  unfold upsertConversation
  split <;> rfl

theorem table_saveMessage (E : StoreSuite Key Secret) (peer : PeerId) (direction : Direction)
    (plaintext : Bytes) (timestamp : Nat) (nonce : Bytes) (io : StoreIo) (store : Store) :
    table (store.saveMessage E peer direction plaintext timestamp nonce io).1 = table store ∨
      ∃ ct compressed, E.compressAndEncrypt nonce plaintext = .ok (ct, compressed) ∧
        table (store.saveMessage E peer direction plaintext timestamp nonce io).1 =
          (store.messages ++
            [⟨store.lastId + 1, peer.val, direction, ct, nonce, compressed, timestamp⟩],
            store.lastId + 1) := by
  unfold saveMessage
  cases hct : E.compressAndEncrypt nonce plaintext with
  | error err => exact .inl rfl
  | ok prepared =>
    obtain ⟨ct, compressed⟩ := prepared
    dsimp only
    rw [andThen_statement_keeps table (table_updateConversation peer.val _)]
    unfold andThen
    cases (locked io) with
    | error err => exact .inl rfl
    | ok _ =>
      dsimp only [insertMessage]
      split
      · exact .inl rfl
      · unfold statement
        cases io 1 with
        | none => exact .inr ⟨ct, compressed, rfl, rfl⟩
        | some e => exact .inl rfl

/-! ## The abstract history -/

def logged (E : StoreSuite Key Secret) (store : Store) (op : StoreOp Key Secret) (io : StoreIo)
    (log : List StoredMessage) : List StoredMessage :=
  match op with
  | .saveMessage peer direction plaintext timestamp nonce =>
    let saved := (store.saveMessage E peer direction plaintext timestamp nonce io).1
    -- an insert gives out an id
    if saved.lastId = store.lastId then log
    else log ++ [⟨saved.lastId, peer.val, direction, plaintext, timestamp⟩]
  | .deleteConversation peer =>
    if io.Succeeds 2 then log.filter fun m => m.peerId ≠ peer.val else log
  | .clearAll => if io.Succeeds 2 then [] else log
  | _ => log

def history (E : StoreSuite Key Secret) :
    Store → List StoredMessage → List (StoreOp Key Secret × StoreIo) → List StoredMessage
  | _, log, [] => log
  | store, log, (op, io) :: ops =>
    history E (store.apply E op io).1 (logged E store op io log) ops

def Decrypts (E : StoreSuite Key Secret) (rows : List MessageRow) (log : List StoredMessage) : Prop :=
  List.Forall₂ (fun row m => E.storedMessage row = .ok m) rows log

/-- The rows of the table decrypt to the history. -/
structure Recorded (E : StoreSuite Key Secret) (store : Store) (log : List StoredMessage) :
    Prop where
  rows : Decrypts E store.messages log
  increasing : log.Pairwise fun m m' => m.id < m'.id
  bounded : ∀ m ∈ log, m.id ≤ store.lastId

theorem Recorded.empty (E : StoreSuite Key Secret) : Recorded E .empty [] :=
  ⟨.nil, .nil, fun _ h => nomatch h⟩

theorem Recorded.of_table_eq {store' : Store} {log : List StoredMessage} (h : Recorded E store log)
    (htable : table store' = table store) : Recorded E store' log := by
  obtain ⟨hmessages, hlast⟩ := Prod.mk.inj htable
  exact ⟨hmessages ▸ h.rows, h.increasing, hlast ▸ h.bounded⟩

theorem Decrypts.filter {p : MessageRow → Bool} {q : StoredMessage → Bool}
    (hpq : ∀ row m, E.storedMessage row = .ok m → p row = q m) {rows : List MessageRow}
    {log : List StoredMessage} (h : Decrypts E rows log) :
    Decrypts E (rows.filter p) (log.filter q) := by
  refine List.rel_filter (fun row m hrow => ?_) h
  dsimp only
  rw [hpq row m hrow]

theorem Recorded.filter {log : List StoredMessage} (h : Recorded E store log) (peer : Bytes) :
    Recorded E (deleteMessages peer store) (log.filter fun m => m.peerId ≠ peer) := by
  refine ⟨h.rows.filter ?_, h.increasing.filter _,
    fun m hm => h.bounded m (List.mem_of_mem_filter hm)⟩
  intro row m hrow
  rw [(storedMessage_eq_ok_iff.mp hrow).2.2.1]

theorem Recorded.saveMessage {log : List StoredMessage} (h : Recorded E store log)
    (hgcm : E.primitives.AesGcmInverts) (hzstd : E.zstd.Inverts) (peer : PeerId)
    (direction : Direction) (plaintext : Bytes) (timestamp : Nat) (nonce : Bytes) (io : StoreIo) :
    Recorded E (store.saveMessage E peer direction plaintext timestamp nonce io).1
      (logged E store (.saveMessage peer direction plaintext timestamp nonce) io log) := by
  dsimp only [logged]
  rcases table_saveMessage E peer direction plaintext timestamp nonce io store with
    hsame | ⟨ct, compressed, hct, hinserted⟩
  · rw [if_pos (Prod.mk.inj hsame).2]
    exact h.of_table_eq hsame
  · obtain ⟨hmessages, hlast⟩ := Prod.mk.inj hinserted
    rw [if_neg (by omega), hlast]
    refine ⟨?_, ?_, ?_⟩
    · rw [hmessages]
      refine List.rel_append h.rows (.cons (storedMessage_eq_ok_iff.mpr ?_) .nil)
      exact ⟨decryptAndDecompress_compressAndEncrypt hgcm hzstd hct, rfl, rfl, rfl, rfl⟩
    · refine List.pairwise_append.mpr ⟨h.increasing, List.pairwise_singleton _ _, ?_⟩
      intro m hm m' hm'
      rw [List.mem_singleton.mp hm']
      exact Nat.lt_succ_of_le (h.bounded m hm)
    · intro m hm
      rw [hlast]
      rcases List.mem_append.mp hm with hm | hm
      · exact (h.bounded m hm).trans (Nat.le_succ _)
      · rw [List.mem_singleton.mp hm]

theorem Recorded.apply {log : List StoredMessage} (h : Recorded E store log)
    (hgcm : E.primitives.AesGcmInverts) (hzstd : E.zstd.Inverts) (op : StoreOp Key Secret)
    (io : StoreIo) : Recorded E (store.apply E op io).1 (logged E store op io log) := by
  cases op with
  | saveMessage peer direction plaintext timestamp nonce =>
    exact h.saveMessage hgcm hzstd peer direction plaintext timestamp nonce io
  | saveConversation peer nickname now =>
    exact h.of_table_eq
      (andThen_statement_keeps table (table_upsertConversation peer.val nickname now))
  | saveRatchetState peer state nonce now =>
    refine h.of_table_eq ?_
    dsimp only [Store.apply, saveRatchetState]
    split
    · rfl
    · exact andThen_statement_keeps table fun _ => rfl
  | savePeerInboxId peer inboxId =>
    exact h.of_table_eq (andThen_statement_keeps table (table_updateConversation peer.val _))
  | deleteConversation peer =>
    have htable : table (store.deleteConversation peer io).1 =
        if io.Succeeds 2 then table (deleteMessages peer.val store) else table store := by
      unfold deleteConversation
      rw [andThen_statement_keeps table, andThen_statement_keeps table,
        column_andThen_statement table (locked_succeeds store)]
      · exact fun _ => rfl
      · exact fun _ => rfl
    dsimp only [logged]
    by_cases hdeleted : io.Succeeds 2
    · rw [if_pos hdeleted] at htable ⊢
      exact (h.filter peer.val).of_table_eq htable
    · rw [if_neg hdeleted] at htable ⊢
      exact h.of_table_eq htable
  | clearAll =>
    have htable : table (store.clearAll io).1 =
        if io.Succeeds 2 then ([], store.lastId) else table store := by
      unfold clearAll
      rw [andThen_statement_keeps table, andThen_statement_keeps table,
        andThen_statement_keeps table, column_andThen_statement table (locked_succeeds store)]
      · rfl
      · exact fun _ => rfl
      · exact fun _ => rfl
      · exact fun _ => rfl
    dsimp only [logged]
    by_cases hcleared : io.Succeeds 2
    · rw [if_pos hcleared] at htable ⊢
      have hnone : Recorded E { store with messages := [] } [] :=
        ⟨.nil, .nil, fun _ hm => nomatch hm⟩
      exact hnone.of_table_eq htable
    · rw [if_neg hcleared] at htable ⊢
      exact h.of_table_eq htable

theorem run_cons (E : StoreSuite Key Secret) (store : Store) (op : StoreOp Key Secret)
    (io : StoreIo) (ops : List (StoreOp Key Secret × StoreIo)) :
    store.run E ((op, io) :: ops) = (store.apply E op io).1.run E ops := rfl

theorem Recorded.run {log : List StoredMessage} (h : Recorded E store log)
    (hgcm : E.primitives.AesGcmInverts) (hzstd : E.zstd.Inverts)
    (ops : List (StoreOp Key Secret × StoreIo)) :
    Recorded E (store.run E ops) (history E store log ops) := by
  induction ops generalizing store log with
  | nil => exact h
  | cons op ops ih =>
    rw [run_cons, history]
    exact ih (h.apply hgcm hzstd op.1 op.2)

theorem history_saveOps (E : StoreSuite Key Secret) (saves : List (SaveCall × StoreIo))
    (store : Store) (log : List StoredMessage) :
    ∃ later, history E store log (saveOps saves) = log ++ later ∧
      ∀ m ∈ later, store.lastId < m.id := by
  induction saves generalizing store log with
  | nil => exact ⟨[], (List.append_nil log).symm, fun _ h => nomatch h⟩
  | cons save saves ih =>
    obtain ⟨call, io⟩ := save
    obtain ⟨later, hhistory, hlater⟩ := ih (store.apply E call.op io).1
      (logged E store call.op io log)
    have hstep : history E store log (saveOps ((call, io) :: saves)) =
        logged E store call.op io log ++ later := hhistory
    rw [hstep]
    dsimp only [SaveCall.op, logged, Store.apply] at hlater ⊢
    rcases table_saveMessage E call.peer call.direction call.plaintext call.timestamp call.nonce io
      store with hsame | ⟨ct, compressed, -, hinserted⟩
    · have hlast := (Prod.mk.inj hsame).2
      rw [hlast] at hlater
      rw [if_pos hlast]
      exact ⟨later, rfl, hlater⟩
    · have hlast := (Prod.mk.inj hinserted).2
      rw [hlast] at hlater
      rw [if_neg (by omega), hlast, List.append_assoc]
      refine ⟨_, rfl, fun m hm => ?_⟩
      rcases List.mem_cons.mp hm with rfl | hm
      · exact Nat.lt_succ_self _
      · exact (Nat.lt_succ_self _).trans (hlater m hm)

/-! ## One page -/

def idKey (m : StoredMessage) : Int := m.id

theorem Decrypts.mapM {rows : List MessageRow} {log : List StoredMessage} (h : Decrypts E rows log) :
    rows.mapM E.storedMessage = .ok log := by
  induction h with
  | nil => rfl
  | cons hrow _ ih =>
    rw [List.mapM_cons, hrow, ih]
    rfl

theorem Decrypts.map_id {rows : List MessageRow} {log : List StoredMessage} (h : Decrypts E rows log) :
    rows.map MessageRow.id = log.map StoredMessage.id := by
  induction h with
  | nil => rfl
  | cons hrow _ ih => rw [List.map_cons, List.map_cons, (storedMessage_eq_ok_iff.mp hrow).2.1, ih]

theorem Decrypts.pairwise_id {rows : List MessageRow} {log : List StoredMessage}
    (h : Decrypts E rows log) (hlog : log.Pairwise fun m m' => m.id < m'.id) :
    rows.Pairwise fun row row' => row.id < row'.id := by
  have hids : (rows.map MessageRow.id).Pairwise (· < ·) := by
    rw [h.map_id]
    exact List.pairwise_map.mpr hlog
  exact List.pairwise_map.mp hids

def ofPeer (peer : PeerId) (log : List StoredMessage) : List StoredMessage :=
  log.filter fun m => m.peerId = peer.val

theorem loadMessages_eq {log : List StoredMessage} (h : Recorded E store log) (peer : PeerId)
    (limit : Nat) (beforeId : Option Nat) :
    store.loadMessages E peer limit beforeId .ok =
      .ok (Lib.page idKey limit ((beforeId.map asI64).getD i64Max) (ofPeer peer log)) := by
  generalize hbid : (beforeId.map asI64).getD i64Max = bid
  have hselected : Decrypts E (store.messages.filter fun row =>
      decide (row.peerId = peer.val ∧ (row.id : Int) < bid))
      (Lib.below idKey bid (ofPeer peer log)) := by
    unfold Lib.below ofPeer
    rw [List.filter_filter]
    refine h.rows.filter fun row m hrow => ?_
    obtain ⟨-, hid, hpeer, -⟩ := storedMessage_eq_ok_iff.mp hrow
    rw [hid, hpeer, Bool.decide_and, Bool.and_comm]
    rfl
  have hsorted := hselected.pairwise_id ((h.increasing.filter _).filter _)
  unfold loadMessages
  rw [hbid]
  dsimp only [HistoryIo.ok]
  rw [Lib.mergeSort_eq_reverse hsorted, List.filter_true]
  exact Decrypts.mapM (List.forall₂_take limit (List.rel_reverse hselected))

/-! ## All pages -/

section Pages

variable {log : List StoredMessage}

theorem pairwise_idKey (hlog : log.Pairwise fun m m' => m.id < m'.id) (peer : PeerId) :
    (ofPeer peer log).Pairwise fun m m' => idKey m < idKey m' :=
  (hlog.filter _).imp fun hlt => Int.ofNat_lt.mpr hlt

theorem asI64_of_lt {n : Nat} (h : (n : Int) < i64Max) : asI64 n = n := by
  have hlt : n < 2 ^ 63 := by
    unfold i64Max at h
    omega
  exact if_pos hlt

/-- From any bound on: the history of the peer below it, however much is saved meanwhile. `later` is
what has been saved since the first page. -/
theorem pageThrough_eq (hgcm : E.primitives.AesGcmInverts) (hzstd : E.zstd.Inverts) (peer : PeerId)
    {limit : Nat} (hlimit : 0 < limit) (between : Nat → List (SaveCall × StoreIo)) (fuel k : Nat)
    (store : Store) (later : List StoredMessage) (beforeId : Option Nat)
    (hrecorded : Recorded E store (log ++ later))
    (hbound : (beforeId.map asI64).getD i64Max ≤ i64Max)
    (hlater : ∀ m ∈ later, (beforeId.map asI64).getD i64Max ≤ idKey m)
    (hfuel : (Lib.below idKey ((beforeId.map asI64).getD i64Max) (ofPeer peer log)).length < fuel) :
    pageThrough E peer limit between fuel k store beforeId =
      some (.ok (Lib.below idKey ((beforeId.map asI64).getD i64Max) (ofPeer peer log)).reverse) := by
  induction fuel generalizing k store later beforeId with
  | zero => exact absurd hfuel (Nat.not_lt_zero _)
  | succ fuel ih =>
    have hload := loadMessages_eq hrecorded peer limit beforeId
    generalize hbid : (beforeId.map asI64).getD i64Max = bid at *
    -- what came later is not below the bound
    have hpage : Lib.page idKey limit bid (ofPeer peer (log ++ later)) =
        Lib.page idKey limit bid (ofPeer peer log) := by
      unfold Lib.page ofPeer
      rw [List.filter_append, Lib.below_append fun m hm => hlater m (List.mem_of_mem_filter hm)]
    rw [hpage] at hload
    rw [pageThrough, hload]
    dsimp only
    cases hlast : (Lib.page idKey limit bid (ofPeer peer log)).getLast? with
    | none =>
      have hnil := (Lib.page_eq_nil_iff hlimit).mp (List.getLast?_eq_none_iff.mp hlast)
      rw [hnil]
      rfl
    | some last =>
      have hmem := List.mem_of_getLast? hlast
      have hlt : idKey last < bid := Lib.lt_of_mem_page hmem
      have hlog : last ∈ log := List.mem_of_mem_filter (Lib.mem_of_mem_page hmem)
      have hnext : ((some last.id).map asI64).getD i64Max = idKey last :=
        asI64_of_lt (hlt.trans_le hbound)
      have hsplit := Lib.reverse_below
        (pairwise_idKey (List.pairwise_append.mp hrecorded.increasing).1 peer) hlast
      obtain ⟨saved, hhistory, hsaved⟩ := history_saveOps E (between k) store (log ++ later)
      have hrecorded' : Recorded E (store.run E (saveOps (between k))) (log ++ (later ++ saved)) := by
        rw [← List.append_assoc, ← hhistory]
        exact hrecorded.run hgcm hzstd _
      have hrest := ih (k + 1) (store.run E (saveOps (between k))) (later ++ saved) (some last.id)
        hrecorded' ?_ ?_ ?_
      · dsimp only
        rw [hrest, hnext, hsplit]
        rfl
      · rw [hnext]
        exact hlt.le.trans hbound
      · rw [hnext]
        intro m hm
        rcases List.mem_append.mp hm with hm | hm
        · exact hlt.le.trans (hlater m hm)
        · have hle := hrecorded.bounded last (List.mem_append_left _ hlog)
          exact Int.ofNat_le.mpr (hle.trans (hsaved m hm).le)
      · rw [hnext]
        have hlength := congrArg List.length hsplit
        rw [List.length_append, List.length_reverse, List.length_reverse] at hlength
        have hpos := List.length_pos_of_mem hmem
        omega

end Pages

/-- **Paging through the history.** After any operations of the store, for every peer whose messages
have ids below `i64::MAX`, every limit and whatever is saved between the pages: the pages are the
messages of the peer that existed at the first call, each once, the newest first, as they were
saved. -/
theorem pagination_complete (E : StoreSuite Key Secret) (hgcm : E.primitives.AesGcmInverts)
    (hzstd : E.zstd.Inverts) (ops : List (StoreOp Key Secret × StoreIo)) (peer : PeerId)
    (limit : Nat) (hlimit : 1 ≤ limit) (between : Nat → List (SaveCall × StoreIo))
    (hids : ∀ m ∈ ofPeer peer (history E .empty [] ops), idKey m < i64Max) (fuel : Nat)
    (hfuel : (ofPeer peer (history E .empty [] ops)).length < fuel) :
    pageThrough E peer limit between fuel 0 (Store.empty.run E ops) none =
        some (.ok (ofPeer peer (history E .empty [] ops)).reverse) ∧
      (ofPeer peer (history E .empty [] ops)).Pairwise fun m m' => m.id < m'.id := by
  have hrecorded := (Recorded.empty E).run hgcm hzstd ops
  have hrecorded' : Recorded E (Store.empty.run E ops) (history E .empty [] ops ++ []) := by
    rwa [List.append_nil]
  have hpages := pageThrough_eq hgcm hzstd peer hlimit between fuel 0 (Store.empty.run E ops) [] none
    hrecorded' (le_refl _) (fun _ hm => nomatch hm)
  dsimp only [Option.map_none, Option.getD_none] at hpages
  rw [Lib.below_eq_self hids] at hpages
  exact ⟨hpages hfuel, hrecorded.increasing.filter _⟩

/-- Three messages of one peer with one of another among them, by pages of two, and a fourth saved
after the first page. -/
theorem pagination_complete_two :
    pageThrough sampleSuite (.ofNat 1) 2
        (fun _ => [(⟨.ofNat 1, .sent, [9], 50, List.replicate 12 5⟩, noFailure)]) 4 0
        (Store.empty.run sampleSuite [
          (.saveConversation (.ofNat 1) none 10, noFailure),
          (.saveConversation (.ofNat 2) none 10, noFailure),
          (.saveMessage (.ofNat 1) .sent [1] 20 (List.replicate 12 1), noFailure),
          (.saveMessage (.ofNat 2) .received [2] 21 (List.replicate 12 2), noFailure),
          (.saveMessage (.ofNat 1) .received (List.replicate 65 3) 22 (List.replicate 12 3), noFailure),
          (.saveMessage (.ofNat 1) .sent [4] 23 (List.replicate 12 4), noFailure)]) none =
      some (.ok [⟨4, (Array32.ofNat 1).val, .sent, [4], 23⟩,
        ⟨3, (Array32.ofNat 1).val, .received, List.replicate 65 3, 22⟩,
        ⟨1, (Array32.ofNat 1).val, .sent, [1], 20⟩]) := by
  refine (pagination_complete sampleSuite Primitives.additive_inverts (fun _ _ h => by cases h; rfl) _
    (.ofNat 1) 2 (by decide) _ ?_ 4 ?_).1.trans ?_
  · decide +kernel
  · decide +kernel
  · decide +kernel

/-! ## The last id -/

/-- The peer has a row in `conversations`, as the foreign key of a message demands. -/
def known (peer : PeerId) (store : Store) : Bool :=
  (store.conversations.lookup peer.val).isSome

theorem known_upsertConversation (peer : PeerId) (nickname : Option Bytes) (now : Nat)
    (store : Store) : known peer (upsertConversation peer.val nickname now store) = true := by
  unfold known upsertConversation
  split
  · dsimp only
    rw [AList.lookup_insert]
    rfl
  · dsimp only
    rw [AList.lookup_insert]
    rfl

theorem known_saveMessage (E : StoreSuite Key Secret) (peer : PeerId) (direction : Direction)
    (plaintext : Bytes) (timestamp : Nat) (nonce : Bytes) (io : StoreIo) (store : Store) :
    known peer (store.saveMessage E peer direction plaintext timestamp nonce io).1 =
      known peer store := by
  refine saveMessage_keeps (known peer) E (fun _ _ _ => rfl) (fun _ store => ?_) direction plaintext
    timestamp nonce io store
  unfold known
  rw [lookup_updateConversation, Option.isSome_map]

theorem table_saveMessage_of_succeeds {E : StoreSuite Key Secret} {peer : PeerId} {store : Store}
    (hknown : known peer store = true) {nonce plaintext ct : Bytes} {compressed : Bool}
    (hct : E.compressAndEncrypt nonce plaintext = .ok (ct, compressed)) (direction : Direction)
    (timestamp : Nat) :
    table (store.saveMessage E peer direction plaintext timestamp nonce noFailure).1 =
      (store.messages ++
        [⟨store.lastId + 1, peer.val, direction, ct, nonce, compressed, timestamp⟩],
        store.lastId + 1) := by
  unfold saveMessage
  rw [hct]
  dsimp only
  rw [andThen_statement_keeps table (table_updateConversation peer.val _)]
  dsimp only [andThen, locked, noFailure, insertMessage]
  rw [if_neg fun h => Option.isSome_iff_ne_none.mp hknown h.2]
  rfl

def manySaves (n : Nat) : List (StoreOp Array32 Array32 × StoreIo) :=
  List.replicate n (.saveMessage (.ofNat 1) .sent [104] 5 (List.replicate 12 0), noFailure)

/-- The conversations of both peers are saved. -/
def bothSaved : List (StoreOp Array32 Array32 × StoreIo) :=
  [(.saveConversation (.ofNat 1) none 5, noFailure),
    (.saveConversation (.ofNat 2) none 5, noFailure)]

/-- One conversation is filled and deleted, both are saved again, and a message to the other peer
follows. -/
def lastSave (n : Nat) : List (StoreOp Array32 Array32 × StoreIo) :=
  bothSaved ++ manySaves n ++ ((.deleteConversation (.ofNat 1), noFailure) :: bothSaved ++
    [(.saveMessage (.ofNat 2) .sent [104] 5 (List.replicate 12 0), noFailure)])

theorem run_manySaves (n : Nat) {store : Store} (hknown : known (.ofNat 1) store = true) :
    (store.run sampleSuite (manySaves n)).lastId = store.lastId + n ∧
      ∀ row ∈ (store.run sampleSuite (manySaves n)).messages,
        row ∈ store.messages ∨ row.peerId = (Array32.ofNat 1).val := by
  induction n generalizing store with
  | zero => exact ⟨rfl, fun row hrow => .inl hrow⟩
  | succ n ih =>
    have hct : ∃ ct compressed,
        sampleSuite.compressAndEncrypt (List.replicate 12 0) [104] = .ok (ct, compressed) :=
      ⟨_, _, rfl⟩
    obtain ⟨ct, compressed, hct⟩ := hct
    obtain ⟨hmessages, hlast⟩ := Prod.mk.inj (table_saveMessage_of_succeeds hknown hct .sent 5)
    obtain ⟨hids, hrows⟩ := ih ((known_saveMessage sampleSuite (.ofNat 1) .sent [104] 5
      (List.replicate 12 0) noFailure store).trans hknown)
    rw [manySaves, List.replicate_succ, run_cons, ← manySaves]
    dsimp only [Store.apply]
    refine ⟨?_, fun row hrow => ?_⟩
    · rw [hids, hlast]
      omega
    · rcases hrows row hrow with hbefore | hpeer
      · rw [hmessages] at hbefore
        rcases List.mem_append.mp hbefore with hbefore | hnew
        · exact .inl hbefore
        · rw [List.mem_singleton.mp hnew]
          exact .inr rfl
      · exact .inr hpeer

theorem table_lastSave (n : Nat) {ct : Bytes} {compressed : Bool}
    (hct : sampleSuite.compressAndEncrypt (List.replicate 12 0) [104] = .ok (ct, compressed)) :
    table (Store.empty.run sampleSuite (lastSave n)) =
      ([⟨n + 1, (Array32.ofNat 2).val, .sent, ct, List.replicate 12 0, compressed, 5⟩], n + 1) := by
  obtain ⟨hids, hrows⟩ := run_manySaves n
    (show known (.ofNat 1) (Store.empty.run sampleSuite bothSaved) = true by decide +kernel)
  have hrun : Store.empty.run sampleSuite (lastSave n) =
      (((((Store.empty.run sampleSuite bothSaved).run sampleSuite (manySaves n)).deleteConversation
        (.ofNat 1) noFailure).1.run sampleSuite bothSaved).saveMessage sampleSuite (.ofNat 2) .sent
        [104] 5 (List.replicate 12 0) noFailure).1 := by
    unfold lastSave Store.run
    rw [List.foldl_append, List.foldl_append, List.foldl_append, List.foldl_cons]
    rfl
  generalize (Store.empty.run sampleSuite bothSaved).run sampleSuite (manySaves n) = full
    at hids hrows hrun
  generalize hdeleted : (full.deleteConversation (.ofNat 1) noFailure).1 = deleted at hrun
  have hmessages : deleted.messages = [] := by
    subst hdeleted
    change full.messages.filter (fun row => row.peerId ≠ (Array32.ofNat 1).val) = []
    refine List.filter_eq_nil_iff.mpr fun row hrow => ?_
    rw [decide_eq_true_iff, not_not]
    exact (hrows row hrow).resolve_left fun h => nomatch h
  have hlast : deleted.lastId = n := by
    subst hdeleted
    exact hids.trans (Nat.zero_add n)
  have hsaved : table (deleted.run sampleSuite bothSaved) = (deleted.messages, deleted.lastId) :=
    (table_upsertConversation _ none 5 _).trans (table_upsertConversation _ none 5 _)
  have hknown : known (.ofNat 2) (deleted.run sampleSuite bothSaved) = true :=
    known_upsertConversation (.ofNat 2) none 5 _
  obtain ⟨hnone, hn⟩ := Prod.mk.inj hsaved
  rw [hrun, table_saveMessage_of_succeeds hknown hct, hnone, hn, hmessages, hlast, List.nil_append]

/-- After `2^63 - 2` messages that have been deleted, a message gets the id `i64::MAX`. It is in the
history, and `load_messages` does not return it. -/
theorem last_id_not_listed :
    ofPeer (.ofNat 2) (history sampleSuite .empty [] (lastSave (2 ^ 63 - 2))) =
        [⟨2 ^ 63 - 1, (Array32.ofNat 2).val, .sent, [104], 5⟩] ∧
      (Store.empty.run sampleSuite (lastSave (2 ^ 63 - 2))).loadMessages sampleSuite (.ofNat 2) 10
        none .ok = .ok [] := by
  have hct : ∃ ct compressed,
      sampleSuite.compressAndEncrypt (List.replicate 12 0) [104] = .ok (ct, compressed) := ⟨_, _, rfl⟩
  obtain ⟨ct, compressed, hct⟩ := hct
  have hzstd : sampleSuite.zstd.Inverts := fun _ _ h => by cases h; rfl
  have hrecorded := (Recorded.empty sampleSuite).run Primitives.additive_inverts hzstd
    (lastSave (2 ^ 63 - 2))
  have hmessages := (Prod.mk.inj (table_lastSave (2 ^ 63 - 2) hct)).1
  have hstored : sampleSuite.storedMessage
      ⟨2 ^ 63 - 2 + 1, (Array32.ofNat 2).val, .sent, ct, List.replicate 12 0, compressed, 5⟩ =
      .ok ⟨2 ^ 63 - 1, (Array32.ofNat 2).val, .sent, [104], 5⟩ :=
    storedMessage_eq_ok_iff.mpr ⟨decryptAndDecompress_compressAndEncrypt
      Primitives.additive_inverts hzstd hct, by norm_num, rfl, rfl, rfl⟩
  have hhistory : history sampleSuite .empty [] (lastSave (2 ^ 63 - 2)) =
      [⟨2 ^ 63 - 1, (Array32.ofNat 2).val, .sent, [104], 5⟩] := by
    have hrows := hrecorded.rows.mapM
    rw [hmessages, List.mapM_cons, hstored] at hrows
    exact (Except.ok.inj hrows).symm
  rw [loadMessages_eq hrecorded, hhistory]
  exact ⟨by decide +kernel, by decide +kernel⟩

end Cypher.Client.Store

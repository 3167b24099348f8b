import Cypher.Proto.Checked

/-!
# Walking through inbox messages (`handle_inbox_messages`)

The messages of an inbox come as one byte string, each behind its length. `handle_inbox_messages` takes
them out one after the other and hands them to `handle_inbox_message`; it stops at a length that
reaches beyond the end.
-/

namespace Cypher.Client

open Proto

/-- The loop from an offset on: the messages in the order in which they are handled. Each turn takes
at least four bytes, so `fuel` need not exceed the number of bytes. -/
def walkMessages (messages : Bytes) : (fuel offset : Nat) → List Bytes
  | 0, _ => []
  | fuel + 1, offset =>
    if offset + 4 ≤ messages.length then
      let len := Lib.leNat (slice messages offset (offset + 4))
      let offset := offset + 4
      if offset + len > messages.length then []
      else slice messages offset (offset + len) :: walkMessages messages fuel (offset + len)
    else []

def handleInboxMessages (messages : Bytes) : List Bytes :=
  walkMessages messages messages.length 0

def prefixed (raw : Bytes) : Bytes :=
  Lib.leBytes 4 raw.length ++ raw

theorem walkMessages_prefixed (done : Bytes) {payloads : List Bytes} {fuel : Nat}
    (hfuel : (payloads.flatMap prefixed).length ≤ fuel)
    (hshort : ∀ raw ∈ payloads, raw.length < 2 ^ 32) :
    walkMessages (done ++ payloads.flatMap prefixed) fuel done.length = payloads := by
  induction payloads generalizing done fuel with
  | nil =>
    cases fuel with
    | zero => rfl
    | succ fuel =>
      rw [walkMessages, if_neg]
      simp only [List.flatMap_nil, List.append_nil]
      omega
  | cons raw rest ih =>
    have hraw := hshort raw List.mem_cons_self
    have hlength : (prefixed raw).length = 4 + raw.length := by
      rw [prefixed, List.length_append, Lib.leBytes_length]
    rw [List.flatMap_cons, List.length_append, hlength] at hfuel
    cases fuel with
    | zero => omega
    | succ fuel =>
      have hlen : slice (done ++ (raw :: rest).flatMap prefixed) done.length (done.length + 4) =
          Lib.leBytes 4 raw.length := by
        rw [slice, List.drop_left, List.flatMap_cons, prefixed, List.append_assoc,
          List.take_left' (by rw [Lib.leBytes_length]; omega)]
      have hdata : slice (done ++ (raw :: rest).flatMap prefixed) (done.length + 4)
          (done.length + 4 + raw.length) = raw := by
        rw [slice, List.flatMap_cons, prefixed, List.append_assoc, ← List.append_assoc,
          List.drop_left' (by rw [List.length_append, Lib.leBytes_length]),
          List.take_left' (by omega)]
      have hrest : (rest.flatMap prefixed).length ≤ fuel := by omega
      have hnext := ih (done ++ prefixed raw) hrest
        fun raw' hraw' => hshort raw' (List.mem_cons_of_mem _ hraw')
      rw [List.append_assoc, List.length_append, hlength, ← Nat.add_assoc,
        ← List.flatMap_cons] at hnext
      have htotal : (done ++ (raw :: rest).flatMap prefixed).length =
          done.length + (4 + raw.length + (rest.flatMap prefixed).length) := by
        rw [List.length_append, List.flatMap_cons, List.length_append, hlength]
      rw [walkMessages, if_pos (by omega), hlen, Lib.leNat_leBytes (by exact hraw)]
      dsimp only
      rw [if_neg (by omega), hdata, hnext]

theorem handleInboxMessages_prefixed {payloads : List Bytes}
    (hshort : ∀ raw ∈ payloads, raw.length < 2 ^ 32) :
    handleInboxMessages (payloads.flatMap prefixed) = payloads :=
  walkMessages_prefixed [] (Nat.le_refl _) hshort

/-! ## The loop with its index checks -/

/-- The same loop for at most this many rounds. A slice outside the messages panics, which is `none`,
and so is a loop that has not ended by then. -/
def walkMessages? (messages : Bytes) : (rounds offset : Nat) → Option (List Bytes)
  | 0, _ => none
  | rounds + 1, offset =>
    if offset + 4 ≤ messages.length then do
      let len ← fromLeBytes? 4 messages offset (offset + 4)
      let offset := offset + 4
      if offset + len > messages.length then some []
      else do
        let messageBytes ← slice? messages offset (offset + len)
        let rest ← walkMessages? messages rounds (offset + len)
        some (messageBytes :: rest)
    else some []

/-- A round takes at least four bytes, so the loop ends before the rounds do. -/
theorem walkMessages?_eq {messages : Bytes} {rounds offset fuel : Nat}
    (hrounds : messages.length < offset + 4 * (rounds + 1))
    (hfuel : messages.length < offset + 4 * (fuel + 1)) :
    walkMessages? messages (rounds + 1) offset = some (walkMessages messages fuel offset) := by
  induction rounds generalizing offset fuel with
  | zero =>
    rw [walkMessages?, if_neg (by omega)]
    cases fuel with
    | zero => rfl
    | succ fuel => rw [walkMessages, if_neg (by omega)]
  | succ rounds ih =>
    rw [walkMessages?]
    by_cases hheader : offset + 4 ≤ messages.length
    · obtain ⟨fuel, rfl⟩ : ∃ k, fuel = k + 1 := ⟨fuel - 1, by omega⟩
      rw [walkMessages, if_pos hheader, if_pos hheader, fromLeBytes?_of_le hheader]
      dsimp only [Option.bind_eq_bind, Option.bind_some]
      generalize Lib.leNat (slice messages offset (offset + 4)) = len
      by_cases hdata : offset + 4 + len > messages.length
      · rw [if_pos hdata, if_pos hdata]
      · have hrest : walkMessages? messages (rounds + 1) (offset + 4 + len) =
            some (walkMessages messages fuel (offset + 4 + len)) := ih (by omega) (by omega)
        rw [if_neg hdata, if_neg hdata, slice?_of_le (by omega) (by omega), hrest]
        rfl
    · rw [if_neg hheader]
      cases fuel with
      | zero => rfl
      | succ fuel => rw [walkMessages, if_neg hheader]

/-- Whatever the messages are, the loop ends and never reads beyond them. -/
theorem handleInboxMessages?_eq {messages : Bytes} {rounds : Nat} (h : messages.length < rounds) :
    walkMessages? messages rounds 0 = some (handleInboxMessages messages) := by
  obtain ⟨rounds, rfl⟩ : ∃ k, rounds = k + 1 := ⟨rounds - 1, by omega⟩
  exact walkMessages?_eq (by omega) (by omega)

end Cypher.Client

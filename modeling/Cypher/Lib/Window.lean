import Mathlib.Data.Finset.Card

/-!
# Sending under a window

A sender has `total` items, has sent the first `sent` of them and has received the acknowledgements
`acked`, of which only the number is looked at. It sends while fewer than `window` more are sent than
acknowledged, and takes an acknowledgement in only when it can send nothing. `Sound` is what every
such sender keeps, whatever the acknowledgements say.
-/

namespace Cypher.Lib.Window

variable {α : Type} [DecidableEq α] {total window sent : Nat} {acked : Finset α}

structure Sound (total window sent : Nat) (acked : Finset α) : Prop where
  sent_le : sent ≤ total
  within : sent ≤ acked.card + window
  acked_le : acked.card ≤ sent

def Full (total window sent : Nat) (acked : Finset α) : Prop :=
  total ≤ sent ∨ acked.card + window ≤ sent

omit [DecidableEq α] in
theorem Sound.start (total window : Nat) : Sound total window 0 (∅ : Finset α) :=
  ⟨Nat.zero_le _, Nat.zero_le _, le_rfl⟩

omit [DecidableEq α] in
theorem Sound.send (h : Sound total window sent acked) (hmore : sent < total)
    (hroom : sent < acked.card + window) : Sound total window (sent + 1) acked :=
  ⟨hmore, hroom, h.acked_le.trans (Nat.le_succ _)⟩

theorem Sound.ack (h : Sound total window sent acked) (hfull : Full total window sent acked)
    (hwindow : 1 ≤ window) (hopen : acked.card < total) (a : α) :
    Sound total window sent (insert a acked) := by
  have hgrows : acked.card ≤ (insert a acked).card := Finset.card_le_card (Finset.subset_insert _ _)
  have hone : (insert a acked).card ≤ acked.card + 1 := Finset.card_insert_le _ _
  refine ⟨h.sent_le, h.within.trans (Nat.add_le_add_right hgrows _), hone.trans ?_⟩
  rcases hfull with hall | hahead
  · exact hopen.trans_le hall
  · exact (Nat.add_le_add_left hwindow _).trans hahead

omit [DecidableEq α] in
theorem Sound.complete (h : Sound total window sent acked) (hdone : total ≤ acked.card) :
    sent = total :=
  le_antisymm h.sent_le (hdone.trans h.acked_le)

end Cypher.Lib.Window

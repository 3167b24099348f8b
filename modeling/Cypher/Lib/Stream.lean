import Mathlib.Data.List.Basic
import Mathlib.Tactic

/-!
# Decoding a stream that arrives in segments

A decoder looks at the buffer and takes one item off its front, asks for more input or fails. The
reader appends each segment to the buffer and decodes until more input is asked for. If the items
are encoded so that the decoder recognises a whole encoding by itself and asks for more on every
proper part of one (`SelfDelimiting`), the reader recovers the items from every segmentation of
their encodings (`SelfDelimiting.read_eq`).
-/

namespace Cypher.Lib

variable {α β ε : Type}

/-- `none` asks for more input and leaves the buffer as it is; an item takes something off it. -/
structure Decoder (α β ε : Type) where
  decode : List α → Except ε (Option (β × List α))
  consumes : ∀ {buf : List α} {x : β} {rest : List α},
    decode buf = .ok (some (x, rest)) → rest.length < buf.length

namespace Decoder

variable (d : Decoder α β ε)

/-- Decode until more input is asked for. -/
def drain (buf : List α) : Except ε (List β × List α) :=
  match _ : d.decode buf with
  | .error e => .error e
  | .ok none => .ok ([], buf)
  | .ok (some (x, rest)) =>
    match drain rest with
    | .error e => .error e
    | .ok (xs, left) => .ok (x :: xs, left)
  termination_by buf.length
  decreasing_by exact d.consumes (by assumption)

def read : (segments : List (List α)) → (buf : List α) → Except ε (List β × List α)
  | [], buf => .ok ([], buf)
  | segment :: rest, buf =>
    match d.drain (buf ++ segment) with
    | .error e => .error e
    | .ok (xs, left) =>
      match read rest left with
      | .error e => .error e
      | .ok (ys, left) => .ok (xs ++ ys, left)

variable {d} {buf : List α}

theorem drain_of_none (h : d.decode buf = .ok none) : d.drain buf = .ok ([], buf) := by
  rw [drain]
  split
  · next e he => cases h.symm.trans he
  · rfl
  · next x rest hx => cases h.symm.trans hx

theorem drain_of_some {x : β} {rest : List α} (h : d.decode buf = .ok (some (x, rest)))
    {xs : List β} {left : List α} (hrest : d.drain rest = .ok (xs, left)) :
    d.drain buf = .ok (x :: xs, left) := by
  rw [drain]
  split
  · next e he => cases h.symm.trans he
  · next hnone => cases h.symm.trans hnone
  · next y rest' hy =>
    cases h.symm.trans hy
    rw [hrest]

end Decoder

/-- A whole encoding is recognised whatever follows it, a proper part of one is not an item yet. -/
structure SelfDelimiting (d : Decoder α β ε) (encode : β → List α) (Valid : β → Prop) : Prop where
  whole : ∀ {x : β}, Valid x → ∀ rest : List α, d.decode (encode x ++ rest) = .ok (some (x, rest))
  cut : ∀ {x : β}, Valid x → ∀ {part rest : List α}, part ++ rest = encode x → rest ≠ [] →
    d.decode part = .ok none
  nil : d.decode [] = .ok none

namespace SelfDelimiting

variable {d : Decoder α β ε} {encode : β → List α} {Valid : β → Prop}

/-- Draining a prefix of the encodings takes off the items that are complete in it. The buffer that is
left is the unread part of the prefix, and no item is complete in it. -/
theorem drain_eq (h : SelfDelimiting d encode Valid) {xs : List β} (hvalid : ∀ x ∈ xs, Valid x)
    {buf rest : List α} (hbuf : buf ++ rest = xs.flatMap encode) :
    ∃ ys zs left, xs = ys ++ zs ∧ d.drain buf = .ok (ys, left) ∧
      left ++ rest = zs.flatMap encode ∧ d.decode left = .ok none := by
  induction xs generalizing buf with
  | nil =>
    obtain ⟨rfl, rfl⟩ := List.append_eq_nil_iff.mp hbuf
    exact ⟨[], [], [], rfl, Decoder.drain_of_none h.nil, rfl, h.nil⟩
  | cons x xs ih =>
    obtain ⟨hx, hxs⟩ := List.forall_mem_cons.mp hvalid
    rw [List.flatMap_cons, List.append_eq_append_iff] at hbuf
    rcases hbuf with ⟨part, hpart, hrest⟩ | ⟨buf', hbuf', hrest⟩
    · -- The buffer ends inside the encoding of `x`, or exactly with it.
      by_cases hnil : part = []
      · rw [hnil, List.append_nil] at hpart
        rw [hnil, List.nil_append] at hrest
        obtain ⟨ys, zs, left, hsplit, hdrain, hleft, hnone⟩ :=
          ih hxs (show [] ++ rest = xs.flatMap encode from hrest)
        have hitem := h.whole hx []
        rw [List.append_nil, hpart] at hitem
        exact ⟨x :: ys, zs, left, by rw [hsplit, List.cons_append],
          Decoder.drain_of_some hitem hdrain, hleft, hnone⟩
      · have hnone := h.cut hx hpart.symm hnil
        refine ⟨[], x :: xs, buf, rfl, Decoder.drain_of_none hnone, ?_, hnone⟩
        rw [List.flatMap_cons, hpart, hrest, List.append_assoc]
    · obtain ⟨ys, zs, left, hsplit, hdrain, hleft, hnone⟩ := ih hxs hrest.symm
      have hitem := h.whole hx buf'
      rw [← hbuf'] at hitem
      exact ⟨x :: ys, zs, left, by rw [hsplit, List.cons_append],
        Decoder.drain_of_some hitem hdrain, hleft, hnone⟩

theorem eq_nil_of_none (h : SelfDelimiting d encode Valid) {xs : List β}
    (hvalid : ∀ x ∈ xs, Valid x) (hnone : d.decode (xs.flatMap encode) = .ok none) : xs = [] := by
  cases xs with
  | nil => rfl
  | cons x xs =>
    have hitem := h.whole (hvalid x List.mem_cons_self) (xs.flatMap encode)
    rw [← List.flatMap_cons, hnone] at hitem
    cases hitem

theorem read_buffer_eq (h : SelfDelimiting d encode Valid) {xs : List β}
    (hvalid : ∀ x ∈ xs, Valid x) {segments : List (List α)} {buf : List α}
    (hbuf : buf ++ segments.flatten = xs.flatMap encode) (hnone : d.decode buf = .ok none) :
    d.read segments buf = .ok (xs, []) := by
  induction segments generalizing xs buf with
  | nil =>
    rw [List.flatten_nil, List.append_nil] at hbuf
    rw [hbuf] at hnone
    obtain rfl := h.eq_nil_of_none hvalid hnone
    rw [hbuf]
    rfl
  | cons segment segments ih =>
    rw [List.flatten_cons, ← List.append_assoc] at hbuf
    obtain ⟨ys, zs, left, rfl, hdrain, hleft, hnone'⟩ := h.drain_eq hvalid hbuf
    have hzs : ∀ x ∈ zs, Valid x := fun x hx => hvalid x (List.mem_append_right ys hx)
    rw [Decoder.read, hdrain]
    dsimp only
    rw [ih hzs hleft hnone']

/-- **Segmentation does not matter.** However the encodings are cut, exactly the items are read, in
order, without an error and with nothing left over. -/
theorem read_eq (h : SelfDelimiting d encode Valid) {xs : List β} (hvalid : ∀ x ∈ xs, Valid x)
    {segments : List (List α)} (hcut : segments.flatten = xs.flatMap encode) :
    d.read segments [] = .ok (xs, []) :=
  h.read_buffer_eq hvalid (by rw [List.nil_append, hcut]) h.nil

end SelfDelimiting

end Cypher.Lib

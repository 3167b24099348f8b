import Mathlib.Data.List.TakeWhile

/-!
# Parser combinators

The combinators of the `nom` library over a list of tokens. A parser returns the rest of its input
with a value, or it fails: an `error` is what `orElse` and `many0` recover from, a `panic` ends the
program. Each combinator has one lemma that says exactly which inputs it accepts, with the consumed
part split off in front, so that a parser written with them is inverted by rewriting. Maximal
munch shows as a condition on the rest of the input (`Stops`).
-/

namespace Cypher.Lib.Parsing

inductive Failure where
  | error
  | panic (message : String)
  deriving DecidableEq, Repr

/-- `IResult`: the rest of the input and the value. -/
abbrev Parser (τ α : Type) := List τ → Except Failure (List τ × α)

variable {τ α β : Type}

theorem bind_eq_ok {x : Except Failure α} {f : α → Except Failure β} {b : β} :
    (x >>= f) = .ok b ↔ ∃ a, x = .ok a ∧ f a = .ok b := by
  cases x with
  | error e => exact iff_of_false (fun h => nomatch h) (fun ⟨_, h, _⟩ => nomatch h)
  | ok a => exact ⟨fun h => ⟨a, rfl, h⟩, fun ⟨_, ha, hb⟩ => by cases ha; exact hb⟩

/-! ## Character classes -/

/-- The input is empty or its first token is not of the class `f`. -/
def Stops (f : τ → Bool) (input : List τ) : Prop :=
  ∀ c ∈ input.head?, f c = false

@[simp] theorem stops_nil (f : τ → Bool) : Stops f [] := by
  intro c hc
  cases hc

@[simp] theorem stops_cons {f : τ → Bool} {c : τ} {rest : List τ} :
    Stops f (c :: rest) ↔ f c = false := by
  simp [Stops]

theorem Stops.append {f : τ → Bool} {s rest : List τ} (hne : s ≠ [])
    (h : ∀ c ∈ s, f c = false) : Stops f (s ++ rest) := by
  cases s with
  | nil => exact absurd rfl hne
  | cons c s => exact stops_cons.mpr (h c List.mem_cons_self)

theorem stops_dropWhile (f : τ → Bool) (input : List τ) : Stops f (input.dropWhile f) := by
  intro c hc
  have hne : input.dropWhile f ≠ [] := by
    rintro h
    rw [h] at hc
    cases hc
  have hhead := List.head_dropWhile_not f hne
  rw [List.head?_eq_some_head hne, Option.mem_some_iff] at hc
  rw [← hc]
  exact hhead

theorem takeWhile_eq_nil_of_stops {f : τ → Bool} {rest : List τ} (h : Stops f rest) :
    rest.takeWhile f = [] := by
  cases rest with
  | nil => rfl
  | cons c rest => simp [stops_cons.mp h]

theorem dropWhile_eq_of_stops {f : τ → Bool} {rest : List τ} (h : Stops f rest) :
    rest.dropWhile f = rest := by
  cases rest with
  | nil => rfl
  | cons c rest => simp [stops_cons.mp h]

/-- `take_while0`; `multispace0` and `space0` are instances. -/
def takeWhile0 (f : τ → Bool) (input : List τ) : Except Failure (List τ × List τ) :=
  .ok (input.dropWhile f, input.takeWhile f)

/-- `take_while1`; `space1` is an instance. -/
def takeWhile1 (f : τ → Bool) (input : List τ) : Except Failure (List τ × List τ) :=
  if (input.takeWhile f).isEmpty then .error .error
  else .ok (input.dropWhile f, input.takeWhile f)

theorem takeWhile0_eq_ok_iff {f : τ → Bool} {input rest s : List τ} :
    takeWhile0 f input = .ok (rest, s) ↔
      input = s ++ rest ∧ (∀ c ∈ s, f c = true) ∧ Stops f rest := by
  constructor
  · intro h
    simp only [takeWhile0, Except.ok.injEq, Prod.mk.injEq] at h
    obtain ⟨rfl, rfl⟩ := h
    exact ⟨List.takeWhile_append_dropWhile.symm, fun c hc => List.mem_takeWhile_imp hc,
      stops_dropWhile f input⟩
  · rintro ⟨rfl, hs, hrest⟩
    rw [takeWhile0, List.dropWhile_append_of_pos hs, List.takeWhile_append_of_pos hs,
      takeWhile_eq_nil_of_stops hrest, dropWhile_eq_of_stops hrest, List.append_nil]

theorem takeWhile1_eq_ok_iff {f : τ → Bool} {input rest s : List τ} :
    takeWhile1 f input = .ok (rest, s) ↔
      input = s ++ rest ∧ s ≠ [] ∧ (∀ c ∈ s, f c = true) ∧ Stops f rest := by
  have h0 : takeWhile0 f input = .ok (rest, s) ↔ _ := takeWhile0_eq_ok_iff
  simp only [takeWhile0, Except.ok.injEq, Prod.mk.injEq] at h0
  constructor
  · intro h
    unfold takeWhile1 at h
    split at h
    · cases h
    · next hne =>
      simp only [Except.ok.injEq, Prod.mk.injEq] at h
      obtain ⟨hsplit, hs, hrest⟩ := h0.mp h
      rw [h.2] at hne
      exact ⟨hsplit, by simpa using hne, hs, hrest⟩
  · rintro ⟨hsplit, hne, hs, hrest⟩
    obtain ⟨hdrop, htake⟩ := h0.mpr ⟨hsplit, hs, hrest⟩
    rw [takeWhile1, hdrop, htake, if_neg (by simpa using hne)]

theorem takeWhile1_eq_error_iff {f : τ → Bool} {input : List τ} :
    takeWhile1 f input = .error .error ↔ Stops f input := by
  constructor
  · intro h
    unfold takeWhile1 at h
    split at h
    · next hnil =>
      rw [List.isEmpty_iff] at hnil
      have hsplit := List.takeWhile_append_dropWhile (p := f) (l := input)
      rw [hnil, List.nil_append] at hsplit
      rw [← hsplit]
      exact stops_dropWhile f input
    · cases h
  · intro h
    rw [takeWhile1, takeWhile_eq_nil_of_stops h]
    rfl

/-! ## Fixed texts and choice -/

def tag [DecidableEq τ] (t input : List τ) : Except Failure (List τ × List τ) :=
  if t.isPrefixOf input then .ok (input.drop t.length, t) else .error .error

def char [DecidableEq τ] (c : τ) : Parser τ τ
  | [] => .error .error
  | d :: rest => if d = c then .ok (rest, c) else .error .error

def value (a : α) (p : Parser τ β) (input : List τ) : Except Failure (List τ × α) :=
  match p input with
  | .error e => .error e
  | .ok (rest, _) => .ok (rest, a)

def orElse (p q : Parser τ α) (input : List τ) : Except Failure (List τ × α) :=
  match p input with
  | .error .error => q input
  | r => r

def preceded (p : Parser τ β) (q : Parser τ α) (input : List τ) : Except Failure (List τ × α) :=
  match p input with
  | .error e => .error e
  | .ok (rest, _) => q rest

theorem tag_eq_ok_iff [DecidableEq τ] {t input rest s : List τ} :
    tag t input = .ok (rest, s) ↔ s = t ∧ input = t ++ rest := by
  unfold tag
  split
  · next h =>
    obtain ⟨r, rfl⟩ := List.isPrefixOf_iff_prefix.mp h
    simp only [List.drop_left, Except.ok.injEq, Prod.mk.injEq, List.append_cancel_left_eq]
    exact ⟨fun ⟨hr, hs⟩ => ⟨hs.symm, hr⟩, fun ⟨hs, hr⟩ => ⟨hr, hs.symm⟩⟩
  · next h =>
    refine iff_of_false (fun h' => nomatch h') ?_
    rintro ⟨-, rfl⟩
    exact h (List.isPrefixOf_iff_prefix.mpr (List.prefix_append t rest))

theorem char_eq_ok_iff [DecidableEq τ] {c d : τ} {input rest : List τ} :
    char c input = .ok (rest, d) ↔ d = c ∧ input = c :: rest := by
  cases input with
  | nil => simp [char]
  | cons e input =>
    unfold char
    by_cases he : e = c
    · subst he
      simp only [if_true, Except.ok.injEq, Prod.mk.injEq, List.cons.injEq, true_and]
      exact ⟨fun ⟨hr, hs⟩ => ⟨hs.symm, hr⟩, fun ⟨hs, hr⟩ => ⟨hr, hs.symm⟩⟩
    · simp [he]

theorem value_eq_ok_iff {a b : α} {p : Parser τ β} {input rest : List τ} :
    value a p input = .ok (rest, b) ↔ b = a ∧ ∃ x, p input = .ok (rest, x) := by
  unfold value
  cases hp : p input with
  | error e => simp
  | ok r =>
    obtain ⟨r, x⟩ := r
    simp only [Except.ok.injEq, Prod.mk.injEq, exists_and_left, exists_eq', and_true]
    exact ⟨fun ⟨hr, hb⟩ => ⟨hb.symm, hr⟩, fun ⟨hb, hr⟩ => ⟨hr, hb.symm⟩⟩

theorem orElse_eq_ok_iff {p q : Parser τ α} {input : List τ} {r : List τ × α} :
    orElse p q input = .ok r ↔
      p input = .ok r ∨ (p input = .error .error ∧ q input = .ok r) := by
  unfold orElse
  split
  · next h => simp [h]
  · next h =>
    constructor
    · exact Or.inl
    · rintro (hr | ⟨he, -⟩)
      · exact hr
      · exact absurd he h

theorem preceded_eq_ok_iff {p : Parser τ β} {q : Parser τ α} {input : List τ} {r : List τ × α} :
    preceded p q input = .ok r ↔ ∃ rest x, p input = .ok (rest, x) ∧ q rest = .ok r := by
  unfold preceded
  cases hp : p input with
  | error e => simp
  | ok r => simp [Prod.ext_iff]

/-! ## Repetition -/

/-- The loop of `many0`. It recovers from an error of `p` and refuses a `p` that consumed
nothing. -/
def many0Loop (p : Parser τ α) : Nat → List τ → Except Failure (List τ × List α)
  | 0, _ => .error .error
  | fuel + 1, input =>
    match p input with
    | .error .error => .ok (input, [])
    | .error e => .error e
    | .ok (rest, a) =>
      if rest.length = input.length then .error .error
      else
        match many0Loop p fuel rest with
        | .error e => .error e
        | .ok (rest, as) => .ok (rest, a :: as)

/-- `many0(p)`. Each round consumes a token, so the length of the input bounds the rounds. -/
def many0 (p : Parser τ α) (input : List τ) : Except Failure (List τ × List α) :=
  many0Loop p (input.length + 1) input

/-- `p` read one after the other from `input`, leaving `rest`. -/
inductive Many (p : Parser τ α) : List τ → List α → List τ → Prop
  | nil (rest : List τ) : Many p rest [] rest
  | cons {input mid rest : List τ} {a : α} {as : List α} (head : p input = .ok (mid, a))
      (tail : Many p mid as rest) : Many p input (a :: as) rest

/-- Whatever `p` accepts is shorter afterwards. -/
def Consumes (p : Parser τ α) : Prop :=
  ∀ input rest a, p input = .ok (rest, a) → rest.length < input.length

theorem many0Loop_sound {p : Parser τ α} {fuel : Nat} {input rest : List τ} {as : List α}
    (h : many0Loop p fuel input = .ok (rest, as)) :
    Many p input as rest ∧ p rest = .error .error := by
  induction fuel generalizing input as with
  | zero => cases h
  | succ fuel ih =>
    unfold many0Loop at h
    split at h
    · next hp =>
      cases h
      exact ⟨.nil _, hp⟩
    · cases h
    · next mid a hp =>
      split at h
      · cases h
      · split at h
        · cases h
        · next rest' as' hloop =>
          cases h
          obtain ⟨htail, hstop⟩ := ih hloop
          exact ⟨.cons hp htail, hstop⟩

theorem many0Loop_complete {p : Parser τ α} (hp : Consumes p) {input rest : List τ} {as : List α}
    (hmany : Many p input as rest) (hstop : p rest = .error .error) {fuel : Nat}
    (hfuel : input.length < fuel) : many0Loop p fuel input = .ok (rest, as) := by
  induction hmany generalizing fuel with
  | nil rest =>
    obtain ⟨fuel, rfl⟩ : ∃ n, fuel = n + 1 := ⟨fuel - 1, by omega⟩
    rw [many0Loop, hstop]
  | cons head tail ih =>
    obtain ⟨fuel, rfl⟩ : ∃ n, fuel = n + 1 := ⟨fuel - 1, by omega⟩
    have hlt := hp _ _ _ head
    have hloop := @ih hstop fuel (by omega)
    rw [many0Loop, head]
    simp only [if_neg (Nat.ne_of_lt hlt), hloop]

/-- `many0` reads as often as it can: it stops only where `p` fails. -/
theorem many0_eq_ok_iff {p : Parser τ α} (hp : Consumes p) {input rest : List τ} {as : List α} :
    many0 p input = .ok (rest, as) ↔ Many p input as rest ∧ p rest = .error .error :=
  ⟨many0Loop_sound, fun ⟨hmany, hstop⟩ => many0Loop_complete hp hmany hstop (Nat.lt_succ_self _)⟩

end Cypher.Lib.Parsing

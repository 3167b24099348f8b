import Cypher.Proto.Build

/-!
# What the schema parser accepts

The grammar of a schema file, stated without the parser: constructors and comments in any order,
with any layout between their parts. `parseSchema` reads exactly this grammar. Whatever it accepts
is a text of the constructors it returns, whatever is such a text is accepted, and its loop ends
for every text.
-/

namespace Cypher.Proto.Build

open Lib.Parsing

/-! ## The grammar -/

/-- All characters of `s` are in the class `f`. -/
def AllIn (f : Char → Bool) (s : List Char) : Prop :=
  ∀ c ∈ s, f c = true

def typeName : FieldType → List Char
  | .int => "Int".toList
  | .long => "Long".toList
  | .bytes => "Bytes".toList
  | .string => "String".toList

/-- `name:Type`. -/
structure FieldText (U : CharTables) (s : List Char) (f : Field) : Prop where
  name_ne : f.name.toList ≠ []
  name_ident : AllIn (isIdentChar U) f.name.toList
  text : s = f.name.toList ++ ':' :: typeName f.ty

/-- Fields, each after one or more spaces or tabs. -/
inductive FieldsText (U : CharTables) : List Char → List Field → Prop
  | nil : FieldsText U [] []
  | cons {sp s t : List Char} {f : Field} {fs : List Field} (hne : sp ≠ []) (hsp : AllIn isSpace sp)
      (head : FieldText U s f) (tail : FieldsText U t fs) : FieldsText U (sp ++ s ++ t) (f :: fs)

/-- `@0xID method fields = response;`. -/
inductive ConstructorText (U : CharTables) : List Char → Constructor → Prop
  | mk {hex sp fields sp₁ sp₂ : List Char} {c : Constructor}
      (hex_ne : hex ≠ []) (hex_digits : AllIn isHexDigit hex) (hex_id : hexNumber hex = c.id.toNat)
      (sp_ne : sp ≠ []) (sp_spaces : AllIn isSpace sp)
      (method_ne : c.methodName.toList ≠ [])
      (method_chars : AllIn (isMethodChar U) c.methodName.toList)
      (fields_text : FieldsText U fields c.fields)
      (sp₁_spaces : AllIn isSpace sp₁) (sp₂_spaces : AllIn isSpace sp₂)
      (response_ne : c.responseType.toList ≠ [])
      (response_chars : AllIn (isMethodChar U) c.responseType.toList) :
      ConstructorText U
        ("@0x".toList ++ (hex ++ (sp ++ (c.methodName.toList ++ (fields ++ (sp₁ ++ ('=' ::
          (sp₂ ++ (c.responseType.toList ++ [';'])))))))))
        c

/-- A schema file. A comment runs to the end of its line; after the last constructor or comment
any white space of Unicode may follow, while between them only the four ASCII characters may. -/
inductive SchemaText (U : CharTables) : List Char → List Constructor → Prop
  | blank {s : List Char} (hs : AllIn isWhitespace s) : SchemaText U s []
  | comment {ws body rest : List Char} {cs : List Constructor} (hws : AllIn isMultispace ws)
      (hbody : '\n' ∉ body) (hline : rest = [] ∨ ∃ r, rest = '\n' :: r)
      (tail : SchemaText U rest cs) : SchemaText U (ws ++ ("//".toList ++ (body ++ rest))) cs
  | constructor {ws s rest : List Char} {c : Constructor} {cs : List Constructor}
      (hws : AllIn isMultispace ws) (head : ConstructorText U s c) (tail : SchemaText U rest cs) :
      SchemaText U (ws ++ (s ++ rest)) (c :: cs)

/-! ## Character classes -/

section Classes

variable (U : CharTables)

theorem isIdentChar_ascii {c : Char} (h : c.toNat < 128) :
    isIdentChar U c = (c.isAlphanum || c == '_') := by
  rw [isIdentChar, U.isAlphanumeric_ascii c h]

theorem isMethodChar_ascii {c : Char} (h : c.toNat < 128) :
    isMethodChar U c = (c.isAlphanum || c == '_' || c == '.') := by
  rw [isMethodChar, U.isAlphanumeric_ascii c h]

theorem isSpace_iff {c : Char} : isSpace c = true ↔ c = ' ' ∨ c = '\t' := by
  simp [isSpace]

theorem isMethodChar_of_isSpace {c : Char} (h : isSpace c = true) : isMethodChar U c = false := by
  rcases isSpace_iff.mp h with rfl | rfl
  · rw [isMethodChar_ascii U (by decide)]
    decide
  · rw [isMethodChar_ascii U (by decide)]
    decide

theorem isSpace_of_isIdentChar {c : Char} (h : isIdentChar U c = true) : isSpace c = false := by
  rw [← Bool.not_eq_true]
  intro hsp
  have hmethod := isMethodChar_of_isSpace U hsp
  rw [isMethodChar] at hmethod
  rw [isIdentChar] at h
  simp_all

theorem isSpace_of_isMethodChar {c : Char} (h : isMethodChar U c = true) : isSpace c = false := by
  rw [← Bool.not_eq_true]
  intro hsp
  rw [isMethodChar_of_isSpace U hsp] at h
  cases h

theorem isHexDigit_of_isSpace {c : Char} (h : isSpace c = true) : isHexDigit c = false := by
  rcases isSpace_iff.mp h with rfl | rfl <;> decide

theorem isIdentChar_colon : isIdentChar U ':' = false := by
  rw [isIdentChar_ascii U (by decide)]
  decide

theorem isIdentChar_equals : isIdentChar U '=' = false := by
  rw [isIdentChar_ascii U (by decide)]
  decide

theorem isMethodChar_equals : isMethodChar U '=' = false := by
  rw [isMethodChar_ascii U (by decide)]
  decide

theorem isMethodChar_semicolon : isMethodChar U ';' = false := by
  rw [isMethodChar_ascii U (by decide)]
  decide

theorem AllIn.stops {f g : Char → Bool} {s rest : List Char} (hs : AllIn g s) (hne : s ≠ [])
    (hfg : ∀ c, g c = true → f c = false) : Stops f (s ++ rest) :=
  Stops.append hne fun c hc => hfg c (hs c hc)

theorem AllIn.stops_append {f g : Char → Bool} {s rest : List Char} (hs : AllIn g s)
    (hfg : ∀ c, g c = true → f c = false) (hrest : Stops f rest) : Stops f (s ++ rest) := by
  by_cases hne : s = []
  · rw [hne, List.nil_append]
    exact hrest
  · exact hs.stops hne hfg

end Classes

/-! ## Fields -/

section Fields

variable {U : CharTables}

theorem parseFieldType_eq_ok_iff {input rest : List Char} {ty : FieldType} :
    parseFieldType input = .ok (rest, ty) ↔ input = typeName ty ++ rest := by
  constructor
  · intro h
    simp only [parseFieldType, orElse_eq_ok_iff, value_eq_ok_iff, tag_eq_ok_iff] at h
    obtain ⟨rfl, _, -, rfl⟩ | ⟨-, ⟨rfl, _, -, rfl⟩ | ⟨-, ⟨rfl, _, -, rfl⟩ | ⟨-, rfl, _, -, rfl⟩⟩⟩ := h
      <;> rfl
  · rintro rfl
    cases ty <;> simp [parseFieldType, orElse, value, tag, typeName]

theorem parseField_eq_ok_iff {input rest : List Char} {f : Field} :
    parseField U input = .ok (rest, f) ↔ ∃ s, FieldText U s f ∧ input = s ++ rest := by
  simp only [parseField, bind_eq_ok, Prod.exists, takeWhile1_eq_ok_iff, char_eq_ok_iff,
    parseFieldType_eq_ok_iff, Except.ok.injEq, Prod.mk.injEq]
  constructor
  · rintro ⟨_, name, ⟨rfl, hne, hname, -⟩, _, _, ⟨-, rfl⟩, _, ty, rfl, rfl, rfl⟩
    refine ⟨_, ⟨by simpa using hne, by simpa [AllIn] using hname, rfl⟩, ?_⟩
    simp
  · rintro ⟨_, ⟨hne, hname, rfl⟩, rfl⟩
    refine ⟨':' :: (typeName f.ty ++ rest), f.name.toList, ⟨by simp, hne, hname, ?_⟩,
      typeName f.ty ++ rest, ':', ⟨rfl, rfl⟩, rest, f.ty, rfl, rfl, ?_⟩
    · exact stops_cons.mpr (isIdentChar_colon U)
    · rw [String.ofList_toList]

theorem spacedField_eq_ok_iff {input rest : List Char} {f : Field} :
    preceded (takeWhile1 isSpace) (parseField U) input = .ok (rest, f) ↔
      ∃ sp s, sp ≠ [] ∧ AllIn isSpace sp ∧ FieldText U s f ∧ input = sp ++ s ++ rest := by
  simp only [preceded_eq_ok_iff, takeWhile1_eq_ok_iff, parseField_eq_ok_iff]
  constructor
  · rintro ⟨_, sp, ⟨rfl, hne, hsp, -⟩, s, hs, rfl⟩
    exact ⟨sp, s, hne, hsp, hs, (List.append_assoc _ _ _).symm⟩
  · rintro ⟨sp, s, hne, hsp, hs, rfl⟩
    refine ⟨s ++ rest, sp, ⟨List.append_assoc _ _ _, hne, hsp, ?_⟩, s, hs, rfl⟩
    rw [hs.text, List.append_assoc]
    exact hs.name_ident.stops hs.name_ne fun c => isSpace_of_isIdentChar U

theorem spacedField_consumes : Consumes (preceded (takeWhile1 isSpace) (parseField U)) := by
  intro input rest f h
  obtain ⟨sp, s, hne, -, -, rfl⟩ := spacedField_eq_ok_iff.mp h
  have hpos := List.length_pos_iff.mpr hne
  simp only [List.length_append]
  omega

theorem spacedField_error {sp rest : List Char} (hsp : AllIn isSpace sp) :
    preceded (takeWhile1 isSpace) (parseField U) (sp ++ '=' :: rest) = .error .error := by
  by_cases hne : sp = []
  · subst hne
    have hstop : takeWhile1 isSpace ('=' :: rest) = .error .error :=
      takeWhile1_eq_error_iff.mpr (stops_cons.mpr (by decide))
    rw [List.nil_append, preceded, hstop]
  · have hspaces : takeWhile1 isSpace (sp ++ '=' :: rest) = .ok ('=' :: rest, sp) :=
      takeWhile1_eq_ok_iff.mpr ⟨rfl, hne, hsp, stops_cons.mpr (by decide)⟩
    have hname : takeWhile1 (isIdentChar U) ('=' :: rest) = .error .error :=
      takeWhile1_eq_error_iff.mpr (stops_cons.mpr (isIdentChar_equals U))
    rw [preceded, hspaces]
    simp only [parseField, hname]
    rfl

theorem many_spacedField_iff {input rest : List Char} {fs : List Field} :
    Many (preceded (takeWhile1 isSpace) (parseField U)) input fs rest ↔
      ∃ t, FieldsText U t fs ∧ input = t ++ rest := by
  constructor
  · intro h
    induction h with
    | nil rest => exact ⟨[], .nil, rfl⟩
    | cons head tail ih =>
      obtain ⟨sp, s, hne, hsp, hs, rfl⟩ := spacedField_eq_ok_iff.mp head
      obtain ⟨t, ht, rfl⟩ := ih
      exact ⟨sp ++ s ++ t, .cons hne hsp hs ht, (List.append_assoc _ _ _).symm⟩
  · rintro ⟨t, ht, rfl⟩
    induction ht with
    | nil => exact .nil rest
    | cons hne hsp head tail ih =>
      refine .cons (spacedField_eq_ok_iff.mpr ⟨_, _, hne, hsp, head, ?_⟩) ih
      exact List.append_assoc _ _ _

end Fields

/-! ## Constructors -/

section Constructors

variable {U : CharTables}

theorem fromStrRadix16_eq_some_iff {digits : List Char} {id : UInt32} :
    fromStrRadix16 digits = some id ↔ hexNumber digits = id.toNat := by
  have hid := id.toNat_lt
  unfold fromStrRadix16
  split
  · next h =>
    rw [Option.some.injEq]
    constructor
    · rintro rfl
      rw [UInt32.toNat_ofNat', Nat.mod_eq_of_lt h]
    · intro h'
      rw [h', UInt32.ofNat_toNat]
  · next h => exact iff_of_false (fun h' => nomatch h') (fun h' => h (h' ▸ hid))

theorem parseConstructorId_eq_ok_iff {input rest : List Char} {id : UInt32} :
    parseConstructorId input = .ok (rest, id) ↔
      ∃ hex, hex ≠ [] ∧ AllIn isHexDigit hex ∧ hexNumber hex = id.toNat ∧ Stops isHexDigit rest ∧
        input = "@0x".toList ++ (hex ++ rest) := by
  simp only [parseConstructorId, bind_eq_ok, Prod.exists, takeWhile1_eq_ok_iff, tag_eq_ok_iff]
  constructor
  · rintro ⟨_, _, ⟨-, rfl⟩, _, hex, ⟨rfl, hne, hhex, hstop⟩, h⟩
    cases hid : fromStrRadix16 hex with
    | none => simp [hid] at h
    | some id' =>
      simp only [hid, Except.ok.injEq, Prod.mk.injEq] at h
      obtain ⟨rfl, rfl⟩ := h
      exact ⟨hex, hne, hhex, fromStrRadix16_eq_some_iff.mp hid, hstop, rfl⟩
  · rintro ⟨hex, hne, hhex, hid, hstop, rfl⟩
    refine ⟨hex ++ rest, _, ⟨rfl, rfl⟩, rest, hex, ⟨rfl, hne, hhex, hstop⟩, ?_⟩
    rw [fromStrRadix16_eq_some_iff.mpr hid]

theorem FieldsText.stops_append {f : Char → Bool} {t rest : List Char} {fs : List Field}
    (ht : FieldsText U t fs) (hf : ∀ c, isSpace c = true → f c = false) (hrest : Stops f rest) :
    Stops f (t ++ rest) := by
  cases ht with
  | nil => exact hrest
  | cons hne hsp head tail =>
    rw [List.append_assoc, List.append_assoc]
    exact hsp.stops hne hf

theorem parseConstructor_sound {input rest : List Char} {c : Constructor}
    (h : parseConstructor U input = .ok (rest, c)) :
    ∃ ws s, AllIn isMultispace ws ∧ ConstructorText U s c ∧ input = ws ++ (s ++ rest) := by
  simp only [parseConstructor, bind_eq_ok, Prod.exists, takeWhile0_eq_ok_iff,
    takeWhile1_eq_ok_iff, char_eq_ok_iff, parseConstructorId_eq_ok_iff,
    many0_eq_ok_iff spacedField_consumes, many_spacedField_iff, Except.ok.injEq,
    Prod.mk.injEq] at h
  obtain ⟨_, ws, ⟨rfl, hws, -⟩, _, id, ⟨hex, hex_ne, hhex, hid, -, rfl⟩, _, sp, ⟨rfl, sp_ne, hsp, -⟩,
    _, method, ⟨rfl, method_ne, hmethod, -⟩, _, fields, ⟨⟨t, ht, rfl⟩, -⟩, _, sp₁, ⟨rfl, hsp₁, -⟩,
    _, _, ⟨-, rfl⟩, _, sp₂, ⟨rfl, hsp₂, -⟩, _, response, ⟨rfl, response_ne, hresponse, -⟩,
    _, _, ⟨-, rfl⟩, rfl, rfl⟩ := h
  refine ⟨ws, _, hws, .mk hex_ne hhex hid sp_ne hsp (by simpa using method_ne)
    (by simpa [AllIn] using hmethod) ht hsp₁ hsp₂ (by simpa using response_ne)
    (by simpa [AllIn] using hresponse), ?_⟩
  simp

theorem parseConstructor_complete {ws s rest : List Char} {c : Constructor}
    (hws : AllIn isMultispace ws) (hs : ConstructorText U s c) :
    parseConstructor U (ws ++ (s ++ rest)) = .ok (rest, c) := by
  obtain ⟨hex_ne, hhex, hid, sp_ne, hsp, method_ne, hmethod, ht, hsp₁, hsp₂, response_ne,
    hresponse⟩ := hs
  simp only [parseConstructor, bind_eq_ok, Prod.exists, takeWhile0_eq_ok_iff,
    takeWhile1_eq_ok_iff, char_eq_ok_iff, parseConstructorId_eq_ok_iff,
    many0_eq_ok_iff spacedField_consumes, many_spacedField_iff, Except.ok.injEq, Prod.mk.injEq]
  -- each `Stops` says that the next part of the text ends the maximal munch before it
  refine ⟨_, ws, ⟨rfl, hws, ?_⟩, _, c.id, ⟨_, hex_ne, hhex, hid, ?_, ?_⟩,
    _, _, ⟨rfl, sp_ne, hsp, ?_⟩, _, _, ⟨rfl, method_ne, hmethod, ?_⟩,
    _, c.fields, ⟨⟨_, ht, rfl⟩, ?_⟩, _, _, ⟨rfl, hsp₁, ?_⟩, _, '=', ⟨rfl, rfl⟩,
    _, _, ⟨rfl, hsp₂, ?_⟩, _, _, ⟨rfl, response_ne, hresponse, ?_⟩, rest, ';', ⟨rfl, rfl⟩, rfl, ?_⟩
  · exact stops_cons.mpr (by decide)
  · exact hsp.stops sp_ne fun c => isHexDigit_of_isSpace
  · simp
  · exact hmethod.stops method_ne fun c => isSpace_of_isMethodChar U
  · exact ht.stops_append (fun c => isMethodChar_of_isSpace U)
      (hsp₁.stops_append (fun c => isMethodChar_of_isSpace U)
        (stops_cons.mpr (isMethodChar_equals U)))
  · exact spacedField_error hsp₁
  · exact stops_cons.mpr (by decide)
  · exact hresponse.stops response_ne fun c => isSpace_of_isMethodChar U
  · exact stops_cons.mpr (isMethodChar_semicolon U)
  · simp

end Constructors

/-! ## Lines -/

section Lines

variable {U : CharTables}

theorem ConstructorText.exists_eq_cons {s : List Char} {c : Constructor}
    (hs : ConstructorText U s c) : ∃ t, s = '@' :: t := by
  cases hs
  exact ⟨_, rfl⟩

theorem stops_newline_iff {rest : List Char} :
    Stops (· != '\n') rest ↔ rest = [] ∨ ∃ r, rest = '\n' :: r := by
  cases rest with
  | nil => simp
  | cons c rest => simp

theorem dropWhile_newline_iff {input rest : List Char} :
    input.dropWhile (· != '\n') = rest ↔
      ∃ body, '\n' ∉ body ∧ (rest = [] ∨ ∃ r, rest = '\n' :: r) ∧ input = body ++ rest := by
  constructor
  · rintro rfl
    refine ⟨input.takeWhile (· != '\n'), ?_, stops_newline_iff.mp (stops_dropWhile _ _),
      List.takeWhile_append_dropWhile.symm⟩
    intro hmem
    simpa using List.mem_takeWhile_imp hmem
  · rintro ⟨body, hbody, hline, rfl⟩
    rw [List.dropWhile_append_of_pos, dropWhile_eq_of_stops (stops_newline_iff.mpr hline)]
    intro c hc
    simp only [bne_iff_ne, ne_eq]
    rintro rfl
    exact hbody hc

theorem parseLine_constructor_iff {input rest : List Char} {c : Constructor} :
    parseLine U input = .ok (rest, some c) ↔
      ∃ ws s, AllIn isMultispace ws ∧ ConstructorText U s c ∧ input = ws ++ (s ++ rest) := by
  simp only [parseLine, bind_eq_ok, Prod.exists, takeWhile0_eq_ok_iff]
  constructor
  · rintro ⟨mid, ws, ⟨rfl, hws, -⟩, h⟩
    split at h
    · cases h
    · split at h
      · cases h
      · simp only [bind_eq_ok, Prod.exists, Except.ok.injEq, Prod.mk.injEq, Option.some.injEq] at h
        obtain ⟨_, _, h, rfl, rfl⟩ := h
        obtain ⟨ws', s, hws', hs, rfl⟩ := parseConstructor_sound h
        refine ⟨ws ++ ws', s, ?_, hs, (List.append_assoc _ _ _).symm⟩
        intro x hx
        exact (List.mem_append.mp hx).elim (hws x) (hws' x)
  · rintro ⟨ws, s, hws, hs, rfl⟩
    obtain ⟨t, rfl⟩ := hs.exists_eq_cons
    refine ⟨'@' :: t ++ rest, ws, ⟨rfl, hws, stops_cons.mpr (by decide)⟩, ?_⟩
    have hconstructor : parseConstructor U ([] ++ ('@' :: t ++ rest)) = .ok (rest, c) :=
      parseConstructor_complete (fun _ h => nomatch h) hs
    rw [List.nil_append] at hconstructor
    simp only [List.cons_append] at hconstructor ⊢
    rw [if_neg (by simp), if_neg (by simp), hconstructor]
    rfl

theorem parseLine_none_iff {input rest : List Char} :
    parseLine U input = .ok (rest, none) ↔
      (AllIn isMultispace input ∧ rest = []) ∨
      ∃ ws body, AllIn isMultispace ws ∧ '\n' ∉ body ∧ (rest = [] ∨ ∃ r, rest = '\n' :: r) ∧
        input = ws ++ ("//".toList ++ (body ++ rest)) := by
  simp only [parseLine, bind_eq_ok, Prod.exists, takeWhile0_eq_ok_iff]
  constructor
  · rintro ⟨mid, ws, ⟨rfl, hws, -⟩, h⟩
    split at h
    · next hempty =>
      rw [List.isEmpty_iff] at hempty
      subst hempty
      cases h
      exact Or.inl ⟨by rw [List.append_nil]; exact hws, rfl⟩
    · split at h
      · next hslash =>
        obtain ⟨line, rfl⟩ := List.isPrefixOf_iff_prefix.mp hslash
        simp only [Except.ok.injEq, Prod.mk.injEq, and_true] at h
        have hline : line.dropWhile (· != '\n') = rest := h
        obtain ⟨body, hbody, hend, rfl⟩ := dropWhile_newline_iff.mp hline
        exact Or.inr ⟨ws, body, hws, hbody, hend, rfl⟩
      · simp [bind_eq_ok] at h
  · rintro (⟨hws, rfl⟩ | ⟨ws, body, hws, hbody, hend, rfl⟩)
    · exact ⟨[], input, ⟨by simp, hws, stops_nil _⟩, rfl⟩
    · refine ⟨"//".toList ++ (body ++ rest), ws, ⟨rfl, hws, stops_cons.mpr (by decide)⟩, ?_⟩
      have hline : ("//".toList ++ (body ++ rest)).dropWhile (· != '\n') = rest :=
        dropWhile_newline_iff.mpr ⟨"//".toList ++ body, by simpa using hbody, hend, by simp⟩
      rw [if_neg (by simp), if_pos (List.isPrefixOf_iff_prefix.mpr (List.prefix_append _ _)), hline]

theorem isWhitespace_of_isMultispace {c : Char} (h : isMultispace c = true) :
    isWhitespace c = true := by
  simp only [isMultispace, Bool.or_eq_true, beq_iff_eq] at h
  rcases h with ((rfl | rfl) | rfl) | rfl <;> decide

end Lines

/-! ## The file -/

section File

variable {U : CharTables}

theorem SchemaText.eq_nil_of_blank {s : List Char} {cs : List Constructor}
    (h : SchemaText U s cs) (hs : AllIn isWhitespace s) : cs = [] := by
  cases h with
  | blank => rfl
  | comment hws hbody hline tail => exact absurd (hs '/' (by simp)) (by decide)
  | constructor hws head tail =>
    obtain ⟨t, rfl⟩ := head.exists_eq_cons
    exact absurd (hs '@' (by simp)) (by decide)

theorem SchemaText.parseLine {s : List Char} {cs : List Constructor} (h : SchemaText U s cs)
    (hs : ¬ AllIn isWhitespace s) :
    (∃ rest, Build.parseLine U s = .ok (rest, none) ∧ SchemaText U rest cs) ∨
      ∃ rest c cs', Build.parseLine U s = .ok (rest, some c) ∧ SchemaText U rest cs' ∧
        cs = c :: cs' := by
  cases h with
  | blank hblank => exact absurd hblank hs
  | comment hws hbody hline tail =>
    exact Or.inl ⟨_, parseLine_none_iff.mpr (Or.inr ⟨_, _, hws, hbody, hline, rfl⟩), tail⟩
  | constructor hws head tail =>
    exact Or.inr ⟨_, _, _, parseLine_constructor_iff.mpr ⟨_, _, hws, head, rfl⟩, tail, rfl⟩

theorem parseLine_length_lt {input rest : List Char} {o : Option Constructor}
    (h : parseLine U input = .ok (rest, o)) (hinput : ¬ AllIn isWhitespace input) :
    rest.length < input.length := by
  cases o with
  | none =>
    obtain ⟨hblank, -⟩ | ⟨ws, body, -, -, -, rfl⟩ := parseLine_none_iff.mp h
    · exact absurd (fun c hc => isWhitespace_of_isMultispace (hblank c hc)) hinput
    · simp
      omega
  | some c =>
    obtain ⟨ws, s, -, hs, rfl⟩ := parseLine_constructor_iff.mp h
    obtain ⟨t, rfl⟩ := hs.exists_eq_cons
    simp
    omega

theorem allIn_iff_all {s : List Char} : s.all isWhitespace = true ↔ AllIn isWhitespace s := by
  rw [List.all_eq_true]
  rfl

/-- The loop, from any constructors read before. The induction is on the rounds, and a round leaves
a shorter text. -/
theorem parseSchemaLoop_exact {fuel : Nat} {input : List Char} (hfuel : input.length < fuel)
    (acc : List Constructor) :
    ∃ r, parseSchemaLoop U fuel input acc = some r ∧
      ∀ out, r = .ok out ↔ ∃ cs, SchemaText U input cs ∧ out = acc ++ cs := by
  induction fuel generalizing input acc with
  | zero => omega
  | succ fuel ih =>
    by_cases hblank : AllIn isWhitespace input
    · refine ⟨.ok acc, by rw [parseSchemaLoop, if_pos (allIn_iff_all.mpr hblank)], fun out => ?_⟩
      constructor
      · rintro h
        cases h
        exact ⟨[], .blank hblank, (List.append_nil _).symm⟩
      · rintro ⟨cs, hcs, rfl⟩
        rw [hcs.eq_nil_of_blank hblank, List.append_nil]
    · rw [parseSchemaLoop, if_neg (fun h => hblank (allIn_iff_all.mp h))]
      cases hline : parseLine U input with
      | error e =>
        -- nothing in the grammar starts like this
        have hno : ∀ cs, ¬ SchemaText U input cs := by
          intro cs hcs
          obtain ⟨_, h, -⟩ | ⟨_, _, _, h, -⟩ := hcs.parseLine hblank <;> rw [hline] at h <;> cases h
        cases e with
        | error =>
          exact ⟨_, rfl, fun out => iff_of_false (fun h => nomatch h)
            (fun ⟨cs, hcs, _⟩ => hno cs hcs)⟩
        | panic message =>
          exact ⟨_, rfl, fun out => iff_of_false (fun h => nomatch h)
            (fun ⟨cs, hcs, _⟩ => hno cs hcs)⟩
      | ok r =>
        obtain ⟨rest, o⟩ := r
        have hlt := parseLine_length_lt hline hblank
        cases o with
        | none =>
          obtain ⟨r, hr, hexact⟩ := @ih rest (by omega) acc
          refine ⟨r, hr, fun out => (hexact out).trans (exists_congr fun cs => ?_)⟩
          refine and_congr_left fun _ => ⟨fun htail => ?_, fun hcs => ?_⟩
          · obtain ⟨hws, -⟩ | ⟨ws, body, hws, hbody, hend, rfl⟩ := parseLine_none_iff.mp hline
            · exact absurd (fun c hc => isWhitespace_of_isMultispace (hws c hc)) hblank
            · exact .comment hws hbody hend htail
          · obtain ⟨rest', h, htail⟩ | ⟨_, _, _, h, -⟩ := hcs.parseLine hblank
            · rw [hline] at h
              cases h
              exact htail
            · rw [hline] at h
              cases h
        | some c =>
          obtain ⟨r, hr, hexact⟩ := @ih rest (by omega) (acc ++ [c])
          refine ⟨r, hr, fun out => (hexact out).trans ⟨?_, ?_⟩⟩
          · rintro ⟨cs, htail, rfl⟩
            obtain ⟨ws, s, hws, hs, rfl⟩ := parseLine_constructor_iff.mp hline
            exact ⟨c :: cs, .constructor hws hs htail, by simp⟩
          · rintro ⟨cs, hcs, rfl⟩
            obtain ⟨_, h, -⟩ | ⟨rest', c', cs', h, htail, rfl⟩ := hcs.parseLine hblank
            · rw [hline] at h
              cases h
            · rw [hline] at h
              cases h
              exact ⟨cs', htail, by simp⟩

theorem parseSchemaLoop_mono {fuel : Nat} {input : List Char} {acc : List Constructor}
    {r : Except Failure (List Constructor)} (h : parseSchemaLoop U fuel input acc = some r)
    (n : Nat) : parseSchemaLoop U (fuel + n) input acc = some r := by
  induction fuel generalizing input acc with
  | zero => cases h
  | succ fuel ih =>
    rw [Nat.succ_add]
    unfold parseSchemaLoop at h ⊢
    split at h
    · next hblank => rw [if_pos hblank, h]
    · next hblank =>
      rw [if_neg hblank]
      split at h
      · exact ih h
      · exact ih h
      · exact h
      · exact h

theorem parseSchemaLoop_panics {fuel : Nat} {input : List Char} {acc : List Constructor}
    {e : Failure} (h : parseSchemaLoop U fuel input acc = some (.error e)) :
    ∃ msg, e = .panic msg := by
  induction fuel generalizing input acc with
  | zero => cases h
  | succ fuel ih =>
    unfold parseSchemaLoop at h
    split at h
    · cases h
    · split at h
      · exact ih h
      · exact ih h
      · cases h
        exact ⟨_, rfl⟩
      · next hne _ =>
        cases h
        cases e with
        | error => exact absurd rfl hne
        | panic msg => exact ⟨msg, rfl⟩

/-- The loop of `parse_schema` ends within as many rounds as the text has characters, and it
returns constructors exactly for the texts of the grammar; for every other text the build panics. -/
theorem parseSchema_exact (U : CharTables) (text : List Char) :
    ∃ r, (∀ n, parseSchema U (text.length + 1 + n) text = some r) ∧
      (∀ cs, r = .ok cs ↔ SchemaText U text cs) ∧
      ((∃ msg, r = .error (.panic msg)) ↔ ∀ cs, ¬ SchemaText U text cs) := by
  obtain ⟨r, hr, hexact⟩ :=
    @parseSchemaLoop_exact U (text.length + 1) text (Nat.lt_succ_self _) []
  have htext : ∀ cs, r = .ok cs ↔ SchemaText U text cs := fun cs => (hexact cs).trans (by simp)
  refine ⟨r, fun n => parseSchemaLoop_mono hr n, htext, ?_⟩
  constructor
  · rintro ⟨msg, rfl⟩ cs hcs
    cases (htext cs).mpr hcs
  · intro hnone
    cases r with
    | ok cs => exact absurd ((htext cs).mp rfl) (hnone cs)
    | error e =>
      obtain ⟨msg, rfl⟩ := parseSchemaLoop_panics hr
      exact ⟨msg, rfl⟩

theorem parseSchema_coreP2pFile :
    parseSchema .ascii 2000 coreP2pFile = some (.ok coreP2pSchema) := by
  decide +kernel

end File

end Cypher.Proto.Build

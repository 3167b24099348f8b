import Cypher.Proto.Build

/-!
# The generated code means the codec

`Proto.serialize`, `Proto.deserialize` and `Proto.dispatch` follow a schema's field lists; the
generated Rust works on locals named after the fields. The two agree for every schema that is not
empty and whose names rustc takes and that do not get in each other's way (`HygienicSchema`): names
are identifiers and no keywords, no constructor has two fields of one name or a field named like a
local or a function of the template, and no two methods give one struct name or that of a type in
scope, such as `Message`; names in comments have no line breaks. The generated code then compiles, never panics, and returns what the codec
returns, errors included.
-/

namespace Cypher.Proto.Build

/-- The locals of the generated `deserialize` that its lines read. -/
def templateLocals : List String :=
  ["offset", "new_offset", "__buf"]

/-- The functions that it calls. -/
def templateFunctions : List String :=
  ["decode_bytes", "decode_string"]

structure Hygienic (fields : List Field) : Prop where
  nodup : (fields.map (·.name)).Nodup
  fresh : ∀ f ∈ fields, f.name ∉ templateLocals ∧ f.name ∉ templateFunctions
  binds : ∀ f ∈ fields, isIdentifier f.name = true ∧ f.name ∉ preludeVariants

structure HygienicSchema (U : CharTables) (constructors : List Constructor) : Prop where
  nonempty : constructors ≠ []
  structs : (constructors.map fun c => toStructName U c.methodName).Nodup
  names : ∀ c ∈ constructors, isIdentifier (toStructName U c.methodName) = true ∧
    toStructName U c.methodName ∉ typesInScope
  lines : ∀ c ∈ constructors, isOneLine c.methodName = true ∧ isOneLine c.responseType = true
  fields : ∀ c ∈ constructors, Hygienic c.fields

theorem Hygienic.tail {f : Field} {rest : List Field} (h : Hygienic (f :: rest)) :
    Hygienic rest where
  nodup := (List.nodup_cons.mp h.nodup).2
  fresh g hg := h.fresh g (List.mem_cons_of_mem f hg)
  binds g hg := h.binds g (List.mem_cons_of_mem f hg)

theorem Hygienic.head_notMem {f : Field} {rest : List Field} (h : Hygienic (f :: rest)) :
    f.name ∉ rest.map (·.name) :=
  (List.nodup_cons.mp h.nodup).1

/-! ## Environments -/

namespace Env

theorem get?_bindLet_self (env : Env) (name : String) (v : Local) :
    (env.bindLet name v).get? name = some v := by
  simp [bindLet, get?]

theorem get?_bindLet_of_ne (env : Env) {name other : String} (v : Local) (h : other ≠ name) :
    (env.bindLet name v).get? other = env.get? other := by
  simp [bindLet, get?, Ne.symm h]

/-- The binding in sight of the name is `mut` and holds the value. -/
def Holds (env : Env) (name : String) (v : Local) : Prop :=
  env.find? (fun b => b.name == name) = some ⟨name, v, true⟩

theorem Holds.get? {env : Env} {name : String} {v : Local} (h : env.Holds name v) :
    env.get? name = some v := by
  rw [Env.get?, h]
  rfl

theorem Holds.bindLet {env : Env} {name other : String} {v : Local} (h : env.Holds name v)
    (w : Local) (hne : other ≠ name) : (env.bindLet other w).Holds name v := by
  rw [Holds, Env.bindLet, List.find?_cons_of_neg (by simpa using hne)]
  exact h

theorem Holds.assign {env : Env} {name : String} {v : Local} (h : env.Holds name v) (w : Local) :
    ∃ env', env.assign name w = .ok env' ∧ env'.Holds name w ∧
      ∀ other, other ≠ name → env'.get? other = env.get? other := by
  induction env with
  | nil => cases h
  | cons b env ih =>
    by_cases hb : b.name = name
    · have hbinding : b = ⟨name, v, true⟩ := by
        rw [Holds, List.find?_cons_of_pos (by simpa using hb)] at h
        exact Option.some.inj h
      subst hbinding
      refine ⟨⟨name, w, true⟩ :: env, by simp [Env.assign], by simp [Holds], ?_⟩
      intro other hother
      simp [Env.get?, Ne.symm hother]
    · rw [Holds, List.find?_cons_of_neg (by simpa using hb)] at h
      obtain ⟨env', hassign, hholds, hrest⟩ := ih h
      refine ⟨b :: env', ?_, ?_, ?_⟩
      · rw [Env.assign, if_neg hb, hassign]
        rfl
      · rw [Holds, List.find?_cons_of_neg (by simpa using hb)]
        exact hholds
      · intro other hother
        have hother' := hrest other hother
        simp only [Env.get?] at hother' ⊢
        by_cases hbo : b.name = other
        · simp [hbo]
        · rw [List.find?_cons_of_neg (by simpa using hbo),
            List.find?_cons_of_neg (by simpa using hbo), hother']

end Env

/-! ## One field -/

/-- The locals of the template hold the codec's offset and buffer, and none hides a function. -/
structure Frame (env : Env) (offset : Nat) (buf : Bytes) : Prop where
  offset_holds : env.Holds "offset" (.usize offset)
  buf_get : env.get? "__buf" = some (.slice buf)
  functions : ∀ name ∈ templateFunctions, env.get? name = none

section Frame

variable {env : Env} {offset : Nat} {buf : Bytes}

theorem Frame.offset_eq (h : Frame env offset buf) : env.offset = .ok offset := by
  rw [Env.offset, h.offset_holds.get?]

theorem Frame.buf_eq (h : Frame env offset buf) : env.buf = .ok buf := by
  rw [Env.buf, h.buf_get]

theorem Frame.bufArg_eq (h : Frame env offset buf) : env.bufArg = .ok buf := by
  rw [Env.bufArg, h.buf_get]

theorem Frame.callee_eq (h : Frame env offset buf) {name : String}
    (hname : name ∈ templateFunctions) : env.callee name = .ok () := by
  rw [Env.callee, h.functions name hname]

theorem Frame.bindLet (h : Frame env offset buf) (name : String) (v : Local)
    (hoffset : name ≠ "offset") (hbuf : name ≠ "__buf") (hfunction : name ∉ templateFunctions) :
    Frame (env.bindLet name v) offset buf where
  offset_holds := h.offset_holds.bindLet v hoffset
  buf_get := by rw [env.get?_bindLet_of_ne v hbuf.symm, h.buf_get]
  functions other hother := by
    have hne : other ≠ name := fun he => hfunction (he ▸ hother)
    rw [env.get?_bindLet_of_ne v hne, h.functions other hother]

theorem Frame.assign (h : Frame env offset buf) (n : Nat) :
    ∃ env', env.assign "offset" (.usize n) = .ok env' ∧ Frame env' n buf ∧
      ∀ other, other ≠ "offset" → env'.get? other = env.get? other := by
  obtain ⟨env', hassign, hholds, hrest⟩ := h.offset_holds.assign (.usize n)
  refine ⟨env', hassign, ⟨hholds, by rw [hrest _ (by decide), h.buf_get], ?_⟩, hrest⟩
  intro name hname
  have hne : name ≠ "offset" := fun he => absurd (he ▸ hname) (by decide)
  rw [hrest name hne, h.functions name hname]

/-- What a field's lines leave behind: the frame at the next offset, the field's local, and the
other locals as they were. -/
structure FieldRead (env env' : Env) (f : Field) (v : f.ty.Value) (offset : Nat) (buf : Bytes) :
    Prop where
  frame : Frame env' offset buf
  local_eq : env'.get? f.name = some (.field f.ty v)
  others : ∀ other, other ≠ f.name → other ∉ templateLocals → env'.get? other = env.get? other

theorem execAll_letLe (h : Frame env offset buf) (f : Field)
    (hfresh : f.name ∉ templateLocals ∧ f.name ∉ templateFunctions) (w : Width)
    (v : f.ty.Value) (hread : w.read buf offset = .field f.ty v)
    (hlen : offset + w.bytes ≤ buf.length) :
    ∃ env', execAll env [.checkLen w.bytes f.name, .letLe f.name w, .advance w.bytes] = .ok env' ∧
      FieldRead env env' f v (offset + w.bytes) buf := by
  simp only [templateLocals, List.mem_cons, List.not_mem_nil, or_false, not_or] at hfresh
  obtain ⟨⟨hoffset, -, hbuf⟩, hfunction⟩ := hfresh
  have hlet := h.bindLet f.name (w.read buf offset) hoffset hbuf hfunction
  obtain ⟨env', hassign, hframe, hrest⟩ := hlet.assign (offset + w.bytes)
  refine ⟨env', ?_, hframe, ?_, ?_⟩
  · simp only [execAll, ReadStmt.exec, h.offset_eq, h.buf_eq, bind, Except.bind,
      if_neg (Nat.not_lt.mpr hlen), gt_iff_lt, hlet.offset_eq, hassign]
  · rw [hrest _ hoffset, env.get?_bindLet_self, hread]
  · intro other hother hlocals
    have hne : other ≠ "offset" := fun he => hlocals (he ▸ by decide)
    rw [hrest _ hne, env.get?_bindLet_of_ne _ hother]

theorem execAll_letDecode (h : Frame env offset buf) (f : Field)
    (hfresh : f.name ∉ templateLocals ∧ f.name ∉ templateFunctions) (v : f.ty.Value) (next : Nat) :
    ∃ env', (env.letDecode f.name f.ty (.ok (v, next)) >>= fun env => execAll env [.setOffset]) =
        .ok env' ∧ FieldRead env env' f v next buf := by
  simp only [templateLocals, List.mem_cons, List.not_mem_nil, or_false, not_or] at hfresh
  obtain ⟨⟨hoffset, hnew, hbuf⟩, hfunction⟩ := hfresh
  have hlet := (h.bindLet f.name (.field f.ty v) hoffset hbuf hfunction).bindLet "new_offset"
    (.usize next) (by decide) (by decide) (by decide)
  obtain ⟨env', hassign, hframe, hrest⟩ := hlet.assign next
  refine ⟨env', ?_, hframe, ?_, ?_⟩
  · simp only [Env.letDecode, if_neg hnew, execAll, ReadStmt.exec, Env.get?_bindLet_self, bind,
      Except.bind, hassign]
  · rw [hrest _ hoffset, Env.get?_bindLet_of_ne _ _ hnew, Env.get?_bindLet_self]
  · intro other hother hlocals
    have hne : other ≠ "offset" := fun he => hlocals (he ▸ by decide)
    have hne' : other ≠ "new_offset" := fun he => hlocals (he ▸ by decide)
    rw [hrest _ hne, Env.get?_bindLet_of_ne _ _ hne', Env.get?_bindLet_of_ne _ _ hother]

theorem execAll_field (h : Frame env offset buf) (f : Field)
    (hfresh : f.name ∉ templateLocals ∧ f.name ∉ templateFunctions) :
    match deserializeField f.name buf offset f.ty with
    | .error e => execAll env (generateDeserializeField f) = .error (.err e)
    | .ok (v, next) => ∃ env', execAll env (generateDeserializeField f) = .ok env' ∧
        FieldRead env env' f v next buf := by
  obtain ⟨name, ty⟩ := f
  cases ty with
  | int =>
    by_cases hlen : offset + 4 > buf.length
    · simp only [deserializeField, if_pos hlen, generateDeserializeField, execAll, ReadStmt.exec,
        h.offset_eq, h.buf_eq, bind, Except.bind]
    · simp only [deserializeField, if_neg hlen]
      exact execAll_letLe h ⟨name, .int⟩ hfresh .u32 _ rfl (Nat.not_lt.mp hlen)
  | long =>
    by_cases hlen : offset + 8 > buf.length
    · simp only [deserializeField, if_pos hlen, generateDeserializeField, execAll, ReadStmt.exec,
        h.offset_eq, h.buf_eq, bind, Except.bind]
    · simp only [deserializeField, if_neg hlen]
      exact execAll_letLe h ⟨name, .long⟩ hfresh .u64 _ rfl (Nat.not_lt.mp hlen)
  | bytes =>
    have hname : name ≠ "new_offset" := fun he => hfresh.1 (he ▸ by decide)
    have hexec : execAll env (generateDeserializeField ⟨name, .bytes⟩) =
        (env.letDecode name .bytes (decodeBytes buf offset) >>=
          fun env => execAll env [.setOffset]) := by
      have hcallee := h.callee_eq (show "decode_bytes" ∈ templateFunctions by decide)
      simp only [generateDeserializeField, execAll, ReadStmt.exec, hcallee, h.bufArg_eq,
        h.offset_eq, bind, Except.bind]
    rw [hexec]
    simp only [deserializeField]
    cases decodeBytes buf offset with
    | error e => simp only [Env.letDecode, if_neg hname, bind, Except.bind]
    | ok r => exact execAll_letDecode h ⟨name, .bytes⟩ hfresh r.1 r.2
  | string =>
    have hname : name ≠ "new_offset" := fun he => hfresh.1 (he ▸ by decide)
    have hexec : execAll env (generateDeserializeField ⟨name, .string⟩) =
        (env.letDecode name .string (decodeString buf offset) >>=
          fun env => execAll env [.setOffset]) := by
      have hcallee := h.callee_eq (show "decode_string" ∈ templateFunctions by decide)
      simp only [generateDeserializeField, execAll, ReadStmt.exec, hcallee, h.bufArg_eq,
        h.offset_eq, bind, Except.bind]
    rw [hexec]
    simp only [deserializeField]
    cases decodeString buf offset with
    | error e => simp only [Env.letDecode, if_neg hname, bind, Except.bind]
    | ok r => exact execAll_letDecode h ⟨name, .string⟩ hfresh r.1 r.2

end Frame

/-! ## The fields of a struct -/

/-- `get` finds every field of the record under its name. -/
def Reads (get : String → Option Local) : (fields : List Field) → Record fields → Prop
  | [], _ => True
  | f :: rest, (v, r) => get f.name = some (.field f.ty v) ∧ Reads get rest r

theorem Reads.congr {get get' : String → Option Local} :
    {fields : List Field} → {r : Record fields} → Reads get fields r →
      (∀ f ∈ fields, get' f.name = get f.name) → Reads get' fields r
  | [], _, _, _ => trivial
  | f :: _, (_, _), h, hget =>
    ⟨(hget f List.mem_cons_self).trans h.1,
      Reads.congr h.2 fun g hg => hget g (List.mem_cons_of_mem f hg)⟩

theorem structLiteral_of_reads {env : Env} :
    {fields : List Field} → {r : Record fields} → Reads env.get? fields r →
      env.structLiteral fields = .ok r
  | [], _, _ => rfl
  | _ :: _, (v, r), h => by
    rw [Env.structLiteral, h.1]
    simp only [dif_pos, structLiteral_of_reads h.2, bind, Except.bind]

theorem execAll_append (env : Env) (a b : List ReadStmt) :
    execAll env (a ++ b) = (execAll env a >>= fun env => execAll env b) := by
  induction a generalizing env with
  | nil => rfl
  | cons s a ih =>
    rw [List.cons_append, execAll, execAll, bind_assoc]
    exact congrArg _ (funext fun env => ih env)

/-- The body of `deserialize` does what `deserializeFields` does. The induction is on the fields;
a later field's lines leave the locals of the earlier ones alone. -/
theorem execAll_fields {fields : List Field} (hyg : Hygienic fields) {env : Env} {offset : Nat}
    {buf : Bytes} (h : Frame env offset buf) :
    match deserializeFields buf fields offset with
    | .error e => execAll env (fields.flatMap generateDeserializeField) = .error (.err e)
    | .ok r => ∃ env', execAll env (fields.flatMap generateDeserializeField) = .ok env' ∧
        Reads env'.get? fields r ∧
        ∀ other, other ∉ fields.map (·.name) → other ∉ templateLocals →
          env'.get? other = env.get? other := by
  induction fields generalizing env offset with
  | nil => exact ⟨env, rfl, trivial, fun _ _ _ => rfl⟩
  | cons f rest ih =>
    have hfresh := hyg.fresh f List.mem_cons_self
    have hfield := execAll_field h f hfresh
    rw [List.flatMap_cons, execAll_append, deserializeFields]
    cases hread : deserializeField f.name buf offset f.ty with
    | error e =>
      rw [hread] at hfield
      rw [hfield]
      rfl
    | ok vr =>
      obtain ⟨v, next⟩ := vr
      rw [hread] at hfield
      obtain ⟨env₁, hexec₁, hread₁⟩ := hfield
      have hbuf : f.name ≠ "__buf" := fun he => hfresh.1 (he ▸ by decide)
      have hrest := ih hyg.tail hread₁.frame
      simp only [hexec₁, bind, Except.bind, bufferAfter_of_name_ne hbuf]
      cases hrec : deserializeFields buf rest next with
      | error e =>
        rw [hrec] at hrest
        exact hrest
      | ok r =>
        rw [hrec] at hrest
        obtain ⟨env₂, hexec₂, hreads, hothers⟩ := hrest
        refine ⟨env₂, hexec₂, ⟨?_, hreads⟩, ?_⟩
        · rw [hothers _ hyg.head_notMem hfresh.1, hread₁.local_eq]
        · intro other hother hlocals
          rw [List.map_cons, List.mem_cons, not_or] at hother
          rw [hothers _ hother.2 hlocals, hread₁.others _ hother.1 hlocals]

/-! ## The functions of a struct -/

section Item

variable {item : Item}

theorem Item.deserialize_eq
    (hbody : item.deserializeBody = item.ctor.fields.flatMap generateDeserializeField)
    (hyg : Hygienic item.ctor.fields) (data : Bytes) :
    item.deserialize data = (Proto.deserialize item.ctor.toConstructor data).mapError .err := by
  unfold Item.deserialize Proto.deserialize
  rw [if_neg (not_not.mpr hyg.nodup), hbody]
  split
  · rfl
  · dsimp only
    split
    · rfl
    · have hframe : Frame [⟨"offset", .usize 4, true⟩,
          ⟨"cid", .field .int (UInt32.ofNat (Lib.leNat (slice data 0 4))), false⟩,
          ⟨"__buf", .slice data, false⟩] 4 data := by
        refine ⟨rfl, rfl, fun name hname => ?_⟩
        rcases List.mem_pair.mp hname with rfl | rfl <;> rfl
      have hfields := execAll_fields hyg hframe
      cases hread : deserializeFields data item.ctor.fields 4 with
      | error e =>
        rw [hread] at hfields
        rw [hfields]
        rfl
      | ok r =>
        rw [hread] at hfields
        obtain ⟨env', hexec, hreads, -⟩ := hfields
        rw [hexec]
        exact structLiteral_of_reads hreads

theorem writeAll_of_reads {self : String → Option Local} :
    {fields : List Field} → {r : Record fields} → Reads self fields r → (buf : Bytes) →
      writeAll self buf (fields.map generateSerializeField) = .ok (buf ++ serializeFields fields r)
  | [], _, _, buf => by rw [serializeFields, List.append_nil]; rfl
  | ⟨name, ty⟩ :: rest, (v, r), h, buf => by
    have hstmt : (generateSerializeField ⟨name, ty⟩).exec self = .ok (serializeField ty v) := by
      have hself := h.1
      cases ty <;> simp only [generateSerializeField, WriteStmt.exec, hself, serializeField]
    rw [List.map_cons, writeAll, hstmt, serializeFields, ← List.append_assoc]
    exact writeAll_of_reads h.2 (buf ++ serializeField ty v)

/-- `self` has its fields under their names when no name comes twice. -/
theorem selfField_reads : {fields : List Field} → (fields.map (·.name)).Nodup →
    (r : Record fields) → Reads (selfField fields r) fields r
  | [], _, _ => trivial
  | f :: rest, hnodup, (v, r) => by
    obtain ⟨hnotMem, hnodup⟩ := List.nodup_cons.mp hnodup
    refine ⟨by simp [selfField], (selfField_reads hnodup r).congr fun g hg => ?_⟩
    have hne : f.name ≠ g.name := fun he => hnotMem (List.mem_map.mpr ⟨g, hg, he.symm⟩)
    rw [selfField, if_neg hne]

theorem Item.serialize_eq (hbody : item.serializeBody = item.ctor.fields.map generateSerializeField)
    (hyg : Hygienic item.ctor.fields) (self : Record item.ctor.fields) :
    item.serialize self = .ok (Proto.serialize item.ctor.toConstructor self) := by
  unfold Item.serialize Proto.serialize
  rw [if_neg (not_not.mpr hyg.nodup), hbody]
  exact writeAll_of_reads (selfField_reads hyg.nodup self) _

end Item

/-! ## The whole program -/

section Program

variable {U : CharTables} {constructors : List Constructor}

theorem item?_generateProgram (hyg : HygienicSchema U constructors) {c : Constructor}
    (hc : c ∈ constructors) :
    (generateProgram U constructors).item? (toStructName U c.methodName) =
      .ok (generateItem U c) := by
  have hfilter : (constructors.map (generateItem U)).filter
      (fun item => item.structName == toStructName U c.methodName) = [generateItem U c] := by
    have hnodup := hyg.structs
    clear hyg
    induction constructors with
    | nil => cases hc
    | cons d rest ih =>
      obtain ⟨hnotMem, hnodup⟩ := List.nodup_cons.mp hnodup
      rw [List.map_cons]
      rcases List.mem_cons.mp hc with rfl | hrest
      · rw [List.filter_cons_of_pos (by simp [generateItem])]
        congr 1
        rw [List.filter_eq_nil_iff]
        intro item hitem hname
        obtain ⟨d, hd, rfl⟩ := List.mem_map.mp hitem
        rw [beq_iff_eq] at hname
        exact hnotMem (List.mem_map.mpr ⟨d, hd, hname⟩)
      · have hne : toStructName U d.methodName ≠ toStructName U c.methodName := fun he =>
          hnotMem (List.mem_map.mpr ⟨c, hrest, he.symm⟩)
        rw [List.filter_cons_of_neg (by simpa [generateItem] using hne)]
        exact ih hrest hnodup
  rw [Program.item?, generateProgram, hfilter]

theorem accepted_generateProgram (hyg : HygienicSchema U constructors) :
    (generateProgram U constructors).accepted = true := by
  simp only [Program.accepted, generateProgram, Bool.and_eq_true, Bool.not_eq_true',
    List.isEmpty_eq_false_iff, ne_eq, List.map_eq_nil_iff, List.all_eq_true]
  refine ⟨hyg.nonempty, fun item hitem => ?_⟩
  obtain ⟨c, hc, rfl⟩ := List.mem_map.mp hitem
  obtain ⟨hident, hfree⟩ := hyg.names c hc
  simp only [Item.accepted, generateItem, Bool.and_eq_true, Bool.not_eq_true', List.all_eq_true,
    List.contains_eq_mem, decide_eq_false_iff_not]
  exact ⟨⟨⟨⟨hident, hfree⟩, (hyg.lines c hc).1⟩, (hyg.lines c hc).2⟩, (hyg.fields c hc).binds⟩

theorem arms_generateProgram (hyg : HygienicSchema U constructors) (data : Bytes) (cid : Nat)
    {part : List Constructor} (hpart : ∀ c ∈ part, c ∈ constructors) :
    ((generateProgram U constructors).arms data cid
        (part.map fun c => toStructName U c.methodName)).map Variant.toMessage =
      match part.find? (fun c => c.id.toNat == cid) with
      | none => .error (.err (.protocol ("unknown constructor id: " ++ hexId cid)))
      | some c => ((Proto.deserialize c.toConstructor data).mapError .err).map
          (fun r => ⟨c.toConstructor, r⟩) := by
  induction part with
  | nil => rfl
  | cons c rest ih =>
    have hc := hpart c List.mem_cons_self
    rw [List.map_cons, Program.arms, item?_generateProgram hyg hc]
    simp only [bind, Except.bind]
    by_cases hid : (generateItem U c).ctor.id.toNat = cid
    · have hread : (generateItem U c).deserialize data =
          (Proto.deserialize c.toConstructor data).mapError .err :=
        Item.deserialize_eq rfl (hyg.fields c hc) data
      rw [if_pos hid, List.find?_cons_of_pos (by simpa [generateItem] using hid), hread]
      dsimp only
      cases Proto.deserialize c.toConstructor data with
      | error e => rfl
      | ok r => rfl
    · rw [if_neg hid, List.find?_cons_of_neg (by simpa [generateItem] using hid)]
      exact ih fun d hd => hpart d (List.mem_cons_of_mem c hd)

theorem dispatch_generateProgram (hyg : HygienicSchema U constructors) (data : Bytes) :
    ((generateProgram U constructors).dispatch data).map Variant.toMessage =
      (Proto.dispatch (constructors.map (·.toConstructor)) data).mapError .err := by
  unfold Program.dispatch Proto.dispatch
  rw [if_neg (not_not.mpr (accepted_generateProgram hyg))]
  split
  · rfl
  · have harms := arms_generateProgram hyg data (Lib.leNat (slice data 0 4)) fun _ h => h
    simp only [generateProgram] at harms ⊢
    rw [harms, List.find?_map]
    cases hfind : constructors.find? (fun c => c.id.toNat == Lib.leNat (slice data 0 4)) with
    | none =>
      have hfind' : constructors.find?
          ((fun c : Proto.Constructor => c.id.toNat == Lib.leNat (slice data 0 4)) ∘
            Constructor.toConstructor) = none := hfind
      rw [hfind']
      rfl
    | some c =>
      have hfind' : constructors.find?
          ((fun c : Proto.Constructor => c.id.toNat == Lib.leNat (slice data 0 4)) ∘
            Constructor.toConstructor) = some c := hfind
      rw [hfind']
      simp only [Option.map_some]
      cases Proto.deserialize c.toConstructor data with
      | error e => rfl
      | ok r => rfl

theorem serialize_generateProgram (hyg : HygienicSchema U constructors) {m : Variant}
    (hm : m.item ∈ (generateProgram U constructors).items) :
    (generateProgram U constructors).serialize m = .ok m.toMessage.serialize := by
  obtain ⟨c, hc, hitem⟩ := List.mem_map.mp hm
  obtain ⟨item, self⟩ := m
  subst hitem
  have hvariant : (generateItem U c).structName ∈ (generateProgram U constructors).variants :=
    List.mem_map.mpr ⟨c, hc, rfl⟩
  rw [Program.serialize, if_neg (not_not.mpr (accepted_generateProgram hyg)), if_pos hvariant]
  exact Item.serialize_eq rfl (hyg.fields c hc) self

/-- The code generated for a hygienic schema compiles and means the codec over that schema: its
`dispatch` returns on every byte string what `Proto.dispatch` returns, the error texts included,
and its `Message::serialize` writes what `Proto.serialize` writes. -/
theorem generateProgram_means_codec (U : CharTables) (constructors : List Constructor)
    (hyg : HygienicSchema U constructors) :
    (∀ data, ((generateProgram U constructors).dispatch data).map Variant.toMessage =
      (Proto.dispatch (constructors.map (·.toConstructor)) data).mapError .err) ∧
    ∀ m : Variant, m.item ∈ (generateProgram U constructors).items →
      (generateProgram U constructors).serialize m = .ok m.toMessage.serialize :=
  ⟨dispatch_generateProgram hyg, fun _ => serialize_generateProgram hyg⟩

theorem hygienicSchema_coreP2p : HygienicSchema .ascii coreP2pSchema where
  nonempty := by decide +kernel
  structs := by decide +kernel
  names := by decide +kernel
  lines := by decide +kernel
  fields := by
    have hnodup : ∀ c ∈ coreP2pSchema, (c.fields.map (·.name)).Nodup := by decide +kernel
    have hfresh : ∀ c ∈ coreP2pSchema, ∀ f ∈ c.fields,
        f.name ∉ templateLocals ∧ f.name ∉ templateFunctions := by decide +kernel
    have hbinds : ∀ c ∈ coreP2pSchema, ∀ f ∈ c.fields,
        isIdentifier f.name = true ∧ f.name ∉ preludeVariants := by decide +kernel
    exact fun c hc => ⟨hnodup c hc, hfresh c hc, hbinds c hc⟩

/-- The crate's own `dispatch` and `serialize` are the codec's over `coreP2p`. -/
theorem generateProgram_coreP2p_means_codec :
    HygienicSchema .ascii coreP2pSchema ∧ coreP2pSchema.map (·.toConstructor) = coreP2p ∧
    (∀ data, ((generateProgram .ascii coreP2pSchema).dispatch data).map Variant.toMessage =
      (Proto.dispatch (coreP2pSchema.map (·.toConstructor)) data).mapError .err) ∧
    ∀ m : Variant, m.item ∈ (generateProgram .ascii coreP2pSchema).items →
      (generateProgram .ascii coreP2pSchema).serialize m = .ok m.toMessage.serialize :=
  ⟨hygienicSchema_coreP2p, rfl, generateProgram_means_codec .ascii coreP2pSchema
    hygienicSchema_coreP2p⟩

end Program

end Cypher.Proto.Build

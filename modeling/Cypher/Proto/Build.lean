import Cypher.Lib.Parsing
import Cypher.Proto.Schema

/-!
# The schema compiler (`cypher-proto/build.rs`)

`build.rs` reads the schema file and writes the Rust module that the crate includes.

* `parseSchema` is its parser. A text it cannot read ends the build with a panic.
* `generateCode` is its printer. What is printed is kept as a small syntax (`Program`), with the
  printed text of each part in its `text`, so that the meaning of the generated code can be given:
  `Program.dispatch` and `Program.serialize` run it. Decoded fields are Rust locals under their own
  names, so the meaning is over an environment in which a later `let` hides an earlier one; a
  program that rustc would refuse for its types or names has the outcome `rejected`. Names beyond
  the ASCII range are counted as refused.
-/

namespace Cypher.Proto.Build

open Lib.Parsing

/-- The functions of Rust's `char` that read the Unicode tables. -/
structure CharTables where
  isAlphanumeric : Char → Bool
  toUppercase : Char → List Char
  isAlphanumeric_ascii : ∀ c : Char, c.toNat < 128 → isAlphanumeric c = c.isAlphanum

/-- Tables that know the ASCII range only. -/
def CharTables.ascii : CharTables where
  isAlphanumeric := Char.isAlphanum
  toUppercase c := [c.toUpper]
  isAlphanumeric_ascii _ _ := rfl

/-- `char::is_whitespace`: the property White_Space. -/
def isWhitespace (c : Char) : Bool :=
  let n := c.toNat
  (0x09 ≤ n && n ≤ 0x0D) || n == 0x20 || n == 0x85 || n == 0xA0 || n == 0x1680 ||
    (0x2000 ≤ n && n ≤ 0x200A) || n == 0x2028 || n == 0x2029 || n == 0x202F || n == 0x205F ||
    n == 0x3000

/-- A constructor of the schema file: the codec's, and the type named after `=`. -/
structure Constructor extends Proto.Constructor where
  responseType : String
  deriving DecidableEq, Repr

/-! ## The parser -/

def isHexDigit (c : Char) : Bool :=
  c.isDigit || ('a' ≤ c && c ≤ 'f') || ('A' ≤ c && c ≤ 'F')

def isIdentChar (U : CharTables) (c : Char) : Bool :=
  U.isAlphanumeric c || c == '_'

def isMethodChar (U : CharTables) (c : Char) : Bool :=
  U.isAlphanumeric c || c == '_' || c == '.'

def isSpace (c : Char) : Bool :=
  c == ' ' || c == '\t'

def isMultispace (c : Char) : Bool :=
  c == ' ' || c == '\t' || c == '\r' || c == '\n'

def hexDigit (c : Char) : Nat :=
  if c.isDigit then c.toNat - 48
  else if 'a' ≤ c && c ≤ 'f' then c.toNat - 87
  else c.toNat - 55

def hexNumber (digits : List Char) : Nat :=
  digits.foldl (fun n c => 16 * n + hexDigit c) 0

/-- `u32::from_str_radix(s, 16)` of hex digits. -/
def fromStrRadix16 (digits : List Char) : Option UInt32 :=
  if hexNumber digits < 2 ^ 32 then some (UInt32.ofNat (hexNumber digits)) else none

def parseConstructorId : Parser Char UInt32 := fun input => do
  let (input, _) ← tag "@0x".toList input
  let (input, hexStr) ← takeWhile1 isHexDigit input
  match fromStrRadix16 hexStr with
  | none => .error (.panic "valid hex")
  | some id => .ok (input, id)

def parseFieldType : Parser Char FieldType :=
  orElse (value .int (tag "Int".toList))
    (orElse (value .long (tag "Long".toList))
      (orElse (value .bytes (tag "Bytes".toList)) (value .string (tag "String".toList))))

def parseField (U : CharTables) : Parser Char Field := fun input => do
  let (input, name) ← takeWhile1 (isIdentChar U) input
  let (input, _) ← char ':' input
  let (input, ty) ← parseFieldType input
  .ok (input, ⟨String.ofList name, ty⟩)

def parseConstructor (U : CharTables) : Parser Char Constructor := fun input => do
  let (input, _) ← takeWhile0 isMultispace input
  let (input, id) ← parseConstructorId input
  let (input, _) ← takeWhile1 isSpace input
  let (input, methodName) ← takeWhile1 (isMethodChar U) input
  let (input, fields) ← many0 (preceded (takeWhile1 isSpace) (parseField U)) input
  let (input, _) ← takeWhile0 isSpace input
  let (input, _) ← char '=' input
  let (input, _) ← takeWhile0 isSpace input
  let (input, responseType) ← takeWhile1 (isMethodChar U) input
  let (input, _) ← char ';' input
  .ok (input, ⟨⟨id, String.ofList methodName, fields⟩, String.ofList responseType⟩)

/-- A constructor, or nothing for the end of the input and for a comment. -/
def parseLine (U : CharTables) : Parser Char (Option Constructor) := fun input => do
  let (input, _) ← takeWhile0 isMultispace input
  if input.isEmpty then .ok (input, none)
  else if "//".toList.isPrefixOf input then .ok (input.dropWhile (· != '\n'), none)
  else do
    let (input, c) ← parseConstructor U input
    .ok (input, some c)

/-- The loop of `parse_schema`: `none` while it has not ended within `fuel` rounds. An error of
`parse_line` ends the build. -/
def parseSchemaLoop (U : CharTables) :
    Nat → List Char → List Constructor → Option (Except Failure (List Constructor))
  | 0, _, _ => none
  | fuel + 1, input, constructors =>
    if input.all isWhitespace then some (.ok constructors)
    else
      match parseLine U input with
      | .ok (rest, some c) => parseSchemaLoop U fuel rest (constructors ++ [c])
      | .ok (rest, none) => parseSchemaLoop U fuel rest constructors
      | .error .error => some (.error (.panic "Parse error"))
      | .error e => some (.error e)

def parseSchema (U : CharTables) (fuel : Nat) (input : List Char) :
    Option (Except Failure (List Constructor)) :=
  parseSchemaLoop U fuel input []

/-! ## The generated code -/

/-- `method_name.split('.')` with the first letter of each part in upper case. -/
def toStructName (U : CharTables) (methodName : String) : String :=
  String.join ((methodName.toList.splitOn '.').map fun part =>
    match part with
    | [] => ""
    | c :: chars => String.ofList (U.toUppercase c ++ chars))

def rustType : FieldType → String
  | .int => "u32"
  | .long => "u64"
  | .bytes => "Vec<u8>"
  | .string => "String"

/-- A line of the body of a generated `serialize`. -/
inductive WriteStmt where
  | extendLe (name : String)
  | encodeBytes (name : String)
  | encodeString (name : String)
  deriving DecidableEq, Repr

def WriteStmt.text : WriteStmt → String
  | .extendLe name => "        buf.extend_from_slice(&self." ++ name ++ ".to_le_bytes());\n"
  | .encodeBytes name => "        encode_bytes(&mut buf, &self." ++ name ++ ");\n"
  | .encodeString name => "        encode_string(&mut buf, &self." ++ name ++ ");\n"

def generateSerializeField (field : Field) : WriteStmt :=
  match field.ty with
  | .int => .extendLe field.name
  | .long => .extendLe field.name
  | .bytes => .encodeBytes field.name
  | .string => .encodeString field.name

/-- The integer types read by `from_le_bytes`. -/
inductive Width where
  | u32
  | u64
  deriving DecidableEq, Repr

def Width.bytes : Width → Nat
  | .u32 => 4
  | .u64 => 8

def Width.text : Width → String
  | .u32 => "u32"
  | .u64 => "u64"

/-- A line of the body of a generated `deserialize`, after the check of the constructor id. -/
inductive ReadStmt where
  /-- `if offset + n > __buf.len() { return Err(..) }` -/
  | checkLen (n : Nat) (name : String)
  /-- `let name = u32::from_le_bytes(__buf[offset..offset+4].try_into().unwrap());` -/
  | letLe (name : String) (width : Width)
  /-- `offset += n;` -/
  | advance (n : Nat)
  /-- `let (name, new_offset) = decode_bytes(__buf, offset)?;` -/
  | letDecodeBytes (name : String)
  /-- `let (name, new_offset) = decode_string(__buf, offset)?;` -/
  | letDecodeString (name : String)
  /-- `offset = new_offset;` -/
  | setOffset
  deriving DecidableEq, Repr

def ReadStmt.text : ReadStmt → String
  | .checkLen n name =>
    "        if offset + " ++ toString n ++ " > __buf.len() \x7b return " ++
      "Err(cypher_common::Error::Protocol(\"truncated " ++ name ++ "\".into())); \x7d\n"
  | .letLe name w =>
    "        let " ++ name ++ " = " ++ w.text ++ "::from_le_bytes(__buf[offset..offset+" ++
      toString w.bytes ++ "].try_into().unwrap());\n"
  | .advance n => "        offset += " ++ toString n ++ ";\n"
  | .letDecodeBytes name => "        let (" ++ name ++ ", new_offset) = decode_bytes(__buf, offset)?;\n"
  | .letDecodeString name =>
    "        let (" ++ name ++ ", new_offset) = decode_string(__buf, offset)?;\n"
  | .setOffset => "        offset = new_offset;\n"

def generateDeserializeField (field : Field) : List ReadStmt :=
  match field.ty with
  | .int => [.checkLen 4 field.name, .letLe field.name .u32, .advance 4]
  | .long => [.checkLen 8 field.name, .letLe field.name .u64, .advance 8]
  | .bytes => [.letDecodeBytes field.name, .setOffset]
  | .string => [.letDecodeString field.name, .setOffset]

/-- The struct of a constructor with its constant and its two functions. -/
structure Item where
  structName : String
  /-- Printed in the struct's fields, its constant and its documentation. -/
  ctor : Constructor
  serializeBody : List WriteStmt
  deserializeBody : List ReadStmt

/-- The generated file: the items, then `Message`, `dispatch` and `Message::serialize`, which name
the structs in the same order. -/
structure Program where
  items : List Item
  variants : List String

def generateItem (U : CharTables) (c : Constructor) : Item where
  structName := toStructName U c.methodName
  ctor := c
  serializeBody := c.fields.map generateSerializeField
  deserializeBody := c.fields.flatMap generateDeserializeField

def generateProgram (U : CharTables) (constructors : List Constructor) : Program where
  items := constructors.map (generateItem U)
  variants := constructors.map fun c => toStructName U c.methodName

def Item.text (item : Item) : String :=
  let c := item.ctor
  "/// Constructor `" ++ c.methodName ++ "` (" ++ hexId c.id.toNat ++ ") -> " ++ c.responseType ++
    "\n" ++
  "#[derive(Debug, Clone, PartialEq)]\n" ++
  "pub struct " ++ item.structName ++ " \x7b\n" ++
  String.join (c.fields.map fun f => "    pub " ++ f.name ++ ": " ++ rustType f.ty ++ ",\n") ++
  "\x7d\n\n" ++
  "impl " ++ item.structName ++ " \x7b\n" ++
  "    pub const CONSTRUCTOR_ID: u32 = " ++ hexId c.id.toNat ++ ";\n" ++
  "\x7d\n\n" ++
  "impl Serializable for " ++ item.structName ++ " \x7b\n" ++
  "    fn serialize(&self) -> Vec<u8> \x7b\n" ++
  "        let mut buf = Vec::new();\n" ++
  "        buf.extend_from_slice(&Self::CONSTRUCTOR_ID.to_le_bytes());\n" ++
  String.join (item.serializeBody.map WriteStmt.text) ++
  "        buf\n" ++
  "    \x7d\n\n" ++
  "    #[allow(unused_assignments)]\n" ++
  "    fn deserialize(__buf: &[u8]) -> cypher_common::Result<Self> \x7b\n" ++
  "        if __buf.len() < 4 \x7b\n" ++
  "            return Err(cypher_common::Error::Protocol(\"data too short\".into()));\n" ++
  "        \x7d\n" ++
  "        let cid = u32::from_le_bytes(__buf[0..4].try_into().unwrap());\n" ++
  "        if cid != Self::CONSTRUCTOR_ID \x7b\n" ++
  "            return Err(cypher_common::Error::Protocol(format!(\"wrong constructor id: " ++
    "expected 0x\x7b:08X\x7d, got 0x\x7b:08X\x7d\", Self::CONSTRUCTOR_ID, cid)));\n" ++
  "        \x7d\n" ++
  (if c.fields.isEmpty then "        let _offset = 4usize;\n"
    else "        let mut offset = 4usize;\n") ++
  String.join (item.deserializeBody.map ReadStmt.text) ++
  "        Ok(" ++ item.structName ++ " \x7b\n" ++
  String.join (c.fields.map fun f => "            " ++ f.name ++ ",\n") ++
  "        \x7d)\n" ++
  "    \x7d\n" ++
  "\x7d\n\n"

def Program.text (program : Program) : String :=
  String.join (program.items.map Item.text) ++
  "#[derive(Debug, Clone, PartialEq)]\n" ++
  "pub enum Message \x7b\n" ++
  String.join (program.variants.map fun s => "    " ++ s ++ "(" ++ s ++ "),\n") ++
  "\x7d\n\n" ++
  "/// Dispatch raw bytes to the correct Message variant by reading the constructor ID.\n" ++
  "pub fn dispatch(data: &[u8]) -> cypher_common::Result<Message> \x7b\n" ++
  "    if data.len() < 4 \x7b\n" ++
  "        return Err(cypher_common::Error::Protocol(\"data too short for dispatch\".into()));\n" ++
  "    \x7d\n" ++
  "    let cid = u32::from_le_bytes(data[0..4].try_into().unwrap());\n" ++
  "    match cid \x7b\n" ++
  String.join (program.variants.map fun s =>
    "        " ++ s ++ "::CONSTRUCTOR_ID => Ok(Message::" ++ s ++ "(" ++ s ++
      "::deserialize(data)?)),\n") ++
  "        _ => Err(cypher_common::Error::Protocol(format!(\"unknown constructor id: " ++
    "0x\x7b:08X\x7d\", cid))),\n" ++
  "    \x7d\n" ++
  "\x7d\n\n" ++
  "impl Message \x7b\n" ++
  "    pub fn serialize(&self) -> Vec<u8> \x7b\n" ++
  "        match self \x7b\n" ++
  String.join (program.variants.map fun s =>
    "            Message::" ++ s ++ "(inner) => inner.serialize(),\n") ++
  "        \x7d\n" ++
  "    \x7d\n" ++
  "\x7d\n"

def generateCode (U : CharTables) (constructors : List Constructor) : String :=
  (generateProgram U constructors).text

/-! ## What the generated code does -/

/-- The keywords of the 2021 edition, the reserved ones included. -/
def rustKeywords : List String :=
  ["as", "async", "await", "break", "const", "continue", "crate", "dyn", "else", "enum", "extern",
    "false", "fn", "for", "if", "impl", "in", "let", "loop", "match", "mod", "move", "mut", "pub",
    "ref", "return", "self", "Self", "static", "struct", "super", "trait", "true", "type", "unsafe",
    "use", "where", "while", "abstract", "become", "box", "do", "final", "macro", "override", "priv",
    "try", "typeof", "unsized", "virtual", "yield"]

def isIdentifierStart (c : Char) : Bool :=
  c.isAlpha || c == '_'

def isIdentifierContinue (c : Char) : Bool :=
  c.isAlphanum || c == '_'

/-- An identifier of the ASCII range that is no keyword. -/
def isIdentifier (name : String) : Bool :=
  match name.toList with
  | [] => false
  | c :: rest => isIdentifierStart c && rest.all isIdentifierContinue && name != "_" &&
      !rustKeywords.contains name

/-- The variants of the prelude, which a `let` cannot bind. -/
def preludeVariants : List String :=
  ["Some", "None", "Ok", "Err"]

/-- The types, traits and crates that `lib.rs` and the generated file define or use by name. -/
def typesInScope : List String :=
  ["Message", "Serializable", "Sized", "Vec", "String", "u8", "u32", "u64", "usize", "str", "std",
    "cypher_common"]

/-- A text that stays inside a `///` comment. -/
def isOneLine (text : String) : Bool :=
  text.toList.all fun c => c != '\n' && c != '\r'

/-- rustc takes the names of a struct and of its fields, and the struct's documentation. -/
def Item.accepted (item : Item) : Bool :=
  isIdentifier item.structName && !typesInScope.contains item.structName &&
    isOneLine item.ctor.methodName && isOneLine item.ctor.responseType &&
    item.ctor.fields.all fun f => isIdentifier f.name && !preludeVariants.contains f.name

/-- rustc takes the names, and `match self` in `Message::serialize` has an arm: without one it is
refused, since it matches on a reference. -/
def Program.accepted (program : Program) : Bool :=
  !program.variants.isEmpty && program.items.all Item.accepted

/-- How a run of generated code ends early: with the `Err` it returns, with a panic, or not at all
because rustc refuses the code. -/
inductive Stop where
  | err (e : Error)
  | panicked
  | rejected

abbrev Outcome (α : Type) := Except Stop α

/-- The value of a local, with its type. -/
inductive Local where
  | field (ty : FieldType) (v : ty.Value)
  | usize (n : Nat)
  | slice (b : Bytes)

structure Binding where
  name : String
  value : Local
  isMut : Bool

/-- Bindings of the function's scope, the latest first. -/
abbrev Env := List Binding

def Env.get? (env : Env) (name : String) : Option Local :=
  (env.find? (fun b => b.name == name)).map (·.value)

/-- `let name = v;` hides an earlier binding of the name. -/
def Env.bindLet (env : Env) (name : String) (v : Local) : Env :=
  ⟨name, v, false⟩ :: env

/-- `name = v;` on the binding in sight, which must be `mut`. -/
def Env.assign (name : String) (v : Local) : Env → Outcome Env
  | [] => .error .rejected
  | b :: env =>
    if b.name = name then
      if b.isMut then .ok ({ b with value := v } :: env) else .error .rejected
    else do
      let env ← Env.assign name v env
      .ok (b :: env)

def Env.offset (env : Env) : Outcome Nat :=
  match env.get? "offset" with
  | some (.usize n) => .ok n
  | _ => .error .rejected

/-- `__buf` where it is indexed: the parameter, or a `Vec<u8>` that hides it. -/
def Env.buf (env : Env) : Outcome Bytes :=
  match env.get? "__buf" with
  | some (.slice b) => .ok b
  | some (.field .bytes b) => .ok b
  | _ => .error .rejected

def Env.bufArg (env : Env) : Outcome Bytes :=
  match env.get? "__buf" with
  | some (.slice b) => .ok b
  | _ => .error .rejected

/-- A function of `lib.rs` is called, unless a local hides it. -/
def Env.callee (env : Env) (name : String) : Outcome Unit :=
  match env.get? name with
  | none => .ok ()
  | some _ => .error .rejected

/-- `from_le_bytes` of the bytes at the offset. -/
def Width.read (buf : Bytes) (offset : Nat) : Width → Local
  | .u32 => .field .int (UInt32.ofNat (Lib.leNat (slice buf offset (offset + 4))))
  | .u64 => .field .long (UInt64.ofNat (Lib.leNat (slice buf offset (offset + 8))))

/-- `let (name, new_offset) = decoder(__buf, offset)?;`. A pattern may not bind a name twice. -/
def Env.letDecode (env : Env) (name : String) (ty : FieldType) (r : Result (ty.Value × Nat)) :
    Outcome Env :=
  if name = "new_offset" then .error .rejected
  else
    match r with
    | .error e => .error (.err e)
    | .ok (v, newOffset) =>
      .ok ((env.bindLet name (.field ty v)).bindLet "new_offset" (.usize newOffset))

def ReadStmt.exec (env : Env) : ReadStmt → Outcome Env
  | .checkLen n name => do
    let offset ← env.offset
    let buf ← env.buf
    if offset + n > buf.length then .error (.err (.protocol ("truncated " ++ name))) else .ok env
  | .letLe name w => do
    let offset ← env.offset
    let buf ← env.buf
    if offset + w.bytes > buf.length then .error .panicked
    else .ok (env.bindLet name (w.read buf offset))
  | .advance n => do
    let offset ← env.offset
    env.assign "offset" (.usize (offset + n))
  | .letDecodeBytes name => do
    env.callee "decode_bytes"
    let buf ← env.bufArg
    let offset ← env.offset
    env.letDecode name .bytes (decodeBytes buf offset)
  | .letDecodeString name => do
    env.callee "decode_string"
    let buf ← env.bufArg
    let offset ← env.offset
    env.letDecode name .string (decodeString buf offset)
  | .setOffset =>
    match env.get? "new_offset" with
    | some (.usize n) => env.assign "offset" (.usize n)
    | _ => .error .rejected

def execAll (env : Env) : List ReadStmt → Outcome Env
  | [] => .ok env
  | s :: rest => do
    let env ← s.exec env
    execAll env rest

/-- `Struct { a, b, .. }`: each field from the local of its name, which must have its type. -/
def Env.structLiteral (env : Env) : (fields : List Field) → Outcome (Record fields)
  | [] => .ok ()
  | f :: rest => do
    let v : f.ty.Value ←
      match env.get? f.name with
      | some (.field ty v) => if h : ty = f.ty then .ok (h ▸ v) else .error .rejected
      | _ => .error .rejected
    let r ← env.structLiteral rest
    .ok (v, r)

/-- The generated `deserialize`. A struct with two fields of one name is refused. -/
def Item.deserialize (item : Item) (data : Bytes) : Outcome (Record item.ctor.fields) :=
  if ¬ (item.ctor.fields.map (·.name)).Nodup then .error .rejected
  else if data.length < 4 then .error (.err (.protocol "data too short"))
  else
    let cid := Lib.leNat (slice data 0 4)
    if cid ≠ item.ctor.id.toNat then
      .error (.err (.protocol ("wrong constructor id: expected " ++ hexId item.ctor.id.toNat ++
        ", got " ++ hexId cid)))
    else do
      let env ← execAll [⟨"offset", .usize 4, true⟩, ⟨"cid", .field .int (UInt32.ofNat cid), false⟩,
        ⟨"__buf", .slice data, false⟩] item.deserializeBody
      env.structLiteral item.ctor.fields

def selfField : (fields : List Field) → Record fields → String → Option Local
  | [], _, _ => none
  | f :: rest, (v, r), name => if f.name = name then some (.field f.ty v) else selfField rest r name

def WriteStmt.exec (self : String → Option Local) : WriteStmt → Outcome Bytes
  | .extendLe name =>
    match self name with
    | some (.field .int (n : UInt32)) => .ok (Lib.leBytes 4 n.toNat)
    | some (.field .long (n : UInt64)) => .ok (Lib.leBytes 8 n.toNat)
    | _ => .error .rejected
  | .encodeBytes name =>
    match self name with
    | some (.field .bytes (b : Bytes)) => .ok (Proto.encodeBytes b)
    | _ => .error .rejected
  | .encodeString name =>
    match self name with
    | some (.field .string (s : Utf8)) => .ok (Proto.encodeBytes s.val)
    | _ => .error .rejected

def writeAll (self : String → Option Local) (buf : Bytes) : List WriteStmt → Outcome Bytes
  | [] => .ok buf
  | s :: rest => do
    let b ← s.exec self
    writeAll self (buf ++ b) rest

def Item.serialize (item : Item) (self : Record item.ctor.fields) : Outcome Bytes :=
  if ¬ (item.ctor.fields.map (·.name)).Nodup then .error .rejected
  else
    writeAll (selfField item.ctor.fields self) (Lib.leBytes 4 item.ctor.id.toNat)
      item.serializeBody

/-- The struct of a name. Two structs of one name are refused. -/
def Program.item? (program : Program) (structName : String) : Outcome Item :=
  match program.items.filter (fun item => item.structName == structName) with
  | [item] => .ok item
  | _ => .error .rejected

/-- A value of the generated `Message`: the struct of a variant. -/
structure Variant where
  item : Item
  self : Record item.ctor.fields

def Variant.toMessage (m : Variant) : Message :=
  ⟨m.item.ctor.toConstructor, m.self⟩

def Program.arms (program : Program) (data : Bytes) (cid : Nat) : List String → Outcome Variant
  | [] => .error (.err (.protocol ("unknown constructor id: " ++ hexId cid)))
  | structName :: rest => do
    let item ← program.item? structName
    if item.ctor.id.toNat = cid then do
      let self ← item.deserialize data
      .ok ⟨item, self⟩
    else program.arms data cid rest

def Program.dispatch (program : Program) (data : Bytes) : Outcome Variant :=
  if ¬ program.accepted then .error .rejected
  else if data.length < 4 then .error (.err (.protocol "data too short for dispatch"))
  else program.arms data (Lib.leNat (slice data 0 4)) program.variants

/-- The generated `Message::serialize`. A `match` without an arm for a variant is refused. -/
def Program.serialize (program : Program) (m : Variant) : Outcome Bytes :=
  if ¬ program.accepted then .error .rejected
  else if m.item.structName ∈ program.variants then m.item.serialize m.self
  else .error .rejected

/-! ## The schema file -/

/-- The lines of `proto/schema/core.p2p`, each cut at its spaces. -/
def coreP2pLines : List (List String) :=
  [
    ["//", "Session"],
    ["@0xA1000001", "session.init", "client_id:Bytes", "nonce:Bytes", "=", "session.InitReq;"],
    ["@0xA1000002", "session.ack", "server_nonce:Bytes", "timestamp:Long", "=",
      "session.InitAck;"],
    [],
    ["//", "Signaling"],
    ["@0xB1000001", "signal.requestPeer", "link_id:String", "=", "signal.PeerInfo;"],
    ["@0xB1000002", "signal.iceCandidate", "candidate:String", "peer_id:Bytes", "=",
      "signal.Ok;"],
    ["@0xB1000003", "signal.offer", "sdp:Bytes", "peer_id:Bytes", "=", "signal.Ok;"],
    ["@0xB1000004", "signal.answer", "sdp:Bytes", "peer_id:Bytes", "=", "signal.Ok;"],
    [],
    ["//", "Key", "exchange"],
    ["@0xB2000001", "keys.uploadPrekeys", "identity_key:Bytes", "signed_prekey:Bytes",
      "inbox_id:Bytes", "=", "keys.Ok;"],
    ["@0xB2000002", "keys.getPrekeys", "peer_id:Bytes", "=", "keys.PrekeyBundle;"],
    [],
    ["//", "Chat", "(E2EE)"],
    ["@0xC1000001", "chat.send", "peer_id:Bytes", "ciphertext:Bytes", "ratchet_key:Bytes",
      "msg_no:Int", "=", "chat.Sent;"],
    ["@0xC1000002", "chat.receive", "=", "chat.Messages;"],
    [],
    ["//", "File", "transfer", "(routed", "via", "gateway", "relay,", "E2EE", "between",
      "peers)"],
    ["//", "peer_id", "=", "target", "for", "offer/chunk/complete;", "target", "(sender)", "for",
      "accept/chunkAck"],
    ["@0xD1000001", "file.offer", "peer_id:Bytes", "file_id:Bytes", "name:String", "size:Long",
      "chunks:Int", "hash:Bytes", "compressed:Int", "=", "file.OfferAck;"],
    ["@0xD1000002", "file.accept", "peer_id:Bytes", "file_id:Bytes", "=", "file.AcceptAck;"],
    ["@0xD1000003", "file.chunk", "peer_id:Bytes", "file_id:Bytes", "index:Int", "data:Bytes",
      "hash:Bytes", "ratchet_key:Bytes", "msg_no:Int", "=", "file.ChunkAck;"],
    ["@0xD1000004", "file.complete", "peer_id:Bytes", "file_id:Bytes", "=", "file.Ok;"],
    ["@0xD1000005", "file.chunkAck", "peer_id:Bytes", "file_id:Bytes", "index:Int", "=",
      "file.Ok;"],
    ["@0xD1000006", "file.resume", "peer_id:Bytes", "file_id:Bytes", "missing:Bytes", "=",
      "file.ResumeAck;"],
    [],
    ["//", "Blind", "inbox", "(anonymous", "offline", "message", "queue)"],
    ["@0xC2000001", "inbox.store", "inbox_id:Bytes", "ciphertext:Bytes", "=", "inbox.Ok;"],
    ["@0xC2000002", "inbox.fetch", "inbox_id:Bytes", "=", "inbox.Messages;"],
    ["@0xC2000003", "inbox.messages", "messages:Bytes", "count:Int", "=", "inbox.Ok;"],
    ["@0xC2000005", "inbox.ack", "inbox_id:Bytes", "claim_token:Bytes", "=", "inbox.Ok;"],
    [],
    ["//", "Anonymous", "transport", "bootstrap"],
    ["@0xC3000001", "transport.bootstrap", "=", "transport.Info;"],
    ["@0xC3000002", "transport.bootstrapInfo", "relay_addr:String", "relay_public_key:Bytes",
      "inbox_verifying_key:Bytes", "capabilities:Int", "=", "transport.Ok;"] ]

def coreP2pFile : List Char :=
  coreP2pLines.flatMap fun words => [' '].intercalate (words.map String.toList) ++ ['\n']

/-- The types named after `=` in the file, in its order. -/
def coreP2pResponses : List String :=
  ["session.InitReq", "session.InitAck", "signal.PeerInfo", "signal.Ok", "signal.Ok", "signal.Ok",
    "keys.Ok", "keys.PrekeyBundle", "chat.Sent", "chat.Messages", "file.OfferAck",
    "file.AcceptAck", "file.ChunkAck", "file.Ok", "file.Ok", "file.ResumeAck", "inbox.Ok",
    "inbox.Messages", "inbox.Ok", "inbox.Ok", "transport.Info", "transport.Ok"]

/-- The codec's schema with these types. -/
def coreP2pSchema : List Constructor :=
  List.zipWith (fun c response => ⟨c, response⟩) coreP2p coreP2pResponses

end Cypher.Proto.Build

import PluginSurface.Wasm.Leb128

/-!
Modules as sequences of sections. Splitting a module into sections checks how its
parts are framed, and nothing that depends on what they mean.
-/

namespace PluginSurface.Wasm

open Leb128 (Bytes)

/-- A section of a module: what it is and its content. -/
structure Section where
  id : UInt8
  body : Bytes
deriving DecidableEq, Inhabited

/-! ## Kinds of sections -/

namespace Section

def customId : UInt8 := 0
def startId : UInt8 := 8
def codeId : UInt8 := 10
def dataCountId : UInt8 := 12

/-- Sections that begin with the number of their items. -/
def countedIds : List UInt8 :=
  [1, 2, 3, 4, 5, 6, 7, 9, 11, 13]

end Section

/-! ## Custom sections -/

/-- A custom section: its name and what it holds. -/
structure Custom where
  name : String
  data : Bytes
deriving DecidableEq, Inhabited

/-- The greatest number of bytes in a name. -/
def nameLimit : Nat := 100000

def take? (count : Nat) (input : Bytes) : Option (Bytes × Bytes) :=
  if count ≤ input.length then some (input.take count, input.drop count)
  else none

/-- Reads a name: the number of its bytes and then its UTF-8 bytes. -/
def name? (input : Bytes) : Option (String × Bytes) := do
  let (length, rest) ← Leb128.word? input
  guard (length ≤ nameLimit)
  let (bytes, rest) ← take? length rest
  some (← String.fromUTF8? ⟨bytes.toArray⟩, rest)

namespace Custom

def ofBody? (body : Bytes) : Option Custom := do
  let (name, data) ← name? body
  some ⟨name, data⟩

def toSection (custom : Custom) : Section :=
  let name := custom.name.toUTF8.toList
  ⟨Section.customId, Leb128.encode name.length ++ name ++ custom.data⟩

end Custom

/-- The custom section that a section holds, if it is one. -/
def Section.custom? (sec : Section) : Option Custom :=
  if sec.id = customId then Custom.ofBody? sec.body else none

/-! ## Framing -/

/-- Whether bytes are so many pieces, each behind the number of its bytes. -/
def arePieces : Nat → Bytes → Bool
  | 0, rest => rest.isEmpty
  | count + 1, input =>
      match Leb128.word? input with
      | some (length, rest) =>
          match take? length rest with
          | some (_, rest) => arePieces count rest
          | none => false
      | none => false

/-- Whether the content of a section is framed as its kind demands. What a
section of an unknown kind holds does not matter. -/
def Section.isFramed (sec : Section) : Bool :=
  if sec.id = customId then (Custom.ofBody? sec.body).isSome
  else if countedIds.contains sec.id then (Leb128.word? sec.body).isSome
  else if sec.id = startId ∨ sec.id = dataCountId then
    match Leb128.word? sec.body with
    | some (_, []) => true
    | _ => false
  else if sec.id = codeId then
    match Leb128.word? sec.body with
    | some (count, rest) => arePieces count rest
    | none => false
  else true

def Section.read? (input : Bytes) : Option (Section × Bytes) :=
  match input with
  | [] => none
  | id :: rest => do
      guard (id < 0x80)
      let (length, rest) ← Leb128.word? rest
      let (body, rest) ← take? length rest
      some (⟨id, body⟩, rest)

/-! ## Modules -/

/-- What the bytes of a module begin with: a magic number and a version. -/
inductive Header where
  | module (version : Nat)
  /-- The bytes are those of a component, which is made of modules. -/
  | component (version : Nat)
deriving DecidableEq, Inhabited

def magic : Bytes := [0x00, 0x61, 0x73, 0x6d]

namespace Header

/-- Reads a header. The high half of the version tells modules from
components. -/
def read? : Bytes → Option (Header × Bytes)
  | a :: b :: c :: d :: low :: high :: kind :: zero :: rest =>
      let version := low.toNat + 256 * high.toNat
      if [a, b, c, d] = magic ∧ zero = 0 then
        if kind = 0 then some (module version, rest)
        else if kind = 1 then some (component version, rest)
        else none
      else none
  | _ => none

end Header

/-- The sections at the front of a module, and whether all of its bytes are
sections. -/
structure Sections where
  items : List Section
  isComplete : Bool
deriving DecidableEq, Inhabited

namespace Sections

/-- Splits bytes into sections, up to the first that is not framed as it should
be. In a component only custom sections are looked into. The first argument
bounds the number of sections. -/
def split (inModule : Bool) : Nat → Bytes → Sections
  | _, [] => ⟨[], true⟩
  | 0, _ => ⟨[], false⟩
  | bound + 1, input =>
      match Section.read? input with
      | none => ⟨[], false⟩
      | some (sec, rest) =>
          if sec.isFramed || (!inModule && sec.id ≠ Section.customId) then
            let later := split inModule bound rest
            ⟨sec :: later.items, later.isComplete⟩
          else ⟨[], false⟩

end Sections

def read? (input : Bytes) : Option (Header × Sections) := do
  let (header, rest) ← Header.read? input
  let inModule :=
    match header with
    | .module _ => true
    | .component _ => false
  some (header, Sections.split inModule rest.length rest)

/-! ## Writing -/

/-- A section with its kind and the number of its bytes in front. -/
def Section.encode (sec : Section) : Bytes :=
  sec.id :: Leb128.encode sec.body.length ++ sec.body

/-- The bytes of a module of version one. -/
def encode (sections : List Section) : Bytes :=
  magic ++ [1, 0, 0, 0] ++ sections.flatMap Section.encode

end PluginSurface.Wasm

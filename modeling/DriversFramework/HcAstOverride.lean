import DriversFramework.HcAstOverwrites
import DriversFramework.HcsGetters

namespace DriversFramework.HcAst

open ByteCodec Hcs

def ObjectType.intType : ObjectType → Option HcGen.IntType
 | .uint8 => some .uint8
 | .uint16 => some .uint16
 | .uint32 => some .uint32
 | .uint64 => some .uint64
 | _ => none

def objectCode (align : Bool) (o : AstObject) : List UInt8 :=
 match o.type.intType with
 | some type => (HcGen.Scalar.int type o.integerValue).code align
 | none =>
  if o.type = .string then
   HcGen.opCode align HcGen.hcsStringOp ++ HcGen.chunk align (o.stringValue ++ [0])
  else if o.type = .array then
   HcGen.opCode align HcGen.hcsArrayOp ++ HcGen.chunk align (leBytes 2 o.arraySize.toNat)
  else []

def valueCode (align : Bool) (h : AstHeap) (v : ℕ) : List UInt8 :=
 objectCode align (h.get v) ++ ((h.get v).children.map fun c => objectCode align (h.get c)).flatten

inductive HcsScalar where
 | number (value : UInt64)
 | string (str : List UInt8)
 deriving DecidableEq

inductive HcsValue where
 | scalar (value : HcsScalar)
 | array (elements : List HcsScalar)
 deriving DecidableEq

def readScalar (align : Bool) (blob : List UInt8) (pos : ℕ) : HcsRead HcsScalar := do
 let type ← hcsGetPrefix align blob pos
 if type = configString then
  let str ← getString align blob pos
  return .string (cString (blob.drop str))
 else
  let value ← getTyped hcsSwapToUint64 align blob pos
  return .number value

def readElements (align : Bool) (blob : List UInt8) (pos index : ℕ) : ℕ → HcsRead (List HcsScalar)
 | 0 => return []
 | count + 1 => do
  let offset ← hcsSkipElements align blob pos index (hcsWordLength align + hcsPrefixLength align)
  let element ← readScalar align blob (pos + offset)
  let elements ← readElements align blob pos (index + 1) count
  return element :: elements

def readValue (align : Bool) (blob : List UInt8) (pos : ℕ) : HcsRead HcsValue := do
 let type ← hcsGetPrefix align blob pos
 if type = configArray then
  let count ← hcsArrayCount align blob pos
  let elements ← readElements align blob pos 0 count
  return .array elements
 else
  let value ← readScalar align blob pos
  return .scalar value

/-- Wherever the code of the value stands in a file, the value is read. -/
def DecodesTo (h : AstHeap) (v : ℕ) (value : HcsValue) : Prop :=
 ∀ (align : Bool) (front rest : List UInt8),
  readValue align (front ++ (valueCode align h v ++ rest)) front.length = .ok value

def scalarOf (o : AstObject) : HcsScalar :=
 if o.isNumber then .number o.integerValue else .string o.stringValue

def valueOf (h : AstHeap) (v : ℕ) : HcsValue :=
 if (h.get v).type = .array then .array ((h.get v).children.map fun c => scalarOf (h.get c))
 else .scalar (scalarOf (h.get v))

namespace Overwrite

/-- Both are objects of the tree, and numbers, strings or arrays. -/
def SameKind (e : Overwrite) : Prop :=
 e.value < e.before.size ∧
  ((e.before.get e.value).isNumber = true ∧ (e.before.get e.source).isNumber = true ∨
   (e.before.get e.value).type = .string ∧ (e.before.get e.source).type = .string ∨
   (e.before.get e.value).type = .array ∧ (e.before.get e.source).type = .array)

/-- After the call the value object says what its source says. -/
def KeptAtOnce (e : Overwrite) : Prop :=
 ∃ h, overwriteValue e.before e.value e.source = .ok h ∧
  DecodesTo h e.value (valueOf e.before e.source)

/-- The width of the number that is overwritten holds the new one; a string has no NUL; an array
that is overwritten has a size of 0 in 16 bits, and so has the new one. -/
def Fits (e : Overwrite) : Prop :=
 match (e.before.get e.value).type.intType with
 | some type => (e.before.get e.source).integerValue.toNat < 256 ^ type.size
 | none =>
  if (e.before.get e.value).type = .string then 0 ∉ (e.before.get e.source).stringValue
  else (e.before.get e.source).children = [] ∧
   (e.before.get e.value).arraySize.toNat % 2 ^ 16 = 0

instance (e : Overwrite) : Decidable e.SameKind := inferInstanceAs (Decidable (_ ∧ _))

end Overwrite

section Decode

variable {align : Bool} {blob : List UInt8} {pos : ℕ} {h : AstHeap} {v : ℕ}

theorem cString_nul (s rest : List UInt8) : cString (s ++ 0 :: rest) = cString (s ++ [0]) := by
 induction s with
 | nil => rfl
 | cons b s ih =>
  unfold cString at ih ⊢
  rw [List.cons_append, List.cons_append, List.takeWhile_cons, List.takeWhile_cons, ih]

theorem nul_not_mem_cString (mem : List UInt8) : 0 ∉ cString mem := by
 intro zero
 have seen := List.mem_takeWhile_imp zero
 simp at seen

theorem readValue_scalar {op : UInt8} (head : Holds blob pos (HcGen.opCode align op))
  (scalar : op.toNat ≠ configArray) {value : HcsScalar}
  (read : readScalar align blob pos = .ok value) :
  readValue align blob pos = .ok (.scalar value) := by
 rw [readValue, prefix_of_holds head]
 change (if op.toNat = configArray then _ else readScalar align blob pos >>= fun value =>
  (.ok (.scalar value) : HcsRead HcsValue)) = _
 rw [if_neg scalar, read]
 rfl

theorem readValue_number {type : HcGen.IntType} {value : UInt64}
  (code : Holds blob pos ((HcGen.Scalar.int type value).code align)) :
  readValue align blob pos =
   .ok (.scalar (.number (UInt64.ofNat (value.toNat % 256 ^ type.size)))) := by
 have number : type.opCode.toNat ≠ configArray ∧ type.opCode.toNat ≠ configString := by
  cases type <;> decide
 have width : type.size ≤ 8 := by cases type <;> decide
 have read := getTyped_of_holds swapToUint64_swaps code (if_pos width)
 refine readValue_scalar (Holds.left code) number.1 ?_
 rw [readScalar, prefix_of_holds (Holds.left code)]
 change (if type.opCode.toNat = configString then _ else
  getTyped hcsSwapToUint64 align blob pos >>= fun value =>
   (.ok (.number value) : HcsRead HcsScalar)) = _
 rw [if_neg number.2, read]
 rfl

theorem readValue_string {str : List UInt8}
  (code : Holds blob pos (HcGen.opCode align HcGen.hcsStringOp ++
   HcGen.chunk align (str ++ [0]))) :
  readValue align blob pos = .ok (.scalar (.string (cString (str ++ [0])))) := by
 have head := prefix_of_holds (Holds.left code)
 have body := Holds.right code
 rw [HcGen.opCode_length, ← hcsPrefixLength_eq] at body
 have text : cString (blob.drop (pos + hcsPrefixLength align)) = cString (str ++ [0]) := by
  obtain ⟨rest, hrest⟩ := body
  rw [← hrest, HcGen.chunk, List.append_assoc, List.append_assoc]
  exact cString_nul str _
 refine readValue_scalar (Holds.left code) (by decide) ?_
 rw [readScalar, head]
 change (getString align blob pos >>= fun str =>
  (.ok (.string (cString (blob.drop str))) : HcsRead HcsScalar)) = _
 rw [getString, head]
 exact congrArg (fun str => Except.ok (HcsScalar.string str)) text

theorem readElements_length {count : ℕ} : ∀ {index : ℕ} {elements : List HcsScalar},
  readElements align blob pos index count = .ok elements → elements.length = count := by
 induction count with
 | zero =>
  intro index elements run
  cases run
  rfl
 | succ count ih =>
  intro index elements run
  rw [readElements] at run
  cases skip : hcsSkipElements align blob pos index
    (hcsWordLength align + hcsPrefixLength align) with
  | error e => rw [skip] at run; cases run
  | ok offset =>
   rw [skip] at run
   change (readScalar align blob (pos + offset) >>= fun element =>
    readElements align blob pos (index + 1) count >>= fun elements =>
     (.ok (element :: elements) : HcsRead (List HcsScalar))) = _ at run
   cases one : readScalar align blob (pos + offset) with
   | error e => rw [one] at run; cases run
   | ok element =>
    rw [one] at run
    change (readElements align blob pos (index + 1) count >>= fun elements =>
     (.ok (element :: elements) : HcsRead (List HcsScalar))) = _ at run
    cases others : readElements align blob pos (index + 1) count with
    | error e => rw [others] at run; cases run
    | ok rest =>
     rw [others] at run
     cases run
     rw [List.length_cons, ih others]

theorem readValue_array {size : ℕ}
  (code : Holds blob pos (HcGen.opCode align HcGen.hcsArrayOp ++
   HcGen.chunk align (leBytes 2 size))) :
  readValue align blob pos = .ok (.array []) ↔ size % 2 ^ 16 = 0 := by
 have head := prefix_of_holds (Holds.left code)
 have word := Holds.right code
 rw [HcGen.opCode_length, ← hcsPrefixLength_eq, ← leBytes_mod] at word
 have count : hcsArrayCount align blob pos = .ok (size % 2 ^ 16) := by
  rw [hcsArrayCount, swapToUint16_word word (Nat.mod_lt _ (by decide))]
  change Except.ok (UInt16.ofNat (size % 256 ^ 2)).toNat = _
  rw [UInt16.toNat_ofNat', show 256 ^ 2 = 2 ^ 16 from rfl, Nat.mod_mod]
 rw [readValue, head]
 change (hcsArrayCount align blob pos >>= fun count => readElements align blob pos 0 count >>=
  fun elements => (.ok (.array elements) : HcsRead HcsValue)) = _ ↔ _
 rw [count]
 change (readElements align blob pos 0 (size % 2 ^ 16) >>=
  fun elements => (.ok (.array elements) : HcsRead HcsValue)) = _ ↔ _
 constructor
 · intro read
   cases all : readElements align blob pos 0 (size % 2 ^ 16) with
   | error e => rw [all] at read; cases read
   | ok elements =>
    rw [all] at read
    cases read
    exact (readElements_length all).symm
 · intro zero
   rw [zero]
   rfl

theorem holds_object (align : Bool) (h : AstHeap) (v : ℕ) (front rest : List UInt8) :
  Holds (front ++ (valueCode align h v ++ rest)) front.length (objectCode align (h.get v)) :=
 Holds.left (holds_of_append front (valueCode align h v) rest)

theorem decodesTo_number {type : HcGen.IntType} (number : (h.get v).type.intType = some type)
  (value : HcsValue) : DecodesTo h v value ↔ value =
   .scalar (.number (UInt64.ofNat ((h.get v).integerValue.toNat % 256 ^ type.size))) := by
 have read : ∀ (align : Bool) (front rest : List UInt8),
   readValue align (front ++ (valueCode align h v ++ rest)) front.length = .ok (.scalar
    (.number (UInt64.ofNat ((h.get v).integerValue.toNat % 256 ^ type.size)))) := by
  intro align front rest
  have code := holds_object align h v front rest
  have object : objectCode align (h.get v) =
    (HcGen.Scalar.int type (h.get v).integerValue).code align := by
   rw [objectCode, number]
  rw [object] at code
  exact readValue_number code
 constructor
 · intro decodes
   exact Except.ok.inj ((decodes false [] []).symm.trans (read false [] []))
 · rintro rfl
   exact read

theorem decodesTo_string (string : (h.get v).type = .string) (value : HcsValue) :
  DecodesTo h v value ↔
   value = .scalar (.string (cString ((h.get v).stringValue ++ [0]))) := by
 have read : ∀ (align : Bool) (front rest : List UInt8),
   readValue align (front ++ (valueCode align h v ++ rest)) front.length =
    .ok (.scalar (.string (cString ((h.get v).stringValue ++ [0])))) := by
  intro align front rest
  have code := holds_object align h v front rest
  have object : objectCode align (h.get v) = HcGen.opCode align HcGen.hcsStringOp ++
    HcGen.chunk align ((h.get v).stringValue ++ [0]) := by
   rw [objectCode, string]
   rfl
  rw [object] at code
  exact readValue_string code
 constructor
 · intro decodes
   exact Except.ok.inj ((decodes false [] []).symm.trans (read false [] []))
 · rintro rfl
   exact read

theorem decodesTo_empty (array : (h.get v).type = .array) :
  DecodesTo h v (.array []) ↔ (h.get v).arraySize.toNat % 2 ^ 16 = 0 := by
 have code : ∀ (align : Bool) (front rest : List UInt8),
   Holds (front ++ (valueCode align h v ++ rest)) front.length
    (HcGen.opCode align HcGen.hcsArrayOp ++
     HcGen.chunk align (leBytes 2 (h.get v).arraySize.toNat)) := by
  intro align front rest
  have code := holds_object align h v front rest
  have object : objectCode align (h.get v) = HcGen.opCode align HcGen.hcsArrayOp ++
    HcGen.chunk align (leBytes 2 (h.get v).arraySize.toNat) := by
   rw [objectCode, array]
   rfl
  rwa [object] at code
 constructor
 · intro decodes
   exact (readValue_array (code false [] [])).mp (decodes false [] [])
 · intro zero align front rest
   exact (readValue_array (code align front rest)).mpr zero

end Decode

theorem isNumber_iff {o : AstObject} : o.isNumber = true ↔ ∃ type, o.type.intType = some type := by
 unfold AstObject.isNumber ObjectType.intType
 cases o.type <;> simp [ObjectType.code]

theorem overwriteValue_scalar {h h₁ : AstHeap} {v src : ℕ} (inside : v < h.size)
  (scalar : (h.get v).type ≠ .array) (run : overwriteValue h v src = .ok h₁) :
  (h₁.get v).integerValue = (h.get src).integerValue ∧
   (h₁.get v).stringValue = (h.get src).stringValue := by
 rw [overwriteValue, if_neg scalar] at run
 cases run
 rw [AstHeap.get_modify_self inside]
 exact ⟨rfl, rfl⟩

theorem overwriteValue_array {h h₁ : AstHeap} {v src : ℕ} (inside : v < h.size)
  (array : (h.get v).type = .array) (run : overwriteValue h v src = .ok h₁) :
  (h.get src).children = [] ∧ (h₁.get v).children = [] ∧
   (h₁.get v).arraySize = (h.get v).arraySize := by
 rw [overwriteValue, if_pos array] at run
 split_ifs at run with empty
 cases run
 rw [AstHeap.get_modify_self inside]
 exact ⟨empty, rfl, rfl⟩

namespace Overwrite

variable {e : Overwrite} {h₁ h' : AstHeap}

theorem decodes_number {type : HcGen.IntType}
  (width : (e.before.get e.value).type.intType = some type) (inside : e.value < e.before.size)
  (source : (e.before.get e.source).isNumber = true)
  (run : overwriteValue e.before e.value e.source = .ok h₁) (same : SameValue h₁ h' e.value) :
  DecodesTo h' e.value (valueOf e.before e.source) ↔ e.Fits := by
 have scalar : (e.before.get e.value).type ≠ .array := by
  intro array
  rw [array] at width
  cases width
 obtain ⟨sourceType, sourceWidth⟩ := isNumber_iff.mp source
 have sourceScalar : (e.before.get e.source).type ≠ .array := by
  intro array
  rw [array] at sourceWidth
  cases sourceWidth
 have value : valueOf e.before e.source =
   .scalar (.number (e.before.get e.source).integerValue) := by
  rw [valueOf, if_neg sourceScalar, scalarOf, if_pos source]
 have now : (h'.get e.value).type.intType = some type := by
  rw [same.type, overwriteValue_type run]
  exact width
 have fits : e.Fits ↔ (e.before.get e.source).integerValue.toNat < 256 ^ type.size := by
  rw [Fits, width]
 rw [decodesTo_number now, value, same.integerValue, (overwriteValue_scalar inside scalar run).1,
  fits]
 constructor
 · intro equal
   have number := HcsScalar.number.inj (HcsValue.scalar.inj equal)
   have small : (e.before.get e.source).integerValue.toNat % 256 ^ type.size < 2 ^ 64 :=
    (Nat.mod_le _ _).trans_lt (UInt64.toNat_lt _)
   have toNat := congrArg UInt64.toNat number
   rw [UInt64.toNat_ofNat', Nat.mod_eq_of_lt small] at toNat
   rw [toNat]
   exact Nat.mod_lt _ (Nat.pow_pos (by decide))
 · intro small
   rw [Nat.mod_eq_of_lt small, UInt64.ofNat_toNat]

theorem decodes_string (string : (e.before.get e.value).type = .string)
  (inside : e.value < e.before.size) (source : (e.before.get e.source).type = .string)
  (run : overwriteValue e.before e.value e.source = .ok h₁) (same : SameValue h₁ h' e.value) :
  DecodesTo h' e.value (valueOf e.before e.source) ↔ e.Fits := by
 have scalar : (e.before.get e.value).type ≠ .array := by
  intro array
  rw [array] at string
  cases string
 have value : valueOf e.before e.source =
   .scalar (.string (e.before.get e.source).stringValue) := by
  rw [valueOf, scalarOf, AstObject.isNumber, source]
  rfl
 have now : (h'.get e.value).type = .string := by
  rw [same.type, overwriteValue_type run]
  exact string
 have fits : e.Fits ↔ 0 ∉ (e.before.get e.source).stringValue := by
  rw [Fits, string]
  rfl
 rw [decodesTo_string now, value, same.stringValue, (overwriteValue_scalar inside scalar run).2,
  fits]
 constructor
 · intro equal zero
   rw [HcsScalar.string.inj (HcsValue.scalar.inj equal)] at zero
   exact nul_not_mem_cString _ zero
 · intro clean
   rw [cString_append clean]

theorem decodes_array (array : (e.before.get e.value).type = .array)
  (inside : e.value < e.before.size) (source : (e.before.get e.source).type = .array)
  (run : overwriteValue e.before e.value e.source = .ok h₁) (same : SameValue h₁ h' e.value) :
  DecodesTo h' e.value (valueOf e.before e.source) ↔ e.Fits := by
 obtain ⟨empty, -, size⟩ := overwriteValue_array inside array run
 have value : valueOf e.before e.source = .array [] := by
  rw [valueOf, if_pos source, empty]
  rfl
 have now : (h'.get e.value).type = .array := by
  rw [same.type, overwriteValue_type run]
  exact array
 have fits : e.Fits ↔ (e.before.get e.source).children = [] ∧
   (e.before.get e.value).arraySize.toNat % 2 ^ 16 = 0 := by
  rw [Fits, array]
  rfl
 rw [value, decodesTo_empty now, same.arraySize, size, fits]
 exact (and_iff_right empty).symm

theorem decodes_iff_fits (kind : e.SameKind)
  (run : overwriteValue e.before e.value e.source = .ok h₁) (same : SameValue h₁ h' e.value) :
  DecodesTo h' e.value (valueOf e.before e.source) ↔ e.Fits := by
 obtain ⟨inside, ⟨number, source⟩ | ⟨string, source⟩ | ⟨array, source⟩⟩ := kind
 · obtain ⟨type, width⟩ := isNumber_iff.mp number
   exact decodes_number width inside source run same
 · exact decodes_string string inside source run same
 · exact decodes_array array inside source run same

theorem runs_of_fits (fits : e.Fits) :
  ∃ h, overwriteValue e.before e.value e.source = .ok h := by
 by_cases array : (e.before.get e.value).type = .array
 · rw [Fits, array] at fits
   rw [overwriteValue, if_pos array, if_pos fits.1]
   exact ⟨_, rfl⟩
 · rw [overwriteValue, if_neg array]
   exact ⟨_, rfl⟩

theorem keptAtOnce_iff (kind : e.SameKind) : e.KeptAtOnce ↔ e.Fits := by
 constructor
 · rintro ⟨h₁, run, decodes⟩
   exact (decodes_iff_fits kind run (SameValue.refl h₁ e.value)).mp decodes
 · intro fits
   obtain ⟨h₁, run⟩ := runs_of_fits fits
   exact ⟨h₁, run, (decodes_iff_fits kind run (SameValue.refl h₁ e.value)).mpr fits⟩

end Overwrite

/-- `root { module = "m"; a { x = 0x10; } r : &a { x = new; } }` -/
def overriddenNumber (new : UInt64) : SourceObjects :=
 .term Ast.moduleName (.string [0x6D]) <|
  .node [0x61] .noRef [] (.term [0x78] (.number 0x10) .nil) <|
   .node [0x72] .ref [0x61] (.term [0x78] (.number new) .nil) .nil

end DriversFramework.HcAst
